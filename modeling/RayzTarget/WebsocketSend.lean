import RayzTarget.WebsocketClient

/-! # Sending a message in frames

`esp_websocket_client_send_with_opcode` cuts the data to its buffer and sends it frame by frame.
The transport may take less of a frame than it was handed; the loop goes on behind what it took. -/
namespace WebsocketSend

open WebsocketClient MessageFrames

/-- `memcpy(dst, src + offset, n)` within both buffers -/
def memcpy (dst src : List Byte) (offset n : ℕ) : List Byte :=
  (src.drop offset).take n ++ dst.drop n

/-- One call of `esp_transport_ws_send_raw`, and where in the data its bytes come from. -/
structure Handed where
  opcode : UInt32
  offset : ℕ
  buffer : List Byte
  needWrite : ℕ
  wlen : ℤ
  deriving DecidableEq

def Handed.payload (h : Handed) : List Byte := h.buffer.take h.needWrite

/-- `wlen < 0 || (wlen == 0 && need_write != 0)` -/
def Handed.refused (h : Handed) : Bool :=
  decide (h.wlen < 0) || decide (h.wlen = 0) && decide (h.needWrite ≠ 0)

structure Loop where
  needWrite : ℕ
  widx : ℕ
  currentOpcode : UInt32
  txBuffer : List Byte
  handed : List Handed
  failure : Option ℤ
  deriving DecidableEq

section

variable (data : List Byte) (bufferSize : ℕ)

def start (opcode : Opcode) (txBuffer : List Byte) : Loop where
  needWrite := data.length
  widx := 0
  currentOpcode := opcode.code
  txBuffer := txBuffer
  handed := []
  failure := none

/-- `widx < len || current_opcode`, unless the loop was left by `goto` -/
def Loop.continues (l : Loop) : Bool :=
  l.failure.isNone && (decide (l.widx < data.length) || l.currentOpcode != 0)

/-- The call of this pass, answered `wlen`: a buffer full of data, or the rest of it as the
final frame. -/
def Loop.handing (l : Loop) (wlen : ℤ) : Handed :=
  if l.needWrite > bufferSize then
    ⟨l.currentOpcode, l.widx, memcpy l.txBuffer data l.widx bufferSize, bufferSize, wlen⟩
  else
    ⟨l.currentOpcode ||| Opcode.fin.code, l.widx, memcpy l.txBuffer data l.widx l.needWrite,
      l.needWrite, wlen⟩

def Loop.next (l : Loop) (wlen : ℤ) : Loop :=
  let h := l.handing data bufferSize wlen
  if h.refused then
    { needWrite := h.needWrite, widx := l.widx, currentOpcode := h.opcode, txBuffer := h.buffer,
      handed := l.handed ++ [h], failure := some h.wlen }
  else
    { needWrite := data.length - (l.widx + h.wlen.toNat), widx := l.widx + h.wlen.toNat,
      currentOpcode := 0, txBuffer := h.buffer, handed := l.handed ++ [h], failure := none }

-- `answers k` is what the transport returns to the `k`-th call
variable (answers : ℕ → ℤ)

/-- The `while` loop. Every pass but the one that sends an empty message moves `widx`. -/
def Loop.run : ℕ → Loop → Loop
  | 0, l => l
  | n + 1, l =>
    if l.continues data then Loop.run n (l.next data bufferSize (answers l.handed.length)) else l

def send (opcode : Opcode) (txBuffer : List Byte) : Loop :=
  Loop.run data bufferSize answers (data.length + 1) (start data opcode txBuffer)

end

theorem memcpy_length {dst src : List Byte} {offset n : ℕ} (hd : n ≤ dst.length)
    (hs : offset + n ≤ src.length) : (memcpy dst src offset n).length = dst.length := by
  simp only [memcpy, List.length_append, List.length_take, List.length_drop]
  omega

theorem memcpy_take {dst src : List Byte} {offset n : ℕ} (hs : offset + n ≤ src.length) :
    (memcpy dst src offset n).take n = (src.drop offset).take n := by
  rw [memcpy, List.take_append_of_le_length, List.take_take, Nat.min_self]
  simp only [List.length_take, List.length_drop]
  omega

variable {data : List Byte} {bufferSize : ℕ} {wlen : ℤ}

structure Handed.Within (data : List Byte) (bufferSize : ℕ) (h : Handed) : Prop where
  fits : h.needWrite ≤ bufferSize
  inside : h.offset + h.needWrite ≤ data.length
  payload : h.payload = (data.drop h.offset).take h.needWrite

theorem Handed.Within.length {h : Handed} (hw : h.Within data bufferSize) :
    h.payload.length = h.needWrite := by
  have := hw.inside
  rw [hw.payload, List.length_take, List.length_drop]
  omega

/-- The loop on its way: what is left to send, and which pass is the first. -/
structure Sending (data : List Byte) (bufferSize : ℕ) (l : Loop) : Prop where
  room : l.txBuffer.length = bufferSize
  need : l.failure = none → l.needWrite = data.length - l.widx
  first : l.failure = none → l.currentOpcode ≠ 0 → l.handed = [] ∧ l.widx = 0
  within : ∀ h ∈ l.handed, h.Within data bufferSize
  refused : ∀ r, l.failure = some r → r ≤ 0
  kept : l.failure = none → ∀ h ∈ l.handed, h.refused = false

theorem sending_start (opcode : Opcode) {txBuffer : List Byte}
    (h : txBuffer.length = bufferSize) : Sending data bufferSize (start data opcode txBuffer) where
  room := h
  need _ := rfl
  first _ _ := ⟨rfl, rfl⟩
  within := by simp [start]
  refused := by simp [start]
  kept := by simp [start]

theorem widx_le {l : Loop} (h : Sending data bufferSize l) (hc : l.continues data = true) :
    l.failure = none ∧ l.widx ≤ data.length := by
  unfold Loop.continues at hc
  rcases hf : l.failure with _ | r
  · rw [hf] at hc
    refine ⟨rfl, ?_⟩
    by_cases hw : l.widx < data.length
    · exact Nat.le_of_lt hw
    · have hop : l.currentOpcode ≠ 0 := by simpa [hw] using hc
      rw [(h.first hf hop).2]
      exact Nat.zero_le _
  · rw [hf] at hc
    cases hc

variable (wlen) in
theorem handing_within {l : Loop} (h : Sending data bufferSize l)
    (hc : l.continues data = true) :
    (l.handing data bufferSize wlen).Within data bufferSize ∧
      (l.handing data bufferSize wlen).offset = l.widx ∧
      (l.handing data bufferSize wlen).needWrite = min bufferSize (data.length - l.widx) ∧
      (l.handing data bufferSize wlen).buffer.length = bufferSize := by
  obtain ⟨hf, hle⟩ := widx_le h hc
  have hneed := h.need hf
  unfold Loop.handing
  by_cases hfull : l.needWrite > bufferSize
  · rw [if_pos hfull]
    have hin : l.widx + bufferSize ≤ data.length := by omega
    refine ⟨⟨Nat.le_refl _, hin, memcpy_take hin⟩, rfl, ?_, ?_⟩
    · simp only
      omega
    · have hroom : bufferSize ≤ l.txBuffer.length := Nat.le_of_eq h.room.symm
      exact (memcpy_length hroom hin).trans h.room
  · rw [if_neg hfull]
    have hin : l.widx + l.needWrite ≤ data.length := by omega
    have hroom : l.needWrite ≤ l.txBuffer.length := by rw [h.room]; omega
    refine ⟨⟨by simp only; omega, hin, memcpy_take hin⟩, rfl, ?_, ?_⟩
    · simp only
      omega
    · exact (memcpy_length hroom hin).trans h.room

theorem next_refused {l : Loop} (hr : (l.handing data bufferSize wlen).refused = true) :
    l.next data bufferSize wlen =
      { needWrite := (l.handing data bufferSize wlen).needWrite, widx := l.widx
        currentOpcode := (l.handing data bufferSize wlen).opcode
        txBuffer := (l.handing data bufferSize wlen).buffer
        handed := l.handed ++ [l.handing data bufferSize wlen]
        failure := some (l.handing data bufferSize wlen).wlen } := if_pos hr

theorem next_taken {l : Loop} (hr : (l.handing data bufferSize wlen).refused = false) :
    l.next data bufferSize wlen =
      { needWrite := data.length - (l.widx + (l.handing data bufferSize wlen).wlen.toNat)
        widx := l.widx + (l.handing data bufferSize wlen).wlen.toNat
        currentOpcode := 0
        txBuffer := (l.handing data bufferSize wlen).buffer
        handed := l.handed ++ [l.handing data bufferSize wlen]
        failure := none } := if_neg (Bool.eq_false_iff.mp hr)

theorem sending_next {l : Loop} (h : Sending data bufferSize l) (hc : l.continues data = true) :
    Sending data bufferSize (l.next data bufferSize wlen) := by
  obtain ⟨hwithin, -, -, hlen⟩ := handing_within wlen h hc
  have hall : ∀ g ∈ l.handed ++ [l.handing data bufferSize wlen], g.Within data bufferSize := by
    intro g hg
    rcases List.mem_append.mp hg with hg | hg
    · exact h.within g hg
    · rw [List.mem_singleton.mp hg]
      exact hwithin
  cases hr : (l.handing data bufferSize wlen).refused with
  | true =>
    rw [next_refused hr]
    refine ⟨hlen, ?_, ?_, hall, ?_, ?_⟩
    · intro hf
      cases hf
    · intro hf
      cases hf
    · intro r hfail
      cases hfail
      simp only [Handed.refused, Bool.or_eq_true, decide_eq_true_eq, Bool.and_eq_true] at hr
      omega
    · intro hf
      cases hf
  | false =>
    rw [next_taken hr]
    refine ⟨hlen, fun _ => rfl, fun _ hop => absurd rfl hop, hall, ?_, ?_⟩
    · intro r hf
      cases hf
    · intro _ g hg
      rcases List.mem_append.mp hg with hg | hg
      · exact h.kept (widx_le h hc).1 g hg
      · rw [List.mem_singleton.mp hg]
        exact hr

variable {answers : ℕ → ℤ}

/-- The rule of the `while` loop. -/
theorem run_rule (P : Loop → Prop)
    (step : ∀ l wlen, P l → l.continues data = true → P (l.next data bufferSize wlen)) (n : ℕ)
    {l : Loop} (h : P l) : P (Loop.run data bufferSize answers n l) := by
  induction n generalizing l with
  | zero => exact h
  | succ n ih =>
    rw [Loop.run]
    split
    · exact ih (step l _ h ‹_›)
    · exact h

def passesLeft (data : List Byte) (l : Loop) : ℕ :=
  data.length - l.widx + if l.currentOpcode = 0 then 0 else 1

theorem passesLeft_next (hb : 0 < bufferSize) {l : Loop} (h : Sending data bufferSize l)
    (hc : l.continues data = true) (hn : (l.next data bufferSize wlen).failure = none) :
    passesLeft data (l.next data bufferSize wlen) < passesLeft data l := by
  obtain ⟨hf, hle⟩ := widx_le h hc
  obtain ⟨-, -, hneed, -⟩ := handing_within wlen h hc
  cases hr : (l.handing data bufferSize wlen).refused with
  | true =>
    rw [next_refused hr] at hn
    cases hn
  | false =>
    rw [next_taken hr]
    simp only [passesLeft, if_true]
    by_cases hop : l.currentOpcode = 0
    · have hlt : l.widx < data.length := by simpa [Loop.continues, hf, hop] using hc
      simp only [Handed.refused, Bool.or_eq_false_iff, decide_eq_false_iff_not,
        Bool.and_eq_false_iff] at hr
      rw [if_pos hop]
      omega
    · rw [if_neg hop]
      omega

theorem run_done (hb : 0 < bufferSize) {n : ℕ} {l : Loop} (h : Sending data bufferSize l)
    (hn : passesLeft data l ≤ n) :
    (Loop.run data bufferSize answers n l).continues data = false := by
  induction n generalizing l with
  | zero =>
    by_cases hop : l.currentOpcode = 0
    · rw [passesLeft, if_pos hop] at hn
      have hw : ¬ l.widx < data.length := by omega
      simp [Loop.run, Loop.continues, hop, hw]
    · simp [passesLeft, hop] at hn
  | succ n ih =>
    rw [Loop.run]
    split
    · rename_i hc
      rcases hf : (l.next data bufferSize (answers l.handed.length)).failure with _ | r
      · have := passesLeft_next hb h hc hf
        exact ih (sending_next h hc) (by omega)
      · have stuck : (l.next data bufferSize (answers l.handed.length)).continues data = false := by
          simp [Loop.continues, hf]
        cases n with
        | zero => exact stuck
        | succ n => rw [Loop.run, stuck]; exact stuck
    · rename_i hc
      exact Bool.eq_false_iff.mpr hc

theorem sending_send (opcode : Opcode) {txBuffer : List Byte} (h : txBuffer.length = bufferSize) :
    Sending data bufferSize (send data bufferSize answers opcode txBuffer) := by
  apply run_rule
  · intro l wlen hl hc
    exact sending_next hl hc
  · exact sending_start opcode h

theorem send_done (hb : 0 < bufferSize) (opcode : Opcode) {txBuffer : List Byte}
    (h : txBuffer.length = bufferSize) :
    (send data bufferSize answers opcode txBuffer).continues data = false := by
  apply run_done hb (sending_start opcode h)
  unfold passesLeft start
  split <;> simp

/-! ## The bytes the transport took -/

def Handed.taken (h : Handed) : List Byte := h.payload.take h.wlen.toNat

/-- The transport takes at most what it is handed. -/
def Honest (l : Loop) : Prop := ∀ h ∈ l.handed, h.wlen ≤ h.needWrite

instance (l : Loop) : Decidable (Honest l) :=
  inferInstanceAs (Decidable (∀ h ∈ l.handed, h.wlen ≤ h.needWrite))

theorem honest_snoc {l : Loop} {h : Handed} {hs : List Handed} (hl : l.handed = hs ++ [h])
    (hh : Honest l) : (∀ g ∈ hs, g.wlen ≤ g.needWrite) ∧ h.wlen ≤ h.needWrite := by
  constructor
  · intro g hg
    exact hh g (hl ▸ List.mem_append_left _ hg)
  · exact hh h (hl ▸ List.mem_append_right _ List.mem_cons_self)

theorem next_handed (l : Loop) : (l.next data bufferSize wlen).handed =
    l.handed ++ [l.handing data bufferSize wlen] := by
  cases hr : (l.handing data bufferSize wlen).refused with
  | true => rw [next_refused hr]
  | false => rw [next_taken hr]

def Accounted (data : List Byte) (l : Loop) : Prop :=
  l.widx ≤ data.length ∧ (l.handed.map Handed.taken).flatten = data.take l.widx

theorem accounted_next {l : Loop} (h : Sending data bufferSize l) (hc : l.continues data = true)
    (ha : Honest l → Accounted data l) :
    Honest (l.next data bufferSize wlen) → Accounted data (l.next data bufferSize wlen) := by
  intro hh
  obtain ⟨hprev, hthis⟩ := honest_snoc (next_handed l) hh
  obtain ⟨hle, hbytes⟩ := ha hprev
  obtain ⟨hwithin, hoff, -, -⟩ := handing_within wlen h hc
  have hinside := hwithin.inside
  cases hr : (l.handing data bufferSize wlen).refused with
  | true =>
    rw [next_refused hr]
    have hnone : (l.handing data bufferSize wlen).wlen.toNat = 0 := by
      simp only [Handed.refused, Bool.or_eq_true, decide_eq_true_eq, Bool.and_eq_true] at hr
      omega
    exact ⟨hle, by simp [hbytes, Handed.taken, hnone]⟩
  | false =>
    rw [next_taken hr]
    have hfit : (l.handing data bufferSize wlen).wlen.toNat ≤
        (l.handing data bufferSize wlen).needWrite := by omega
    refine ⟨by simp only; omega, ?_⟩
    simp only [List.map_append, List.flatten_append, hbytes, List.map_cons, List.map_nil,
      List.flatten_cons, List.flatten_nil, List.append_nil, Handed.taken, hwithin.payload, hoff]
    rw [List.take_take, Nat.min_eq_left hfit, ← List.take_add]

/-- Whatever the transport takes of each frame, it ends up with a prefix of the data, all of it
if no call is refused. -/
theorem taken_prefix (hb : 0 < bufferSize) (opcode : Opcode) {txBuffer : List Byte}
    (h : txBuffer.length = bufferSize) :
    let l := send data bufferSize answers opcode txBuffer
    Honest l → (l.handed.map Handed.taken).flatten = data.take l.widx ∧
      (l.failure = none → l.widx = data.length) := by
  intro l hh
  have both : Sending data bufferSize l ∧ (Honest l → Accounted data l) := by
    apply run_rule (fun l => Sending data bufferSize l ∧ (Honest l → Accounted data l))
    · rintro l wlen ⟨hs, ha⟩ hc
      exact ⟨sending_next hs hc, accounted_next hs hc ha⟩
    · exact ⟨sending_start opcode h, fun _ => ⟨Nat.zero_le _, rfl⟩⟩
  obtain ⟨hle, hbytes⟩ := both.2 hh
  refine ⟨hbytes, ?_⟩
  intro hf
  have hdone : l.continues data = false := send_done hb opcode h
  have : ¬ l.widx < data.length := by
    intro hlt
    simp [Loop.continues, hf, hlt] at hdone
  omega

/-! ## The frames on the wire -/

/-- The first byte of a frame holds the final flag and the kind, zero for a continuation. -/
def wireFrame (word : UInt32) (payload : List Byte) : Frame UInt32 Byte where
  kind := if word &&& 0x0f = 0 then none else some (word &&& 0x0f)
  final := word &&& Opcode.fin.code != 0
  payload := payload

def Handed.frame (h : Handed) : Frame UInt32 Byte := wireFrame h.opcode h.payload

theorem wireFrame_first {opcode : Opcode} (ho : opcode.Begins) (payload : List Byte) :
    wireFrame opcode.code payload = ⟨some opcode.code, false, payload⟩ ∧
      wireFrame (opcode.code ||| Opcode.fin.code) payload = ⟨some opcode.code, true, payload⟩ := by
  cases opcode <;> first | exact ⟨rfl, rfl⟩ | cases ho

theorem wireFrame_continued (payload : List Byte) :
    wireFrame 0 payload = ⟨none, false, payload⟩ ∧
      wireFrame (0 ||| Opcode.fin.code) payload = ⟨none, true, payload⟩ := ⟨rfl, rfl⟩

theorem begins_code {opcode : Opcode} (ho : opcode.Begins) : opcode.code ≠ 0 := by
  cases opcode <;> first | decide | cases ho

def Whole (l : Loop) : Prop := ∀ h ∈ l.handed, h.wlen = h.needWrite

instance (l : Loop) : Decidable (Whole l) :=
  inferInstanceAs (Decidable (∀ h ∈ l.handed, h.wlen = h.needWrite))

section

variable (data : List Byte) (opcode : Opcode) (l : Loop)

def Loop.delivered : List (UInt32 × List Byte) :=
  if l.currentOpcode = 0 ∧ data.length ≤ l.widx then [(opcode.code, data)] else []

def Loop.begun : Option (UInt32 × List Byte) :=
  if l.currentOpcode = 0 ∧ l.widx < data.length then some (opcode.code, data.take l.widx) else none

def Loop.Kinded : Prop := l.currentOpcode = opcode.code ∨ l.currentOpcode = 0

end

variable (wlen) in
/-- The final flag is on the frame that ends the data, and on no other. -/
theorem handing_opcode {l : Loop} (h : Sending data bufferSize l)
    (hc : l.continues data = true) :
    ((l.handing data bufferSize wlen).opcode = l.currentOpcode ∧
      l.widx + (l.handing data bufferSize wlen).needWrite < data.length) ∨
    ((l.handing data bufferSize wlen).opcode = l.currentOpcode ||| Opcode.fin.code ∧
      l.widx + (l.handing data bufferSize wlen).needWrite = data.length) := by
  obtain ⟨hf, hle⟩ := widx_le h hc
  have hneed := h.need hf
  unfold Loop.handing
  by_cases hfull : l.needWrite > bufferSize
  · left
    rw [if_pos hfull]
    refine ⟨rfl, ?_⟩
    simp only
    omega
  · right
    rw [if_neg hfull]
    refine ⟨rfl, ?_⟩
    simp only
    omega

theorem assemble_snoc {ms : List (UInt32 × List Byte)} {hs : List Handed} {h : Handed}
    {a : Assembly UInt32 Byte} (hprev : assemble ⟨ms, none⟩ (hs.map Handed.frame) = some a) :
    assemble ⟨ms, none⟩ ((hs ++ [h]).map Handed.frame) = a.accept h.frame := by
  rw [List.map_append]
  exact TraceMonitor.reads_snoc hprev h.frame

theorem next_whole {l : Loop} (hwhole : (l.handing data bufferSize wlen).wlen =
    (l.handing data bufferSize wlen).needWrite) :
    (l.next data bufferSize wlen).failure = none ∧
      (l.next data bufferSize wlen).currentOpcode = 0 ∧
      (l.next data bufferSize wlen).widx =
        l.widx + (l.handing data bufferSize wlen).needWrite := by
  have taken : (l.handing data bufferSize wlen).refused = false := by
    simp [Handed.refused, hwhole]
  rw [next_taken taken]
  refine ⟨rfl, rfl, ?_⟩
  rw [hwhole]
  rfl

theorem not_delivered {opcode : Opcode} {l : Loop} (hc : l.continues data = true) :
    l.delivered data opcode = [] := by
  apply if_neg
  rintro ⟨hcode, hend⟩
  simp [Loop.continues, hcode, Nat.not_lt.mpr hend] at hc

/-- A frame taken whole carries the message on, or ends it, where the frames before left it. -/
theorem accept_handing {opcode : Opcode} (ho : opcode.Begins) {l : Loop}
    (h : Sending data bufferSize l) (hc : l.continues data = true) (hkind : l.Kinded opcode)
    (hwhole : (l.handing data bufferSize wlen).wlen = (l.handing data bufferSize wlen).needWrite)
    {b : Assembly UInt32 Byte} (hb : b.begun = l.begun data opcode) :
    ∃ b', b.accept (l.handing data bufferSize wlen).frame = some b' ∧
      b'.messages = b.messages ++ (l.next data bufferSize wlen).delivered data opcode ∧
      b'.begun = (l.next data bufferSize wlen).begun data opcode := by
  obtain ⟨hwithin, hoff, -, -⟩ := handing_within wlen h hc
  obtain ⟨-, hcode, hwidx⟩ := next_whole hwhole
  have hop := handing_opcode wlen h hc
  have hpay : (l.handing data bufferSize wlen).payload =
      (data.drop l.widx).take (l.handing data bufferSize wlen).needWrite :=
    hoff ▸ hwithin.payload
  obtain ⟨body, final, haccept, hbody, hfinal⟩ : ∃ body final,
      b.accept (l.handing data bufferSize wlen).frame =
        some (b.extend opcode.code body final) ∧
      body = data.take (l.widx + (l.handing data bufferSize wlen).needWrite) ∧
      (final = true ↔ l.widx + (l.handing data bufferSize wlen).needWrite = data.length) := by
    by_cases hstart : l.currentOpcode = 0
    · -- a continuation of what is out
      have hlt : l.widx < data.length := by
        simpa [Loop.continues, (widx_le h hc).1, hstart] using hc
      have hbegun : b.begun = some (opcode.code, data.take l.widx) := by
        rw [hb, Loop.begun, if_pos ⟨hstart, hlt⟩]
      rw [hstart] at hop
      rcases hop with ⟨hword, hend⟩ | ⟨hword, hend⟩
      · refine ⟨_, false, ?_, rfl, by simp; omega⟩
        rw [Handed.frame, hword, (wireFrame_continued _).1, accept_continued hbegun, hpay,
          ← List.take_add]
      · refine ⟨_, true, ?_, rfl, by simp [hend]⟩
        rw [Handed.frame, hword, (wireFrame_continued _).2, accept_continued hbegun, hpay,
          ← List.take_add]
    · -- the first frame
      have hfirst := (h.first (widx_le h hc).1 hstart).2
      have hbegun : b.begun = none := by
        rw [hb, Loop.begun, if_neg fun hn => hstart hn.1]
      rw [hkind.resolve_right hstart] at hop
      rw [hfirst, List.drop_zero] at hpay
      rcases hop with ⟨hword, hend⟩ | ⟨hword, hend⟩
      · refine ⟨_, false, ?_, rfl, by simp; omega⟩
        rw [Handed.frame, hword, (wireFrame_first ho _).1, accept_first hbegun, hpay, hfirst,
          Nat.zero_add]
      · refine ⟨_, true, ?_, rfl, by simp [hend]⟩
        rw [Handed.frame, hword, (wireFrame_first ho _).2, accept_first hbegun, hpay, hfirst,
          Nat.zero_add]
  have hinside := hwithin.inside
  rw [hoff] at hinside
  refine ⟨_, haccept, ?_⟩
  cases hend : final with
  | true =>
    have hlast := hfinal.mp hend
    rw [Loop.delivered, Loop.begun, hwidx, hlast, if_pos ⟨hcode, Nat.le_refl _⟩,
      if_neg fun hn => Nat.lt_irrefl _ hn.2, hbody, hlast, List.take_length]
    exact ⟨rfl, rfl⟩
  | false =>
    have hmore : ¬ l.widx + (l.handing data bufferSize wlen).needWrite = data.length := fun hn => by
      rw [hfinal.mpr hn] at hend
      cases hend
    rw [Loop.delivered, Loop.begun, hwidx, if_neg fun hn => hmore (by omega),
      if_pos ⟨hcode, by omega⟩, hbody, List.append_nil]
    exact ⟨rfl, rfl⟩

theorem whole_snoc {l : Loop} {h : Handed} {hs : List Handed} (hl : l.handed = hs ++ [h])
    (hw : Whole l) : (∀ g ∈ hs, g.wlen = g.needWrite) ∧ h.wlen = h.needWrite := by
  constructor
  · intro g hg
    exact hw g (hl ▸ List.mem_append_left _ hg)
  · exact hw h (hl ▸ List.mem_append_right _ List.mem_cons_self)

/-- A message whose frames are all taken whole is on the wire as that message. -/
theorem send_whole (hb : 0 < bufferSize) {opcode : Opcode} (ho : opcode.Begins)
    (ms : List (UInt32 × List Byte)) {txBuffer : List Byte} (h : txBuffer.length = bufferSize) :
    let l := send data bufferSize answers opcode txBuffer
    Whole l → l.failure = none ∧ assemble ⟨ms, none⟩ (l.handed.map Handed.frame) =
      some ⟨ms ++ [(opcode.code, data)], none⟩ := by
  intro l hw
  have both : Sending data bufferSize l ∧ (Whole l → l.failure = none ∧ l.Kinded opcode ∧
      ∃ b, assemble ⟨ms, none⟩ (l.handed.map Handed.frame) = some b ∧
        b.messages = ms ++ l.delivered data opcode ∧ b.begun = l.begun data opcode) := by
    apply run_rule (fun l => Sending data bufferSize l ∧ (Whole l → l.failure = none ∧
      l.Kinded opcode ∧ ∃ b, assemble ⟨ms, none⟩ (l.handed.map Handed.frame) = some b ∧
        b.messages = ms ++ l.delivered data opcode ∧ b.begun = l.begun data opcode))
    · rintro l wlen ⟨hs, hframed⟩ hc
      refine ⟨sending_next hs hc, ?_⟩
      intro hw
      obtain ⟨hprev, hthis⟩ := whole_snoc (next_handed l) hw
      obtain ⟨-, hkind, b, hframes, hmessages, hbegun⟩ := hframed hprev
      obtain ⟨b', haccept, hmessages', hbegun'⟩ := accept_handing ho hs hc hkind hthis hbegun
      obtain ⟨hf, hcode, -⟩ := next_whole hthis
      refine ⟨hf, .inr hcode, b', ?_, ?_, hbegun'⟩
      · rw [next_handed, assemble_snoc hframes, haccept]
      · rw [hmessages', hmessages, not_delivered hc, List.append_nil]
    · refine ⟨sending_start opcode h, ?_⟩
      intro _
      refine ⟨rfl, .inl rfl, ⟨ms, none⟩, rfl, ?_, ?_⟩
      · rw [Loop.delivered, if_neg fun hn => begins_code ho hn.1, List.append_nil]
      · rw [Loop.begun, if_neg fun hn => begins_code ho hn.1]
  obtain ⟨hf, -, b, hframes, hmessages, hbegun⟩ := both.2 hw
  have hdone : l.continues data = false := send_done hb opcode h
  have hcode : l.currentOpcode = 0 ∧ ¬ l.widx < data.length := by
    simpa [Loop.continues, hf, and_comm] using hdone
  rw [Loop.delivered, if_pos ⟨hcode.1, Nat.not_lt.mp hcode.2⟩] at hmessages
  rw [Loop.begun, if_neg fun hn => hcode.2 hn.2] at hbegun
  obtain ⟨messages, begun⟩ := b
  cases hmessages
  cases hbegun
  exact ⟨hf, hframes⟩

/-- Lists that are pairwise no longer, and as long when joined, are pairwise as long. -/
theorem length_eq_of_flatten {α : Type*} {f g : α → List Byte} {xs : List α}
    (hle : ∀ x ∈ xs, (f x).length ≤ (g x).length)
    (hlen : (xs.map g).flatten.length ≤ (xs.map f).flatten.length) :
    ∀ x ∈ xs, (f x).length = (g x).length := by
  have shorter : ∀ ys : List α, (∀ y ∈ ys, (f y).length ≤ (g y).length) →
      (ys.map f).flatten.length ≤ (ys.map g).flatten.length := by
    intro ys
    induction ys with
    | nil => exact fun _ => Nat.le_refl _
    | cons y ys ih =>
      intro hys
      have hy := hys y List.mem_cons_self
      have := ih fun x hx => hys x (List.mem_cons_of_mem y hx)
      simp only [List.map_cons, List.flatten_cons, List.length_append]
      omega
  induction xs with
  | nil => intro x hx; cases hx
  | cons y ys ih =>
    have hy := hle y List.mem_cons_self
    have hys : ∀ x ∈ ys, (f x).length ≤ (g x).length := fun x hx =>
      hle x (List.mem_cons_of_mem y hx)
    have hrest := shorter ys hys
    simp only [List.map_cons, List.flatten_cons, List.length_append] at hlen
    intro x hx
    rcases List.mem_cons.mp hx with rfl | hx
    · omega
    · exact ih hys (by omega) x hx

/-- The frames make up the message exactly when the transport took each of them whole: what
follows a short write goes out as a frame of its own. -/
theorem assembled_iff (hb : 0 < bufferSize) {opcode : Opcode} (ho : opcode.Begins)
    {txBuffer : List Byte} (h : txBuffer.length = bufferSize) :
    let l := send data bufferSize answers opcode txBuffer
    Honest l → (l.failure = none ∧ assemble Assembly.empty (l.handed.map Handed.frame) =
      some ⟨[(opcode.code, data)], none⟩ ↔ Whole l) := by
  intro l hh
  have hs : Sending data bufferSize l := sending_send opcode h
  constructor
  · rintro ⟨hf, hframes⟩
    obtain ⟨hbytes, hwidx⟩ := taken_prefix hb opcode h hh
    rw [hwidx hf, List.take_length] at hbytes
    have hpayload := bytes_assemble hframes
    simp only [Assembly.bytes, Assembly.empty, List.map_nil, List.flatten_nil, List.map_cons,
      Option.map_none, Option.getD_none, List.flatten_cons, List.append_nil, List.nil_append,
      List.map_map] at hpayload
    have heq := length_eq_of_flatten (f := Handed.taken) (g := Handed.payload)
      (fun g _ => List.length_take_le' ..)
      (Nat.le_of_eq (congrArg List.length (hpayload.symm.trans hbytes.symm)))
    intro g hg
    have hlen := heq g hg
    have hwithin := (hs.within g hg).length
    have hkept := hs.kept hf g hg
    have hle := hh g hg
    simp only [Handed.taken, List.length_take] at hlen
    simp only [Handed.refused, Bool.or_eq_false_iff, decide_eq_false_iff_not] at hkept
    omega
  · intro hw
    obtain ⟨hf, hframes⟩ := send_whole hb ho [] h hw
    exact ⟨hf, hframes⟩

/-- Three bytes through a buffer of two. -/
theorem assembled_iff_two_frames :
    let l := send [104, 105, 33] 2 (fun k => if k = 0 then 2 else 1) .text [0, 0]
    l.failure = none ∧ assemble Assembly.empty (l.handed.map Handed.frame) =
      some ⟨[(Opcode.text.code, [104, 105, 33])], none⟩ :=
  (assembled_iff (by decide) (show Opcode.text.Begins from trivial) rfl (by decide)).mpr (by decide)

end WebsocketSend
