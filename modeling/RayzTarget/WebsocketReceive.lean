import RayzTarget.WebsocketMoves
import Mathlib.Data.List.Basic

/-! # Receiving a frame in pieces

The transport hands a frame over in as many reads as it takes, and the client passes each read on
with the offset and the length of the payload. A handler puts the frames together again. -/
namespace WebsocketReceive

open WebsocketClient WebsocketWorld WebsocketSession WebsocketLifecycle WebsocketMoves EventRuns
  TraceMonitor

/-- A frame, with its opcode as handlers receive it. -/
structure Inbound where
  opCode : UInt8
  fin : Bool
  payloadLen : ℤ
  data : List Byte
  deriving DecidableEq

structure Intake where
  frames : List Inbound
  current : Option Inbound
  deriving DecidableEq

namespace Intake

def start : Intake := ⟨[], none⟩

def put (s : Intake) (f : Inbound) : Intake :=
  if (f.data.length : ℤ) < f.payloadLen then ⟨s.frames, some f⟩ else ⟨s.frames ++ [f], none⟩

def resumed (s : Intake) (opCode : UInt8) (fin : Bool) (payloadLen : ℤ) : Option Inbound :=
  match s.current with
  | none => some ⟨opCode, fin, payloadLen, []⟩
  | some f =>
    if f.opCode = opCode ∧ f.fin = fin ∧ f.payloadLen = payloadLen then some f else none

/-- The reads of the transport: it keeps to a frame until the frame is read, and answers without
an opcode only between frames, with nothing; a failed read loses the rest of a frame. -/
def read (s : Intake) : Effect → Option Intake
  | .read rlen bytes payloadLen fin opcode =>
    if rlen < 0 then some { s with current := none }
    else if opcode = .none then if rlen = 0 ∧ s.current = none then some s else none
    else
      (s.resumed opcode.opCode fin payloadLen).bind fun f =>
        if (bytes.length : ℤ) = rlen ∧ (f.data.length : ℤ) + rlen ≤ payloadLen then
          some (s.put { f with data := f.data ++ bytes })
        else none
  | _ => some s

/-- The handler: a data event at offset zero begins a frame, any other goes on behind the bytes it
has. -/
def handle (s : Intake) : Effect → Option Intake
  | .dispatch d =>
    if d.event ≠ .data then some s
    else if d.payloadOffset = 0 then some (s.put ⟨d.opCode, d.fin, d.payloadLen, d.data⟩)
    else
      match s.current with
      | none => none
      | some f =>
        if f = ⟨d.opCode, d.fin, d.payloadLen, f.data⟩ ∧ (f.data.length : ℤ) = d.payloadOffset then
          some (s.put { f with data := f.data ++ d.data })
        else none
  | _ => some s

end Intake

variable {tick : ℕ → ℕ} {a : Answers} {w v : World} {s s' t : Intake}

def skipped : Effect → Bool
  | .read _ _ _ _ _ => false
  | .dispatch d => d.event != .data
  | _ => true

theorem skipped_of_deaf {e : Effect} (h : deaf e = true) : skipped e = true := by
  cases e with
  | dispatch d => exact h
  | read rlen bytes payloadLen fin opcode => cases h
  | _ => rfl

theorem reads_skipped {added : List (ℕ × Effect)} (h : ∀ x ∈ added, skipped x.2 = true) :
    reads Intake.read s (added.map Prod.snd) = some s ∧
      reads Intake.handle s (added.map Prod.snd) = some s := by
  induction added with
  | nil => exact ⟨rfl, rfl⟩
  | cons x added ih =>
    obtain ⟨n, e⟩ := x
    have he := h (n, e) List.mem_cons_self
    have hone : s.read e = some s ∧ s.handle e = some s := by
      cases e with
      | read rlen bytes payloadLen fin opcode => cases he
      | dispatch d => exact ⟨rfl, if_pos (bne_iff_ne.mp he)⟩
      | _ => exact ⟨rfl, rfl⟩
    obtain ⟨hread, hhandle⟩ := ih fun y hy => h y (List.mem_cons_of_mem _ hy)
    exact ⟨(reads_cons hone.1).trans hread, (reads_cons hone.2).trans hhandle⟩

/-! ## Frames read are frames handed on -/

def Intake.offset (s : Intake) : ℕ := (s.current.map fun f => f.data.length).getD 0

def Intake.Has (t s : Intake) : Prop :=
  t.frames = s.frames ∧ ∀ f, s.current = some f → t.current = some f

/-- In the reads of a frame the client counts its bytes; elsewhere no frame is on its way. -/
def Placed (w : World) (s : Intake) : Prop :=
  if w.pc = .receiving then w.client.payloadOffset = s.offset else s.current = none

theorem Intake.Has.put {t s : Intake} (h : t.Has s) (f : Inbound) : (t.put f).Has (s.put f) := by
  unfold Intake.put
  rw [h.1]
  split
  · exact ⟨rfl, fun _ hf => hf⟩
  · exact ⟨rfl, fun _ hf => hf⟩

theorem put_current (s : Intake) (f : Inbound) :
    (s.put f).current = if (f.data.length : ℤ) < f.payloadLen then some f else none := by
  unfold Intake.put
  split <;> rfl

/-- What the transport may read next, and what of the frame there is then. -/
theorem read_frame {t : Intake} (h : s.read (.read a.rlen a.bytes a.payloadLen a.fin a.opcode) =
      some t) (hr : 0 ≤ a.rlen) (hn : ¬(a.rlen = 0 ∧ a.opcode = .none)) :
    ∃ data, t = s.put ⟨a.opcode.opCode, a.fin, a.payloadLen, data ++ a.bytes⟩ ∧
      (a.bytes.length : ℤ) = a.rlen ∧ data.length = s.offset ∧
      (s.offset : ℤ) + a.rlen ≤ a.payloadLen ∧
      ∀ f, s.current = some f → f = ⟨a.opcode.opCode, a.fin, a.payloadLen, data⟩ := by
  have hopcode : a.opcode ≠ .none := by
    intro hnone
    rw [Intake.read, if_neg (Int.not_lt.mpr hr), if_pos hnone] at h
    split at h
    · rename_i hempty
      exact hn ⟨hempty.1, hnone⟩
    · cases h
  simp only [Intake.read, if_neg (Int.not_lt.mpr hr), if_neg hopcode] at h
  obtain ⟨f, hf, h⟩ := Option.bind_eq_some_iff.mp h
  split at h
  · rename_i hfit
    cases h
    cases hc : s.current with
    | none =>
      simp only [Intake.resumed, hc] at hf
      cases hf
      refine ⟨[], rfl, hfit.1, ?_, ?_, ?_⟩
      · simp [Intake.offset, hc]
      · simpa [Intake.offset, hc] using hfit.2
      · intro g hg
        cases hg
    | some g =>
      simp only [Intake.resumed, hc] at hf
      split at hf
      · rename_i hsame
        cases hf
        obtain ⟨opCode, fin, payloadLen, data⟩ := f
        obtain ⟨rfl, rfl, rfl⟩ := hsame
        refine ⟨data, rfl, hfit.1, ?_, ?_, ?_⟩
        · simp [Intake.offset, hc]
        · simpa [Intake.offset, hc] using hfit.2
        · intro g hg
          cases hg
          rfl
      · cases hf
  · cases h

theorem readData_data {c : Client} (hlen : (a.bytes.length : ℤ) = a.rlen) :
    (readData a c).data = a.bytes := by
  have hnat : a.rlen.toNat = a.bytes.length := by omega
  simp [readData, eventData, readInto, WebsocketSend.memcpy, hnat]

/-- The data event of a read takes the handler as far as the read takes the transport. -/
theorem handle_read {t s' : Intake} (h : s'.Has s) {c : Client}
    (hoff : c.payloadOffset = s.offset)
    (ht : s.read (.read a.rlen a.bytes a.payloadLen a.fin a.opcode) = some t) (hr : 0 ≤ a.rlen)
    (hn : ¬(a.rlen = 0 ∧ a.opcode = .none)) :
    ∃ t', s'.handle (.dispatch (readData a c)) = some t' ∧ t'.Has t := by
  obtain ⟨data, rfl, hlen, hdata, -, hcurrent⟩ := read_frame ht hr hn
  have hbytes : (readData a c).data = a.bytes := readData_data hlen
  refine ⟨s'.put ⟨a.opcode.opCode, a.fin, a.payloadLen, data ++ a.bytes⟩, ?_, h.put _⟩
  have hevent : ¬ (readData a c).event ≠ .data := not_not.mpr rfl
  rw [Intake.handle, if_neg hevent]
  by_cases hzero : s.offset = 0
  · have hnone : data = [] := List.eq_nil_of_length_eq_zero (hdata.trans hzero)
    rw [if_pos (by simp [readData, readInto, eventData, hoff, hzero]), hbytes, hnone]
    rfl
  · have hsome : s.current = some ⟨a.opcode.opCode, a.fin, a.payloadLen, data⟩ := by
      cases hc : s.current with
      | none => simp [Intake.offset, hc] at hzero
      | some f => rw [hcurrent f hc]
    rw [if_neg (by simp [readData, readInto, eventData, hoff, hzero]), h.2 _ hsome]
    simp only
    rw [if_pos, hbytes]
    · exact ⟨rfl, by simp [readData, readInto, eventData, hoff, hdata]⟩

/-- Transport and handler up to here: the same frames, and the client in step with the transport. -/
structure InStep (w : World) (s : Intake) : Prop where
  placed : Placed w s
  handled : ∃ t, reads Intake.handle .start (effects w) = some t ∧ t.Has s

theorem inStep_recv (h : InStep w s) (hs : w.client.state = .connected) (hpc : w.pc = .receiving)
    (hread : reads Intake.read .start (effects w) = some s)
    (ht : reads Intake.read .start (effects (recv tick a w)) = some t) :
    InStep (recv tick a w) t := by
  obtain ⟨s', hhandle, hhas⟩ := h.handled
  have hplaced := h.placed
  rw [Placed, if_pos hpc] at hplaced
  have hskip : s'.handle (.read a.rlen a.bytes a.payloadLen a.fin a.opcode) = some s' := rfl
  have after : ∀ {added : List (ℕ × Effect)}, (recv tick a w).trace = w.trace ++
      (w.ticks, .read a.rlen a.bytes a.payloadLen a.fin a.opcode) :: added →
      ∃ r, s.read (.read a.rlen a.bytes a.payloadLen a.fin a.opcode) = some r ∧
        reads Intake.read r (added.map Prod.snd) = some t := by
    intro added htrace
    rw [effects_append htrace, reads_append, hread] at ht
    exact Option.bind_eq_some_iff.mp ht
  rcases @recv_cases w tick a with ⟨hr, heq⟩ | ⟨hr, hnone, heq⟩ | ⟨hr, hn, heq⟩
  · -- the read fails, and the rest of the frame is lost
    obtain ⟨-, -, more, hmore, htrace⟩ := @failed_read tick a w hs
    rw [← heq] at htrace
    obtain ⟨r, hrest, hmoved⟩ := after htrace
    rw [Intake.read, if_pos hr] at hrest
    cases hrest
    have hskipped : ∀ x ∈ more, skipped x.2 = true := fun x hx =>
      skipped_of_deaf (deaf_of_quiet (hmore x hx))
    cases (reads_skipped hskipped).1.symm.trans hmoved
    refine ⟨?_, s', ?_, hhas.1, fun f hf => by cases hf⟩
    · rw [Placed, if_neg (by rw [heq]; simp)]
    · rw [effects_append htrace, reads_append, hhandle]
      exact (reads_cons hskip).trans (reads_skipped hskipped).2
  · -- nothing came
    have htrace : (recv tick a w).trace = w.trace ++
        [(w.ticks, .read a.rlen a.bytes a.payloadLen a.fin a.opcode)] := by
      rw [heq]
      rfl
    obtain ⟨r, hrest, hmoved⟩ := after htrace
    cases hmoved
    rw [Intake.read, if_neg (by omega), if_pos hnone] at hrest
    split at hrest
    · rename_i hbetween
      cases hrest
      refine ⟨?_, s', ?_, hhas⟩
      · rw [Placed, if_neg (by rw [heq]; simp)]
        exact hbetween.2
      · rw [effects_append htrace, reads_append, hhandle]
        rfl
    · cases hrest
  · -- some bytes of a frame, perhaps its last
    obtain ⟨added, htrace, hadded⟩ := recv_added heq
    have hskipped : ∀ x ∈ added, skipped x.2 = true := by
      rcases hadded with rfl | ⟨-, -, rfl⟩
      · simp
      · simp [skipped]
    rw [List.append_assoc] at htrace
    obtain ⟨r, hrest, hmoved⟩ := after htrace
    obtain ⟨t', hhandled, hhas'⟩ := handle_read hhas hplaced hrest hr hn
    have hsame : r = t := by
      have hdata : reads Intake.read r
          (((w.ticks, Effect.dispatch (readData a w.client)) :: added).map Prod.snd) = some r :=
        (reads_cons rfl).trans (reads_skipped hskipped).1
      exact Option.some.inj (hdata.symm.trans hmoved)
    subst hsame
    refine ⟨?_, t', ?_, hhas'⟩
    · obtain ⟨data, rfl, hlen, hdata, hfit, -⟩ := read_frame hrest hr hn
      have hbytes : ((data ++ a.bytes).length : ℤ) = w.client.payloadOffset + a.rlen := by
        rw [List.length_append, hplaced]
        omega
      rw [Placed, Intake.offset, put_current]
      simp only [hbytes]
      rw [heq]
      split
      · rw [if_pos (show (handedOn a w).pc = .receiving from hpc)]
        exact hbytes.symm
      · rw [if_neg (by rw [(received_added _).1]; simp)]
    · rw [effects_append htrace, reads_append, hhandle]
      exact (reads_cons hskip).trans ((reads_cons hhandled).trans (reads_skipped hskipped).2)

theorem inStep_next (h : Tracked w) (hread : reads Intake.read .start (effects w) = some s)
    (hw : InStep w s) (e : Event)
    (ht : reads Intake.read .start (effects (next tick w e)) = some t) :
    InStep (next tick w e) t := by
  rcases move_deaf (@next_moves tick w h e) with ⟨added, htrace, hdeaf⟩ | ⟨a, hpc, hs, heq⟩
  · have hskipped : ∀ x ∈ added, skipped x.2 = true := fun x hx => skipped_of_deaf (hdeaf x hx)
    have hsame : s = t := by
      rw [effects_append htrace, reads_append, hread] at ht
      exact Option.some.inj ((reads_skipped hskipped).1.symm.trans ht)
    subst hsame
    obtain ⟨s', hhandle, hhas⟩ := hw.handled
    rcases @next_place tick w e with ⟨hpc, hoff⟩ | ⟨hpc, hzero⟩ | ⟨a, hpc, heq⟩
    · refine ⟨?_, s', ?_, hhas⟩
      · rw [Placed, hpc, hoff]
        exact hw.placed
      · rw [effects_append htrace, reads_append, hhandle]
        exact (reads_skipped hskipped).2
    · refine ⟨?_, s', ?_, hhas⟩
      · have hnone : s.current = none := by
          have := hw.placed
          rwa [Placed, if_neg hpc] at this
        rw [Placed]
        split
        · rename_i hnow
          rw [hzero hnow, Intake.offset, hnone]
          rfl
        · exact hnone
      · rw [effects_append htrace, reads_append, hhandle]
        exact (reads_skipped hskipped).2
    · obtain ⟨-, hs, -⟩ := h.locked (by rw [hpc]; rfl)
      rw [heq] at ht ⊢
      exact inStep_recv hw hs hpc hread ht
  · rw [heq] at ht ⊢
    exact inStep_recv hw hs hpc hread ht

/-! ## PINGs answered -/

/-- The PONG of `data` and `len` to the PING whose last piece is handed on as `d`: it has the
PING's length and begins with that piece. -/
structure Answered (s : Intake) (d : EventData) (data : List Byte) (len : ℤ) : Prop where
  event : d.event = .data
  opCode : d.opCode = Opcode.ping.opCode
  ping : ∃ head, s.frames.getLast? = some ⟨Opcode.ping.opCode, d.fin, len, head ++ d.data⟩ ∧
    (head.length : ℤ) = d.payloadOffset ∧ ((head ++ d.data).length : ℤ) = len
  begins : len ≠ 0 → data.take d.data.length = d.data
  whole : d.payloadOffset = 0 → data.take len.toNat = d.data

/-- A PONG follows at once on the read of the last piece of a PING, and its data event. -/
def Echoed (pre : List (ℕ × Effect)) : ℕ × Effect → Prop
  | (_, .control .pong data len) =>
    ∀ s, reads Intake.read .start (pre.map Prod.snd) = some s →
      ∃ front m rlen d, pre = front ++
        [(m, .read rlen d.data len d.fin .ping), (m, .dispatch d)] ∧ Answered s d data len
  | _ => True

theorem echoed_of_deaf {pre : List (ℕ × Effect)} {x : ℕ × Effect} (h : deaf x.2 = true) :
    Echoed pre x := by
  obtain ⟨n, e⟩ := x
  cases e with
  | control opcode buffer len =>
    cases opcode with
    | pong => cases h
    | _ => trivial
  | _ => trivial

theorem echoed_pong (hw : InStep w s) (hpc : w.pc = .receiving)
    (hread : reads Intake.read .start (effects w) = some s) (hr : 0 ≤ a.rlen)
    (hn : ¬(a.rlen = 0 ∧ a.opcode = .none))
    (hend : a.payloadLen ≤ w.client.payloadOffset + a.rlen) (hping : a.opcode = .ping) {n : ℕ} :
    Echoed (w.trace ++ [(w.ticks, .read a.rlen a.bytes a.payloadLen a.fin a.opcode),
      (w.ticks, .dispatch (readData a w.client))]) (n, .control .pong
        (if a.payloadLen = 0 then [] else (readInto a w.client).rxBuffer) a.payloadLen) := by
  intro t ht
  have hplaced := hw.placed
  rw [Placed, if_pos hpc] at hplaced
  rw [List.map_append, reads_append, show reads Intake.read .start (w.trace.map Prod.snd) = some s
    from hread] at ht
  have hpieces : reads Intake.read s [.read a.rlen a.bytes a.payloadLen a.fin a.opcode,
      .dispatch (readData a w.client)] = some t := ht
  obtain ⟨r, hrest, hmoved⟩ := Option.bind_eq_some_iff.mp hpieces
  have hsame : some r = some t := hmoved
  cases hsame
  obtain ⟨head, rfl, hlen, hhead, hfit, -⟩ := read_frame hrest hr hn
  have hdata : (readData a w.client).data = a.bytes := readData_data hlen
  have hwhole : ((head ++ a.bytes).length : ℤ) = a.payloadLen := by
    rw [List.length_append]
    omega
  have hbegins : (readInto a w.client).rxBuffer.take a.bytes.length = a.bytes := by
    have hroom : a.rlen.toNat = a.bytes.length := by omega
    simp [readInto, WebsocketSend.memcpy, hroom]
  refine ⟨w.trace, w.ticks, a.rlen, readData a w.client, ?_, rfl, ?_, ?_, ?_, ?_⟩
  · rw [hdata, hping]
    rfl
  · rw [← hping]
    rfl
  · refine ⟨head, ?_, ?_, by rw [hdata, hwhole]⟩
    · rw [Intake.put, if_neg (by simp only [hwhole]; omega), hdata, ← hping]
      simp [readData, readInto, eventData]
    · rw [hhead]
      exact hplaced.symm
  · intro hne
    rw [if_neg hne, hdata, hbegins]
  · intro hzero
    have hnone : head = [] := by
      apply List.eq_nil_of_length_eq_zero
      have : w.client.payloadOffset = 0 := hzero
      omega
    subst hnone
    have hnat : a.payloadLen.toNat = a.bytes.length := by
      simp only [List.nil_append] at hwhole
      omega
    rw [hdata, hnat]
    split
    · rename_i hempty
      have : a.bytes = [] := by
        apply List.eq_nil_of_length_eq_zero
        omega
      rw [this]
      rfl
    · exact hbegins

theorem echoed_next (h : Tracked w) (hw : ∀ s, reads Intake.read .start (effects w) = some s →
      InStep w s) (hall : Justified Echoed w.trace) (e : Event) :
    Justified Echoed (next tick w e).trace := by
  have deafs : ∀ {added : List (ℕ × Effect)}, (∀ x ∈ added, deaf x.2 = true) →
      Justified Echoed (w.trace ++ added) := by
    intro added hadded
    apply hall.append
    intro pre x hx
    exact echoed_of_deaf (hadded x hx)
  rcases move_deaf (@next_moves tick w h e) with ⟨added, htrace, hdeaf⟩ | ⟨a, hpc, hs, heq⟩
  · rw [htrace]
    exact deafs hdeaf
  · rw [heq]
    have hread : ∀ pre, Echoed pre
        (w.ticks, .read a.rlen a.bytes a.payloadLen a.fin a.opcode) := fun _ => trivial
    rcases @recv_cases w tick a with ⟨-, hrecv⟩ | ⟨-, -, hrecv⟩ | ⟨hr, hn, hrecv⟩
    · obtain ⟨-, -, more, hmore, htrace⟩ := @failed_read tick a w hs
      rw [hrecv, htrace, List.append_cons]
      apply (hall.snoc (hread _)).append
      intro pre x hx
      exact echoed_of_deaf (deaf_of_quiet (hmore x hx))
    · rw [hrecv]
      exact hall.snoc (hread _)
    · obtain ⟨added, htrace, hadded⟩ := recv_added hrecv
      have hdata : Justified Echoed (w.trace ++
          [(w.ticks, .read a.rlen a.bytes a.payloadLen a.fin a.opcode),
            (w.ticks, .dispatch (readData a w.client))]) := by
        apply hall.append
        intro pre x hx
        rcases List.mem_pair.mp hx with rfl | rfl
        · exact hread _
        · trivial
      rw [htrace]
      rcases hadded with rfl | ⟨hend, hping, rfl⟩
      · rwa [List.append_nil]
      · apply hdata.snoc
        intro t ht
        have hprefix : ∃ s, reads Intake.read .start (effects w) = some s := by
          rw [List.map_append] at ht
          obtain ⟨s, hs, -⟩ := reads_prefix ht
          exact ⟨s, hs⟩
        obtain ⟨s, hs⟩ := hprefix
        exact echoed_pong (hw s hs) hpc hs hr hn hend hping (n := w.ticks) t ht

/-! ## Whole sessions -/

theorem received_run (tick : ℕ → ℕ) (c : Client) (found : Bool) (es : List Event) :
    let w := run (next tick) (started c found) es
    (∀ s, reads Intake.read .start (effects w) = some s → InStep w s) ∧
      Justified Echoed w.trace := by
  intro w
  have all : Tracked w ∧ (∀ s, reads Intake.read .start (effects w) = some s → InStep w s) ∧
      Justified Echoed w.trace := by
    apply run_invariant (next tick) fun w => Tracked w ∧
      (∀ s, reads Intake.read .start (effects w) = some s → InStep w s) ∧ Justified Echoed w.trace
    · refine ⟨started_tracked c found, ?_, justified_nil⟩
      intro s hs
      cases hs
      exact ⟨rfl, .start, rfl, rfl, fun f hf => hf⟩
    · rintro w e ⟨ht, hw, hall⟩
      refine ⟨next_tracked ht e, ?_, echoed_next ht hw hall e⟩
      intro t hread
      obtain ⟨added, hgrows⟩ := @effects_next tick w ht e
      obtain ⟨s, hs, -⟩ := reads_prefix (hgrows ▸ hread)
      exact inStep_next ht hs (hw s hs) e hread
  exact all.2

end WebsocketReceive
