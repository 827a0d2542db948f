import RayzTarget.WebsocketMoves
import Mathlib.Data.List.Basic

/-! # The messages on the wire

What the server assembles from a session, connection by connection. The callers promise to begin
messages with an opcode that may begin one, the transport to take a frame whole or to refuse it,
and to refuse it when it is not connected. -/
namespace WebsocketWire

open WebsocketClient WebsocketWorld WebsocketSession WebsocketLifecycle WebsocketMoves EventRuns
  TraceMonitor MessageFrames

/-- The promise, with whether the transport is connected. -/
def promise (connected : Bool) : Effect → Option Bool
  | .connect result => some (decide (0 ≤ result) || connected)
  | .closeTransport => some false
  | .sending opcode _ => if opcode.Begins then some connected else none
  | .frame _ _ len wlen =>
    if wlen = len ∧ connected = true ∨ wlen < 0 ∨ wlen = 0 ∧ len ≠ 0 then some connected else none
  | _ => some connected

/-- The connections a server has seen, with the messages it made of their frames. -/
structure Wire where
  past : List (Assembly UInt32 Byte)
  current : Option (Assembly UInt32 Byte)
  deriving DecidableEq

namespace Wire

def silent : Wire := ⟨[], none⟩

def messages (u : Wire) : List (UInt32 × List Byte) :=
  u.past.flatMap Assembly.messages ++ (u.current.map Assembly.messages).getD []

/-- No message has been begun on the connection and not ended. -/
def Between (u : Wire) : Prop := ∀ b, u.current = some b → b.begun = none

instance (u : Wire) : Decidable u.Between :=
  match u with
  | ⟨_, none⟩ => .isTrue fun _ h => nomatch h
  | ⟨_, some b⟩ =>
    decidable_of_iff (b.begun = none) ⟨fun h _ hb => Option.some.inj hb ▸ h, fun h => h b rfl⟩

/-- A connection begins with nothing, a control frame comes between two messages, and a frame
fits what came before it. -/
def hear (u : Wire) : Effect → Option Wire
  | .connect result =>
    if result < 0 then some u
    else if u.current = none then some { u with current := some Assembly.empty } else none
  | .closeTransport => some ⟨u.past ++ u.current.toList, none⟩
  | .control _ _ _ => if u.current.isSome ∧ u.Between then some u else none
  | .frame word buffer len wlen =>
    if wlen = len then
      (u.current.bind fun b => b.accept (WebsocketSend.wireFrame word (buffer.take len))).map
        fun b => { u with current := some b }
    else some u
  | _ => some u

end Wire

/-- What the callers are told was sent: a call returns the length of its message. -/
def reported : Effect → List (UInt32 × List Byte)
  | .sent opcode data ret => if ret = data.length then [(opcode.code, data)] else []
  | _ => []

/-- The message of a call that has sent its last frame and not yet returned. -/
def pending (call : Option Call) : List (UInt32 × List Byte) :=
  (call.map fun k => k.loop.delivered k.data k.opcode).getD []

def underway (call : Option Call) : Option (UInt32 × List Byte) :=
  call.bind fun k => k.loop.begun k.data k.opcode

variable {tick : ℕ → ℕ} {w v : World} {u : Wire}

/-! ## The three monitors of one trace -/

/-- A frame changes neither which connections there are nor what was heard on the past ones. -/
theorem hear_frame {word : UInt32} {buffer : List Byte} {len : ℕ} {wlen : ℤ} {u u' : Wire}
    (h : u.hear (.frame word buffer len wlen) = some u') :
    u'.past = u.past ∧ u'.current.isSome = u.current.isSome := by
  simp only [Wire.hear] at h
  split at h
  · obtain ⟨b', hb', rfl⟩ := Option.map_eq_some_iff.mp h
    obtain ⟨b, hb, -⟩ := Option.bind_eq_some_iff.mp hb'
    exact ⟨rfl, by rw [hb]; rfl⟩
  · cases h
    exact ⟨rfl, rfl⟩

/-- The server sees a connection where the contract has one. -/
theorem hear_up {s t : Stage} {e : Effect} {u u' : Wire} (hu : u.current.isSome = up s.phase)
    (hs : s.accept e = some t) (hh : u.hear e = some u') : u'.current.isSome = up t.phase := by
  obtain ⟨phase, calling⟩ := s
  cases e with
  | dispatch d =>
    cases hh
    obtain ⟨p, hp, rfl⟩ := Option.map_eq_some_iff.mp hs
    exact hu.trans (up_hears hp).symm
  | connect result =>
    simp only [Stage.accept, Wire.hear] at hs hh
    split at hs <;> cases hs
    rename_i hphase
    split at hh
    · cases hh
      rw [hu, if_pos ‹_›, hphase]
      rfl
    · split at hh <;> cases hh
      rw [if_neg ‹_›]
      rfl
  | closeTransport =>
    cases hh
    obtain ⟨p, hp, rfl⟩ := Option.map_eq_some_iff.mp hs
    cases phase <;> cases calling <;> cases hp <;> rfl
  | frame word buffer len wlen =>
    rw [(hear_frame hh).2, hu]
    simp only [Stage.accept] at hs
    split at hs <;> cases hs
    rfl
  | control opcode buffer len =>
    simp only [Stage.accept, Wire.hear] at hs hh
    split at hs <;> cases hs
    split at hh <;> cases hh
    exact hu
  | pollRead result =>
    cases hh
    cases phase <;> cases hs <;> first | exact hu | (rw [hu]; split <;> rfl)
  | sent opcode data ret =>
    cases hh
    simp only [Stage.accept] at hs
    split at hs <;> cases hs
    exact hu
  | turnedAway opcode data =>
    cases hh
    cases hs
    exact hu
  | destroyed =>
    cases hh
    cases phase <;> cases hs <;> exact hu
  | sending opcode data =>
    cases hh
    simp only [Stage.accept] at hs
    split at hs <;> cases hs
    exact hu
  | read rlen bytes payloadLen fin opcode =>
    cases hh
    simp only [Stage.accept] at hs
    split at hs <;> cases hs
    exact hu
  | pollClosed result =>
    cases hh
    simp only [Stage.accept] at hs
    split at hs <;> cases hs
    exact hu

/-- The promise knows of the connection, too. -/
theorem hear_connected {b b' : Bool} {e : Effect} {u u' : Wire} (hu : u.current.isSome = b)
    (hb : promise b e = some b') (hh : u.hear e = some u') : u'.current.isSome = b' := by
  cases e with
  | connect result =>
    cases hb
    simp only [Wire.hear] at hh
    split at hh
    · rename_i hr
      cases hh
      rw [hu, decide_eq_false (Int.not_le.mpr hr), Bool.false_or]
    · rename_i hr
      split at hh <;> cases hh
      rw [decide_eq_true (Int.not_lt.mp hr), Bool.true_or]
      rfl
  | closeTransport =>
    cases hb
    cases hh
    rfl
  | frame word buffer len wlen =>
    rw [(hear_frame hh).2, hu]
    simp only [promise] at hb
    split at hb <;> cases hb
    rfl
  | control opcode buffer len =>
    cases hb
    simp only [Wire.hear] at hh
    split at hh <;> cases hh
    exact hu
  | sending opcode data =>
    cases hh
    simp only [promise] at hb
    split at hb <;> cases hb
    exact hu
  | _ =>
    cases hb
    cases hh
    exact hu

/-! ## What leaves the messages alone -/

/-- No new connection, no control frame and no frame that is taken. -/
def still : Effect → Bool
  | .connect result => decide (result < 0)
  | .control _ _ _ => false
  | .frame _ _ len wlen => decide (wlen ≠ len)
  | _ => true

def isControl : Effect → Bool
  | .control _ _ _ => true
  | _ => false

def Wire.Same (u u' : Wire) : Prop :=
  u'.messages = u.messages ∧ (u'.current = u.current ∨ u'.current = none)

theorem Wire.Same.trans {u u' u'' : Wire} (h : u.Same u') (h' : u'.Same u'') : u.Same u'' := by
  refine ⟨h'.1.trans h.1, ?_⟩
  rcases h'.2 with hc | hc
  · rw [hc]
    exact h.2
  · exact .inr hc

theorem Wire.Same.between {u u' : Wire} (h : u.Same u') (hu : u.Between) : u'.Between := by
  intro b hb
  rcases h.2 with hc | hc
  · exact hu b (hc ▸ hb)
  · rw [hc] at hb
    cases hb

theorem hear_still {e : Effect} (h : still e = true) : ∃ u', u.hear e = some u' ∧ u.Same u' := by
  cases e with
  | connect result => exact ⟨u, if_pos (of_decide_eq_true h), rfl, .inl rfl⟩
  | closeTransport =>
    refine ⟨_, rfl, ?_, .inr rfl⟩
    obtain ⟨past, current⟩ := u
    cases current <;> simp [Wire.messages]
  | control opcode buffer len => cases h
  | frame word buffer len wlen => exact ⟨u, if_neg (of_decide_eq_true h), rfl, .inl rfl⟩
  | _ => exact ⟨u, rfl, rfl, .inl rfl⟩

/-- What is added to the trace is heard: on a connection, control frames between messages. -/
theorem hear_added {s t : Stage} {added : List Effect} (hu : u.current.isSome = up s.phase)
    (hs : reads Stage.accept s added = some t)
    (h : ∀ e ∈ added, still e = true ∨ isControl e = true ∧ u.Between) :
    ∃ u', reads Wire.hear u added = some u' ∧ u.Same u' := by
  induction added generalizing s u with
  | nil => exact ⟨u, rfl, rfl, .inl rfl⟩
  | cons e added ih =>
    obtain ⟨s', hs', hrest⟩ := Option.bind_eq_some_iff.mp hs
    have hone : ∃ u', u.hear e = some u' ∧ u.Same u' := by
      rcases h e List.mem_cons_self with he | ⟨he, hbetween⟩
      · exact hear_still he
      · cases e with
        | control opcode buffer len =>
          simp only [Stage.accept] at hs'
          split at hs' <;> cases hs'
          rename_i hphase
          exact ⟨u, if_pos ⟨by rw [hu, hphase]; rfl, hbetween⟩, rfl, .inl rfl⟩
        | _ => cases he
    obtain ⟨u', hu', hsame⟩ := hone
    obtain ⟨u'', hu'', hsame'⟩ := ih (hear_up hu hs' hu') hrest fun e' he' =>
      (h e' (List.mem_cons_of_mem e he')).imp_right fun hc => ⟨hc.1, hsame.between hc.2⟩
    exact ⟨u'', by rw [reads, hu']; exact hu'', hsame.trans hsame'⟩

/-! ## The invariant -/

structure Underway (bufferSize : ℕ) (k : Call) : Prop where
  sending : WebsocketSend.Sending k.data bufferSize k.loop
  running : k.loop.failure = none
  begins : k.opcode.Begins
  kinded : k.loop.Kinded k.opcode
  within : k.loop.widx ≤ k.data.length

/-- The server has the messages reported as sent, and the one a call has yet to report. On the
connection it is in the middle of a call's message, or between two. -/
structure Heard (w : World) (u : Wire) : Prop where
  hears : reads Wire.hear .silent (effects w) = some u
  messages : u.messages = (effects w).flatMap reported ++ pending w.call
  begun : ∀ b, u.current = some b → b.begun = underway w.call
  room : w.client.txBuffer.length = w.client.bufferSize
  underway : ∀ k, w.call = some k → Underway w.client.bufferSize k

theorem heard_up (h : reads Wire.hear .silent (effects w) = some u) {s : Stage} (hs : At w s) :
    u.current.isSome = up s.phase := by
  refine reads_together (fun s u => u.current.isSome = up s.phase) ?_ hs h rfl
  intro _ _ _ _ _ hu hs hh
  exact hear_up hu hs hh

theorem Heard.connected (h : Heard w u) {b : Bool}
    (hb : reads promise false (effects w) = some b) : u.current.isSome = b := by
  refine reads_together (fun b u => u.current.isSome = b) ?_ hb h.hears rfl
  intro _ _ _ _ _ hu hb hh
  exact hear_connected hu hb hh

/-- What a step adds to the trace, if it is not a connection or a frame taken, is heard. -/
theorem Heard.hears_added (h : Heard w u) (ht : Tracked w) (ht' : Tracked v)
    {added : List (ℕ × Effect)} (htrace : v.trace = w.trace ++ added)
    (hadded : ∀ x ∈ added, still x.2 = true ∨ isControl x.2 = true ∧ w.call = none) :
    ∃ u', reads Wire.hear .silent (effects v) = some u' ∧ u.Same u' := by
  obtain ⟨p, hat, -⟩ := ht
  obtain ⟨q, hat', -⟩ := ht'
  have hrest : reads Stage.accept ⟨p, w.call.isSome⟩ (added.map Prod.snd) =
      some ⟨q, v.call.isSome⟩ := by
    have hall : reads Stage.accept ⟨.offline, false⟩ (effects v) = _ := hat'
    rw [effects_append htrace] at hall
    obtain ⟨s, hs, hrest⟩ := reads_prefix hall
    cases hs.symm.trans hat
    exact hrest
  obtain ⟨u', hu', hsame⟩ := hear_added (heard_up h.hears hat) hrest (by
    intro e he
    obtain ⟨x, hx, rfl⟩ := List.mem_map.mp he
    refine (hadded x hx).imp_right ?_
    rintro ⟨hcontrol, hcall⟩
    refine ⟨hcontrol, ?_⟩
    intro b hb
    rw [h.begun b hb, hcall]
    rfl)
  refine ⟨u', ?_, hsame⟩
  rw [effects_append htrace, reads_append, h.hears]
  exact hu'

/-- Without a connected state there is no connection. -/
theorem down (h : Tracked w) (hu : reads Wire.hear .silent (effects w) = some u)
    (hs : w.client.state ≠ .connected ∧ w.client.state ≠ .closing) : u.current = none := by
  obtain ⟨p, hat, hstands⟩ := h
  have hdown : up p = false := by
    unfold Stands at hstands
    cases hpc : w.pc <;> rw [hpc] at hstands
    case loop | locking | unlocked | polling =>
      obtain ⟨rfl, -⟩ := hstands
      cases hstate : w.client.state <;> simp_all [phaseOf, up]
    case heartbeat | pongCheck | select | receiving => exact absurd hstands.2.1 hs.1
    case closingWait => exact absurd hstands.2.1 hs.2
    case stopping | exiting => rcases hstands with rfl | ⟨rfl, -⟩ <;> rfl
    case deleting | ended => rcases hstands.1 with rfl | rfl <;> rfl
    case destroyed =>
      rw [hstands]
      rfl
  have := heard_up hu hat
  rw [hdown] at this
  exact Option.isSome_eq_false_iff.mp this |> Option.isNone_iff_eq_none.mp

def calm (call : Option Call) (e : Effect) : Prop :=
  (still e = true ∨ isControl e = true ∧ call = none) ∧ reported e = []

theorem calm_of_quiet {e : Effect} (h : quiet e = true) (call : Option Call) : calm call e := by
  cases e <;> first | exact ⟨.inl rfl, rfl⟩ | cases h

theorem reported_of_calm {call : Option Call} {added : List (ℕ × Effect)}
    (h : ∀ x ∈ added, calm call x.2) : (added.map Prod.snd).flatMap reported = [] := by
  apply List.flatMap_eq_nil_iff.mpr
  intro e he
  obtain ⟨x, hx, rfl⟩ := List.mem_map.mp he
  exact (h x hx).2

theorem Heard.calm (h : Heard w u) (ht : Tracked w) (ht' : Tracked v)
    {added : List (ℕ × Effect)} (htrace : v.trace = w.trace ++ added)
    (hadded : ∀ x ∈ added, WebsocketWire.calm w.call x.2) (hcall : v.call = w.call)
    (hsize : v.client.bufferSize = w.client.bufferSize)
    (hroom : v.client.txBuffer.length = v.client.bufferSize) : ∃ u', Heard v u' := by
  obtain ⟨u', hu', hmessages, hcurrent⟩ :=
    h.hears_added ht ht' htrace fun x hx => (hadded x hx).1
  refine ⟨u', hu', ?_, ?_, hroom, ?_⟩
  · rw [hmessages, h.messages, effects_append htrace, List.flatMap_append,
      reported_of_calm hadded, List.append_nil, hcall]
  · intro b hb
    rw [hcall]
    rcases hcurrent with hc | hc
    · exact h.begun b (hc ▸ hb)
    · rw [hc] at hb
      cases hb
  · rw [hcall, hsize]
    exact h.underway

/-- A read, its data event and an echoed PING, or a failure. -/
theorem recv_calm {a : Answers} (hs : w.client.state = .connected) (hcall : w.call = none) :
    ∃ added, (recv tick a w).trace = w.trace ++ added ∧
      (∀ x ∈ added, WebsocketWire.calm w.call x.2) ∧ (recv tick a w).call = w.call := by
  have hread : WebsocketWire.calm w.call (.read a.rlen a.bytes a.payloadLen a.fin a.opcode) :=
    ⟨.inl rfl, rfl⟩
  rcases @recv_cases w tick a with ⟨-, heq⟩ | ⟨-, -, heq⟩ | ⟨-, -, heq⟩
  · obtain ⟨-, hkept, more, hmore, htrace⟩ := @failed_read tick a w hs
    rw [heq]
    refine ⟨_, htrace, ?_, hkept⟩
    intro x hx
    rcases List.mem_cons.mp hx with rfl | hx
    · exact hread
    · exact calm_of_quiet (hmore x hx) _
  · rw [heq]
    refine ⟨[_], rfl, ?_, rfl⟩
    intro x hx
    rw [List.mem_singleton.mp hx]
    exact hread
  · obtain ⟨added, htrace, hadded⟩ := recv_added heq
    refine ⟨_, (List.append_assoc ..).symm ▸ htrace, ?_, ?_⟩
    · intro x hx
      rcases List.mem_append.mp hx with hx | hx
      · rcases List.mem_pair.mp hx with rfl | rfl
        · exact hread
        · exact ⟨.inl rfl, rfl⟩
      · rcases hadded with rfl | ⟨-, -, rfl⟩
        · cases hx
        · rw [List.mem_singleton.mp hx]
          exact ⟨.inr ⟨rfl, hcall⟩, rfl⟩
    · rw [heq]
      split
      · rfl
      · exact (received_added _).2.1

theorem next_txBuffer (e : Event) :
    (next tick w e).client.txBuffer = w.client.txBuffer ∨ ∃ k wlen, w.call = some k ∧
      k.loop.continues k.data = true ∧ (next tick w e).client.txBuffer =
        (k.loop.next k.data w.client.bufferSize wlen).txBuffer := by
  unfold next
  split
  · exact .inl rfl
  · cases e with
    | task a => exact .inl taskStep_untouched.txBuffer
    | send opcode data len locked => exact .inl (by rw [send_fixed])
    | callStep wlen =>
      simp only [callStep, advance]
      split
      · exact .inl rfl
      · rename_i k hk
        split
        · rename_i hcont
          right
          refine ⟨k, wlen, hk, hcont, ?_⟩
          split
          · exact (abort_untouched .tcpTransport ⟨.refl _, rfl⟩).txBuffer
          · rfl
        · exact .inl rfl
    | close body =>
      simp only [close]
      split
      · exact .inl rfl
      · exact .inl (by rw [send_fixed])
    | setCloseFrameSent => exact .inl rfl
    | stop => exact .inl rfl
    | setUnknow =>
      simp only [setUnknow]
      split
      · exact .inl rfl
      · exact .inl rfl
    | clearBits => exact .inl rfl
    | destroyOnExit => exact .inl rfl
    | setPingIntervalSec n => exact .inl rfl

theorem Heard.room_next (h : Heard w u) (e : Event) :
    (next tick w e).client.txBuffer.length = (next tick w e).client.bufferSize := by
  rw [(next_fixed e).bufferSize]
  rcases next_txBuffer e with heq | ⟨k, wlen, hk, hcont, heq⟩
  · rw [heq]
    exact h.room
  · rw [heq]
    exact (WebsocketSend.sending_next (h.underway k hk).sending hcont).room

theorem pending_none : pending none = [] := rfl

theorem pending_continues {k : Call} (hcont : k.loop.continues k.data = true) :
    pending (some k) = [] := WebsocketSend.not_delivered hcont

/-- A frame is taken whole, on a connection, or refused. -/
theorem frame_promised {b b' : Bool} {word : UInt32} {buffer : List Byte} {len : ℕ} {wlen : ℤ}
    (h : promise b (.frame word buffer len wlen) = some b') :
    wlen = len ∧ b = true ∨ wlen < 0 ∨ wlen = 0 ∧ len ≠ 0 := by
  simp only [promise] at h
  split at h
  · assumption
  · cases h

theorem heard_opened (h : Heard w u) (ht : Tracked w) {d d' : EventData} {result : ℤ}
    (hstate : w.client.state = .init) (hr : 0 ≤ result)
    (htrace : v.trace = w.trace ++
      [(w.ticks, .dispatch d), (w.ticks, .connect result), (w.ticks, .dispatch d')])
    (hfree : w.call = none) (hcall : v.call = none)
    (hroom : v.client.txBuffer.length = v.client.bufferSize) : ∃ u', Heard v u' := by
  have hdown : u.current = none := down ht h.hears (by rw [hstate]; decide)
  have hmessages := h.messages
  rw [hfree, pending_none, List.append_nil] at hmessages
  refine ⟨{ u with current := some Assembly.empty }, ?_, ?_, ?_, hroom, ?_⟩
  · rw [effects_append htrace, reads_append, h.hears]
    simp [reads, Wire.hear, hdown, Int.not_lt.mpr hr]
  · rw [effects_append htrace, List.flatMap_append, ← hmessages, hcall]
    simp [Wire.messages, hdown, Assembly.empty, reported, pending]
  · intro b hb
    cases hb
    rw [hcall]
    rfl
  · intro k hk
    rw [hcall] at hk
    cases hk

/-- A frame taken: the server has the call's message that much further. -/
theorem heard_passed (h : Heard w u) {k : Call} {wlen : ℤ} (hk : w.call = some k)
    (hcont : k.loop.continues k.data = true)
    (hdone : (k.loop.next k.data w.client.bufferSize wlen).failure = none)
    (htrace : v.trace = w.trace ++ [(w.ticks,
      let h := k.loop.handing k.data w.client.bufferSize wlen
      .frame h.opcode h.buffer h.needWrite h.wlen)])
    (hcall : v.call = some { k with loop := k.loop.next k.data w.client.bufferSize wlen })
    (hsize : v.client.bufferSize = w.client.bufferSize)
    (hroom : v.client.txBuffer.length = v.client.bufferSize) {b : Bool}
    (hpromise : reads promise false (effects v) = some b) : ∃ u', Heard v u' := by
  obtain ⟨hsending, hrunning, hbegins, hkinded, hwithin⟩ := h.underway k hk
  have hkept : (k.loop.handing k.data w.client.bufferSize wlen).refused = false := by
    cases hr : (k.loop.handing k.data w.client.bufferSize wlen).refused with
    | false => rfl
    | true =>
      rw [WebsocketSend.next_refused hr] at hdone
      cases hdone
  rw [effects_append htrace] at hpromise
  obtain ⟨c, hc, hframe⟩ := reads_prefix hpromise
  obtain ⟨c', hframe, -⟩ := Option.bind_eq_some_iff.mp hframe
  have hwhole : (k.loop.handing k.data w.client.bufferSize wlen).wlen =
      (k.loop.handing k.data w.client.bufferSize wlen).needWrite ∧ c = true := by
    refine (frame_promised hframe).resolve_right fun hrefused => ?_
    simp only [WebsocketSend.Handed.refused, Bool.or_eq_false_iff, decide_eq_false_iff_not,
      Bool.and_eq_false_iff] at hkept
    omega
  obtain ⟨b₀, hb₀⟩ := Option.isSome_iff_exists.mp ((h.connected hc).trans hwhole.2)
  have hbegun : b₀.begun = k.loop.begun k.data k.opcode := by
    rw [h.begun b₀ hb₀, hk]
    rfl
  obtain ⟨b₁, haccept, hmessages, hbegun₁⟩ :=
    WebsocketSend.accept_handing hbegins hsending hcont hkinded hwhole.1 hbegun
  obtain ⟨-, hcode, hwidx⟩ := WebsocketSend.next_whole hwhole.1
  refine ⟨{ u with current := some b₁ }, ?_, ?_, ?_, hroom, ?_⟩
  · rw [effects_append htrace, reads_append, h.hears]
    have hheard : u.hear (.frame (k.loop.handing k.data w.client.bufferSize wlen).opcode
        (k.loop.handing k.data w.client.bufferSize wlen).buffer
        (k.loop.handing k.data w.client.bufferSize wlen).needWrite
        (k.loop.handing k.data w.client.bufferSize wlen).wlen) =
        some { u with current := some b₁ } := by
      rw [Wire.hear, if_pos hwhole.1, hb₀]
      exact congrArg (Option.map _) haccept
    exact congrArg (fun o => o.bind fun q => some q) hheard
  · have hbefore := h.messages
    rw [hk, pending_continues hcont, List.append_nil] at hbefore
    rw [effects_append htrace, List.flatMap_append, ← hbefore, hcall]
    simp [Wire.messages, hb₀, hmessages, reported, pending]
  · intro b hb
    cases hb
    rw [hcall]
    exact hbegun₁
  · intro k' hk'
    rw [hcall] at hk'
    cases hk'
    obtain ⟨hfits, hoff, -, -⟩ := WebsocketSend.handing_within wlen hsending hcont
    have hinside := hfits.inside
    rw [hoff] at hinside
    rw [hsize]
    exact ⟨WebsocketSend.sending_next hsending hcont, hdone, hbegins, .inr hcode, by
      simp only [hwidx]; exact hinside⟩

/-- A frame refused: the call ends without its message. -/
theorem heard_broken (h : Heard w u) (ht : Tracked w) (ht' : Tracked v) {k : Call} {wlen ret : ℤ}
    {added : List (ℕ × Effect)} (hk : w.call = some k)
    (hcont : k.loop.continues k.data = true)
    (hfailed : (k.loop.next k.data w.client.bufferSize wlen).failure = some ret)
    (htrace : v.trace = w.trace ++ [(w.ticks,
      let h := k.loop.handing k.data w.client.bufferSize wlen
      .frame h.opcode h.buffer h.needWrite h.wlen)] ++ added ++
        [(v.ticks, .sent k.opcode k.data ret)])
    (hadded : ∀ x ∈ added, quiet x.2 = true)
    (hlost : v.client.state ≠ .connected ∧ v.client.state ≠ .closing) (hcall : v.call = none)
    (hroom : v.client.txBuffer.length = v.client.bufferSize) : ∃ u', Heard v u' := by
  have hsending := (h.underway k hk).sending
  obtain ⟨hwithin, -, -, -⟩ := WebsocketSend.handing_within wlen hsending hcont
  have hinside := hwithin.inside
  have hrefused : (k.loop.handing k.data w.client.bufferSize wlen).refused = true ∧
      (k.loop.handing k.data w.client.bufferSize wlen).wlen = ret := by
    cases hr : (k.loop.handing k.data w.client.bufferSize wlen).refused with
    | false =>
      rw [WebsocketSend.next_taken hr] at hfailed
      cases hfailed
    | true =>
      rw [WebsocketSend.next_refused hr] at hfailed
      exact ⟨rfl, Option.some.inj hfailed⟩
  obtain ⟨hr, rfl⟩ := hrefused
  simp only [WebsocketSend.Handed.refused, Bool.or_eq_true, decide_eq_true_eq,
    Bool.and_eq_true] at hr
  generalize k.loop.handing k.data w.client.bufferSize wlen = g at *
  have hcalm : ∀ x ∈ (w.ticks, Effect.frame g.opcode g.buffer g.needWrite g.wlen) ::
      (added ++ [(v.ticks, .sent k.opcode k.data g.wlen)]), WebsocketWire.calm w.call x.2 := by
    intro x hx
    rcases List.mem_cons.mp hx with rfl | hx
    · exact ⟨.inl (decide_eq_true (by omega)), rfl⟩
    · rcases List.mem_append.mp hx with hx | hx
      · exact calm_of_quiet (hadded x hx) _
      · rw [List.mem_singleton.mp hx]
        exact ⟨.inl rfl, if_neg (by omega)⟩
  have htrace' : v.trace = w.trace ++ (w.ticks, .frame g.opcode g.buffer g.needWrite g.wlen) ::
      (added ++ [(v.ticks, .sent k.opcode k.data g.wlen)]) := by
    rw [htrace]
    simp
  obtain ⟨u', hu', hmessages, -⟩ := h.hears_added ht ht' htrace' fun x hx => (hcalm x hx).1
  have hbefore := h.messages
  rw [hk, pending_continues hcont, List.append_nil] at hbefore
  refine ⟨u', hu', ?_, ?_, hroom, ?_⟩
  · rw [hmessages, hbefore, effects_append htrace', List.flatMap_append, reported_of_calm hcalm,
      hcall, pending_none, List.append_nil, List.append_nil]
  · intro b hb
    rw [down ht' hu' hlost] at hb
    cases hb
  · intro k' hk'
    rw [hcall] at hk'
    cases hk'

theorem heard_begun (h : Heard w u) (ht : Tracked w) (ht' : Tracked v) {opcode : Opcode}
    {data : Option (List Byte)} {len : ℤ} (hfree : w.call = none)
    (heq : v = (w.emit (.sending opcode (passed data len))).setCall
      (some ⟨opcode, passed data len,
        WebsocketSend.start (passed data len) opcode w.client.txBuffer⟩)) {b : Bool}
    (hpromise : reads promise false (effects v) = some b) : ∃ u', Heard v u' := by
  have htrace : v.trace = w.trace ++ [(w.ticks, .sending opcode (passed data len))] := by
    rw [heq]
    rfl
  have hcall : v.call = some ⟨opcode, passed data len,
      WebsocketSend.start (passed data len) opcode w.client.txBuffer⟩ := by
    rw [heq]
    rfl
  have hclient : v.client = w.client := by
    rw [heq]
    rfl
  rw [effects_append htrace] at hpromise
  obtain ⟨c, -, hbegins⟩ := reads_prefix hpromise
  have ho : opcode.Begins := by
    simp only [List.map_cons, List.map_nil, reads, promise] at hbegins
    split at hbegins
    · assumption
    · cases hbegins
  have hstart : ¬ (WebsocketSend.start (passed data len) opcode w.client.txBuffer).currentOpcode =
      0 := WebsocketSend.begins_code ho
  obtain ⟨u', hu', hmessages, hcurrent⟩ := h.hears_added ht ht' htrace fun x hx => by
    rw [List.mem_singleton.mp hx]
    exact .inl rfl
  have hbefore := h.messages
  rw [hfree, pending_none, List.append_nil] at hbefore
  refine ⟨u', hu', ?_, ?_, ?_, ?_⟩
  · rw [hmessages, hbefore, effects_append htrace, List.flatMap_append, hcall]
    simp [reported, pending, WebsocketSend.Loop.delivered, hstart]
  · intro b hb
    have hnone : underway v.call = none := by
      simp [hcall, underway, WebsocketSend.Loop.begun, hstart]
    rw [hnone]
    rcases hcurrent with hc | hc
    · rw [h.begun b (hc ▸ hb), hfree]
      rfl
    · rw [hc] at hb
      cases hb
  · rw [hclient]
    exact h.room
  · intro k hk
    rw [hcall] at hk
    cases hk
    rw [hclient]
    exact ⟨WebsocketSend.sending_start opcode h.room, rfl, ho, .inl rfl, Nat.zero_le _⟩

/-- The call returns the length of its message, which the server has. -/
theorem heard_returned (h : Heard w u) (ht : Tracked w) (ht' : Tracked v) {k : Call}
    (hk : w.call = some k) (hcont : k.loop.continues k.data = false)
    (heq : v = (w.emit (.sent k.opcode k.data k.loop.widx)).setCall none) : ∃ u', Heard v u' := by
  obtain ⟨-, hrunning, -, -, hwithin⟩ := h.underway k hk
  have htrace : v.trace = w.trace ++ [(w.ticks, .sent k.opcode k.data k.loop.widx)] := by
    rw [heq]
    rfl
  have hend : k.loop.currentOpcode = 0 ∧ ¬ k.loop.widx < k.data.length := by
    simpa [WebsocketSend.Loop.continues, hrunning, and_comm] using hcont
  have hlast : k.loop.widx = k.data.length := by omega
  obtain ⟨u', hu', hmessages, hcurrent⟩ := h.hears_added ht ht' htrace fun x hx => by
    rw [List.mem_singleton.mp hx]
    exact .inl rfl
  have hdelivered : pending w.call = [(k.opcode.code, k.data)] := by
    rw [hk]
    exact if_pos ⟨hend.1, Nat.not_lt.mp hend.2⟩
  have hbegun : underway w.call = none := by
    rw [hk]
    exact if_neg fun hn => hend.2 hn.2
  refine ⟨u', hu', ?_, ?_, ?_, ?_⟩
  · rw [hmessages, h.messages, hdelivered, effects_append htrace, List.flatMap_append, heq]
    simp [reported, pending, hlast]
  · intro b hb
    rw [heq]
    rcases hcurrent with hc | hc
    · rw [h.begun b (hc ▸ hb), hbegun]
      rfl
    · rw [hc] at hb
      cases hb
  · rw [heq]
    exact h.room
  · intro k' hk'
    rw [heq] at hk'
    cases hk'

theorem heard_next (h : Heard w u) (ht : Tracked w) (e : Event) {b : Bool}
    (hpromise : reads promise false (effects (next tick w e)) = some b) :
    ∃ u', Heard (next tick w e) u' := by
  have ht' : Tracked (next tick w e) := next_tracked ht e
  have hsize := (@next_fixed tick w e).bufferSize
  have hroom := @Heard.room_next tick w u h e
  have hmove := @next_moves tick w ht e
  generalize next tick w e = v at *
  have quiet_calm : ∀ {added : List (ℕ × Effect)}, (∀ x ∈ added, quiet x.2 = true) →
      ∀ x ∈ added, calm w.call x.2 := fun hadded x hx => calm_of_quiet (hadded x hx) _
  cases hmove with
  | quiet added htrace hticks hpong hcall hstate =>
    exact h.calm ht ht' htrace.1 (quiet_calm htrace.2) hcall hsize hroom
  | retry hstate hauto hdue htrace hticks hpong hinit hfree hcall =>
    exact h.calm ht ht' (htrace.trans (List.append_nil _).symm) (by simp) (hcall.trans hfree.symm)
      hsize hroom
  | opened d d' result hstate hr htrace hd hd' hticks hconnected hpong hfree hcall =>
    exact heard_opened h ht hstate hr htrace hfree hcall hroom
  | refused d result added hstate hr htrace hd hadded hlost hpong hfree hcall =>
    refine h.calm ht ht' htrace ?_ (hcall.trans hfree.symm) hsize hroom
    intro x hx
    rcases List.mem_cons.mp hx with rfl | hx
    · exact ⟨.inl rfl, rfl⟩
    · rcases List.mem_cons.mp hx with rfl | hx
      · exact ⟨.inl (decide_eq_true hr), rfl⟩
      · exact quiet_calm hadded x hx
  | lost added hstate htrace hlost hpong hcall =>
    exact h.calm ht ht' htrace.1 (quiet_calm htrace.2) hcall hsize hroom
  | overdue d added hstate hwait hlate htrace hadded hlost hpong hfree hcall =>
    refine h.calm ht ht' htrace ?_ (hcall.trans hfree.symm) hsize hroom
    intro x hx
    rcases List.mem_cons.mp hx with rfl | hx
    · exact ⟨.inl rfl, rfl⟩
    · exact quiet_calm hadded x hx
  | ping hstate hconnected htrace hticks hpong hfree hcall =>
    refine h.calm ht ht' htrace ?_ (hcall.trans hfree.symm) hsize hroom
    intro x hx
    rw [List.mem_singleton.mp hx]
    exact ⟨.inr ⟨rfl, hfree⟩, rfl⟩
  | echo hstate hsame htrace hticks hpong hfree hcall =>
    refine h.calm ht ht' htrace ?_ (hcall.trans hfree.symm) hsize hroom
    intro x hx
    rw [List.mem_singleton.mp hx]
    exact ⟨.inr ⟨rfl, hfree⟩, rfl⟩
  | recv a hpc hstate hfree heq =>
    obtain ⟨added, htrace, hadded, hcall⟩ := @recv_calm tick w a hstate hfree
    rw [← heq] at htrace hcall
    exact h.calm ht ht' htrace hadded hcall hsize hroom
  | begun opcode data len hstate hfree heq => exact heard_begun h ht ht' hfree heq hpromise
  | passed k wlen hk hcont hdone htrace hticks hstate hsince hpong hcall =>
    exact heard_passed h hk hcont hdone htrace hcall hsize hroom hpromise
  | broken k wlen ret added hk hcont hfailed htrace hadded hlost hpong hcall =>
    refine heard_broken h ht ht' hk hcont hfailed htrace hadded ?_ hcall hroom
    rcases hlost with hlost | ⟨hstate, hstopped, -⟩
    · rw [hlost.1]
      decide
    · rw [hstate]
      constructor
      · intro hs
        rw [hs] at hstopped
        cases hstopped
      · intro hs
        rw [hs] at hstopped
        cases hstopped
  | returned k hk hcont heq => exact heard_returned h ht ht' hk hcont heq

theorem heard_run (tick : ℕ → ℕ) {c : Client} (found : Bool) (hc : Startable c) (es : List Event)
    (hpromise : (reads promise false (effects (run (next tick) (started c found) es))).isSome =
      true) : ∃ u, Heard (run (next tick) (started c found) es) u := by
  have all : Tracked (run (next tick) (started c found) es) ∧
      ((reads promise false (effects (run (next tick) (started c found) es))).isSome = true →
        ∃ u, Heard (run (next tick) (started c found) es) u) := by
    apply run_invariant (next tick) fun w => Tracked w ∧
      ((reads promise false (effects w)).isSome = true → ∃ u, Heard w u)
    · refine ⟨started_tracked c found, ?_⟩
      intro _
      refine ⟨.silent, rfl, rfl, ?_, hc.room, ?_⟩
      · intro b hb
        cases hb
      · intro k hk
        cases hk
    · rintro w e ⟨ht, hheard⟩
      refine ⟨next_tracked ht e, ?_⟩
      intro hpromise
      obtain ⟨b, hb⟩ := Option.isSome_iff_exists.mp hpromise
      obtain ⟨added, hgrows⟩ := @effects_next tick w ht e
      obtain ⟨c, hc, -⟩ := reads_prefix (hgrows ▸ hb)
      obtain ⟨u, hu⟩ := hheard (Option.isSome_iff_exists.mpr ⟨c, hc⟩)
      exact heard_next hu ht e hb
  exact all.2 hpromise

end WebsocketWire
