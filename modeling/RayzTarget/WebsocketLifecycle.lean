import RayzTarget.WebsocketSession

/-! # What handlers and transport see of a session

The client's contract as a monitor over its trace: a connection is announced, made or refused,
used, and given up, and none is made while a send call is under way. A send call may outlive the
connection it began on, and the unlocked poll may find one that was given up. -/
namespace WebsocketLifecycle

open WebsocketClient WebsocketWorld WebsocketSession EventRuns TraceMonitor

inductive Phase where
  | offline
  | connecting
  | refused
  | linked
  | online
  /-- A poll has failed on a connection that was already given up. -/
  | late
  | leaving
  | down
  | gone
  deriving DecidableEq, Repr

structure Stage where
  phase : Phase
  /-- A send call is under way. -/
  calling : Bool
  deriving DecidableEq, Repr

def Stage.hears (s : Stage) : EventId → Option Phase
  | .beforeConnect => if s.phase = .offline ∧ s.calling = false then some .connecting else none
  | .connected => if s.phase = .linked then some .online else none
  | .data => if s.phase = .online then some .online else none
  | .closed => if s.phase = .online then some .leaving else none
  | .disconnected => if s.phase = .down then some .offline else none
  | .error =>
    match s.phase with
    | .refused | .online | .late => some s.phase
    | .offline | .down => if s.calling then some s.phase else none
    | _ => none

def Stage.closes (s : Stage) : Option Phase :=
  match s.phase with
  | .offline | .refused | .online | .late | .leaving => some .down
  | .down => if s.calling then some .down else none
  | _ => none

def Stage.accept (s : Stage) : Effect → Option Stage
  | .dispatch d => (s.hears d.event).map fun p => ⟨p, s.calling⟩
  | .connect result =>
    if s.phase = .connecting then some ⟨if result < 0 then .refused else .linked, s.calling⟩
    else none
  | .closeTransport => s.closes.map fun p => ⟨p, s.calling⟩
  | .control _ _ _ | .read _ _ _ _ _ | .pollClosed _ => if s.phase = .online then some s else none
  | .pollRead result =>
    match s.phase with
    | .online => some s
    | .offline => some ⟨if result < 0 then .late else .offline, s.calling⟩
    | _ => none
  | .sending _ _ =>
    if (s.phase = .online ∨ s.phase = .down) ∧ s.calling = false then some ⟨s.phase, true⟩ else none
  | .frame _ _ _ _ =>
    if (s.phase = .online ∨ s.phase = .offline ∨ s.phase = .down) ∧ s.calling = true then some s
    else none
  | .sent _ _ _ => if s.calling then some ⟨s.phase, false⟩ else none
  | .turnedAway _ _ => some s
  | .destroyed => if s.phase = .down ∨ s.phase = .offline then some ⟨.gone, s.calling⟩ else none

def phaseOf : ClientState → Phase
  | .connected | .closing => .online
  | _ => .offline

def At (w : World) (s : Stage) : Prop :=
  reads Stage.accept ⟨.offline, false⟩ (w.trace.map Prod.snd) = some s

/-- Where the task stands, in which state, and in which phase of the contract. -/
def Stands (w : World) (p : Phase) : Prop :=
  match w.pc with
  | .loop | .locking | .unlocked => p = phaseOf w.client.state ∧ w.client.state.stopped = false ∧
      (w.client.state = .closing → w.call = none)
  | .heartbeat | .pongCheck | .select | .receiving =>
    p = .online ∧ w.client.state = .connected ∧ w.call = none
  | .polling => p = phaseOf w.client.state ∧
      (w.client.state = .connected ∨ w.client.state = .waitTimeout)
  | .closingWait => p = .online ∧ w.client.state = .closing ∧ w.call = none
  | .stopping | .exiting => p = .down ∨ p = .offline ∧ w.client.state ≠ .connected
  | .deleting | .ended => (p = .down ∨ p = .offline) ∧ w.client.state = .unknow
  | .destroyed => p = .gone

/-- The trace and the task's place agree. -/
def Tracked (w : World) : Prop := ∃ p, At w ⟨p, w.call.isSome⟩ ∧ Stands w p

variable {w v : World} {s t : Stage} {p : Phase} {b : Bool}

theorem At.snoc (h : At w s) {n : ℕ} {e : Effect} (htrace : v.trace = w.trace ++ [(n, e)])
    (he : s.accept e = some t) : At v t := by
  unfold At
  rw [htrace, List.map_append]
  exact (reads_snoc h e).trans he

theorem At.emit (h : At w s) {e : Effect} (he : s.accept e = some t) : At (w.emit e) t :=
  h.snoc rfl he

theorem At.of_trace (h : At w s) (htrace : v.trace = w.trace) : At v s := by
  unfold At
  rw [htrace]
  exact h

theorem stands_of_running (hpc : w.pc.looping = true)
    (hp : p = phaseOf w.client.state) (hs : w.client.state.stopped = false)
    (hclosing : w.client.state = .closing → w.call = none) : Stands w p := by
  unfold Stands
  cases h : w.pc <;> rw [h] at hpc
  case loop | locking | unlocked => exact ⟨hp, hs, hclosing⟩
  all_goals cases hpc

theorem stands_of_locked (hpc : w.pc.locked = true) (hs : w.client.state = .connected)
    (hcall : w.call = none) : Stands w .online := by
  unfold Stands
  cases h : w.pc <;> simp_all [Pc.locked]

theorem leave_tracked (h : At w ⟨p, b⟩) (hb : w.call.isSome = b)
    (hp : p = .offline ∨ p = .online ∨ p = .leaving) : Tracked (leave w) := by
  have hclose : (Stage.mk p b).accept .closeTransport = some ⟨.down, b⟩ := by
    rcases hp with rfl | rfl | rfl <;> rfl
  exact ⟨.down, (hb ▸ (h.emit hclose).of_trace rfl), Or.inl rfl⟩

theorem finish_tracked (h : At w ⟨p, w.call.isSome⟩) (hp : p = .down ∨ p = .offline)
    (hs : w.client.state = .unknow) : Tracked (finish w) := by
  simp only [finish]
  split
  · refine ⟨.gone, ?_, rfl⟩
    have hgone : (Stage.mk p w.call.isSome).accept .destroyed = some ⟨.gone, w.call.isSome⟩ := by
      rcases hp with rfl | rfl <;> rfl
    exact h.emit hgone
  · exact ⟨p, h.of_trace rfl, hp, hs⟩

/-- A connection given up is reported, and offline. -/
theorem abort_at (tick : ℕ → ℕ) (errorType : ErrorType) (h : At w ⟨p, b⟩)
    (hp : (Stage.mk p b).closes = some .down) (hs : w.client.state.stopped = false) :
    At (w.abortConnection tick errorType) ⟨.offline, b⟩ ∧
      (w.abortConnection tick errorType).client.state = .waitTimeout ∧
      (w.abortConnection tick errorType).pc = w.pc ∧
      (w.abortConnection tick errorType).call = w.call := by
  obtain ⟨c, n, hc, heq, -⟩ := World.abort_spec tick errorType hs
  have hclose : (Stage.mk p b).accept .closeTransport = some ⟨.down, b⟩ := by
    rw [Stage.accept, hp]
    rfl
  have hdown : At (w.emit .closeTransport) ⟨.down, b⟩ := h.emit hclose
  rw [heq]
  refine ⟨?_, by rw [hc], rfl, rfl⟩
  exact hdown.snoc (n := n) (e := .dispatch (eventData c .disconnected [] 0 none)) (by simp) rfl

theorem abort_tracked {tick : ℕ → ℕ} {errorType : ErrorType} {pc : Pc} (h : At w ⟨p, b⟩)
    (hb : w.call.isSome = b) (hp : (Stage.mk p b).closes = some .down)
    (hs : w.client.state.stopped = false) (hpc : pc.looping = true) :
    Tracked ((w.abortConnection tick errorType).goto pc) := by
  obtain ⟨hat, hstate, -, hcall⟩ := abort_at tick errorType h hp hs
  refine ⟨.offline, ?_, stands_of_running hpc ?_ ?_ ?_⟩
  · rw [World.goto_call, hcall, hb]
    exact hat.of_trace rfl
  · rw [World.goto_client, hstate]
    rfl
  · rw [World.goto_client, hstate]
    rfl
  · intro hclosing
    rw [World.goto_client, hstate] at hclosing
    cases hclosing

/-- A step to a place without the lock that leaves the connection as it is. -/
theorem goto_tracked {pc : Pc} (h : At w ⟨phaseOf w.client.state, w.call.isSome⟩)
    (hs : w.client.state.stopped = false) (hclosing : w.client.state = .closing → w.call = none)
    (hpc : pc.looping = true) : Tracked (w.goto pc) :=
  ⟨phaseOf w.client.state, h.of_trace rfl, stands_of_running hpc rfl hs hclosing⟩

/-- A step to a place under the lock. -/
theorem locked_tracked {pc : Pc} (h : At w ⟨.online, false⟩) (hs : w.client.state = .connected)
    (hcall : w.call = none) (hpc : pc.locked = true) : Tracked (w.goto pc) := by
  refine ⟨.online, ?_, stands_of_locked hpc hs hcall⟩
  rw [World.goto_call, hcall]
  exact h.of_trace rfl

variable {tick : ℕ → ℕ} {a : Answers}

/-! ## The task -/

theorem connect_tracked (h : At w ⟨.offline, false⟩) (hs : w.client.state = .init)
    (hcall : w.call = none) : Tracked (connect tick a w) := by
  have hoff : At w ⟨phaseOf w.client.state, w.call.isSome⟩ := by
    rw [hs, hcall]
    exact h
  have hattempt : At ((w.dispatchEvent .beforeConnect [] 0).emit (.connect a.connect))
      ⟨if a.connect < 0 then .refused else .linked, false⟩ := (h.emit rfl).emit rfl
  simp only [connect]
  split
  · exact goto_tracked (hoff.of_trace rfl) (by rw [World.update_client, hs]; rfl)
      (fun _ => hcall) rfl
  · split
    · rename_i hr
      rw [if_pos hr] at hattempt
      have herror : At ((((w.dispatchEvent .beforeConnect [] 0).emit (.connect a.connect)).update
          fun c => { c with wsHandshakeStatusCode := a.upgradeRequestStatus }).error
            (.connectFailed a.connect)) ⟨.refused, false⟩ :=
        At.emit (hattempt.of_trace (v := World.update _ _) rfl) rfl
      refine abort_tracked herror ?_ rfl ?_ rfl
      · simp [World.error, World.dispatchEvent, hcall]
      · simp [World.error, World.dispatchEvent, hs]
        rfl
    · rename_i hr
      rw [if_neg hr] at hattempt
      refine goto_tracked ?_ rfl (fun _ => hcall) rfl
      simp only [World.dispatchEvent, World.emit_call, World.update_call, hcall]
      exact At.emit (hattempt.of_trace (v := World.update _ _) rfl) rfl

theorem reconnect_tracked (h : At w ⟨.offline, false⟩) (hs : w.client.state = .waitTimeout)
    (hcall : w.call = none) : Tracked (reconnect tick w) := by
  have hoff : At w ⟨phaseOf w.client.state, w.call.isSome⟩ := by
    rw [hs, hcall]
    exact h
  have hrun : w.client.state.stopped = false := by rw [hs]; rfl
  simp only [reconnect]
  split
  · exact goto_tracked (hoff.of_trace rfl) hrun (fun _ => hcall) rfl
  · split
    · refine goto_tracked ?_ rfl (fun _ => hcall) rfl
      simp only [World.read_call, World.update_call, hcall]
      exact h.of_trace rfl
    · exact goto_tracked (hoff.of_trace rfl) hrun (fun _ => hcall) rfl

theorem echoClose_tracked (h : At w ⟨.online, w.call.isSome⟩) (hs : w.client.state = .closing)
    (hcall : w.call = none) : Tracked (echoClose w) := by
  have hrun : w.client.state.stopped = false := by rw [hs]; rfl
  simp only [echoClose]
  split
  · refine goto_tracked ?_ hrun (fun _ => hcall) rfl
    simp only [World.update_client, World.emit_client, World.update_call, World.emit_call, hs]
    exact (h.emit rfl).of_trace rfl
  · refine goto_tracked ?_ hrun (fun _ => hcall) rfl
    rw [hs]
    exact h

theorem enter_tracked (h : At w ⟨phaseOf w.client.state, w.call.isSome⟩)
    (hs : w.client.state.stopped = false) (hclosing : w.client.state = .closing → w.call = none) :
    Tracked (enter w) := by
  simp only [enter]
  split
  · refine leave_tracked h rfl ?_
    cases w.client.state <;> simp [phaseOf]
  · exact goto_tracked h hs hclosing rfl

theorem lock_tracked (h : At w ⟨phaseOf w.client.state, w.call.isSome⟩)
    (hs : w.client.state.stopped = false) (hclosing : w.client.state = .closing → w.call = none)
    (hpc : w.pc = .locking) : Tracked (lock tick a w) := by
  simp only [lock]
  split
  · exact ⟨_, h, stands_of_running (by rw [hpc]; rfl) rfl hs hclosing⟩
  · rename_i hfree
    have hcall : w.call = none := by simpa using hfree
    cases hstate : w.client.state with
    | init => exact connect_tracked (by simpa [hstate, hcall, phaseOf] using h) hstate hcall
    | connected =>
      have hon : At w ⟨.online, false⟩ := by simpa [hstate, hcall, phaseOf] using h
      simp only
      split
      · exact locked_tracked hon hstate hcall rfl
      · exact locked_tracked hon hstate hcall rfl
    | waitTimeout =>
      exact reconnect_tracked (by simpa [hstate, hcall, phaseOf] using h) hstate hcall
    | closing => exact echoClose_tracked (by simpa [hstate, phaseOf] using h) hstate hcall
    | error => rw [hstate] at hs; cases hs
    | unknow => rw [hstate] at hs; cases hs

theorem heartbeat_tracked (h : At w ⟨.online, false⟩) (hs : w.client.state = .connected)
    (hcall : w.call = none) : Tracked (heartbeat tick w) := by
  simp only [heartbeat, sendPing]
  split
  · have hping : ∀ f : Client → Client,
        At (((w.read.update f).read).emit (.control .ping [] 0)) ⟨.online, false⟩ := fun f =>
      At.emit (w := (w.read.update f).read) (h.of_trace rfl) rfl
    split
    · exact locked_tracked ((hping _).of_trace rfl) hs hcall rfl
    · exact locked_tracked ((hping _).of_trace rfl) hs hcall rfl
  · exact locked_tracked (h.of_trace rfl) hs hcall rfl

theorem pongCheck_tracked (h : At w ⟨.online, false⟩) (hs : w.client.state = .connected)
    (hcall : w.call = none) : Tracked (pongCheck tick w) := by
  simp only [pongCheck]
  split
  · have herror : ∀ c, At (w.read.error c) ⟨.online, false⟩ := fun c =>
      At.emit (w := w.read) (h.of_trace rfl) rfl
    refine abort_tracked (herror _) ?_ rfl ?_ rfl
    · simp [World.error, hcall]
    · simp only [World.error, World.emit_client, World.read_client, hs]
      rfl
  · exact locked_tracked (h.of_trace rfl) hs hcall rfl

theorem select_tracked (h : At w ⟨.online, false⟩) (hs : w.client.state = .connected)
    (hcall : w.call = none) : Tracked (select tick w) := by
  simp only [select]
  split
  · refine goto_tracked ?_ (by rw [hs]; rfl) (fun _ => hcall) rfl
    rw [hs, hcall]
    exact h
  · exact locked_tracked (h.of_trace rfl) hs hcall rfl

theorem received_tracked (h : At w ⟨.online, false⟩) (hs : w.client.state = .connected)
    (hcall : w.call = none) : Tracked (received w) := by
  have hon : At w ⟨phaseOf w.client.state, w.call.isSome⟩ := by
    rw [hs, hcall]
    exact h
  have hrun : w.client.state.stopped = false := by rw [hs]; rfl
  unfold received
  cases w.client.lastOpcode with
  | ping =>
    refine goto_tracked ?_ hrun (fun _ => hcall) rfl
    simp only [World.emit_client, World.emit_call, hs, hcall]
    exact h.emit rfl
  | pong => exact goto_tracked (hon.of_trace rfl) hrun (fun _ => hcall) rfl
  | close =>
    refine goto_tracked ?_ rfl (fun _ => hcall) rfl
    rw [World.update_call, hcall]
    exact h.of_trace rfl
  | cont => exact goto_tracked hon hrun (fun _ => hcall) rfl
  | text => exact goto_tracked hon hrun (fun _ => hcall) rfl
  | binary => exact goto_tracked hon hrun (fun _ => hcall) rfl
  | fin => exact goto_tracked hon hrun (fun _ => hcall) rfl
  | none => exact goto_tracked hon hrun (fun _ => hcall) rfl

def readInto (a : Answers) (c : Client) : Client :=
  { c with payloadLen := a.payloadLen, lastFin := a.fin, lastOpcode := a.opcode
           rxBuffer := WebsocketSend.memcpy c.rxBuffer a.bytes 0 a.rlen.toNat }

def readData (a : Answers) (c : Client) : EventData :=
  eventData (readInto a c) .data ((readInto a c).rxBuffer.take a.rlen.toNat) a.rlen none

def handedOn (a : Answers) (w : World) : World :=
  { w with
    client := { readInto a w.client with payloadOffset := w.client.payloadOffset + a.rlen }
    trace := w.trace ++ [(w.ticks, .read a.rlen a.bytes a.payloadLen a.fin a.opcode),
      (w.ticks, .dispatch (readData a w.client))] }

/-- A read fails, times out, or is handed on. -/
theorem recv_cases :
    (a.rlen < 0 ∧ recv tick a w = (((w.emit (.read a.rlen a.bytes a.payloadLen a.fin
        a.opcode)).error (.readFailed a.rlen)).abortConnection tick .tcpTransport).goto .unlocked) ∨
    (a.rlen = 0 ∧ a.opcode = .none ∧ recv tick a w =
        ((w.emit (.read a.rlen a.bytes a.payloadLen a.fin a.opcode)).update (readInto a)).goto
          .unlocked) ∨
    (0 ≤ a.rlen ∧ ¬(a.rlen = 0 ∧ a.opcode = .none) ∧ recv tick a w =
        if w.client.payloadOffset + a.rlen < a.payloadLen then handedOn a w
        else received (handedOn a w)) := by
  simp only [recv]
  split
  · rename_i hr
    exact .inl ⟨hr, rfl⟩
  · rename_i hr
    right
    split
    · rename_i hnone
      exact .inl ⟨hnone.1, hnone.2, rfl⟩
    · rename_i hnone
      refine .inr ⟨by omega, hnone, ?_⟩
      have hhanded : ((((w.emit (.read a.rlen a.bytes a.payloadLen a.fin a.opcode)).update
          (readInto a)).dispatchEvent .data ((readInto a w.client).rxBuffer.take a.rlen.toNat)
            a.rlen).update fun c => { c with payloadOffset := c.payloadOffset + a.rlen }) =
          handedOn a w := by
        simp [handedOn, World.emit, World.update, World.dispatchEvent, readData, readInto]
      rw [← hhanded]
      rfl

theorem recv_tracked (h : At w ⟨.online, false⟩) (hs : w.client.state = .connected)
    (hcall : w.call = none) (hpc : w.pc = .receiving) : Tracked (recv tick a w) := by
  have hread : At (w.emit (.read a.rlen a.bytes a.payloadLen a.fin a.opcode)) ⟨.online, false⟩ :=
    h.emit rfl
  rcases @recv_cases w tick a with ⟨-, heq⟩ | ⟨-, -, heq⟩ | ⟨-, -, heq⟩
  · rw [heq]
    refine abort_tracked (hread.emit rfl) ?_ rfl ?_ rfl
    · simp [World.error, hcall]
    · simp only [World.error, World.emit_client, hs]
      rfl
  · rw [heq]
    refine goto_tracked ?_ ?_ (fun _ => hcall) rfl
    · simp only [World.update_client, World.emit_client, World.update_call, World.emit_call, hcall,
        readInto, hs]
      exact hread.of_trace rfl
    · simp only [World.update_client, World.emit_client, readInto, hs]
      rfl
  · have hdata : At (handedOn a w) ⟨.online, false⟩ :=
      hread.snoc (n := w.ticks) (e := .dispatch (readData a w.client)) (by simp [handedOn]) rfl
    have hs' : (handedOn a w).client.state = .connected := hs
    rw [heq]
    split
    · refine ⟨.online, ?_, stands_of_locked ?_ hs' hcall⟩
      · rw [show (handedOn a w).call = none from hcall]
        exact hdata
      · rw [show (handedOn a w).pc = .receiving from hpc]
        rfl
    · exact received_tracked hdata hs' hcall

theorem wait_tracked (h : At w ⟨phaseOf w.client.state, w.call.isSome⟩)
    (hs : w.client.state.stopped = false) (hclosing : w.client.state = .closing → w.call = none) :
    Tracked (wait w) := by
  simp only [wait]
  cases hstate : w.client.state with
  | connected =>
    rw [hstate] at h
    exact ⟨.online, h.of_trace rfl, by rw [World.goto_client, hstate]; rfl, .inl hstate⟩
  | closing =>
    simp only
    split
    · rw [hstate] at h
      exact ⟨.online, h.of_trace rfl, rfl, hstate, hclosing hstate⟩
    · exact goto_tracked h hs hclosing rfl
  | init => exact goto_tracked h hs hclosing rfl
  | waitTimeout => exact goto_tracked h hs hclosing rfl
  | error => rw [hstate] at hs; cases hs
  | unknow => rw [hstate] at hs; cases hs

/-- The poll may fail on the connection, or late, on one that was given up. -/
theorem polled_tracked (h : At w ⟨phaseOf w.client.state, w.call.isSome⟩)
    (hs : w.client.state = .connected ∨ w.client.state = .waitTimeout) :
    Tracked (polled tick a w) := by
  have hrun : w.client.state.stopped = false := by
    rcases hs with hs | hs <;> rw [hs] <;> rfl
  simp only [polled]
  split
  · rename_i hr
    have hpoll : ∃ p, At (w.emit (.pollRead a.pollRead)) ⟨p, w.call.isSome⟩ ∧
        (p = .online ∨ p = .late) := by
      rcases hs with hs | hs
      · rw [hs] at h
        exact ⟨.online, h.emit rfl, .inl rfl⟩
      · rw [hs] at h
        refine ⟨.late, h.emit ?_, .inr rfl⟩
        simp [Stage.accept, phaseOf, hr]
    obtain ⟨p, hpoll, hp⟩ := hpoll
    have herror : At
        (({ w.emit (.pollRead a.pollRead) with readSelect := a.pollRead } : World).error
          (.pollFailed a.pollRead)) ⟨p, w.call.isSome⟩ := by
      refine At.emit (hpoll.of_trace rfl) ?_
      rcases hp with rfl | rfl <;> rfl
    refine abort_tracked herror rfl ?_ hrun rfl
    rcases hp with rfl | rfl <;> rfl
  · rename_i hr
    have hpoll : At (w.emit (.pollRead a.pollRead)) ⟨phaseOf w.client.state, w.call.isSome⟩ := by
      refine h.emit ?_
      rcases hs with hs | hs <;> rw [hs]
      · rfl
      · simp [Stage.accept, phaseOf, hr]
    refine goto_tracked (hpoll.of_trace rfl) hrun ?_ rfl
    intro hclosing
    rcases hs with hs | hs <;> rw [World.emit_client, hs] at hclosing <;> cases hclosing

theorem pollClosed_tracked (h : At w ⟨.online, w.call.isSome⟩) : Tracked (pollClosed a w) := by
  have hpoll : At (w.emit (.pollClosed a.pollClosed)) ⟨.online, w.call.isSome⟩ := h.emit rfl
  simp only [pollClosed]
  split
  · exact leave_tracked hpoll rfl (.inr (.inl rfl))
  · exact leave_tracked ((hpoll.of_trace (v := World.update _ _) rfl).emit rfl) rfl
      (.inr (.inr rfl))

/-- Under the lock the connection is up and no call is under way. -/
theorem Tracked.locked (h : Tracked w) (hl : w.pc.locked = true) :
    At w ⟨.online, false⟩ ∧ w.client.state = .connected ∧ w.call = none := by
  obtain ⟨p, hat, hstands⟩ := h
  have : p = .online ∧ w.client.state = .connected ∧ w.call = none := by
    unfold Stands at hstands
    cases hpc : w.pc <;> rw [hpc] at hl hstands <;> first | exact hstands | cases hl
  obtain ⟨rfl, hs, hcall⟩ := this
  rw [hcall] at hat
  exact ⟨hat, hs, hcall⟩

theorem taskStep_tracked (h : Tracked w) : Tracked (taskStep tick a w) := by
  have locked := h.locked
  obtain ⟨p, hat, hstands⟩ := id h
  unfold taskStep
  unfold Stands at hstands
  cases hpc : w.pc with
  | loop =>
    rw [hpc] at hstands
    obtain ⟨rfl, hs, hclosing⟩ := hstands
    exact enter_tracked hat hs hclosing
  | locking =>
    rw [hpc] at hstands
    obtain ⟨rfl, hs, hclosing⟩ := hstands
    exact lock_tracked hat hs hclosing hpc
  | heartbeat =>
    obtain ⟨hat, hs, hcall⟩ := locked (by rw [hpc]; rfl)
    exact heartbeat_tracked hat hs hcall
  | pongCheck =>
    obtain ⟨hat, hs, hcall⟩ := locked (by rw [hpc]; rfl)
    exact pongCheck_tracked hat hs hcall
  | select =>
    obtain ⟨hat, hs, hcall⟩ := locked (by rw [hpc]; rfl)
    exact select_tracked hat hs hcall
  | receiving =>
    obtain ⟨hat, hs, hcall⟩ := locked (by rw [hpc]; rfl)
    exact recv_tracked hat hs hcall hpc
  | unlocked =>
    rw [hpc] at hstands
    obtain ⟨rfl, hs, hclosing⟩ := hstands
    exact wait_tracked hat hs hclosing
  | polling =>
    rw [hpc] at hstands
    obtain ⟨rfl, hs⟩ := hstands
    exact polled_tracked hat hs
  | closingWait =>
    rw [hpc] at hstands
    obtain ⟨rfl, -⟩ := hstands
    exact pollClosed_tracked hat
  | stopping =>
    rw [hpc] at hstands
    exact ⟨p, hat.of_trace rfl, hstands⟩
  | exiting =>
    rw [hpc] at hstands
    exact ⟨p, hat.of_trace rfl, hstands.imp_right And.left, rfl⟩
  | deleting =>
    rw [hpc] at hstands
    exact finish_tracked hat hstands.1 hstands.2
  | ended => exact h
  | destroyed => exact h

/-! ## The calls -/

/-- While a call is under way the task holds no lock, and the transport is connected or closed. -/
theorem calling_phase {k : Call} (hk : w.call = some k) (h : Stands w p) (hpc : w.pc ≠ .destroyed) :
    (p = .online ∨ p = .offline ∨ p = .down) ∧ w.pc.locked = false ∧ w.pc ≠ .closingWait := by
  unfold Stands at h
  cases hw : w.pc <;> rw [hw] at h hpc
  case loop | locking | unlocked | polling =>
    obtain ⟨rfl, -⟩ := h
    refine ⟨?_, rfl, by simp⟩
    cases w.client.state <;> simp [phaseOf]
  case stopping | exiting | deleting | ended => exact ⟨by tauto, rfl, by simp⟩
  case destroyed => exact absurd rfl hpc
  all_goals
    have := h.2.2
    rw [hk] at this
    cases this

/-- Without the lock, only the state of the client and the task's place count. -/
theorem Stands.unlocked (h : Stands w p) (hpc : v.pc = w.pc) (hl : w.pc.locked = false)
    (hc : w.pc ≠ .closingWait) (hs : v.client.state = w.client.state)
    (hclosing : w.client.state = .closing → w.call = none → v.call = none) : Stands v p := by
  unfold Stands at h ⊢
  rw [hpc, hs]
  cases hw : w.pc <;> rw [hw] at h hl hc
  case loop | locking | unlocked => exact ⟨h.1, h.2.1, fun hs => hclosing hs (h.2.2 hs)⟩
  case polling | stopping | exiting | deleting | ended | destroyed => exact h
  case closingWait => exact absurd rfl hc
  all_goals cases hl

/-- Giving up the connection of a call keeps the task's place. -/
theorem Stands.abort (h : Stands w p) (hpc : v.pc = w.pc) (hl : w.pc.locked = false)
    (hc : w.pc ≠ .closingWait) (hd : w.pc ≠ .destroyed) (hrun : w.client.state.stopped = false)
    (hs : v.client.state = .waitTimeout) : Stands v .offline := by
  unfold Stands at h ⊢
  rw [hpc, hs]
  cases hw : w.pc <;> rw [hw] at h hl hc hd
  case loop | locking | unlocked => exact ⟨rfl, rfl, fun hclosing => by cases hclosing⟩
  case polling => exact ⟨rfl, .inr rfl⟩
  case stopping | exiting => exact .inr ⟨rfl, by simp⟩
  case deleting | ended =>
    rw [h.2] at hrun
    cases hrun
  case closingWait => exact absurd rfl hc
  case destroyed => exact absurd rfl hd
  all_goals cases hl

theorem advance_tracked {k : Call} (hk : w.call = some k) (h : Tracked w) (hd : w.pc ≠ .destroyed)
    (wlen : ℤ) : Tracked (advance tick w k wlen) := by
  obtain ⟨p, hat, hstands⟩ := h
  obtain ⟨hp, hl, hc⟩ := calling_phase hk hstands hd
  rw [hk] at hat
  have none_closing : ∀ {o : Option Call}, w.client.state = .closing → w.call = none →
      o = none := by
    intro o _ hnone
    rw [hk] at hnone
    cases hnone
  simp only [advance]
  split
  · generalize k.loop.handing k.data w.client.bufferSize wlen = g
    generalize k.loop.next k.data w.client.bufferSize wlen = l
    have hframe : At ((w.emit (.frame g.opcode g.buffer g.needWrite g.wlen)).update fun c =>
        { c with txBuffer := l.txBuffer }) ⟨p, true⟩ := by
      refine At.of_trace (hat.emit (e := .frame g.opcode g.buffer g.needWrite g.wlen) ?_) rfl
      rcases hp with rfl | rfl | rfl <;> rfl
    split
    · rename_i ret _
      have herror : At (((w.emit (.frame g.opcode g.buffer g.needWrite g.wlen)).update fun c =>
          { c with txBuffer := l.txBuffer }).error (.writeFailed ret)) ⟨p, true⟩ := by
        refine hframe.emit ?_
        rcases hp with rfl | rfl | rfl <;> rfl
      cases hrun : w.client.state.stopped with
      | true =>
        rw [World.abort_stopped tick .tcpTransport (by exact hrun)]
        exact ⟨p, herror.emit rfl, hstands.unlocked rfl hl hc rfl none_closing⟩
      | false =>
        obtain ⟨hoff, hstate, hpc, -⟩ := abort_at tick .tcpTransport herror
          (by rcases hp with rfl | rfl | rfl <;> rfl) (by exact hrun)
        exact ⟨.offline, hoff.emit rfl, hstands.abort hpc hl hc hd hrun hstate⟩
    · exact ⟨p, hframe.of_trace rfl, hstands.unlocked rfl hl hc rfl none_closing⟩
  · exact ⟨p, hat.emit rfl, hstands.unlocked rfl hl hc rfl none_closing⟩

theorem callStep_tracked (h : Tracked w) (hd : w.pc ≠ .destroyed) (wlen : ℤ) :
    Tracked (callStep tick w wlen) := by
  unfold callStep
  cases hk : w.call with
  | none => exact h
  | some k => exact advance_tracked hk h hd wlen

theorem turnedAway_tracked (h : Tracked w) (opcode : Opcode) (bytes : List Byte) :
    Tracked (w.emit (.turnedAway opcode bytes)) := by
  obtain ⟨p, hat, hstands⟩ := h
  exact ⟨p, hat.emit rfl, hstands⟩

/-- A call gets the lock on a connection, or while the loop is being left. -/
theorem connected_phase (h : Stands w p) (hs : w.client.state = .connected)
    (hl : w.pc.locked = false) :
    (p = .online ∨ p = .down) ∧ w.pc ≠ .closingWait ∨ w.pc = .destroyed := by
  unfold Stands at h
  cases hw : w.pc <;> rw [hw] at h hl <;> simp_all [phaseOf, Pc.locked]

theorem send_tracked (h : Tracked w) (hd : w.pc ≠ .destroyed) (opcode : Opcode)
    (data : Option (List Byte)) (len : ℤ) (locked : Bool) :
    Tracked (send w opcode data len locked) := by
  simp only [send]
  split
  · exact turnedAway_tracked h ..
  · split
    · exact turnedAway_tracked h ..
    · split
      · exact turnedAway_tracked h ..
      · split
        · exact turnedAway_tracked h ..
        · rename_i hlock hconn _
          have hs : w.client.state = .connected := not_not.mp hconn
          obtain ⟨hl, hcall⟩ : w.pc.locked = false ∧ w.call = none := by
            simpa [World.lockFree] using fun h => hlock (.inr h)
          obtain ⟨p, hat, hstands⟩ := h
          rcases connected_phase hstands hs hl with ⟨hp, hc⟩ | hgone
          · have hsending : (Stage.mk p false).accept (.sending opcode (passed data len)) =
                some ⟨p, true⟩ := by
              rcases hp with rfl | rfl <;> rfl
            rw [hcall] at hat
            refine ⟨p, (hat.emit hsending).of_trace rfl, hstands.unlocked rfl hl hc rfl ?_⟩
            intro hclosing
            rw [hs] at hclosing
            cases hclosing
          · exact absurd hgone hd

/-- A call that changes neither the trace nor the state of the connection. -/
theorem Tracked.update (h : Tracked w) {f : Client → Client}
    (hf : ∀ c, (f c).state = c.state) : Tracked (w.update f) := by
  obtain ⟨p, hat, hstands⟩ := h
  refine ⟨p, hat.of_trace rfl, ?_⟩
  unfold Stands at hstands ⊢
  rw [World.update_client, hf]
  exact hstands

/-- The last write of a stop or a close comes after the task has left its loop. -/
theorem setUnknow_tracked (h : Tracked w) (hd : w.pc ≠ .destroyed) : Tracked (setUnknow w) := by
  simp only [setUnknow]
  split
  · rename_i hsaid
    obtain ⟨p, hat, hstands⟩ := h
    refine ⟨p, hat.of_trace rfl, ?_⟩
    unfold Stands at hstands ⊢
    simp only [World.update_pc, World.update_client]
    cases hpc : w.pc <;> rw [hpc] at hstands hsaid hd
    case exiting => exact hstands.imp_right fun h => ⟨h.1, by simp⟩
    case deleting | ended => exact ⟨hstands.1, trivial⟩
    case destroyed => exact absurd rfl hd
    all_goals cases hsaid
  · exact h

theorem next_tracked (h : Tracked w) (e : Event) : Tracked (next tick w e) := by
  unfold next
  split
  · exact h
  · rename_i hd
    cases e with
    | task a => exact taskStep_tracked h
    | send opcode data len locked => exact send_tracked h hd ..
    | callStep wlen => exact callStep_tracked h hd wlen
    | close body =>
      simp only [close]
      split
      · exact h
      · exact send_tracked h hd ..
    | setCloseFrameSent => exact h.update fun _ => rfl
    | stop => exact h.update fun _ => rfl
    | setUnknow => exact setUnknow_tracked h hd
    | clearBits => exact h.update fun _ => rfl
    | destroyOnExit => exact h.update fun _ => rfl
    | setPingIntervalSec n => exact h.update fun _ => rfl

theorem started_tracked (c : Client) (found : Bool) : Tracked (started c found) :=
  ⟨.offline, rfl, rfl, rfl, fun h => by cases h⟩

theorem tracked_run (tick : ℕ → ℕ) (c : Client) (found : Bool) (es : List Event) :
    Tracked (run (next tick) (started c found) es) :=
  run_invariant (next tick) Tracked (started_tracked c found) (fun _ e h => next_tracked h e) es

def up : Phase → Bool
  | .linked | .online | .leaving => true
  | _ => false

theorem up_hears {s : Stage} {event : EventId} {p : Phase} (h : s.hears event = some p) :
    up p = up s.phase := by
  obtain ⟨phase, calling⟩ := s
  cases event <;> cases phase <;> cases calling <;> cases h <;> rfl

def connects (connected : Bool) : Effect → Bool
  | .connect result => decide (0 ≤ result) || connected
  | .closeTransport => false
  | _ => connected

def linked (es : List Effect) : Bool := es.foldl connects false

theorem accept_connects {t : Stage} {e : Effect} (h : s.accept e = some t) :
    connects (up s.phase) e = up t.phase := by
  obtain ⟨phase, calling⟩ := s
  cases e with
  | dispatch d =>
    obtain ⟨p, hp, rfl⟩ := Option.map_eq_some_iff.mp h
    exact (up_hears hp).symm
  | connect result =>
    simp only [Stage.accept] at h
    split at h <;> cases h
    rename_i hphase
    by_cases hr : result < 0
    · simp [connects, hphase, up, hr]
    · simp [connects, hphase, up, hr, Int.not_lt.mp hr]
  | closeTransport =>
    obtain ⟨p, hp, rfl⟩ := Option.map_eq_some_iff.mp h
    cases phase <;> cases calling <;> cases hp <;> rfl
  | pollRead result =>
    cases phase <;> cases h <;> first | rfl | (simp only; split <;> rfl)
  | destroyed => cases phase <;> cases h <;> rfl
  | turnedAway opcode data =>
    cases h
    rfl
  | _ =>
    simp only [Stage.accept] at h
    split at h <;> cases h
    rfl

/-- The contract knows whether the transport is connected. -/
theorem At.linked (h : At w s) : linked (effects w) = up s.phase := by
  have all : ∀ (es : List Effect) (r t : Stage), reads Stage.accept r es = some t →
      es.foldl connects (up r.phase) = up t.phase := by
    intro es
    induction es with
    | nil =>
      intro r t hr
      cases hr
      rfl
    | cons e es ih =>
      intro r t hr
      obtain ⟨q, hq, hrest⟩ := Option.bind_eq_some_iff.mp hr
      rw [List.foldl_cons, accept_connects hq]
      exact ih q t hrest
  exact all (effects w) ⟨.offline, false⟩ s h

end WebsocketLifecycle
