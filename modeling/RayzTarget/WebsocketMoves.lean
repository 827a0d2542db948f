import RayzTarget.WebsocketLifecycle

/-! # What one step of a session can do

Every step, of the task or of a call, is one of a few moves on the connection, on the timers
and on the wire. The runs are studied through the moves, not through the code of the steps. -/
namespace WebsocketMoves

open WebsocketClient WebsocketWorld WebsocketSession WebsocketLifecycle EventRuns

def missesPong (d : EventData) : Bool :=
  match d.cause with
  | some (.noPong _) => true
  | _ => false

/-- Neither a read nor what comes of one: a data event, a PONG. -/
def deaf : Effect → Bool
  | .read _ _ _ _ _ | .control .pong _ _ => false
  | .dispatch d => d.event != .data
  | _ => true

/-- Nothing on the wire, nothing read, no connection tried and no PONG missed. -/
def quiet : Effect → Bool
  | .dispatch d => d.event != .data && !missesPong d
  | .closeTransport | .turnedAway _ _ | .pollRead _ | .pollClosed _ | .destroyed => true
  | _ => false

def PongTimerKept (c c' : Client) : Prop :=
  c'.waitForPongResp = c.waitForPongResp ∧ c'.pingpongTickMs = c.pingpongTickMs

/-- The connection was given up at a reading of the clock in this step, if it is to be tried
again. -/
def GivenUp (tick : ℕ → ℕ) (w w' : World) : Prop :=
  w'.client.state = .waitTimeout ∧ w.ticks ≤ w'.ticks ∧
    (w'.client.config.autoReconnect = true →
      ∃ k, w.ticks ≤ k ∧ k < w'.ticks ∧ w'.client.reconnectTickMs = tick k)

def Added (w w' : World) (added : List (ℕ × Effect)) : Prop :=
  w'.trace = w.trace ++ added ∧ ∀ x ∈ added, quiet x.2 = true

inductive Move (tick : ℕ → ℕ) (w w' : World) : Prop where
  | quiet (added : List (ℕ × Effect)) (htrace : Added w w' added) (hticks : w.ticks ≤ w'.ticks)
      (hpong : PongTimerKept w.client w'.client) (hcall : w'.call = w.call)
      (hstate : w'.client.state = w.client.state ∧
          w'.client.reconnectTickMs = w.client.reconnectTickMs ∨ w'.client.state = .unknow)
  | retry (hstate : w.client.state = .waitTimeout) (hauto : w.client.config.autoReconnect = true)
      (hdue : toUInt64 w.client.waitTimeoutMs < tick w.ticks - w.client.reconnectTickMs)
      (htrace : w'.trace = w.trace) (hticks : w'.ticks = w.ticks + 2)
      (hpong : PongTimerKept w.client w'.client) (hinit : w'.client.state = .init)
      (hfree : w.call = none) (hcall : w'.call = none)
  | opened (d d' : EventData) (result : ℤ) (hstate : w.client.state = .init) (hr : 0 ≤ result)
      (htrace : w'.trace = w.trace ++
        [(w.ticks, .dispatch d), (w.ticks, .connect result), (w.ticks, .dispatch d')])
      (hd : WebsocketMoves.quiet (.dispatch d) = true)
      (hd' : WebsocketMoves.quiet (.dispatch d') = true) (hticks : w'.ticks = w.ticks)
      (hconnected : w'.client.state = .connected) (hpong : w'.client.waitForPongResp = false)
      (hfree : w.call = none) (hcall : w'.call = none)
  | refused (d : EventData) (result : ℤ) (added : List (ℕ × Effect))
      (hstate : w.client.state = .init) (hr : result < 0)
      (htrace : w'.trace = w.trace ++
        (w.ticks, .dispatch d) :: (w.ticks, .connect result) :: added)
      (hd : WebsocketMoves.quiet (.dispatch d) = true)
      (hadded : ∀ x ∈ added, WebsocketMoves.quiet x.2 = true)
      (hlost : GivenUp tick w w') (hpong : PongTimerKept w.client w'.client)
      (hfree : w.call = none) (hcall : w'.call = none)
  | lost (added : List (ℕ × Effect))
      (hstate : w.client.state = .connected ∨ w.client.state = .waitTimeout)
      (htrace : Added w w' added) (hlost : GivenUp tick w w')
      (hpong : PongTimerKept w.client w'.client) (hcall : w'.call = w.call)
  | overdue (d : EventData) (added : List (ℕ × Effect)) (hstate : w.client.state = .connected)
      (hwait : w.client.waitForPongResp = true)
      (hlate : pingpongTimeoutMs w.client < tick w.ticks - w.client.pingpongTickMs)
      (htrace : w'.trace = w.trace ++ (w.ticks + 1, .dispatch d) :: added)
      (hadded : ∀ x ∈ added, WebsocketMoves.quiet x.2 = true) (hlost : GivenUp tick w w')
      (hpong : PongTimerKept w.client w'.client) (hfree : w.call = none) (hcall : w'.call = none)
      (hd : d.event = .error)
  | ping (hstate : w.client.state = .connected) (hconnected : w'.client.state = .connected)
      (htrace : w'.trace = w.trace ++ [(w.ticks + 2, .control .ping [] 0)])
      (hticks : w.ticks + 2 ≤ w'.ticks)
      (hpong : (w.client.waitForPongResp = false ∧ w.client.config.pingpongTimeoutSec ≠ 0 ∧
          w'.client.waitForPongResp = true ∧ w'.client.pingpongTickMs = tick (w.ticks + 2)) ∨
        PongTimerKept w.client w'.client)
      (hfree : w.call = none) (hcall : w'.call = none)
  | echo (hstate : w.client.state = .closing) (hsame : w'.client.state = .closing)
      (htrace : w'.trace = w.trace ++ [(w.ticks, .control .close [] 0)])
      (hticks : w'.ticks = w.ticks) (hpong : PongTimerKept w.client w'.client)
      (hfree : w.call = none) (hcall : w'.call = none)
  | recv (a : Answers) (hpc : w.pc = .receiving) (hstate : w.client.state = .connected)
      (hfree : w.call = none) (h : w' = recv tick a w)
  | begun (opcode : Opcode) (data : Option (List Byte)) (len : ℤ)
      (hstate : w.client.state = .connected) (hfree : w.call = none)
      (h : w' = (w.emit (.sending opcode (passed data len))).setCall
        (some ⟨opcode, passed data len,
          WebsocketSend.start (passed data len) opcode w.client.txBuffer⟩))
  | passed (k : Call) (wlen : ℤ) (hk : w.call = some k) (hcont : k.loop.continues k.data = true)
      (hdone : (k.loop.next k.data w.client.bufferSize wlen).failure = none)
      (htrace : w'.trace = w.trace ++ [(w.ticks,
        let h := k.loop.handing k.data w.client.bufferSize wlen
        .frame h.opcode h.buffer h.needWrite h.wlen)])
      (hticks : w'.ticks = w.ticks) (hstate : w'.client.state = w.client.state)
      (hsince : w'.client.reconnectTickMs = w.client.reconnectTickMs)
      (hpong : PongTimerKept w.client w'.client)
      (hcall : w'.call = some { k with loop := k.loop.next k.data w.client.bufferSize wlen })
  | broken (k : Call) (wlen ret : ℤ) (added : List (ℕ × Effect)) (hk : w.call = some k)
      (hcont : k.loop.continues k.data = true)
      (hfailed : (k.loop.next k.data w.client.bufferSize wlen).failure = some ret)
      (htrace : w'.trace = w.trace ++ [(w.ticks,
        let h := k.loop.handing k.data w.client.bufferSize wlen
        .frame h.opcode h.buffer h.needWrite h.wlen)] ++ added ++
          [(w'.ticks, .sent k.opcode k.data ret)])
      (hadded : ∀ x ∈ added, WebsocketMoves.quiet x.2 = true)
      (hlost : GivenUp tick w w' ∨ w'.client.state = w.client.state ∧
        w.client.state.stopped = true ∧ w'.ticks = w.ticks)
      (hpong : PongTimerKept w.client w'.client) (hcall : w'.call = none)
  | returned (k : Call) (hk : w.call = some k) (hcont : k.loop.continues k.data = false)
      (h : w' = (w.emit (.sent k.opcode k.data k.loop.widx)).setCall none)

variable {tick : ℕ → ℕ} {a : Answers} {w v : World}

theorem Added.trans {u : World} {xs ys : List (ℕ × Effect)} (h : Added w v xs)
    (h' : Added v u ys) : Added w u (xs ++ ys) := by
  refine ⟨by rw [h'.1, h.1, List.append_assoc], ?_⟩
  intro x hx
  exact (List.mem_append.mp hx).elim (h.2 x) (h'.2 x)

theorem added_nil (h : v.trace = w.trace) : Added w v [] :=
  ⟨by rw [h, List.append_nil], by simp⟩

theorem added_one {n : ℕ} {e : Effect} (h : v.trace = w.trace ++ [(n, e)]) (he : quiet e = true) :
    Added w v [(n, e)] :=
  ⟨h, fun x hx => by rw [List.mem_singleton.mp hx]; exact he⟩

theorem abort_gives_up (errorType : ErrorType) (hs : v.client.state.stopped = false)
    (hticks : w.ticks ≤ v.ticks) :
    GivenUp tick w (v.abortConnection tick errorType) ∧
      PongTimerKept v.client (v.abortConnection tick errorType).client ∧
      (v.abortConnection tick errorType).call = v.call ∧
      ∃ added, Added v (v.abortConnection tick errorType) added := by
  obtain ⟨c, n, hc, heq, hn⟩ := World.abort_spec tick errorType hs
  have hconfig : c.config = v.client.config := by rw [hc]
  rw [heq]
  refine ⟨⟨by rw [hc], ?_, ?_⟩, by rw [hc]; exact ⟨rfl, rfl⟩, rfl, _, rfl, ?_⟩
  · simp only
    omega
  · intro hauto
    simp only [hconfig] at hauto
    rcases hn with ⟨-, hn, hsince⟩ | ⟨hoff, -⟩
    · exact ⟨v.ticks, hticks, by simp only; omega, hsince⟩
    · rw [hauto] at hoff
      cases hoff
  · intro x hx
    rcases List.mem_cons.mp hx with rfl | hx
    · rfl
    · rw [List.mem_singleton.mp hx]
      rfl

/-- A connection given up after nothing but quiet effects. -/
theorem lost_of_abort (added : List (ℕ × Effect)) (errorType : ErrorType) (pc : Pc)
    (hs : w.client.state = .connected ∨ w.client.state = .waitTimeout) (htrace : Added w v added)
    (hticks : w.ticks ≤ v.ticks) (hs' : v.client.state = w.client.state)
    (hpong : PongTimerKept w.client v.client) (hcall : v.call = w.call) :
    Move tick w ((v.abortConnection tick errorType).goto pc) := by
  have hrun : v.client.state.stopped = false := by
    rw [hs']
    rcases hs with hs | hs <;> rw [hs] <;> rfl
  obtain ⟨hlost, hkept, hcall', more, hmore⟩ := @abort_gives_up tick w v errorType hrun hticks
  exact .lost (added ++ more) hs (htrace.trans hmore) hlost
    ⟨hkept.1.trans hpong.1, hkept.2.trans hpong.2⟩ (hcall'.trans hcall)

/-- A step that keeps the connection and the clock's record as they were. -/
theorem quiet_of_kept (htrace : v.trace = w.trace) (hticks : w.ticks ≤ v.ticks)
    (hpong : PongTimerKept w.client v.client) (hcall : v.call = w.call)
    (hstate : v.client.state = w.client.state)
    (hsince : v.client.reconnectTickMs = w.client.reconnectTickMs) : Move tick w v :=
  .quiet [] (added_nil htrace) hticks hpong hcall (.inl ⟨hstate, hsince⟩)

/-- A read that fails gives the connection up. -/
theorem failed_read (hs : w.client.state = .connected) :
    let v := (((w.emit (.read a.rlen a.bytes a.payloadLen a.fin a.opcode)).error
      (.readFailed a.rlen)).abortConnection tick .tcpTransport).goto .unlocked
    GivenUp tick w v ∧ v.call = w.call ∧ ∃ more, (∀ x ∈ more, quiet x.2 = true) ∧
      v.trace = w.trace ++ (w.ticks, .read a.rlen a.bytes a.payloadLen a.fin a.opcode) :: more := by
  intro v
  obtain ⟨hlost, -, hcall, more, hmore⟩ := @abort_gives_up tick w
    ((w.emit (.read a.rlen a.bytes a.payloadLen a.fin a.opcode)).error (.readFailed a.rlen))
    .tcpTransport (by simp only [World.error, World.emit_client, hs]; rfl) (Nat.le_refl _)
  refine ⟨hlost, hcall, (w.ticks, .dispatch (eventData w.client .error [] 0
    (some (.readFailed a.rlen)))) :: more, ?_, ?_⟩
  · intro x hx
    rcases List.mem_cons.mp hx with rfl | hx
    · rfl
    · exact hmore.2 x hx
  · rw [World.goto_trace, hmore.1]
    simp [World.error]

/-- The end of a frame adds at most the answer to a PING. -/
theorem received_added (w : World) : (received w).pc = .unlocked ∧ (received w).call = w.call ∧
    ∃ added, (received w).trace = w.trace ++ added ∧
      (added = [] ∨ w.client.lastOpcode = .ping ∧ added = [(w.ticks, .control .pong
        (if w.client.payloadLen = 0 then [] else w.client.rxBuffer) w.client.payloadLen)]) := by
  unfold received
  cases w.client.lastOpcode with
  | ping => exact ⟨rfl, rfl, _, rfl, .inr ⟨rfl, rfl⟩⟩
  | _ => exact ⟨rfl, rfl, [], (List.append_nil _).symm, .inl rfl⟩

/-- A read that is handed on, with the PONG it may give rise to. -/
theorem recv_added (heq : recv tick a w =
      if w.client.payloadOffset + a.rlen < a.payloadLen then handedOn a w
      else received (handedOn a w)) :
    ∃ added, (recv tick a w).trace = w.trace ++
        [(w.ticks, .read a.rlen a.bytes a.payloadLen a.fin a.opcode),
          (w.ticks, .dispatch (readData a w.client))] ++ added ∧
      (added = [] ∨ a.payloadLen ≤ w.client.payloadOffset + a.rlen ∧ a.opcode = .ping ∧
        added = [(w.ticks, .control .pong (if a.payloadLen = 0 then [] else
          (readInto a w.client).rxBuffer) a.payloadLen)]) := by
  rw [heq]
  split
  · exact ⟨[], (List.append_nil _).symm, .inl rfl⟩
  · rename_i hend
    obtain ⟨-, -, added, htrace, hadded⟩ := received_added (handedOn a w)
    refine ⟨added, htrace, hadded.imp_right ?_⟩
    rintro ⟨hping, hpong⟩
    exact ⟨Int.not_lt.mp hend, hping, hpong⟩

theorem connect_moves (hs : w.client.state = .init) (hfree : w.call = none) :
    Move tick w (connect tick a w) := by
  simp only [connect]
  split
  · exact quiet_of_kept rfl (Nat.le_refl _) ⟨rfl, rfl⟩ rfl rfl rfl
  · split
    · rename_i hr
      obtain ⟨hlost, hkept, hcall, more, hmore⟩ := @abort_gives_up tick w
        (((((w.dispatchEvent .beforeConnect [] 0).emit (.connect a.connect)).update fun c =>
          { c with wsHandshakeStatusCode := a.upgradeRequestStatus }).error
            (.connectFailed a.connect))) .tcpTransport
        (by simp [World.error, World.dispatchEvent, hs]; rfl) (Nat.le_refl _)
      refine .refused (eventData w.client .beforeConnect [] 0 none) a.connect
        ((w.ticks, .dispatch (eventData
          { w.client with wsHandshakeStatusCode := a.upgradeRequestStatus } .error [] 0
            (some (.connectFailed a.connect)))) :: more) hs hr ?_ rfl ?_ hlost hkept hfree
        (hcall.trans hfree)
      · rw [World.goto_trace, hmore.1]
        simp [World.error, World.dispatchEvent]
      · intro x hx
        rcases List.mem_cons.mp hx with rfl | hx
        · rfl
        · exact hmore.2 x hx
    · rename_i hr
      exact .opened (eventData w.client .beforeConnect [] 0 none) (eventData
        { w.client with state := .connected, waitForPongResp := false, errorType := .none }
          .connected [] 0 none) a.connect hs (by omega) (by simp [World.dispatchEvent]) rfl rfl rfl
        rfl rfl hfree hfree

theorem reconnect_moves (hs : w.client.state = .waitTimeout) (hfree : w.call = none) :
    Move tick w (reconnect tick w) := by
  simp only [reconnect]
  split
  · exact quiet_of_kept rfl (Nat.le_refl _) ⟨rfl, rfl⟩ rfl rfl rfl
  · rename_i hauto
    split
    · rename_i hdue
      exact .retry hs (by simpa using hauto) hdue rfl rfl ⟨rfl, rfl⟩ rfl hfree hfree
    · exact quiet_of_kept rfl (Nat.le_succ _) ⟨rfl, rfl⟩ rfl rfl rfl

theorem echoClose_moves (hs : w.client.state = .closing) (hfree : w.call = none) :
    Move tick w (echoClose w) := by
  simp only [echoClose]
  split
  · exact .echo hs hs rfl rfl ⟨rfl, rfl⟩ hfree hfree
  · exact quiet_of_kept rfl (Nat.le_refl _) ⟨rfl, rfl⟩ rfl rfl rfl

theorem leave_moves (added : List (ℕ × Effect)) (htrace : Added w v added)
    (hticks : v.ticks = w.ticks) (hpong : PongTimerKept w.client v.client) (hcall : v.call = w.call)
    (hstate : v.client.state = w.client.state ∧
      v.client.reconnectTickMs = w.client.reconnectTickMs ∨ v.client.state = .unknow) :
    Move tick w (leave v) :=
  .quiet _ (htrace.trans (added_one (n := v.ticks) (e := .closeTransport) rfl rfl))
    (Nat.le_of_eq hticks.symm) hpong hcall hstate

theorem enter_moves : Move tick w (enter w) := by
  simp only [enter]
  split
  · exact leave_moves [] (added_nil rfl) rfl ⟨rfl, rfl⟩ rfl (.inl ⟨rfl, rfl⟩)
  · exact quiet_of_kept rfl (Nat.le_refl _) ⟨rfl, rfl⟩ rfl rfl rfl

theorem lock_moves (hs : w.client.state.stopped = false) : Move tick w (lock tick a w) := by
  simp only [lock]
  split
  · exact quiet_of_kept rfl (Nat.le_refl _) ⟨rfl, rfl⟩ rfl rfl rfl
  · rename_i hfree
    have hcall : w.call = none := by simpa using hfree
    cases hstate : w.client.state with
    | init => exact connect_moves hstate hcall
    | connected =>
      simp only
      split
      · exact quiet_of_kept rfl (Nat.le_refl _) ⟨rfl, rfl⟩ rfl rfl rfl
      · exact quiet_of_kept rfl (Nat.le_refl _) ⟨rfl, rfl⟩ rfl rfl rfl
    | waitTimeout => exact reconnect_moves hstate hcall
    | closing => exact echoClose_moves hstate hcall
    | error => rw [hstate] at hs; cases hs
    | unknow => rw [hstate] at hs; cases hs

theorem heartbeat_moves (hs : w.client.state = .connected) (hfree : w.call = none) :
    Move tick w (heartbeat tick w) := by
  simp only [heartbeat, sendPing]
  split
  · split
    · rename_i hfirst
      exact .ping hs hs rfl (Nat.le_succ _) (.inl ⟨hfirst.1, hfirst.2, rfl, rfl⟩) hfree hfree
    · exact .ping hs hs rfl (Nat.le_refl _) (.inr ⟨rfl, rfl⟩) hfree hfree
  · exact quiet_of_kept rfl (Nat.le_succ _) ⟨rfl, rfl⟩ rfl rfl rfl

theorem pongCheck_moves (hs : w.client.state = .connected) (hfree : w.call = none) :
    Move tick w (pongCheck tick w) := by
  simp only [pongCheck]
  split
  · rename_i hlate
    obtain ⟨hlost, hkept, hcall, more, hmore⟩ := @abort_gives_up tick w
      (w.read.error (.noPong w.client.config.pingpongTimeoutSec)) .pongTimeout
      (by simp only [World.error, World.emit_client, World.read_client, hs]; rfl) (Nat.le_succ _)
    refine .overdue (eventData w.client .error [] 0
      (some (.noPong w.client.config.pingpongTimeoutSec))) more hs hlate.2 hlate.1 ?_ hmore.2 hlost
      hkept hfree (hcall.trans hfree) rfl
    rw [World.goto_trace, hmore.1]
    simp [World.error]
  · exact quiet_of_kept rfl (Nat.le_succ _) ⟨rfl, rfl⟩ rfl rfl rfl

theorem select_moves : Move tick w (select tick w) := by
  simp only [select]
  split
  · exact quiet_of_kept rfl (Nat.le_refl _) ⟨rfl, rfl⟩ rfl rfl rfl
  · exact quiet_of_kept rfl (Nat.le_succ _) ⟨rfl, rfl⟩ rfl rfl rfl

theorem wait_moves : Move tick w (wait w) := by
  simp only [wait]
  split
  · exact quiet_of_kept rfl (Nat.le_refl _) ⟨rfl, rfl⟩ rfl rfl rfl
  · split
    · exact quiet_of_kept rfl (Nat.le_refl _) ⟨rfl, rfl⟩ rfl rfl rfl
    · exact quiet_of_kept rfl (Nat.le_refl _) ⟨rfl, rfl⟩ rfl rfl rfl
  · exact quiet_of_kept rfl (Nat.le_refl _) ⟨rfl, rfl⟩ rfl rfl rfl

theorem polled_moves (hs : w.client.state = .connected ∨ w.client.state = .waitTimeout) :
    Move tick w (polled tick a w) := by
  simp only [polled]
  split
  · refine lost_of_abort [(w.ticks, .pollRead a.pollRead), (w.ticks, .dispatch (eventData
      w.client .error [] 0 (some (.pollFailed a.pollRead))))] _ _ hs ⟨?_, ?_⟩ (Nat.le_refl _) rfl
      ⟨rfl, rfl⟩ rfl
    · simp [World.error]
    · intro x hx
      rcases List.mem_cons.mp hx with rfl | hx
      · rfl
      · rw [List.mem_singleton.mp hx]
        rfl
  · exact .quiet _ (added_one (n := w.ticks) (e := .pollRead a.pollRead) rfl rfl) (Nat.le_refl _)
      ⟨rfl, rfl⟩ rfl (.inl ⟨rfl, rfl⟩)

theorem pollClosed_moves : Move tick w (pollClosed a w) := by
  simp only [pollClosed]
  split
  · exact leave_moves _ (added_one (n := w.ticks) (e := .pollClosed a.pollClosed) rfl rfl) rfl
      ⟨rfl, rfl⟩ rfl (.inl ⟨rfl, rfl⟩)
  · refine leave_moves [(w.ticks, .pollClosed a.pollClosed), (w.ticks, .dispatch (eventData
      { w.client with run := false, state := .unknow } .closed [] 0 none))] ⟨?_, ?_⟩ rfl
      ⟨rfl, rfl⟩ rfl (.inr rfl)
    · simp [World.dispatchEvent]
    · intro x hx
      rcases List.mem_cons.mp hx with rfl | hx
      · rfl
      · rw [List.mem_singleton.mp hx]
        rfl

theorem finish_moves : Move tick w (finish w) := by
  simp only [finish]
  split
  · exact .quiet _ (added_one (n := w.ticks) (e := .destroyed) rfl rfl) (Nat.le_refl _) ⟨rfl, rfl⟩
      rfl (.inl ⟨rfl, rfl⟩)
  · exact quiet_of_kept rfl (Nat.le_refl _) ⟨rfl, rfl⟩ rfl rfl rfl

theorem taskStep_moves (h : Tracked w) : Move tick w (taskStep tick a w) := by
  have locked := h.locked
  obtain ⟨p, -, hstands⟩ := h
  unfold Stands at hstands
  unfold taskStep
  cases hpc : w.pc with
  | loop => exact enter_moves
  | locking =>
    rw [hpc] at hstands
    exact lock_moves hstands.2.1
  | heartbeat =>
    obtain ⟨-, hs, hcall⟩ := locked (by rw [hpc]; rfl)
    exact heartbeat_moves hs hcall
  | pongCheck =>
    obtain ⟨-, hs, hcall⟩ := locked (by rw [hpc]; rfl)
    exact pongCheck_moves hs hcall
  | select => exact select_moves
  | receiving =>
    obtain ⟨-, hs, hcall⟩ := locked (by rw [hpc]; rfl)
    exact .recv a hpc hs hcall rfl
  | unlocked => exact wait_moves
  | polling =>
    rw [hpc] at hstands
    exact polled_moves hstands.2
  | closingWait => exact pollClosed_moves
  | stopping => exact quiet_of_kept rfl (Nat.le_refl _) ⟨rfl, rfl⟩ rfl rfl rfl
  | exiting => exact .quiet [] (added_nil rfl) (Nat.le_refl _) ⟨rfl, rfl⟩ rfl (.inr rfl)
  | deleting => exact finish_moves
  | ended => exact quiet_of_kept rfl (Nat.le_refl _) ⟨rfl, rfl⟩ rfl rfl rfl
  | destroyed => exact quiet_of_kept rfl (Nat.le_refl _) ⟨rfl, rfl⟩ rfl rfl rfl

theorem advance_moves {k : Call} (hk : w.call = some k) (wlen : ℤ) :
    Move tick w (advance tick w k wlen) := by
  simp only [advance]
  split
  · rename_i hcont
    cases hf : (k.loop.next k.data w.client.bufferSize wlen).failure with
    | some ret =>
      obtain ⟨v, hv⟩ : ∃ v, v = ((w.emit (.frame
          (k.loop.handing k.data w.client.bufferSize wlen).opcode
          (k.loop.handing k.data w.client.bufferSize wlen).buffer
          (k.loop.handing k.data w.client.bufferSize wlen).needWrite
          (k.loop.handing k.data w.client.bufferSize wlen).wlen)).update fun c =>
            { c with txBuffer := (k.loop.next k.data w.client.bufferSize wlen).txBuffer }).error
              (.writeFailed ret) := ⟨_, rfl⟩
      have hvtrace : v.trace = w.trace ++ [(w.ticks, .frame
          (k.loop.handing k.data w.client.bufferSize wlen).opcode
          (k.loop.handing k.data w.client.bufferSize wlen).buffer
          (k.loop.handing k.data w.client.bufferSize wlen).needWrite
          (k.loop.handing k.data w.client.bufferSize wlen).wlen)] ++
          [(w.ticks, .dispatch (eventData { w.client with
            txBuffer := (k.loop.next k.data w.client.bufferSize wlen).txBuffer } .error [] 0
              (some (.writeFailed ret))))] := by rw [hv]; rfl
      have hvstate : v.client.state = w.client.state := by rw [hv]; rfl
      simp only
      rw [← hv]
      cases hrun : w.client.state.stopped with
      | true =>
        rw [World.abort_stopped tick .tcpTransport (by rw [hvstate]; exact hrun)]
        refine .broken k wlen ret [(w.ticks, .dispatch (eventData { w.client with
          txBuffer := (k.loop.next k.data w.client.bufferSize wlen).txBuffer } .error [] 0
            (some (.writeFailed ret))))] hk hcont hf ?_ ?_
          (.inr ⟨hvstate, hrun, by rw [hv]; rfl⟩) (by rw [hv]; exact ⟨rfl, rfl⟩) rfl
        · rw [World.setCall_trace, World.emit_trace, hvtrace]
          rfl
        · intro x hx
          rw [List.mem_singleton.mp hx]
          rfl
      | false =>
        obtain ⟨hlost, hkept, -, more, hmore⟩ := @abort_gives_up tick w v .tcpTransport
          (by rw [hvstate]; exact hrun) (by rw [hv]; exact Nat.le_refl _)
        refine .broken k wlen ret ((w.ticks, .dispatch (eventData { w.client with
          txBuffer := (k.loop.next k.data w.client.bufferSize wlen).txBuffer } .error [] 0
            (some (.writeFailed ret)))) :: more) hk hcont hf ?_ ?_ (.inl hlost)
          (by rw [hv] at hkept ⊢; exact hkept) rfl
        · rw [World.setCall_trace, World.emit_trace, hmore.1, hvtrace, List.append_assoc _ _ more]
          rfl
        · intro x hx
          rcases List.mem_cons.mp hx with rfl | hx
          · rfl
          · exact hmore.2 x hx
    | none => exact .passed k wlen hk hcont hf rfl rfl rfl rfl ⟨rfl, rfl⟩ rfl
  · rename_i hcont
    exact .returned k hk (Bool.eq_false_iff.mpr hcont) rfl

theorem send_moves (opcode : Opcode) (data : Option (List Byte)) (len : ℤ) (locked : Bool) :
    Move tick w (send w opcode data len locked) := by
  have hturned : Move tick w (w.emit (.turnedAway opcode (passed data len))) :=
    .quiet _ (added_one (n := w.ticks) rfl rfl) (Nat.le_refl _) ⟨rfl, rfl⟩ rfl (.inl ⟨rfl, rfl⟩)
  simp only [send]
  split
  · exact hturned
  · split
    · exact hturned
    · split
      · exact hturned
      · split
        · exact hturned
        · rename_i hlock hconn _
          refine .begun opcode data len (not_not.mp hconn) ?_ rfl
          have := fun h => hlock (.inr h)
          simp [World.lockFree] at this
          exact this.2

theorem next_moves (h : Tracked w) (e : Event) : Move tick w (next tick w e) := by
  have hstill : Move tick w w := quiet_of_kept rfl (Nat.le_refl _) ⟨rfl, rfl⟩ rfl rfl rfl
  unfold next
  split
  · exact hstill
  · cases e with
    | task a => exact taskStep_moves h
    | send opcode data len locked => exact send_moves ..
    | callStep wlen =>
      simp only [callStep]
      split
      · exact hstill
      · rename_i k hk
        exact advance_moves hk wlen
    | close body =>
      simp only [close]
      split
      · exact hstill
      · exact send_moves ..
    | setCloseFrameSent => exact quiet_of_kept rfl (Nat.le_refl _) ⟨rfl, rfl⟩ rfl rfl rfl
    | stop => exact quiet_of_kept rfl (Nat.le_refl _) ⟨rfl, rfl⟩ rfl rfl rfl
    | setUnknow =>
      simp only [setUnknow]
      split
      · exact .quiet [] (added_nil rfl) (Nat.le_refl _) ⟨rfl, rfl⟩ rfl (.inr rfl)
      · exact hstill
    | clearBits => exact quiet_of_kept rfl (Nat.le_refl _) ⟨rfl, rfl⟩ rfl rfl rfl
    | destroyOnExit => exact quiet_of_kept rfl (Nat.le_refl _) ⟨rfl, rfl⟩ rfl rfl rfl
    | setPingIntervalSec n => exact quiet_of_kept rfl (Nat.le_refl _) ⟨rfl, rfl⟩ rfl rfl rfl

theorem deaf_of_quiet {e : Effect} (h : quiet e = true) : deaf e = true := by
  cases e with
  | dispatch d =>
    simp only [quiet, Bool.and_eq_true] at h
    exact h.1
  | _ => first | rfl | cases h

/-- Nothing is read, passed on or answered but by `recv`. -/
theorem move_deaf (h : Move tick w v) :
    (∃ added, v.trace = w.trace ++ added ∧ ∀ x ∈ added, deaf x.2 = true) ∨
      ∃ a, w.pc = .receiving ∧ w.client.state = .connected ∧ v = recv tick a w := by
  have one : ∀ {n : ℕ} {e : Effect}, deaf e = true →
      ∀ x ∈ [(n, e)], deaf x.2 = true := by
    intro n e he x hx
    rw [List.mem_singleton.mp hx]
    exact he
  have quiets : ∀ {added : List (ℕ × Effect)}, (∀ x ∈ added, quiet x.2 = true) →
      ∀ x ∈ added, deaf x.2 = true := fun hadded x hx => deaf_of_quiet (hadded x hx)
  cases h with
  | quiet added htrace => exact .inl ⟨added, htrace.1, quiets htrace.2⟩
  | retry hstate hauto hdue htrace =>
    exact .inl ⟨[], htrace.trans (List.append_nil _).symm, by simp⟩
  | opened d d' result hstate hr htrace hd hd' =>
    refine .inl ⟨_, htrace, ?_⟩
    simp only [List.forall_mem_cons]
    exact ⟨deaf_of_quiet hd, rfl, deaf_of_quiet hd', by simp⟩
  | refused d result added hstate hr htrace hd hadded =>
    refine .inl ⟨_, htrace, ?_⟩
    simp only [List.forall_mem_cons]
    exact ⟨deaf_of_quiet hd, rfl, quiets hadded⟩
  | lost added hstate htrace => exact .inl ⟨added, htrace.1, quiets htrace.2⟩
  | overdue d added hstate hwait hlate htrace hadded hlost hpong hfree hcall hd =>
    refine .inl ⟨_, htrace, ?_⟩
    simp only [List.forall_mem_cons]
    exact ⟨by rw [deaf, hd]; rfl, quiets hadded⟩
  | ping hstate hconnected htrace => exact .inl ⟨_, htrace, one rfl⟩
  | echo hstate hsame htrace => exact .inl ⟨_, htrace, one rfl⟩
  | recv a hpc hstate hfree h => exact .inr ⟨a, hpc, hstate, h⟩
  | begun opcode data len hstate hfree h => exact .inl ⟨_, by rw [h]; rfl, one rfl⟩
  | passed k wlen hk hcont hdone htrace => exact .inl ⟨_, htrace, one rfl⟩
  | broken k wlen ret added hk hcont hfailed htrace hadded =>
    rw [List.append_assoc, List.append_assoc] at htrace
    refine .inl ⟨_, htrace, ?_⟩
    simp only [List.forall_mem_append]
    exact ⟨one rfl, quiets hadded, one rfl⟩
  | returned k hk hcont h => exact .inl ⟨_, by rw [h]; rfl, one rfl⟩

/-- The trace only grows. -/
theorem effects_next (h : Tracked w) (e : Event) :
    ∃ added, effects (next tick w e) = effects w ++ added := by
  rcases move_deaf (@next_moves tick w h e) with ⟨added, htrace, -⟩ | ⟨a, hpc, hs, heq⟩
  · exact ⟨_, effects_append htrace⟩
  · rw [heq]
    rcases @recv_cases w tick a with ⟨-, hrecv⟩ | ⟨-, -, hrecv⟩ | ⟨-, -, hrecv⟩
    · obtain ⟨-, -, more, -, htrace⟩ := @failed_read tick a w hs
      rw [hrecv]
      exact ⟨_, effects_append htrace⟩
    · rw [hrecv]
      exact ⟨_, effects_append (w := w) rfl⟩
    · obtain ⟨added, htrace, -⟩ := recv_added hrecv
      rw [List.append_assoc] at htrace
      exact ⟨_, effects_append htrace⟩

/-! ## What never changes -/

structure Fixed (c c' : Client) : Prop where
  autoReconnect : c'.config.autoReconnect = c.config.autoReconnect
  pingpongTimeoutSec : c'.config.pingpongTimeoutSec = c.config.pingpongTimeoutSec
  waitTimeoutMs : c'.waitTimeoutMs = c.waitTimeoutMs
  bufferSize : c'.bufferSize = c.bufferSize

theorem Fixed.refl (c : Client) : Fixed c c := ⟨rfl, rfl, rfl, rfl⟩

theorem Fixed.trans {c c' c'' : Client} (h : Fixed c c') (h' : Fixed c' c'') : Fixed c c'' :=
  ⟨h'.1.trans h.1, h'.2.trans h.2, h'.3.trans h.3, h'.4.trans h.4⟩

structure Untouched (c c' : Client) : Prop extends Fixed c c' where
  txBuffer : c'.txBuffer = c.txBuffer

theorem abort_untouched (errorType : ErrorType) {c : Client} (h : Untouched c v.client) :
    Untouched c (v.abortConnection tick errorType).client := by
  cases hs : v.client.state.stopped with
  | true => rwa [World.abort_stopped tick errorType hs]
  | false =>
    obtain ⟨d, n, hd, heq, -⟩ := World.abort_spec tick errorType hs
    rw [heq, show ({ v with client := d, ticks := n, trace := _ } : World).client = d from rfl, hd]
    exact ⟨⟨h.1.1, h.1.2, h.1.3, h.1.4⟩, h.2⟩

theorem taskStep_untouched : Untouched w.client (taskStep tick a w).client := by
  unfold taskStep
  split
  · simp only [enter, leave]
    split <;> exact ⟨⟨rfl, rfl, rfl, rfl⟩, rfl⟩
  · simp only [lock, connect, reconnect, echoClose]
    repeat' split
    all_goals
      first
      | exact ⟨⟨rfl, rfl, rfl, rfl⟩, rfl⟩
      | exact abort_untouched .tcpTransport ⟨⟨rfl, rfl, rfl, rfl⟩, rfl⟩
  · simp only [heartbeat, sendPing]
    repeat' split
    all_goals exact ⟨⟨rfl, rfl, rfl, rfl⟩, rfl⟩
  · simp only [pongCheck]
    split
    · exact abort_untouched .pongTimeout ⟨⟨rfl, rfl, rfl, rfl⟩, rfl⟩
    · exact ⟨⟨rfl, rfl, rfl, rfl⟩, rfl⟩
  · simp only [select]
    split <;> exact ⟨⟨rfl, rfl, rfl, rfl⟩, rfl⟩
  · simp only [recv, received]
    repeat' split
    all_goals
      first
      | exact ⟨⟨rfl, rfl, rfl, rfl⟩, rfl⟩
      | exact abort_untouched .tcpTransport ⟨⟨rfl, rfl, rfl, rfl⟩, rfl⟩
  · simp only [wait]
    repeat' split
    all_goals exact ⟨⟨rfl, rfl, rfl, rfl⟩, rfl⟩
  · simp only [polled]
    split
    · exact abort_untouched .tcpTransport ⟨⟨rfl, rfl, rfl, rfl⟩, rfl⟩
    · exact ⟨⟨rfl, rfl, rfl, rfl⟩, rfl⟩
  · simp only [pollClosed, leave]
    split <;> exact ⟨⟨rfl, rfl, rfl, rfl⟩, rfl⟩
  · exact ⟨⟨rfl, rfl, rfl, rfl⟩, rfl⟩
  · exact ⟨⟨rfl, rfl, rfl, rfl⟩, rfl⟩
  · simp only [finish]
    split <;> exact ⟨⟨rfl, rfl, rfl, rfl⟩, rfl⟩
  · exact ⟨.refl _, rfl⟩
  · exact ⟨.refl _, rfl⟩

theorem next_fixed (e : Event) : Fixed w.client (next tick w e).client := by
  unfold next
  split
  · exact .refl _
  · cases e with
    | task a => exact taskStep_untouched.toFixed
    | send opcode data len locked => exact send_fixed (w := w) .. ▸ .refl _
    | callStep wlen =>
      simp only [callStep, advance]
      repeat' split
      · exact .refl _
      · refine Fixed.trans ?_ (abort_untouched .tcpTransport ⟨.refl _, rfl⟩).toFixed
        exact ⟨rfl, rfl, rfl, rfl⟩
      · exact ⟨rfl, rfl, rfl, rfl⟩
      · exact ⟨rfl, rfl, rfl, rfl⟩
    | close body =>
      simp only [close]
      split
      · exact .refl _
      · exact send_fixed (w := w) .. ▸ .refl _
    | setCloseFrameSent => exact ⟨rfl, rfl, rfl, rfl⟩
    | stop => exact ⟨rfl, rfl, rfl, rfl⟩
    | setUnknow =>
      simp only [setUnknow]
      split
      · exact ⟨rfl, rfl, rfl, rfl⟩
      · exact .refl _
    | clearBits => exact ⟨rfl, rfl, rfl, rfl⟩
    | destroyOnExit => exact ⟨rfl, rfl, rfl, rfl⟩
    | setPingIntervalSec n => exact ⟨rfl, rfl, rfl, rfl⟩

/-! ## The place of the task in a frame -/

/-- Outside the reads of a frame, the task comes to them only through `select`, which counts the
frame from zero. -/
theorem taskStep_place (h : w.pc ≠ .receiving) (hin : (taskStep tick a w).pc = .receiving) :
    (taskStep tick a w).client.payloadOffset = 0 := by
  have hgoes := taskStep_goes tick a w
  rw [hin] at hgoes
  cases hpc : w.pc with
  | select =>
    simp only [taskStep, hpc, select] at hin ⊢
    split
    · rename_i hidle
      rw [if_pos hidle] at hin
      cases hin
    · rfl
  | receiving => exact absurd hpc h
  | _ =>
    rw [hpc] at hgoes
    simp [successors] at hgoes

/-- A step stays where it is, stays away from the reads of a frame or comes to those of a new one,
or it reads. -/
theorem next_place (e : Event) :
    ((next tick w e).pc = w.pc ∧
      (next tick w e).client.payloadOffset = w.client.payloadOffset) ∨
    (w.pc ≠ .receiving ∧
      ((next tick w e).pc = .receiving → (next tick w e).client.payloadOffset = 0)) ∨
    ∃ a, w.pc = .receiving ∧ next tick w e = recv tick a w := by
  cases he : isTask e with
  | false =>
    left
    obtain ⟨hpc, hoff, -⟩ := @others_place tick w e he
    exact ⟨hpc, hoff⟩
  | true =>
    cases e with
    | task a =>
      unfold next
      split
      · exact .inl ⟨rfl, rfl⟩
      · right
        by_cases hpc : w.pc = .receiving
        · right
          refine ⟨a, hpc, ?_⟩
          simp only [taskStep, hpc]
        · exact .inl ⟨hpc, taskStep_place hpc⟩
    | _ => cases he

end WebsocketMoves
