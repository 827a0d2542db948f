import RayzTarget.WebsocketMoves

/-! # Stopping a session

A client that is to stop leaves its loop at the next head of it. On the way there it may have to
read a frame to its end, which takes a transport that gets on with it. -/
namespace WebsocketStop

open WebsocketClient WebsocketWorld WebsocketSession WebsocketLifecycle WebsocketMoves EventRuns
  TraceMonitor

/-- The reads of the transport fail, find nothing or get on, in frames of at most `L` bytes; an
empty frame is no harm. -/
def Serves (L : ℕ) : Event → Prop
  | .task a => (a.rlen = 0 → a.opcode = .none ∨ a.payloadLen ≤ 0) ∧ a.payloadLen ≤ L
  | _ => True

/-- The steps the task takes at most from a place until it has ended. -/
def stepsFrom (L : ℕ) : Pc → ℕ
  | .locking => L + 11
  | .heartbeat => L + 10
  | .pongCheck => L + 9
  | .select => L + 8
  | .receiving => L + 7
  | .unlocked => 6
  | .polling => 5
  | .loop | .closingWait => 4
  | .stopping => 3
  | .exiting => 2
  | .deleting => 1
  | .ended | .destroyed => 0

/-- In the reads of a frame they depend on what is left of it. -/
def remaining (L : ℕ) (w : World) : ℕ :=
  if w.pc = .receiving then L - w.client.payloadOffset.toNat + 7 else stepsFrom L w.pc

def Counting (w : World) : Prop := w.pc = .receiving → 0 ≤ w.client.payloadOffset

structure Stopping (w : World) : Prop where
  counting : Counting w
  run : w.client.run = false

/-- A step of the task that it does not spend on waiting for the lock of a send call. -/
def getsOn (w : World) (e : Event) : Bool :=
  isTask e && !(decide (w.pc = .locking) && w.call.isSome)

variable {tick : ℕ → ℕ} {a : Answers} {w v : World} {L : ℕ}

theorem remaining_le (L : ℕ) (w : World) : remaining L w ≤ stepsFrom L w.pc := by
  unfold remaining
  split
  · rename_i hpc
    rw [hpc]
    exact Nat.add_le_add_right (Nat.sub_le _ _) 7
  · exact Nat.le_refl _

theorem remaining_outside (h : w.pc ≠ .receiving) : remaining L w = stepsFrom L w.pc := if_neg h

/-- A step to a place outside the reads. -/
theorem at_place (pc : Pc) {n : ℕ} (hrun : v.client.run = false) (hpc : v.pc = pc)
    (hout : pc ≠ .receiving) (hn : stepsFrom L pc ≤ n) : Stopping v ∧ remaining L v ≤ n := by
  subst hpc
  exact ⟨⟨fun h => absurd h hout, hrun⟩, Nat.le_trans (remaining_le L v) hn⟩

theorem aborted_run (errorType : ErrorType) (hrun : v.client.run = false) :
    (v.abortConnection tick errorType).client.run = false := by
  obtain ⟨-, -, hkept, -⟩ := World.abort_place (w := v) tick errorType
  exact hkept.trans hrun

/-- A read takes a client that is to stop nearer to the end of its frame, or out of it. -/
theorem recv_stopping (h : Stopping w) (hpc : w.pc = .receiving) (ha : Serves L (.task a)) :
    Stopping (recv tick a w) ∧ remaining L (recv tick a w) ≤ remaining L w - 1 := by
  have hw : remaining L w = L - w.client.payloadOffset.toNat + 7 := if_pos hpc
  have hout : ∀ {v : World}, v.client.run = false → v.pc = .unlocked →
      Stopping v ∧ remaining L v ≤ remaining L w - 1 := by
    intro v hrun hv
    refine at_place .unlocked hrun hv (by decide) ?_
    rw [hw]
    exact Nat.le_add_left 6 _
  rcases @recv_cases w tick a with ⟨-, heq⟩ | ⟨-, -, heq⟩ | ⟨hr, hn, heq⟩
  · rw [heq]
    exact hout (aborted_run .tcpTransport h.run) rfl
  · rw [heq]
    exact hout h.run rfl
  · rw [heq]
    split
    · rename_i hmore
      have hoff := h.counting hpc
      have hpos : 0 < a.rlen := by
        have hzero : a.rlen ≠ 0 := by
          intro hz
          rcases ha.1 hz with hnone | hempty
          · exact hn ⟨hz, hnone⟩
          · omega
        omega
      have hlong := ha.2
      have hplace : (handedOn a w).pc = .receiving := hpc
      have hnew : (handedOn a w).client.payloadOffset = w.client.payloadOffset + a.rlen := rfl
      refine ⟨⟨?_, h.run⟩, ?_⟩
      · intro _
        rw [hnew]
        omega
      · rw [remaining, if_pos hplace, hw, hnew]
        omega
    · refine hout ?_ (received_added _).1
      unfold received
      cases (handedOn a w).client.lastOpcode <;> exact h.run

/-- Behind the lock a client that is to stop comes to its reads, or past them. -/
theorem lock_stopping (hrun : w.client.run = false) (hcall : w.call.isSome = false) :
    Stopping (lock tick a w) ∧ remaining L (lock tick a w) ≤ L + 10 := by
  have hout : ∀ {v : World}, v.client.run = false → v.pc = .unlocked →
      Stopping v ∧ remaining L v ≤ L + 10 := by
    intro v hv hpc
    refine at_place .unlocked hv hpc (by decide) ?_
    exact Nat.le_trans (Nat.le_add_right 6 4) (Nat.le_add_left 10 L)
  simp only [lock, hcall, Bool.false_eq_true, if_false]
  cases w.client.state with
  | init =>
    simp only [connect]
    repeat' split
    · exact hout rfl rfl
    · exact hout (aborted_run .tcpTransport hrun) rfl
    · exact hout hrun rfl
  | connected =>
    simp only
    split
    · exact at_place .heartbeat hrun rfl (by decide) (Nat.le_refl _)
    · exact at_place .select hrun rfl (by decide) (Nat.le_add_right _ 2)
  | waitTimeout =>
    simp only [reconnect]
    repeat' split
    · exact hout rfl rfl
    · exact hout hrun rfl
    · exact hout hrun rfl
  | closing =>
    simp only [echoClose]
    split
    · exact hout hrun rfl
    · exact hout hrun rfl
  | error => exact hout hrun rfl
  | unknow => exact hout hrun rfl

/-- One step of the task takes a client that is to stop nearer to its end, unless it is spent on
waiting. -/
theorem taskStep_stopping (h : Stopping w) (ha : Serves L (.task a)) :
    Stopping (taskStep tick a w) ∧ remaining L (taskStep tick a w) ≤
      remaining L w - if getsOn w (.task a) then 1 else 0 := by
  have hrun := h.run
  by_cases hreads : w.pc = .receiving
  · have hstep : taskStep tick a w = recv tick a w := by simp only [taskStep, hreads]
    have hon : getsOn w (.task a) = true := by simp [getsOn, isTask, hreads]
    rw [hstep, hon]
    exact recv_stopping h hreads ha
  by_cases hlock : w.pc = .locking
  · have hstep : taskStep tick a w = lock tick a w := by simp only [taskStep, hlock]
    rw [hstep]
    cases hcall : w.call.isSome with
    | true =>
      have hstay : lock tick a w = w := if_pos hcall
      have hoff : getsOn w (.task a) = false := by simp [getsOn, hlock, hcall]
      rw [hstay, hoff]
      exact ⟨h, Nat.le_refl _⟩
    | false =>
      have hon : getsOn w (.task a) = true := by simp [getsOn, isTask, hcall]
      rw [remaining_outside hreads, hlock, hon]
      exact lock_stopping hrun hcall
  have hon : getsOn w (.task a) = true := by simp [getsOn, isTask, hlock]
  rw [remaining_outside hreads, hon, if_pos rfl]
  unfold taskStep
  cases hpc : w.pc with
  | loop =>
    simp only [enter, if_pos hrun]
    exact at_place .stopping hrun rfl (by decide) (Nat.le_refl _)
  | locking => exact absurd hpc hlock
  | heartbeat =>
    have hn : stepsFrom L .pongCheck ≤ stepsFrom L .heartbeat - 1 := Nat.le_refl _
    simp only [heartbeat, sendPing]
    repeat' split
    all_goals exact at_place .pongCheck hrun rfl (by decide) hn
  | pongCheck =>
    simp only [pongCheck]
    split
    · refine at_place .unlocked (aborted_run .pongTimeout hrun) rfl (by decide) ?_
      simp only [stepsFrom]
      omega
    · exact at_place .select hrun rfl (by decide) (Nat.le_refl _)
  | select =>
    simp only [select]
    split
    · refine at_place .unlocked hrun rfl (by decide) ?_
      simp only [stepsFrom]
      omega
    · exact ⟨⟨fun _ => Int.le_refl 0, hrun⟩, remaining_le L _⟩
  | receiving => exact absurd hpc hreads
  | unlocked =>
    simp only [wait]
    repeat' split
    · exact at_place .polling hrun rfl (by decide) (Nat.le_refl 5)
    · exact at_place .closingWait hrun rfl (by decide) (Nat.le_succ 4)
    · exact at_place .loop hrun rfl (by decide) (Nat.le_succ 4)
    · exact at_place .loop hrun rfl (by decide) (Nat.le_succ 4)
  | polling =>
    simp only [polled]
    split
    · exact at_place .loop (aborted_run .tcpTransport hrun) rfl (by decide) (Nat.le_refl 4)
    · exact at_place .loop hrun rfl (by decide) (Nat.le_refl 4)
  | closingWait =>
    simp only [pollClosed]
    split
    · exact at_place .stopping hrun rfl (by decide) (Nat.le_refl 3)
    · exact at_place .stopping rfl rfl (by decide) (Nat.le_refl 3)
  | stopping => exact at_place .exiting hrun rfl (by decide) (Nat.le_refl 2)
  | exiting => exact at_place .deleting hrun rfl (by decide) (Nat.le_refl 1)
  | deleting =>
    simp only [finish]
    split
    · exact at_place .destroyed hrun rfl (by decide) (Nat.le_refl 0)
    · exact at_place .ended hrun rfl (by decide) (Nat.le_refl 0)
  | ended => exact at_place .ended hrun hpc (by decide) (Nat.le_refl 0)
  | destroyed => exact at_place .destroyed hrun hpc (by decide) (Nat.le_refl 0)

theorem others_stopping {e : Event} (he : isTask e = false) (h : Stopping w) :
    Stopping (next tick w e) ∧ remaining L (next tick w e) = remaining L w := by
  obtain ⟨hpc, hoff, hrun, -⟩ := @others_place tick w e he
  refine ⟨⟨?_, hrun h.run⟩, ?_⟩
  · rw [Counting, hpc, hoff]
    exact h.counting
  · rw [remaining, remaining, hpc, hoff]

theorem next_task (h : w.pc ≠ .destroyed) : next tick w (.task a) = taskStep tick a w := if_neg h

theorem next_stopping {e : Event} (he : Serves L e) (h : Stopping w) :
    Stopping (next tick w e) ∧
      remaining L (next tick w e) ≤ remaining L w - if getsOn w e then 1 else 0 := by
  cases hk : isTask e with
  | false =>
    obtain ⟨hs, hr⟩ := @others_stopping tick w L e hk h
    have hoff : getsOn w e = false := by simp [getsOn, hk]
    rw [hoff]
    exact ⟨hs, Nat.le_of_eq hr⟩
  | true =>
    cases e with
    | task a =>
      by_cases hd : w.pc = .destroyed
      · have hstill : next tick w (.task a) = w := if_pos hd
        rw [hstill]
        refine ⟨h, ?_⟩
        rw [remaining, hd]
        exact Nat.zero_le _
      · rw [next_task hd]
        exact taskStep_stopping h he
    | _ => cases hk

/-! ## From any state that is reached -/

theorem recv_place (hpc : w.pc = .receiving) : (recv tick a w).pc = .unlocked ∨
    (recv tick a w).pc = .receiving ∧ 0 ≤ a.rlen ∧
      (recv tick a w).client.payloadOffset = w.client.payloadOffset + a.rlen := by
  rcases @recv_cases w tick a with ⟨-, heq⟩ | ⟨-, -, heq⟩ | ⟨hr, -, heq⟩
  · rw [heq]
    exact .inl rfl
  · rw [heq]
    exact .inl rfl
  · rw [heq]
    split
    · exact .inr ⟨hpc, hr, rfl⟩
    · exact .inl (received_added _).1

theorem counting_next (h : Counting w) (e : Event) : Counting (next tick w e) := by
  rcases @next_place tick w e with ⟨hpc, hoff⟩ | ⟨-, hzero⟩ | ⟨a, hpc, heq⟩
  · rw [Counting, hpc, hoff]
    exact h
  · intro hin
    exact Int.le_of_eq (hzero hin).symm
  · rw [heq]
    rcases @recv_place tick a w hpc with hout | ⟨-, hr, hoff⟩
    · intro hin
      rw [hout] at hin
      cases hin
    · intro _
      rw [hoff]
      exact Int.add_nonneg (h hpc) hr

theorem counting_run (tick : ℕ → ℕ) (c : Client) (found : Bool) (es : List Event) :
    Counting (run (next tick) (started c found) es) := by
  apply run_invariant (next tick) Counting
  · intro h
    cases h
  · intro w e h
    exact counting_next h e

/-- Only `setStoppedBit` says that the task has stopped. -/
theorem taskStep_stoppedBit (h : w.pc ≠ .stopping) :
    (taskStep tick a w).client.stoppedBit = w.client.stoppedBit := by
  have aborted : ∀ (v : World) (errorType : ErrorType) (pc : Pc),
      v.client.stoppedBit = w.client.stoppedBit →
      ((v.abortConnection tick errorType).goto pc).client.stoppedBit = w.client.stoppedBit := by
    intro v errorType pc hv
    exact (World.abort_place (w := v) tick errorType).2.2.2.trans hv
  unfold taskStep
  cases hpc : w.pc with
  | loop =>
    simp only [enter, leave]
    split <;> rfl
  | locking =>
    simp only [lock, connect, reconnect, echoClose]
    repeat' split
    all_goals first | rfl | exact aborted _ .tcpTransport .unlocked rfl
  | heartbeat =>
    simp only [heartbeat, sendPing]
    repeat' split
    all_goals rfl
  | pongCheck =>
    simp only [pongCheck]
    split
    · exact aborted _ .pongTimeout .unlocked rfl
    · rfl
  | select =>
    simp only [select]
    split <;> rfl
  | receiving =>
    simp only [recv, received]
    repeat' split
    all_goals first | rfl | exact aborted _ .tcpTransport .unlocked rfl
  | unlocked =>
    simp only [wait]
    repeat' split
    all_goals rfl
  | polling =>
    simp only [polled]
    split
    · exact aborted _ .tcpTransport .loop rfl
    · rfl
  | closingWait =>
    simp only [pollClosed, leave]
    split <;> rfl
  | stopping => exact absurd hpc h
  | exiting => rfl
  | deleting =>
    simp only [finish]
    split <;> rfl
  | ended => rfl
  | destroyed => rfl

/-- A task that has stopped says so, and what it says stands until a start takes it back. -/
theorem said_next (h : w.pc.said = true → w.client.stoppedBit = true) {e : Event}
    (he : e = .clearBits → w.pc.said = false) (hsaid : (next tick w e).pc.said = true) :
    (next tick w e).client.stoppedBit = true := by
  cases hk : isTask e with
  | false =>
    obtain ⟨hpc, -, -, hsame | ⟨hclear, -⟩⟩ := @others_place tick w e hk
    · rw [hpc] at hsaid
      exact hsame.trans (h hsaid)
    · rw [hpc, he hclear] at hsaid
      cases hsaid
  | true =>
    cases e with
    | task a =>
      by_cases hd : w.pc = .destroyed
      · have hstill : next tick w (.task a) = w := if_pos hd
        rw [hstill]
        exact h (by rw [hd]; rfl)
      · rw [next_task hd] at hsaid ⊢
        by_cases hpc : w.pc = .stopping
        · simp only [taskStep, hpc]
          rfl
        · rw [taskStep_stoppedBit hpc]
          exact h ((taskStep_said hpc).symm.trans hsaid)
    | _ => cases hk

theorem said_run (tick : ℕ → ℕ) (c : Client) (found : Bool) {es : List Event}
    (h : ∀ pre post, es = pre ++ .clearBits :: post →
      (run (next tick) (started c found) pre).pc.said = false) :
    (run (next tick) (started c found) es).pc.said = true →
      (run (next tick) (started c found) es).client.stoppedBit = true := by
  induction es using List.reverseRecOn with
  | nil =>
    intro hsaid
    cases hsaid
  | append_singleton es e ih =>
    rw [run_snoc]
    apply said_next
    · exact ih fun pre post hes => h pre (post ++ [e]) (by rw [hes]; simp)
    · rintro rfl
      exact h es [] rfl

theorem destroyed_run (h : w.pc = .destroyed) (es : List Event) : run (next tick) w es = w := by
  induction es with
  | nil => rfl
  | cons e es ih =>
    have : next tick w e = w := if_pos h
    simp only [run, List.foldl_cons, this]
    exact ih

theorem remaining_zero (h : remaining L w = 0) : w.pc = .ended ∨ w.pc = .destroyed := by
  unfold remaining stepsFrom at h
  cases hpc : w.pc <;> rw [hpc] at h <;> first | exact .inl rfl | exact .inr rfl | simp at h

theorem stepsFrom_le (L : ℕ) (pc : Pc) : stepsFrom L pc ≤ L + 11 := by
  cases pc <;> simp only [stepsFrom] <;> omega

theorem drained (hv : Stopping w) {es : List Event} (hserves : ∀ e ∈ es, Serves L e)
    (hmany : L + 11 ≤ (observe (next tick) (worked getsOn) w es).length) :
    (run (next tick) w es).pc = .ended ∨ (run (next tick) w es).pc = .destroyed := by
  obtain ⟨-, hrank⟩ := run_drains (next tick) Stopping (Serves L) (remaining L) getsOn
    (fun _ _ he hs => (next_stopping he hs).1)
    (fun _ _ he hs hk => by simpa [hk] using (next_stopping he hs).2)
    (fun _ _ he hs hk => by simpa [hk] using (next_stopping he hs).2) hv hserves
  apply remaining_zero (L := L)
  have := remaining_le L w
  have := stepsFrom_le L w.pc
  omega

/-- A client that is told to stop ends within as many steps of its task as the longest frame has
bytes and eleven more, not counting those it waits for the lock of a send call, whatever other
tasks do in the meantime: the transport is closed, and if the start of this session had returned
before, the task says that it has stopped. -/
theorem stop_ends (tick : ℕ → ℕ) (c : Client) (found : Bool) (before after : List Event)
    (hserves : ∀ e ∈ after, Serves L e)
    (hmany : L + 11 ≤ (observe (next tick) (worked getsOn)
      (run (next tick) (started c found) (before ++ [.stop])) after).length) :
    let w := run (next tick) (started c found) (before ++ .stop :: after)
    (w.pc = .ended ∨ w.pc = .destroyed) ∧ linked (effects w) = false ∧
      ((∀ pre post, before ++ .stop :: after = pre ++ .clearBits :: post →
        (run (next tick) (started c found) pre).pc.said = false) → w.client.stoppedBit = true) := by
  intro w
  have hw : w = run (next tick)
      (run (next tick) (started c found) (before ++ [.stop])) after := by
    simp only [w, run, List.foldl_append, List.foldl_cons, List.foldl_nil]
  have hend : w.pc = .ended ∨ w.pc = .destroyed := by
    have hbefore : Counting (run (next tick) (started c found) before) :=
      counting_run tick c found before
    rw [hw]
    rw [run_snoc] at hmany ⊢
    generalize run (next tick) (started c found) before = v at hbefore hmany ⊢
    by_cases hd : v.pc = .destroyed
    · have hstop : next tick v .stop = v := if_pos hd
      rw [hstop, destroyed_run hd]
      exact .inr hd
    · have hstop : next tick v .stop = stop v := if_neg hd
      rw [hstop] at hmany ⊢
      exact drained (w := stop v) ⟨hbefore, rfl⟩ hserves hmany
  have hsaid : w.pc.said = true := by rcases hend with hpc | hpc <;> rw [hpc] <;> rfl
  refine ⟨hend, ?_, fun hcleared => said_run tick c found hcleared hsaid⟩
  obtain ⟨p, hat, hstands⟩ := tracked_run tick c found (before ++ .stop :: after)
  rw [hat.linked]
  unfold Stands at hstands
  rcases hend with hpc | hpc
  · rw [show (run (next tick) (started c found) (before ++ .stop :: after)).pc = .ended from hpc]
      at hstands
    rcases hstands.1 with rfl | rfl <;> rfl
  · rw [show (run (next tick) (started c found) (before ++ .stop :: after)).pc = .destroyed
      from hpc] at hstands
    rw [hstands]
    rfl

/-- A client in the middle of its work: told to stop, it ends after eleven steps of its task. -/
theorem stop_ends_polling :
    let w := run (next fun _ => 0)
      (started (initClient ⟨false, false, 0, 0, 0, 2⟩ [0, 0] [0, 0] 0 0) true)
      (List.replicate 3 (.task .silent) ++ .stop :: List.replicate 11 (.task .silent))
    (w.pc = .ended ∨ w.pc = .destroyed) ∧ linked (effects w) = false ∧
      w.client.stoppedBit = true := by
  intro w
  obtain ⟨hend, hlinked, hbit⟩ := stop_ends (L := 0) (fun _ => 0)
    (initClient ⟨false, false, 0, 0, 0, 2⟩ [0, 0] [0, 0] 0 0) true
    (List.replicate 3 (.task .silent)) (List.replicate 11 (.task .silent))
    (by
      intro e he
      rw [List.eq_of_mem_replicate he]
      exact ⟨fun _ => .inl rfl, Int.le_refl 0⟩) (by decide)
  refine ⟨hend, hlinked, hbit ?_⟩
  intro pre post hes
  have hmem : Event.clearBits ∈ pre ++ .clearBits :: post := by simp
  rw [← hes] at hmem
  simp at hmem

/-- A server that stalls in the middle of a frame keeps the task in its reads, with the lock, as
long as it likes: whether the client is to stop is not looked at there. -/
theorem stalled_frame_holds (tick : ℕ → ℕ) {w : World} (hpc : w.pc = .receiving) {es : List Event}
    (hstalls : ∀ a, .task a ∈ es → a.rlen = 0 ∧ a.opcode ≠ .none ∧
      w.client.payloadOffset < a.payloadLen) :
    (run (next tick) w es).pc = .receiving ∧ (run (next tick) w es).lockFree = false := by
  have all : (run (next tick) w es).pc = .receiving ∧
      (run (next tick) w es).client.payloadOffset = w.client.payloadOffset := by
    induction es using List.reverseRecOn with
    | nil => exact ⟨hpc, rfl⟩
    | append_singleton es e ih =>
      obtain ⟨hin, hoff⟩ := ih fun a ha => hstalls a (List.mem_append_left _ ha)
      rw [run_snoc]
      generalize run (next tick) w es = v at hin hoff ⊢
      cases hk : isTask e with
      | false =>
        obtain ⟨hpc', hoff', -⟩ := @others_place tick v e hk
        exact ⟨hpc'.trans hin, hoff'.trans hoff⟩
      | true =>
        cases e with
        | task a =>
          obtain ⟨hr, hn, hmore⟩ := hstalls a (List.mem_append_right _ List.mem_cons_self)
          have hstep : next tick v (.task a) = recv tick a v := by
            rw [next_task (by rw [hin]; decide)]
            simp only [taskStep, hin]
          have hstay : recv tick a v = handedOn a v := by
            rcases @recv_cases v tick a with ⟨hneg, -⟩ | ⟨-, hnone, -⟩ | ⟨-, -, heq⟩
            · omega
            · exact absurd hnone hn
            · rw [heq, if_pos (by omega)]
          rw [hstep, hstay]
          refine ⟨hin, ?_⟩
          simp only [handedOn]
          omega
        | _ => cases hk
  refine ⟨all.1, ?_⟩
  rw [World.lockFree, all.1]
  rfl

/-- Half of a frame of two bytes, and then nothing: a hundred time-outs after the order to stop the
task is still in its reads. -/
theorem stalled_frame_holds_half :
    let w := run (next fun _ => 0)
      (started (initClient ⟨false, false, 0, 0, 0, 2⟩ [0, 0] [0, 0] 0 0) true)
      (List.replicate 9 (.task { Answers.silent with pollRead := 1 }) ++
        [.task ⟨0, 0, 1, [1], 2, true, .text, 0, 0⟩])
    (run (next fun _ => 0) w (.stop :: List.replicate 100
      (.task ⟨0, 0, 0, [], 2, true, .text, 0, 0⟩))).pc = .receiving := by
  refine (stalled_frame_holds (fun _ => 0) (by decide) ?_).1
  intro a ha
  rcases List.mem_cons.mp ha with ha | ha
  · cases ha
  · cases List.eq_of_mem_replicate ha
    decide

end WebsocketStop
