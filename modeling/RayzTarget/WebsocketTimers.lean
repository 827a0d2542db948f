import RayzTarget.WebsocketMoves
import RayzTarget.WrappedClock

/-! # The timers of a session

The client waits before it tries again, and gives a connection up when the PONG to one of its
PINGs does not come in time. The times are readings of the clock; a stamp in the trace is the
number of readings before it. -/
namespace WebsocketTimers

open WebsocketClient WebsocketWorld WebsocketSession WebsocketLifecycle WebsocketMoves EventRuns
  TraceMonitor

def attempt : ℕ × Effect → Option ℕ
  | (n, .connect _) => some n
  | _ => none

def attempts (trace : List (ℕ × Effect)) : List ℕ := trace.filterMap attempt

/-- A PONG has been read to its end. -/
def pongEnd : Effect → Bool
  | .dispatch d =>
    d.event == .data && d.opCode == Opcode.pong.opCode &&
      decide (d.payloadLen ≤ d.payloadOffset + d.dataLen)
  | _ => false

def untimed : Effect → Bool
  | .dispatch d => !missesPong d
  | .connect _ => false
  | _ => true

inductive Timer (tick : ℕ → ℕ) (w w' : World) : Prop where
  | waits (added : List (ℕ × Effect)) (htrace : w'.trace = w.trace ++ added)
      (hadded : ∀ x ∈ added, untimed x.2 = true ∧ pongEnd x.2 = false)
      (hticks : w.ticks ≤ w'.ticks) (hstate : w'.client.state = w.client.state)
      (hsince : w.client.state = .waitTimeout →
        w'.client.reconnectTickMs = w.client.reconnectTickMs)
      (hpong : PongTimerKept w.client w'.client)
  | off (added : List (ℕ × Effect)) (htrace : w'.trace = w.trace ++ added)
      (hadded : ∀ x ∈ added, untimed x.2 = true) (hticks : w.ticks ≤ w'.ticks)
      (hstate : w'.client.state = .closing ∨ w'.client.state.stopped = true)
  | answered (added : List (ℕ × Effect)) (htrace : w'.trace = w.trace ++ added)
      (hadded : ∀ x ∈ added, untimed x.2 = true) (hticks : w.ticks ≤ w'.ticks)
      (hstate : w'.client.state = .connected) (hpong : w'.client.waitForPongResp = false)
  | lost (added : List (ℕ × Effect)) (htrace : w'.trace = w.trace ++ added)
      (hadded : ∀ x ∈ added, untimed x.2 = true) (hlost : GivenUp tick w w')
  | overdue (d : EventData) (added : List (ℕ × Effect))
      (htrace : w'.trace = w.trace ++ (w.ticks + 1, .dispatch d) :: added)
      (hadded : ∀ x ∈ added, untimed x.2 = true) (hstate : w.client.state = .connected)
      (hwait : w.client.waitForPongResp = true)
      (hlate : pingpongTimeoutMs w.client < tick w.ticks - w.client.pingpongTickMs)
      (hlost : GivenUp tick w w')
  | due (htrace : w'.trace = w.trace) (hticks : w'.ticks = w.ticks + 2)
      (hstate : w.client.state = .waitTimeout) (hauto : w.client.config.autoReconnect = true)
      (hdue : toUInt64 w.client.waitTimeoutMs < tick w.ticks - w.client.reconnectTickMs)
      (hinit : w'.client.state = .init)
  | tried (d : EventData) (result : ℤ) (added : List (ℕ × Effect))
      (hstate : w.client.state = .init)
      (htrace : w'.trace = w.trace ++ (w.ticks, .dispatch d) :: (w.ticks, .connect result) :: added)
      (hd : missesPong d = false) (hadded : ∀ x ∈ added, untimed x.2 = true)
      (hnext : GivenUp tick w w' ∨ w.ticks ≤ w'.ticks ∧ w'.client.state = .connected ∧
        w'.client.waitForPongResp = false)
  | pinged (htrace : w'.trace = w.trace ++ [(w.ticks + 2, .control .ping [] 0)])
      (hticks : w.ticks + 2 ≤ w'.ticks) (hstate : w'.client.state = .connected)
      (htimeout : w.client.config.pingpongTimeoutSec ≠ 0)
      (hsince : w'.client.pingpongTickMs = tick (w.ticks + 2))

variable {tick : ℕ → ℕ} {a : Answers} {c : Client} {w v : World}

theorem untimed_of_quiet {e : Effect} (h : quiet e = true) :
    untimed e = true ∧ pongEnd e = false := by
  cases e with
  | dispatch d =>
    simp only [quiet, Bool.and_eq_true, bne_iff_ne, Bool.not_eq_true'] at h
    refine ⟨by rw [untimed, h.2]; rfl, ?_⟩
    simp [pongEnd, h.1]
  | connect result => cases h
  | _ => exact ⟨rfl, rfl⟩

theorem untimed_added {added : List (ℕ × Effect)} (h : ∀ x ∈ added, quiet x.2 = true) :
    ∀ x ∈ added, untimed x.2 = true := by
  intro x hx
  exact (untimed_of_quiet (h x hx)).1

theorem Timer.one {n : ℕ} {e : Effect} (htrace : v.trace = w.trace ++ [(n, e)])
    (he : untimed e = true ∧ pongEnd e = false) (hticks : w.ticks ≤ v.ticks)
    (hstate : v.client.state = w.client.state)
    (hsince : w.client.state = .waitTimeout → v.client.reconnectTickMs = w.client.reconnectTickMs)
    (hpong : PongTimerKept w.client v.client) : Timer tick w v := by
  refine .waits [(n, e)] htrace ?_ hticks hstate hsince hpong
  intro x hx
  rw [List.mem_singleton.mp hx]
  exact he

/-- The ways a read of a connection ends. -/
theorem recv_timer (hs : w.client.state = .connected) : Timer tick w (recv tick a w) := by
  rcases @recv_cases w tick a with ⟨-, heq⟩ | ⟨-, -, heq⟩ | ⟨-, -, heq⟩
  · rw [heq]
    obtain ⟨hlost, -, more, hmore, htrace⟩ := @failed_read tick a w hs
    refine .lost _ htrace ?_ hlost
    intro x hx
    rcases List.mem_cons.mp hx with rfl | hx
    · rfl
    · exact untimed_added hmore x hx
  · rw [heq]
    exact .one (n := w.ticks) (e := .read a.rlen a.bytes a.payloadLen a.fin a.opcode) rfl ⟨rfl, rfl⟩
      (Nat.le_refl _) rfl (fun _ => rfl) ⟨rfl, rfl⟩
  · have hread : ∀ x ∈ [(w.ticks, Effect.read a.rlen a.bytes a.payloadLen a.fin a.opcode),
        (w.ticks, .dispatch (readData a w.client))], untimed x.2 = true := by
      intro x hx
      rcases List.mem_pair.mp hx with rfl | rfl <;> rfl
    rw [heq]
    split
    · rename_i hmore
      refine .waits [(w.ticks, .read a.rlen a.bytes a.payloadLen a.fin a.opcode),
        (w.ticks, .dispatch (readData a w.client))] rfl ?_ (Nat.le_refl _) rfl
        (fun _ => rfl) ⟨rfl, rfl⟩
      intro x hx
      refine ⟨hread x hx, ?_⟩
      rcases List.mem_pair.mp hx with rfl | rfl
      · rfl
      · simp only [pongEnd, readData, readInto, eventData, Bool.and_eq_false_iff]
        right
        exact decide_eq_false (by omega)
    · have kept : a.opcode ≠ .pong → ∀ x ∈ [(w.ticks, Effect.read a.rlen a.bytes a.payloadLen
          a.fin a.opcode), (w.ticks, .dispatch (readData a w.client))],
          untimed x.2 = true ∧ pongEnd x.2 = false := by
        intro hop x hx
        refine ⟨hread x hx, ?_⟩
        rcases List.mem_pair.mp hx with rfl | rfl
        · rfl
        · simp [pongEnd, readData, readInto, eventData, Opcode.opCode_pong_iff, hop]
      unfold received
      cases hop : (handedOn a w).client.lastOpcode with
      | pong => exact .answered _ rfl hread (Nat.le_refl _) hs rfl
      | close => exact .off _ rfl hread (Nat.le_refl _) (.inl rfl)
      | ping =>
        have hnot : a.opcode ≠ .pong := by
          intro h
          cases hop.symm.trans h
        refine .waits _ (List.append_assoc w.trace _ _) ?_ (Nat.le_refl _) rfl (fun _ => rfl)
          ⟨rfl, rfl⟩
        intro x hx
        rcases List.mem_append.mp hx with hx | hx
        · exact kept hnot x hx
        · rw [List.mem_singleton.mp hx]
          exact ⟨rfl, rfl⟩
      | _ =>
        refine .waits _ rfl (kept ?_) (Nat.le_refl _) rfl (fun _ => rfl) ⟨rfl, rfl⟩
        intro h
        cases hop.symm.trans h

/-- Every step of a session is one of these. -/
theorem Timer.of_move (h : Move tick w v) : Timer tick w v := by
  cases h with
  | quiet added htrace hticks hpong hcall hstate =>
    rcases hstate with ⟨hstate, hsince⟩ | hstate
    · exact .waits added htrace.1 (fun x hx => untimed_of_quiet (htrace.2 x hx)) hticks hstate
        (fun _ => hsince) hpong
    · exact .off added htrace.1 (untimed_added htrace.2) hticks (.inr (by rw [hstate]; rfl))
  | retry hstate hauto hdue htrace hticks hpong hinit hfree hcall =>
    exact .due htrace hticks hstate hauto hdue hinit
  | opened d d' result hstate hr htrace hd hd' hticks hconnected hpong hfree hcall =>
    refine .tried d result [(w.ticks, .dispatch d')] hstate htrace ?_ ?_
      (.inr ⟨Nat.le_of_eq hticks.symm, hconnected, hpong⟩)
    · simpa [untimed] using (untimed_of_quiet hd).1
    · intro x hx
      rw [List.mem_singleton.mp hx]
      exact (untimed_of_quiet hd').1
  | refused d result added hstate hr htrace hd hadded hlost hpong hfree hcall =>
    refine .tried d result added hstate htrace ?_ (untimed_added hadded) (.inl hlost)
    simpa [untimed] using (untimed_of_quiet hd).1
  | lost added hstate htrace hlost hpong hcall =>
    exact .lost added htrace.1 (untimed_added htrace.2) hlost
  | overdue d added hstate hwait hlate htrace hadded hlost hpong hfree hcall =>
    exact .overdue d added htrace (untimed_added hadded) hstate hwait hlate hlost
  | ping hstate hconnected htrace hticks hpong hfree hcall =>
    rcases hpong with ⟨-, htimeout, -, hsince⟩ | hpong
    · exact .pinged htrace hticks hconnected htimeout hsince
    · refine .one htrace ⟨rfl, rfl⟩ (by omega) (hconnected.trans hstate.symm) ?_ hpong
      intro hwait
      rw [hstate] at hwait
      cases hwait
  | echo hstate hsame htrace hticks hpong hfree hcall =>
    refine .one htrace ⟨rfl, rfl⟩ (Nat.le_of_eq hticks.symm) (hsame.trans hstate.symm) ?_ hpong
    intro hwait
    rw [hstate] at hwait
    cases hwait
  | recv a hpc hstate hfree h => exact h ▸ recv_timer hstate
  | begun opcode data len hstate hfree h =>
    rw [h]
    exact .one (n := w.ticks) (e := .sending opcode (passed data len)) rfl ⟨rfl, rfl⟩
      (Nat.le_refl _) rfl (fun _ => rfl) ⟨rfl, rfl⟩
  | passed k wlen hk hcont hdone htrace hticks hstate hsince hpong hcall =>
    exact .one htrace ⟨rfl, rfl⟩ (Nat.le_of_eq hticks.symm) hstate (fun _ => hsince) hpong
  | broken k wlen ret added hk hcont hfailed htrace hadded hlost hpong hcall =>
    rw [List.append_assoc, List.append_assoc] at htrace
    have huntimed : ∀ x ∈ [(w.ticks,
        let h := k.loop.handing k.data w.client.bufferSize wlen
        Effect.frame h.opcode h.buffer h.needWrite h.wlen)] ++ (added ++
          [(v.ticks, .sent k.opcode k.data ret)]), untimed x.2 = true := by
      intro x hx
      rcases List.mem_append.mp hx with hx | hx
      · rw [List.mem_singleton.mp hx]
        rfl
      · rcases List.mem_append.mp hx with hx | hx
        · exact untimed_added hadded x hx
        · rw [List.mem_singleton.mp hx]
          rfl
    rcases hlost with hlost | ⟨hstate, hstopped, hticks⟩
    · exact .lost _ htrace huntimed hlost
    · exact .off _ htrace huntimed (Nat.le_of_eq hticks.symm) (.inr (hstate ▸ hstopped))
  | returned k hk hcont h =>
    rw [h]
    exact .one (n := w.ticks) (e := .sent k.opcode k.data k.loop.widx) rfl ⟨rfl, rfl⟩
      (Nat.le_refl _) rfl (fun _ => rfl) ⟨rfl, rfl⟩

/-! ## Between two attempts -/

@[simp] theorem attempts_append (xs ys : List (ℕ × Effect)) :
    attempts (xs ++ ys) = attempts xs ++ attempts ys := List.filterMap_append

theorem attempts_untimed {added : List (ℕ × Effect)} (h : ∀ x ∈ added, untimed x.2 = true) :
    attempts added = [] := by
  apply List.filterMap_eq_nil_iff.mpr
  rintro ⟨n, e⟩ hx
  have he := h _ hx
  cases e with
  | connect result => cases he
  | _ => rfl

theorem attempts_dispatch (n : ℕ) (d : EventData) (xs : List (ℕ × Effect)) :
    attempts ((n, .dispatch d) :: xs) = attempts xs := rfl

/-- The attempts so far came a whole wait after each other, and the client is not ready for the
next before the wait has passed since the last. -/
structure Paced (tick : ℕ → ℕ) (c : Client) (w : World) : Prop where
  fixed : Fixed c w.client
  past : ∀ n ∈ attempts w.trace, n ≤ w.ticks
  spaced : (attempts w.trace).Pairwise fun n m =>
    tick n + toUInt64 c.waitTimeoutMs < tick (m - 1)
  due : w.client.state = .init → ∀ n ∈ attempts w.trace,
    c.config.autoReconnect = true ∧ tick n + toUInt64 c.waitTimeoutMs < tick (w.ticks - 1)
  since : w.client.state = .waitTimeout → c.config.autoReconnect = true →
    ∀ n ∈ attempts w.trace, tick n ≤ w.client.reconnectTickMs
  single : c.config.autoReconnect = false → (attempts w.trace).length ≤ 1

/-- The times by which the attempts so far have to be over. -/
theorem Paced.since_lost (hmono : Monotone tick) (hfixed : Fixed c v.client)
    (hlost : GivenUp tick w v) {ns : List ℕ} (hns : ∀ n ∈ ns, n ≤ w.ticks) :
    c.config.autoReconnect = true → ∀ n ∈ ns, tick n ≤ v.client.reconnectTickMs := by
  intro hauto n hn
  obtain ⟨k, hk, -, heq⟩ := hlost.2.2 (hfixed.autoReconnect.trans hauto)
  rw [heq]
  exact hmono ((hns n hn).trans hk)

/-- A step without an attempt. -/
theorem Paced.still (h : Paced tick c w) (hfixed : Fixed c v.client) {added : List (ℕ × Effect)}
    (htrace : v.trace = w.trace ++ added) (hadded : attempts added = [])
    (hticks : w.ticks ≤ v.ticks)
    (hdue : v.client.state = .init → ∀ n ∈ attempts w.trace,
      c.config.autoReconnect = true ∧ tick n + toUInt64 c.waitTimeoutMs < tick (v.ticks - 1))
    (hsince : v.client.state = .waitTimeout → c.config.autoReconnect = true →
      ∀ n ∈ attempts w.trace, tick n ≤ v.client.reconnectTickMs) : Paced tick c v := by
  have hsame : attempts v.trace = attempts w.trace := by
    rw [htrace, attempts_append, hadded, List.append_nil]
  constructor
  · exact hfixed
  · intro n hn
    exact (h.past n (hsame ▸ hn)).trans hticks
  · exact hsame ▸ h.spaced
  · exact hsame ▸ hdue
  · exact hsame ▸ hsince
  · exact hsame ▸ h.single

theorem Paced.tried (hmono : Monotone tick) (h : Paced tick c w) (hfixed : Fixed c v.client)
    (hs : w.client.state = .init) (hsame : attempts v.trace = attempts w.trace ++ [w.ticks])
    (hnext : GivenUp tick w v ∨ w.ticks ≤ v.ticks ∧ v.client.state = .connected) :
    Paced tick c v := by
  have hticks : w.ticks ≤ v.ticks := hnext.elim (fun hlost => hlost.2.1) fun hconn => hconn.1
  have hpast : ∀ n ∈ attempts v.trace, n ≤ w.ticks := by
    rw [hsame]
    intro n hn
    rcases List.mem_append.mp hn with hn | hn
    · exact h.past n hn
    · exact Nat.le_of_eq (List.mem_singleton.mp hn)
  constructor
  · exact hfixed
  · intro n hn
    exact (hpast n hn).trans hticks
  · rw [hsame]
    refine List.pairwise_append.mpr ⟨h.spaced, List.pairwise_singleton _ _, ?_⟩
    intro n hn m hm
    rw [List.mem_singleton.mp hm]
    exact (h.due hs n hn).2
  · intro hinit
    rcases hnext with hlost | hconn
    · rw [hlost.1] at hinit
      cases hinit
    · rw [hconn.2] at hinit
      cases hinit
  · intro hwait
    rcases hnext with hlost | hconn
    · exact Paced.since_lost hmono hfixed hlost hpast
    · rw [hconn.2] at hwait
      cases hwait
  · intro hauto
    have hnone : attempts w.trace = [] := by
      apply List.eq_nil_iff_forall_not_mem.mpr
      intro n hn
      rw [(h.due hs n hn).1] at hauto
      cases hauto
    rw [hsame, hnone]
    exact Nat.le_refl _

theorem paced_step (hmono : Monotone tick) (h : Paced tick c w) (hfixed : Fixed c v.client)
    (ht : Timer tick w v) : Paced tick c v := by
  have elsewhere : ∀ {p q : ClientState} {P : Prop}, v.client.state = p → p ≠ q →
      v.client.state = q → P := fun hp hne hq => absurd (hp.symm.trans hq) hne
  cases ht with
  | waits added htrace hadded hticks hstate hsince hpong =>
    refine h.still hfixed htrace (attempts_untimed fun x hx => (hadded x hx).1) hticks ?_ ?_
    · intro hs n hn
      obtain ⟨hauto, hlt⟩ := h.due (hstate ▸ hs) n hn
      exact ⟨hauto, lt_of_lt_of_le hlt (hmono (by omega))⟩
    · intro hs hauto
      rw [hsince (hstate ▸ hs)]
      exact h.since (hstate ▸ hs) hauto
  | off added htrace hadded hticks hstate =>
    refine h.still hfixed htrace (attempts_untimed hadded) hticks ?_ ?_
    · intro hs
      rcases hstate with hstate | hstate <;> rw [hs] at hstate <;> cases hstate
    · intro hs
      rcases hstate with hstate | hstate <;> rw [hs] at hstate <;> cases hstate
  | answered added htrace hadded hticks hstate hpong =>
    exact h.still hfixed htrace (attempts_untimed hadded) hticks (elsewhere hstate (by decide))
      (elsewhere hstate (by decide))
  | lost added htrace hadded hlost =>
    exact h.still hfixed htrace (attempts_untimed hadded) hlost.2.1 (elsewhere hlost.1 (by decide))
      fun _ => Paced.since_lost hmono hfixed hlost h.past
  | overdue d added htrace hadded hstate hwait hlate hlost =>
    refine h.still hfixed htrace ?_ hlost.2.1 (elsewhere hlost.1 (by decide))
      fun _ => Paced.since_lost hmono hfixed hlost h.past
    exact (attempts_dispatch ..).trans (attempts_untimed hadded)
  | due htrace hticks hstate hauto hdue hinit =>
    refine h.still hfixed (htrace.trans (List.append_nil _).symm) rfl (by omega) ?_
      (elsewhere hinit (by decide))
    intro _ n hn
    have hon : c.config.autoReconnect = true := h.fixed.autoReconnect ▸ hauto
    have hsince := h.since hstate hon n hn
    have hlater : tick w.ticks ≤ tick (v.ticks - 1) := hmono (by omega)
    rw [h.fixed.waitTimeoutMs] at hdue
    exact ⟨hon, by omega⟩
  | tried d result added hstate htrace hd hadded hnext =>
    refine h.tried hmono hfixed hstate ?_ (hnext.imp_right fun hconn => ⟨hconn.1, hconn.2.1⟩)
    rw [htrace, attempts_append]
    congr 1
    exact congrArg (w.ticks :: ·) (attempts_untimed hadded)
  | pinged htrace hticks hstate htimeout hsince =>
    exact h.still hfixed htrace rfl (by omega) (elsewhere hstate (by decide))
      (elsewhere hstate (by decide))

theorem paced_run (hmono : Monotone tick) (c : Client) (found : Bool) (es : List Event) :
    Paced tick c (run (next tick) (started c found) es) := by
  have both : Tracked (run (next tick) (started c found) es) ∧
      Paced tick c (run (next tick) (started c found) es) := by
    apply run_invariant (next tick) fun w => Tracked w ∧ Paced tick c w
    · refine ⟨started_tracked c found, ⟨rfl, rfl, rfl, rfl⟩, ?_, List.Pairwise.nil, ?_, ?_, ?_⟩
      · intro n hn
        cases hn
      · intro _ n hn
        cases hn
      · intro _ _ n hn
        cases hn
      · intro _
        exact Nat.zero_le _
    · rintro w e ⟨htracked, hpaced⟩
      refine ⟨next_tracked htracked e, ?_⟩
      exact paced_step hmono hpaced (hpaced.fixed.trans (next_fixed e))
        (.of_move (next_moves htracked e))
  exact both.2

/-- Between two attempts to connect the whole reconnect timeout passes, so their number in any
stretch of time is bounded; a client that is not to reconnect tries once a session. -/
theorem attempts_spaced (hmono : Monotone tick) (c : Client) (found : Bool) (es : List Event) :
    let ns := attempts (run (next tick) (started c found) es).trace
    (ns.Pairwise fun n m => tick n + toUInt64 c.waitTimeoutMs < tick (m - 1)) ∧
      (∀ x T, ((ns.map tick).filter fun t => x ≤ t ∧ t ≤ x + T).length ≤
        T / (toUInt64 c.waitTimeoutMs + 1) + 1) ∧
      (c.config.autoReconnect = false → ns.length ≤ 1) := by
  intro ns
  have hpaced := paced_run hmono c found es
  have hspaced : WrappedClock.Spaced (toUInt64 c.waitTimeoutMs + 1) (ns.map tick) := by
    refine List.pairwise_map.mpr (hpaced.spaced.imp ?_)
    intro n m hlt
    have hlast : tick (m - 1) ≤ tick m := hmono (Nat.sub_le m 1)
    omega
  exact ⟨hpaced.spaced, fun x T => hspaced.count_le (Nat.succ_pos _) x T, hpaced.single⟩

/-- A server that refuses: the second attempt comes four seconds after the first. -/
theorem attempts_spaced_refused :
    let ns := attempts (run (next (2000 * ·))
      (started (initClient ⟨false, false, 0, 0, 1000, 0⟩ [] [] 0 0) true)
      (List.replicate 8 (.task { Answers.silent with connect := -1 }))).trace
    ns = [0, 3] ∧ ns.Pairwise fun n m => 2000 * n + toUInt64 1000 < 2000 * (m - 1) :=
  ⟨by decide, (attempts_spaced (fun _ _ h => Nat.mul_le_mul_left 2000 h)
    (initClient ⟨false, false, 0, 0, 1000, 0⟩ [] [] 0 0) true
    (List.replicate 8 (.task { Answers.silent with connect := -1 }))).1⟩

/-! ## Before a missed PONG -/

/-- A PING stamped `n` with no PONG read to its end and no connection tried since. -/
def Unanswered (trace : List (ℕ × Effect)) (n : ℕ) : Prop :=
  ∃ pre mid, trace = pre ++ (n, .control .ping [] 0) :: mid ∧
    ∀ x ∈ mid, attempt x = none ∧ pongEnd x.2 = false

/-- A missed PONG is the missing answer to such a PING, a whole timeout later. -/
def Overdue (tick : ℕ → ℕ) (c : Client) (pre : List (ℕ × Effect)) : ℕ × Effect → Prop
  | (m, .dispatch d) => missesPong d = true → c.config.pingpongTimeoutSec ≠ 0 ∧
      ∃ n, Unanswered pre n ∧ tick n + pingpongTimeoutMs c < tick (m - 1)
  | _ => True

theorem unanswered_append {xs added : List (ℕ × Effect)} {n : ℕ} (h : Unanswered xs n)
    (hadded : ∀ x ∈ added, untimed x.2 = true ∧ pongEnd x.2 = false) :
    Unanswered (xs ++ added) n := by
  obtain ⟨pre, mid, rfl, hmid⟩ := h
  refine ⟨pre, mid ++ added, by simp, ?_⟩
  intro x hx
  rcases List.mem_append.mp hx with hx | hx
  · exact hmid x hx
  · obtain ⟨huntimed, hpong⟩ := hadded x hx
    refine ⟨?_, hpong⟩
    obtain ⟨n, e⟩ := x
    cases e with
    | connect result => cases huntimed
    | _ => rfl

theorem overdue_untimed {pre : List (ℕ × Effect)} {x : ℕ × Effect} (h : untimed x.2 = true) :
    Overdue tick c pre x := by
  obtain ⟨n, e⟩ := x
  cases e with
  | dispatch d =>
    intro hmissed
    rw [untimed, hmissed] at h
    cases h
  | _ => trivial

/-- While a PONG is awaited on a connection its PING is in the trace, with its time. -/
structure Watched (tick : ℕ → ℕ) (c : Client) (w : World) : Prop where
  fixed : Fixed c w.client
  awaited : w.client.state = .connected → w.client.waitForPongResp = true →
    c.config.pingpongTimeoutSec ≠ 0 ∧
      ∃ n, Unanswered w.trace n ∧ w.client.pingpongTickMs = tick n
  missed : Justified (Overdue tick c) w.trace

theorem Watched.grow (h : Watched tick c w) {added : List (ℕ × Effect)}
    (htrace : v.trace = w.trace ++ added) (hadded : ∀ x ∈ added, untimed x.2 = true) :
    Justified (Overdue tick c) v.trace := by
  rw [htrace]
  apply h.missed.append
  intro pre x hx
  exact overdue_untimed (hadded x hx)

theorem watched_step (h : Watched tick c w) (hfixed : Fixed c v.client) (ht : Timer tick w v) :
    Watched tick c v := by
  have elsewhere : ∀ {p : ClientState} {P : Prop}, v.client.state = p → p ≠ .connected →
      v.client.state = .connected → P := fun hp hne hq => absurd (hp.symm.trans hq) hne
  cases ht with
  | waits added htrace hadded hticks hstate hsince hpong =>
    refine ⟨hfixed, ?_, h.grow htrace fun x hx => (hadded x hx).1⟩
    intro hs hwait
    obtain ⟨htimeout, n, hn, htick⟩ := h.awaited (hstate ▸ hs) (hpong.1 ▸ hwait)
    exact ⟨htimeout, n, htrace ▸ unanswered_append hn hadded, hpong.2.trans htick⟩
  | off added htrace hadded hticks hstate =>
    refine ⟨hfixed, ?_, h.grow htrace hadded⟩
    intro hs
    rcases hstate with hstate | hstate <;> rw [hs] at hstate <;> cases hstate
  | answered added htrace hadded hticks hstate hpong =>
    refine ⟨hfixed, ?_, h.grow htrace hadded⟩
    intro _ hwait
    rw [hpong] at hwait
    cases hwait
  | lost added htrace hadded hlost =>
    exact ⟨hfixed, elsewhere hlost.1 (by decide), h.grow htrace hadded⟩
  | overdue d added htrace hadded hstate hwait hlate hlost =>
    refine ⟨hfixed, elsewhere hlost.1 (by decide), ?_⟩
    obtain ⟨htimeout, n, hn, htick⟩ := h.awaited hstate hwait
    have hthis : Overdue tick c w.trace (w.ticks + 1, .dispatch d) := by
      intro _
      refine ⟨htimeout, n, hn, ?_⟩
      rw [htick, pingpongTimeoutMs, h.fixed.pingpongTimeoutSec] at hlate
      rw [Nat.add_sub_cancel]
      exact Nat.add_lt_of_lt_sub' hlate
    rw [htrace, List.append_cons]
    apply (h.missed.snoc hthis).append
    intro pre x hx
    exact overdue_untimed (hadded x hx)
  | due htrace hticks hstate hauto hdue hinit =>
    exact ⟨hfixed, elsewhere hinit (by decide), htrace ▸ h.missed⟩
  | tried d result added hstate htrace hd hadded hnext =>
    refine ⟨hfixed, ?_, ?_⟩
    · intro hs hwait
      rcases hnext with hlost | ⟨-, -, hpong⟩
      · exact elsewhere hlost.1 (by decide) hs
      · rw [hpong] at hwait
        cases hwait
    · rw [htrace]
      apply h.missed.append
      intro pre x hx
      rcases List.mem_cons.mp hx with rfl | hx
      · intro hmissed
        rw [hd] at hmissed
        cases hmissed
      · rcases List.mem_cons.mp hx with rfl | hx
        · trivial
        · exact overdue_untimed (hadded x hx)
  | pinged htrace hticks hstate htimeout hsince =>
    refine ⟨hfixed, ?_, ?_⟩
    · intro _ _
      refine ⟨h.fixed.pingpongTimeoutSec ▸ htimeout, w.ticks + 2, ⟨w.trace, [], htrace, ?_⟩, hsince⟩
      intro x hx
      cases hx
    · rw [htrace]
      exact h.missed.snoc trivial

theorem watched_run (tick : ℕ → ℕ) (c : Client) (found : Bool) (es : List Event) :
    Watched tick c (run (next tick) (started c found) es) := by
  have both : Tracked (run (next tick) (started c found) es) ∧
      Watched tick c (run (next tick) (started c found) es) := by
    apply run_invariant (next tick) fun w => Tracked w ∧ Watched tick c w
    · refine ⟨started_tracked c found, ⟨rfl, rfl, rfl, rfl⟩, ?_, justified_nil⟩
      intro hs
      cases hs
    · rintro w e ⟨htracked, hwatched⟩
      refine ⟨next_tracked htracked e, ?_⟩
      exact watched_step hwatched (hwatched.fixed.trans (next_fixed e))
        (.of_move (next_moves htracked e))
  exact both.2

/-- A connection is given up for a missing PONG only when its answer was asked for: a PING went
out on the same connection more than the timeout earlier and no PONG was read since. -/
theorem missed_pong_was_asked (tick : ℕ → ℕ) (c : Client) (found : Bool) (es : List Event)
    {pre post : List (ℕ × Effect)} {m : ℕ} {d : EventData}
    (htrace : (run (next tick) (started c found) es).trace = pre ++ (m, .dispatch d) :: post)
    (hmissed : missesPong d = true) :
    c.config.pingpongTimeoutSec ≠ 0 ∧ ∃ n before since,
      pre = before ++ (n, .control .ping [] 0) :: since ∧
      (∀ x ∈ since, attempt x = none ∧ pongEnd x.2 = false) ∧
      tick n + pingpongTimeoutMs c < tick (m - 1) := by
  obtain ⟨htimeout, n, ⟨before, since, hpre, hsince⟩, hlate⟩ :=
    (watched_run tick c found es).missed pre _ post htrace hmissed
  exact ⟨htimeout, n, before, since, hpre, hsince, hlate⟩

/-- A server that never answers: the PING of the fourth reading is missed at the eighth. -/
theorem missed_pong_was_asked_silent :
    let w := run (next (600 * ·))
      (started (initClient ⟨false, false, 1, 1, 1000, 1⟩ [0] [0] 0 0) true)
      (List.replicate 22 (.task .silent))
    ∃ n, (n, Effect.control .ping [] 0) ∈ w.trace ∧ 600 * n + 1000 < 600 * 8 := by
  intro w
  obtain ⟨-, n, before, since, hpre, -, hlate⟩ := @missed_pong_was_asked (600 * ·)
    (initClient ⟨false, false, 1, 1, 1000, 1⟩ [0] [0] 0 0) true (List.replicate 22 (.task .silent))
    (w.trace.take 8) (w.trace.drop 9) 9 (eventData (initClient ⟨false, false, 1, 1, 1000, 1⟩ [0] [0]
      0 0) .error [] 0 (some (.noPong 1))) (by decide) rfl
  refine ⟨n, ?_, hlate⟩
  apply List.mem_of_mem_take
  rw [hpre]
  exact List.mem_append_right _ List.mem_cons_self

end WebsocketTimers
