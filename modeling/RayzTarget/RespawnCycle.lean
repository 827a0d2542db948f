import RayzTarget.TargetDevice

/-! # Deaths and respawns in turn

Over all interleavings of the four tasks: a death that starts a respawn and a poll that
completes one follow each other in turn, and every completed respawn is taken by one of the
two polling tasks. -/
namespace RespawnCycle

open EventRuns RespawnTasks RespawnAnnouncement TargetDevice

inductive Mark where
  | started
  | completed
  deriving DecidableEq, Repr

variable {γ μ : Type*} (G : GameComponent γ) (validate : UInt32 → Bool × UInt8 × UInt8)

def completesRespawn (s : TargetDevice.State γ μ) (e : TargetDevice.Event μ) : Bool :=
  match e with
  | .game a => gameCompletes G.toGameState (s.afterCalls G (sideCalls s e)).polling (.game a)
  | .ws a => wsCompletes G.toGameState (s.afterCalls G (sideCalls s e)).polling (.ws a)
  | _ => false

/-- A recorded death is a start only if the device respawns after it. -/
def marks (s : TargetDevice.State γ μ) (e : TargetDevice.Event μ) : List Mark :=
  if recordsDeath s e then
    if (TargetDevice.next G validate s e).respawning G then [.started] else []
  else if completesRespawn G s e then [.completed] else []

def inTurn (n : ℕ) : List Mark :=
  (List.range n).map fun i => if i % 2 = 0 then .started else .completed

theorem inTurn_succ (n : ℕ) :
    inTurn (n + 1) = inTurn n ++ [if n % 2 = 0 then .started else .completed] := by
  rw [inTurn, List.range_succ, List.map_append, inTurn]
  rfl

theorem inTurn_completed (n : ℕ) : (inTurn n).count .completed = n / 2 := by
  induction n with
  | zero => rfl
  | succ n ih =>
    rw [inTurn_succ, List.count_append, ih]
    rcases Nat.mod_two_eq_zero_or_one n with h | h
    · rw [if_pos h]
      have none_more : List.count Mark.completed [.started] = 0 := rfl
      omega
    · rw [if_neg (by omega)]
      have one_more : List.count Mark.completed [.completed] = 1 := rfl
      omega

theorem inTurn_started (n : ℕ) : (inTurn n).count .started = (n + 1) / 2 := by
  induction n with
  | zero => rfl
  | succ n ih =>
    rw [inTurn_succ, List.count_append, ih]
    rcases Nat.mod_two_eq_zero_or_one n with h | h
    · rw [if_pos h]
      have one_more : List.count Mark.started [.started] = 1 := rfl
      omega
    · rw [if_neg (by omega)]
      have none_more : List.count Mark.started [.completed] = 0 := rfl
      omega

/-- What a step may do to the respawn: leave it, start it by a death, or complete it. -/
theorem step_marks {s : TargetDevice.State γ μ} (hs : Guarded G s) (e : TargetDevice.Event μ) :
    marks G validate s e = [] ∧
      (TargetDevice.next G validate s e).respawning G = s.respawning G ∨
    marks G validate s e = [.started] ∧ s.respawning G = false ∧
      (TargetDevice.next G validate s e).respawning G = true ∨
    marks G validate s e = [.completed] ∧ s.respawning G = true ∧
      (TargetDevice.next G validate s e).respawning G = false := by
  have kept := respawning_afterCalls G s (sideCalls s e)
  cases e with
  | processing a =>
    cases hd : recordsDeath s (.processing a) with
    | true =>
      obtain ⟨l, hpc⟩ := recordsDeath_pc hd
      have alive : s.respawning G = false := by
        apply hs
        rw [hpc]
        trivial
      cases hr : (TargetDevice.next G validate s (.processing a)).respawning G with
      | false =>
        left
        exact ⟨by simp [marks, hd, hr], alive.symm⟩
      | true =>
        right
        left
        exact ⟨by simp [marks, hd, hr], alive, rfl⟩
    | false =>
      left
      have hd' : recordsDeath (s.afterCalls G (sideCalls s (.processing a))) (.processing a) =
          false := hd
      refine ⟨by simp [marks, hd, completesRespawn], ?_⟩
      simpa [TargetDevice.next, State.step, hd', State.respawning] using kept
  | game a =>
    have polled := respawning_next G.toGameState
      (s.afterCalls G (sideCalls s (.game a))).polling (.game a)
    have other : wsCompletes G.toGameState
      (s.afterCalls G (sideCalls s (.game a))).polling (.game a) = false := rfl
    rw [other, Bool.or_false] at polled
    rcases polled with ⟨hc, before, after⟩ | ⟨hc, same | death⟩
    · right
      right
      exact ⟨by simp [marks, recordsDeath, completesRespawn, hc], kept.symm.trans before, after⟩
    · left
      exact ⟨by simp [marks, recordsDeath, completesRespawn, hc], same.trans kept⟩
    · cases death
  | ws a =>
    have polled := respawning_next G.toGameState
      (s.afterCalls G (sideCalls s (.ws a))).polling (.ws a)
    have other : gameCompletes G.toGameState
      (s.afterCalls G (sideCalls s (.ws a))).polling (.ws a) = false := rfl
    rw [other, Bool.false_or] at polled
    rcases polled with ⟨hc, before, after⟩ | ⟨hc, same | death⟩
    · right
      right
      exact ⟨by simp [marks, recordsDeath, completesRespawn, hc], kept.symm.trans before, after⟩
    · left
      exact ⟨by simp [marks, recordsDeath, completesRespawn, hc], same.trans kept⟩
    · cases death
  | server e all =>
    left
    exact ⟨rfl, kept⟩
  | espnow a =>
    left
    exact ⟨rfl, kept⟩
  | elapse ms =>
    left
    refine ⟨rfl, ?_⟩
    exact (G.elapse_keeps ms _).trans kept

/-- A completed respawn is logged by `game_task`, or announced by `ws_task` in its next step. -/
def taken (p : RespawnTasks.State γ) : ℕ :=
  p.respawnLogs + p.respawnBroadcasts + toAnnounce p.wsPc

theorem taken_next (s : TargetDevice.State γ μ) (e : TargetDevice.Event μ) :
    taken (TargetDevice.next G validate s e).polling =
      taken s.polling + (marks G validate s e).count .completed := by
  have polled : ∀ e', taken (RespawnTasks.next G.toGameState
      (s.afterCalls G (sideCalls s e)).polling e') = taken s.polling +
        ((if gameCompletes G.toGameState (s.afterCalls G (sideCalls s e)).polling e' then 1
            else 0) +
          if wsCompletes G.toGameState (s.afterCalls G (sideCalls s e)).polling e' then 1
            else 0) := by
    intro e'
    have game := gameTask_takes G.toGameState (s.afterCalls G (sideCalls s e)).polling e'
    have ws := wsTask_takes G.toGameState (s.afterCalls G (sideCalls s e)).polling e'
    have frame : taken (s.afterCalls G (sideCalls s e)).polling = taken s.polling := rfl
    unfold taken at frame ⊢
    omega
  have none_of_game : ∀ p a, wsCompletes G.toGameState p (.game a) = false := fun _ _ => rfl
  have none_of_ws : ∀ p a, gameCompletes G.toGameState p (.ws a) = false := fun _ _ => rfl
  cases e with
  | processing a =>
    cases hd : recordsDeath s (.processing a) with
    | true =>
      have hd' : recordsDeath (s.afterCalls G (sideCalls s (.processing a))) (.processing a) =
          true := hd
      have none_completed : (marks G validate s (.processing a)).count .completed = 0 := by
        rw [marks, if_pos hd]
        split <;> rfl
      rw [none_completed]
      simpa [TargetDevice.next, State.step, hd', gameCompletes, wsCompletes] using polled .death
    | false =>
      have hd' : recordsDeath (s.afterCalls G (sideCalls s (.processing a))) (.processing a) =
          false := hd
      have none_completed : (marks G validate s (.processing a)).count .completed = 0 := by
        simp [marks, hd, completesRespawn]
      rw [none_completed]
      simp only [TargetDevice.next, State.step, hd', Bool.false_eq_true, if_false]
      rfl
  | game a =>
    have := polled (.game a)
    rw [none_of_game] at this
    by_cases hc : gameCompletes G.toGameState (s.afterCalls G (sideCalls s (.game a))).polling
      (.game a) = true <;>
      simpa [TargetDevice.next, State.step, marks, recordsDeath, completesRespawn, hc] using this
  | ws a =>
    have := polled (.ws a)
    rw [none_of_ws] at this
    by_cases hc : wsCompletes G.toGameState (s.afterCalls G (sideCalls s (.ws a))).polling
      (.ws a) = true <;>
      simpa [TargetDevice.next, State.step, marks, recordsDeath, completesRespawn, hc] using this
  | elapse ms =>
    simpa [TargetDevice.next, State.step, marks, recordsDeath, completesRespawn, gameCompletes,
      wsCompletes] using polled (.elapse ms)
  | server e all => rfl
  | espnow a => rfl

theorem started_next (s : TargetDevice.State γ μ) (e : TargetDevice.Event μ) :
    s.processing.deaths.length + (marks G validate s e).count .started ≤
      (TargetDevice.next G validate s e).processing.deaths.length := by
  cases e with
  | processing a =>
    cases hd : recordsDeath s (.processing a) with
    | true =>
      obtain ⟨l, hpc⟩ := recordsDeath_pc hd
      have recorded : (TargetDevice.next G validate s (.processing a)).processing.deaths =
          s.processing.deaths ++ [l] := by
        simp [TargetDevice.next, State.step, State.afterCalls, ProcessingTask.State.taskStep, hpc]
      have at_most_one : (marks G validate s (.processing a)).count .started ≤ 1 := by
        rw [marks, if_pos hd]
        split <;> decide
      rw [recorded, List.length_append, List.length_singleton]
      omega
    | false =>
      have none_started : (marks G validate s (.processing a)).count .started = 0 := by
        simp [marks, hd, completesRespawn]
      have grown := (ProcessingTally.tail_next validate s.processing (.task { a with
        respawning := (s.afterCalls G (sideCalls s (.processing a))).respawning G })).1
      have longer := congrArg List.length grown
      rw [List.length_append] at longer
      rw [none_started]
      simp only [TargetDevice.next, State.step, State.afterCalls]
      exact (Nat.le_add_right _ _).trans longer.ge
  | game a =>
    have none_started : (marks G validate s (.game a)).count .started = 0 := by
      simp only [marks, recordsDeath, Bool.false_eq_true, if_false]
      split <;> rfl
    exact Nat.le_of_eq (by rw [none_started]; rfl)
  | ws a =>
    have none_started : (marks G validate s (.ws a)).count .started = 0 := by
      simp only [marks, recordsDeath, Bool.false_eq_true, if_false]
      split <;> rfl
    exact Nat.le_of_eq (by rw [none_started]; rfl)
  | server e all => exact Nat.le_refl _
  | espnow a => exact Nat.le_refl _
  | elapse ms => exact Nat.le_refl _

/-- The ghost record of marks against the state. -/
structure Cycling (s : TargetDevice.State γ μ) (r : List Mark) : Prop where
  guarded : Guarded G s
  turn : ∃ n, r = inTurn n ∧ (s.respawning G = true ↔ n % 2 = 1)
  taken : taken s.polling = r.count .completed
  deaths : r.count .started ≤ s.processing.deaths.length

theorem cycling_next {s : TargetDevice.State γ μ} {r : List Mark} (h : Cycling G s r)
    (e : TargetDevice.Event μ) :
    Cycling G (TargetDevice.next G validate s e) (r ++ marks G validate s e) := by
  obtain ⟨hg, ⟨n, rfl, hn⟩, ht, hd⟩ := h
  refine ⟨guarded_next G validate hg e, ?_, ?_, ?_⟩
  · rcases step_marks G validate hg e with ⟨hm, same⟩ | ⟨hm, before, after⟩ | ⟨hm, before, after⟩
    · exact ⟨n, by rw [hm, List.append_nil], by rw [same]; exact hn⟩
    · have even : n % 2 = 0 := by
        have : ¬ n % 2 = 1 := fun h => by simp [hn.mpr h] at before
        omega
      refine ⟨n + 1, by rw [inTurn_succ, if_pos even, hm], ?_⟩
      rw [after]
      exact ⟨fun _ => by omega, fun _ => rfl⟩
    · have odd : n % 2 = 1 := hn.mp before
      refine ⟨n + 1, by rw [inTurn_succ, if_neg (by omega), hm], ?_⟩
      rw [after]
      constructor
      · intro h
        cases h
      · omega
  · rw [taken_next, ht, List.count_append]
  · have := started_next G validate s e
    rw [List.count_append]
    omega

/-- From a boot in which the device is not respawning, whatever the interleaving: starts and
completions of a respawn alternate, beginning with a start, the device respawns exactly
between a start and its completion, every completion is logged by `game_task` or announced by
`ws_task` and not both, and there are at least as many deaths as starts. -/
theorem starts_and_completions_alternate {g : γ} (hg : G.isRespawning g = false)
    (es : List (TargetDevice.Event μ)) :
    let s := run (TargetDevice.next G validate) (TargetDevice.boot g) es
    ∃ n, observe (TargetDevice.next G validate) (marks G validate) (TargetDevice.boot g) es =
        inTurn n ∧
      (s.respawning G = true ↔ n % 2 = 1) ∧
      s.polling.respawnLogs + s.polling.respawnBroadcasts + toAnnounce s.polling.wsPc = n / 2 ∧
      (n + 1) / 2 ≤ s.processing.deaths.length := by
  intro s
  have start : Cycling G (TargetDevice.boot g : TargetDevice.State γ μ) [] := by
    refine ⟨fun _ => hg, ⟨0, rfl, ?_⟩, rfl, Nat.le_refl _⟩
    simp [TargetDevice.boot, State.respawning, RespawnTasks.boot, hg]
  obtain ⟨-, ⟨n, hmarks, hn⟩, ht, hd⟩ := run_rule (TargetDevice.next G validate)
    (marks G validate) (Cycling G) start (fun s r e h => cycling_next G validate h e) es
  rw [hmarks, inTurn_completed] at ht
  rw [hmarks, inTurn_started] at hd
  exact ⟨n, hmarks, hn, ht, hd⟩

/-- A hit, the five seconds of its respawn, and the poll of `ws_task` that ends it. -/
theorem starts_and_completions_alternate_one_respawn :
    let es := oneHit ++ [.elapse 5000, .ws ⟨true, true, true⟩, .ws ⟨true, true, true⟩]
    let s := run (TargetDevice.next countdownComponent fun _ => (true, 1, 2))
      (TargetDevice.boot (false, 0)) es
    observe (TargetDevice.next countdownComponent fun _ => (true, 1, 2))
        (marks countdownComponent fun _ => (true, 1, 2)) (TargetDevice.boot (false, 0)) es =
          [.started, .completed] ∧
      ∃ n, [.started, .completed] = inTurn n ∧
        (s.respawning countdownComponent = true ↔ n % 2 = 1) ∧
        s.polling.respawnLogs + s.polling.respawnBroadcasts + toAnnounce s.polling.wsPc = n / 2 ∧
        (n + 1) / 2 ≤ s.processing.deaths.length := by
  intro es s
  have hmarks : observe (TargetDevice.next countdownComponent fun _ => (true, 1, 2))
      (marks countdownComponent fun _ => (true, 1, 2)) (TargetDevice.boot (false, 0)) es =
        [.started, .completed] := by decide +kernel
  obtain ⟨n, hn⟩ := starts_and_completions_alternate countdownComponent
    (fun _ => (true, 1, 2)) (g := (false, 0)) rfl es
  rw [hmarks] at hn
  exact ⟨hmarks, n, hn⟩

end RespawnCycle
