import RayzTarget.RespawnTasks

/-! # Which respawns are announced

A completed respawn is taken by the task whose poll finds the delay elapsed. `ws_task`
announces what it takes; `game_task` writes a log line and announces nothing. -/
namespace RespawnAnnouncement

open EventRuns RespawnTasks

variable {γ : Type*} (G : GameState γ)

/-- The respawn that `ws_task` has taken and not yet announced. -/
def toAnnounce : WsPc → ℕ
  | .announce => 1
  | _ => 0

/-- Between its WiFi wait and the next poll `ws_task` owes no announcement. -/
@[simp] theorem toAnnounce_loop : toAnnounce .loop = 0 := rfl

theorem gameTask_takes (s : State γ) (e : Event) :
    (next G s e).respawnLogs = s.respawnLogs + if gameCompletes G s e then 1 else 0 := by
  cases e with
  | game a =>
    cases hpc : s.gamePc with
    | poll =>
      by_cases hd : (G.checkRespawn s.shared).1 = true <;>
        simp [gameCompletes, next, State.gameTask, hpc, hd]
    | stats =>
      simp only [gameCompletes, next, State.gameTask, hpc]
      split <;> rfl
    | _ => simp [gameCompletes, next, State.gameTask, hpc]
  | ws a => cases hpc : s.wsPc <;> simp [gameCompletes, next, State.wsTask, hpc]
  | death => simp [gameCompletes, next]
  | elapse ms => simp [gameCompletes, next]

theorem wsTask_takes (s : State γ) (e : Event) :
    (next G s e).respawnBroadcasts + toAnnounce (next G s e).wsPc =
      s.respawnBroadcasts + toAnnounce s.wsPc + if wsCompletes G s e then 1 else 0 := by
  cases e with
  | game a =>
    have untouched : (s.gameTask G a).respawnBroadcasts = s.respawnBroadcasts ∧
        (s.gameTask G a).wsPc = s.wsPc := by
      cases hpc : s.gamePc with
      | poll => by_cases hd : (G.checkRespawn s.shared).1 = true <;> simp [State.gameTask, hpc, hd]
      | stats =>
        simp only [State.gameTask, hpc]
        split <;> exact ⟨rfl, rfl⟩
      | _ => simp [State.gameTask, hpc]
    simp [wsCompletes, next, untouched]
  | ws a =>
    cases hpc : s.wsPc with
    | wifi =>
      by_cases hw : a.wifiConnected = true <;>
        simp [wsCompletes, next, State.wsTask, hpc, hw, toAnnounce]
    | loop =>
      by_cases hs : (a.wsConnected && a.heartbeatDue) = true <;>
        simp [wsCompletes, next, State.wsTask, hpc, hs, toAnnounce]
    | poll =>
      by_cases hd : (G.checkRespawn s.shared).1 = true <;>
        simp [wsCompletes, next, State.wsTask, hpc, hd, toAnnounce]
    | _ => simp [wsCompletes, next, State.wsTask, hpc, toAnnounce]
  | death => simp [wsCompletes, next]
  | elapse ms => simp [wsCompletes, next]

/-- The two tasks never take a respawn in the same step. -/
theorem completions_length (s : State γ) (e : Event) :
    (completions G s e).length =
      (if gameCompletes G s e then 1 else 0) + if wsCompletes G s e then 1 else 0 := by
  cases e with
  | game a => by_cases h : gameCompletes G s (.game a) = true <;> simp [completions, h, wsCompletes]
  | ws a => by_cases h : wsCompletes G s (.ws a) = true <;> simp [completions, h, gameCompletes]
  | death => rfl
  | elapse ms => rfl

/-- Completed respawns are the logged, the announced, and the one about to be announced. -/
theorem completed_run (g : γ) (es : List Event) :
    (observe (next G) (completions G) (boot g) es).length =
      (run (next G) (boot g) es).respawnLogs + (run (next G) (boot g) es).respawnBroadcasts +
        toAnnounce (run (next G) (boot g) es).wsPc := by
  refine run_rule (next G) (completions G) (fun s r => r.length =
    s.respawnLogs + s.respawnBroadcasts + toAnnounce s.wsPc) rfl ?_ es
  intro s r e h
  have game := gameTask_takes G s e
  have ws := wsTask_takes G s e
  have both := completions_length G s e
  rw [List.length_append, both, game]
  omega

theorem respawnLogs_zero_iff (g : γ) (es : List Event) :
    (run (next G) (boot g) es).respawnLogs = 0 ↔
      ∀ pre a post, es = pre ++ .game a :: post → (run (next G) (boot g) pre).gamePc = .poll →
        ¬ (G.isRespawning (run (next G) (boot g) pre).shared = true ∧
          G.delayElapsed (run (next G) (boot g) pre).shared = true) := by
  have taken : (run (next G) (boot g) es).respawnLogs =
      (observe (next G) (fun s e => if gameCompletes G s e then [()] else []) (boot g)
        es).length := by
    refine run_rule (next G) (fun s e => if gameCompletes G s e then [()] else [])
      (fun s r => s.respawnLogs = r.length) rfl ?_ es
    intro s r e h
    rw [gameTask_takes, List.length_append, h]
    by_cases hc : gameCompletes G s e = true <;> simp [hc]
  rw [taken, List.length_eq_zero_iff, observe_nil_iff]
  constructor
  · intro h pre a post hes hpc hdue
    have done := (G.checkRespawn_iff _).mpr hdue
    have none := h pre (.game a) post hes
    simp [gameCompletes, hpc, done] at none
  · intro h pre e post hes
    by_cases hc : gameCompletes G (run (next G) (boot g) pre) e = true
    · cases e with
      | game a =>
        simp only [gameCompletes, Bool.and_eq_true, beq_iff_eq] at hc
        exact absurd ((G.checkRespawn_iff _).mp hc.2) (h pre a post hes hc.1)
      | _ => cases hc
    · simp [hc]

/-- At the head of `ws_task`'s loop every completed respawn has been announced exactly when
no poll of `game_task` came upon the device respawning with the delay elapsed. -/
theorem respawns_announced_iff (g : γ) (es : List Event)
    (hws : (run (next G) (boot g) es).wsPc = .loop) :
    (observe (next G) (completions G) (boot g) es).length =
        (run (next G) (boot g) es).respawnBroadcasts ↔
      ∀ pre a post, es = pre ++ .game a :: post → (run (next G) (boot g) pre).gamePc = .poll →
        ¬ (G.isRespawning (run (next G) (boot g) pre).shared = true ∧
          G.delayElapsed (run (next G) (boot g) pre).shared = true) := by
  rw [← respawnLogs_zero_iff, completed_run, hws, toAnnounce_loop]
  omega

def countdown : GameState (Bool × ℕ) where
  isRespawning g := g.1
  delayElapsed g := g.2 == 0
  checkRespawn g := if g.1 && g.2 == 0 then (true, (false, 0)) else (false, g)
  recordDeath _ := (true, 5000)
  elapse ms g := (g.1, g.2 - ms)
  checkRespawn_iff g := by
    rcases g with ⟨r, _ | left⟩ <;> cases r <;> simp
  checkRespawn_ends g h := by
    rcases g with ⟨r, _ | left⟩ <;> cases r <;> simp_all
  checkRespawn_waits g h := by
    rcases g with ⟨r, _ | left⟩ <;> cases r <;> simp_all
  elapse_keeps _ _ := rfl

def gameQuiet : Event := .game ⟨0, ⟨0, 0, 0⟩⟩
def wsQuiet : Event := .ws ⟨true, false, false⟩

theorem respawns_announced_iff_ws_first :
    (observe (next countdown) (completions countdown) (boot (false, 0))
        [wsQuiet, .death, .elapse 5000, wsQuiet, wsQuiet, wsQuiet, wsQuiet]).length =
      (run (next countdown) (boot (false, 0))
        [wsQuiet, .death, .elapse 5000, wsQuiet, wsQuiet, wsQuiet, wsQuiet]).respawnBroadcasts := by
  refine (respawns_announced_iff countdown (false, 0) _ rfl).mpr ?_
  intro pre a post hes
  have polled : Event.game a ∈ pre ++ .game a :: post := by simp
  rw [← hes] at polled
  simp [wsQuiet] at polled

/-- `game_task` polls first: the respawn is over and no client hears of it. -/
theorem game_task_takes_respawn :
    let es := [wsQuiet, .death, .elapse 5000, gameQuiet, gameQuiet, gameQuiet, gameQuiet]
    (run (next countdown) (boot (false, 0)) es).gamePc = .loop ∧
    (run (next countdown) (boot (false, 0)) es).wsPc = .loop ∧
    (observe (next countdown) (completions countdown) (boot (false, 0)) es).length = 1 ∧
    (run (next countdown) (boot (false, 0)) es).respawnBroadcasts = 0 := by
  decide

end RespawnAnnouncement
