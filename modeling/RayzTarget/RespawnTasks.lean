import RayzTarget.TargetConfig
import RayzTarget.EventRuns

/-! # `game_task` and `ws_task` over the shared game state

Both tasks poll `game_state_check_respawn` in loops of different periods. The component
`game_state` is not in this repository; it is a parameter with the laws the tasks rely on. -/
namespace RespawnTasks

open TargetConfig EventRuns

/-- The respawn part of `game_state`. A death may start a respawn; `checkRespawn` answers
true on the call that finds the delay elapsed, and that call ends the respawn. -/
structure GameState (γ : Type*) where
  isRespawning : γ → Bool
  delayElapsed : γ → Bool
  checkRespawn : γ → Bool × γ
  recordDeath : γ → γ
  elapse : ℕ → γ → γ
  checkRespawn_iff : ∀ g,
    (checkRespawn g).1 = true ↔ isRespawning g = true ∧ delayElapsed g = true
  checkRespawn_ends : ∀ g,
    (checkRespawn g).1 = true → isRespawning (checkRespawn g).2 = false
  checkRespawn_waits : ∀ g,
    (checkRespawn g).1 = false → isRespawning (checkRespawn g).2 = isRespawning g
  elapse_keeps : ∀ t g, isRespawning (elapse t g) = isRespawning g

inductive GamePc where
  | loop
  | poll
  | stats
  | delay
  deriving DecidableEq, Repr

inductive WsPc where
  | wifi
  | wifiDelay
  | loop
  | sendStatus
  | poll
  | announce
  | delay
  deriving DecidableEq, Repr

structure GameStats where
  deaths : UInt32
  hitsReceived : UInt32
  heartsRemaining : UInt8
  deriving DecidableEq, Repr

structure State (γ : Type*) where
  shared : γ
  gamePc : GamePc
  lastLog : UInt32
  respawnLogs : ℕ
  statsLogs : List GameStats
  wsPc : WsPc
  statusSent : ℕ
  respawnBroadcasts : ℕ

structure GameAnswers where
  tickCount : UInt32
  stats : GameStats

structure WsAnswers where
  wifiConnected : Bool
  wsConnected : Bool
  heartbeatDue : Bool

inductive Event where
  | game (a : GameAnswers)
  | ws (a : WsAnswers)
  | death
  | elapse (ms : ℕ)

variable {γ : Type*} (G : GameState γ)

def boot (g : γ) : State γ where
  shared := g
  gamePc := .loop
  lastLog := 0
  respawnLogs := 0
  statsLogs := []
  wsPc := .wifi
  statusSent := 0
  respawnBroadcasts := 0

def State.gameTask (s : State γ) (a : GameAnswers) : State γ :=
  match s.gamePc with
  | .loop => { s with gamePc := if G.isRespawning s.shared then .poll else .stats }
  | .poll =>
    if (G.checkRespawn s.shared).1 then
      { s with shared := (G.checkRespawn s.shared).2
               respawnLogs := s.respawnLogs + 1
               gamePc := .stats }
    else { s with shared := (G.checkRespawn s.shared).2, gamePc := .delay }
  | .stats =>
    let now := a.tickCount / UInt32.ofNat configTickRateHz
    if now - s.lastLog ≥ 30 then
      { s with statsLogs := s.statsLogs ++ [a.stats], lastLog := now, gamePc := .delay }
    else { s with gamePc := .delay }
  | .delay => { s with gamePc := .loop }

def State.wsTask (s : State γ) (a : WsAnswers) : State γ :=
  match s.wsPc with
  | .wifi => { s with wsPc := if a.wifiConnected then .loop else .wifiDelay }
  | .wifiDelay => { s with wsPc := .wifi }
  | .loop => { s with wsPc := if a.wsConnected && a.heartbeatDue then .sendStatus else .poll }
  | .sendStatus => { s with statusSent := s.statusSent + 1, wsPc := .poll }
  | .poll =>
    { s with shared := (G.checkRespawn s.shared).2
             wsPc := if (G.checkRespawn s.shared).1 then .announce else .delay }
  | .announce => { s with respawnBroadcasts := s.respawnBroadcasts + 1, wsPc := .delay }
  | .delay => { s with wsPc := .loop }

def next (s : State γ) : Event → State γ
  | .game a => s.gameTask G a
  | .ws a => s.wsTask G a
  | .death => { s with shared := G.recordDeath s.shared }
  | .elapse ms => { s with shared := G.elapse ms s.shared }

def gameCompletes (s : State γ) : Event → Bool
  | .game _ => s.gamePc == .poll && (G.checkRespawn s.shared).1
  | _ => false

def wsCompletes (s : State γ) : Event → Bool
  | .ws _ => s.wsPc == .poll && (G.checkRespawn s.shared).1
  | _ => false

def completions (s : State γ) (e : Event) : List Unit :=
  if gameCompletes G s e || wsCompletes G s e then [()] else []

theorem GameState.checkRespawn_cases (g : γ) :
    (G.checkRespawn g).1 = true ∧ G.isRespawning g = true ∧
      G.isRespawning (G.checkRespawn g).2 = false ∨
    (G.checkRespawn g).1 = false ∧ G.isRespawning (G.checkRespawn g).2 = G.isRespawning g := by
  by_cases hd : (G.checkRespawn g).1 = true
  · exact Or.inl ⟨hd, ((G.checkRespawn_iff g).mp hd).1, G.checkRespawn_ends g hd⟩
  · have hd : (G.checkRespawn g).1 = false := by simpa using hd
    exact Or.inr ⟨hd, G.checkRespawn_waits g hd⟩

/-- One step of either task, seen from the component: its respawning state. -/
theorem respawning_next (s : State γ) (e : Event) :
    (gameCompletes G s e || wsCompletes G s e) = true ∧ G.isRespawning s.shared = true ∧
      G.isRespawning (next G s e).shared = false ∨
    (gameCompletes G s e || wsCompletes G s e) = false ∧
      (G.isRespawning (next G s e).shared = G.isRespawning s.shared ∨ e = .death) := by
  cases e with
  | game a =>
    cases hpc : s.gamePc with
    | poll =>
      rcases G.checkRespawn_cases s.shared with ⟨hd, due, ended⟩ | ⟨hd, waits⟩
      · left
        simp [gameCompletes, wsCompletes, next, State.gameTask, hpc, hd, due, ended]
      · right
        simp [gameCompletes, wsCompletes, next, State.gameTask, hpc, hd, waits]
    | loop => right; simp [gameCompletes, wsCompletes, next, State.gameTask, hpc]
    | stats =>
      right
      by_cases hl : a.tickCount / UInt32.ofNat configTickRateHz - s.lastLog ≥ 30 <;>
        simp [gameCompletes, wsCompletes, next, State.gameTask, hpc, hl]
    | delay => right; simp [gameCompletes, wsCompletes, next, State.gameTask, hpc]
  | ws a =>
    cases hpc : s.wsPc with
    | poll =>
      rcases G.checkRespawn_cases s.shared with ⟨hd, due, ended⟩ | ⟨hd, waits⟩
      · left
        simp [gameCompletes, wsCompletes, next, State.wsTask, hpc, hd, due, ended]
      · right
        simp [gameCompletes, wsCompletes, next, State.wsTask, hpc, hd, waits]
    | _ => right; simp [gameCompletes, wsCompletes, next, State.wsTask, hpc]
  | death => right; simp [gameCompletes, wsCompletes]
  | elapse ms => right; simp [gameCompletes, wsCompletes, next, G.elapse_keeps]

end RespawnTasks
