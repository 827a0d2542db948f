import RayzTarget.EspnowTask
import RayzTarget.RespawnAnnouncement
import RayzTarget.ProcessingTally

/-! # The four tasks over one game state

`processing_task` asks whether the device is respawning, leaves the processor several times,
and only then records the death. In between `game_task` and `ws_task` poll the respawn,
`espnow_task` records hits and kills, and time passes. -/
namespace TargetDevice

open EventRuns RespawnTasks
open ProcessingTask (Pc Expectation)

/-- The calls that reach the component on the side: they read or report, or count. -/
inductive SideCall where
  | recordHit
  | recordKill
  | heartbeatDue
  | sendStatus
  | broadcastRespawn
  | broadcastGameState
  | broadcastHit
  deriving DecidableEq, Repr

/-- The component with its other calls, which leave the respawn alone. -/
structure GameComponent (γ : Type*) extends GameState γ where
  sideCall : SideCall → γ → γ
  sideCall_keeps : ∀ c g, isRespawning (sideCall c g) = isRespawning g

variable {γ μ : Type*} (G : GameComponent γ) (validate : UInt32 → Bool × UInt8 × UInt8)

structure State (γ μ : Type*) where
  processing : ProcessingTask.State
  polling : RespawnTasks.State γ
  espnow : EspnowTask.State μ

inductive Event (μ : Type*) where
  | processing (a : ProcessingTask.Answers)
  | server (e : Expectation) (allExpectedMessages : UInt16)
  | game (a : GameAnswers)
  | ws (a : WsAnswers)
  | espnow (a : EspnowTask.Answers μ)
  | elapse (ms : ℕ)

def boot (g : γ) : State γ μ := ⟨ProcessingTask.boot, RespawnTasks.boot g, EspnowTask.boot⟩

def State.respawning (s : State γ μ) : Bool := G.isRespawning s.polling.shared

def sideCalls (s : State γ μ) : Event μ → List SideCall
  | .processing _ =>
    match s.processing.pc with
    | .notifyBrowsers => [.broadcastHit]
    | _ => []
  | .ws a =>
    match s.polling.wsPc with
    | .loop => if a.wsConnected then [.heartbeatDue] else []
    | .sendStatus => [.sendStatus]
    | .announce => [.broadcastRespawn]
    | _ => []
  | .espnow _ =>
    match s.espnow.pc with
    | .recordHit _ => [.recordHit]
    | .recordKill _ => [.recordKill]
    | .broadcastState => [.broadcastGameState]
    | _ => []
  | _ => []

def State.afterCalls (s : State γ μ) (calls : List SideCall) : State γ μ :=
  { s with polling := { s.polling with
      shared := calls.foldl (fun g c => G.sideCall c g) s.polling.shared } }

def recordsDeath (s : State γ μ) : Event μ → Bool
  | .processing _ =>
    match s.processing.pc with
    | .recordDeath _ => true
    | _ => false
  | _ => false

def State.step (s : State γ μ) (e : Event μ) : State γ μ :=
  match e with
  | .processing a =>
    { s with
      processing := s.processing.taskStep validate { a with respawning := s.respawning G }
      polling := if recordsDeath s e then RespawnTasks.next G.toGameState s.polling .death
        else s.polling }
  | .server e all =>
    { s with processing := ProcessingTask.next validate s.processing (.server e all) }
  | .game a => { s with polling := RespawnTasks.next G.toGameState s.polling (.game a) }
  | .ws a => { s with polling := RespawnTasks.next G.toGameState s.polling (.ws a) }
  | .espnow a => { s with espnow := s.espnow.taskStep a }
  | .elapse ms => { s with polling := RespawnTasks.next G.toGameState s.polling (.elapse ms) }

def next (s : State γ μ) (e : Event μ) : State γ μ :=
  (s.afterCalls G (sideCalls s e)).step G validate e

/-- What every `game_state_record_death` call finds: whether the device is respawning. -/
def deathCalls (s : State γ μ) (e : Event μ) : List Bool :=
  if recordsDeath s e then [s.respawning G] else []

theorem recordsDeath_pc {s : State γ μ} {e : Event μ} (h : recordsDeath s e = true) :
    ∃ l, s.processing.pc = .recordDeath l := by
  cases e with
  | processing a =>
    cases hpc : s.processing.pc with
    | recordDeath l => exact ⟨l, rfl⟩
    | _ => simp [recordsDeath, hpc] at h
  | _ => simp [recordsDeath] at h

/-- The program points between a respawn check that found none and the recorded death. -/
def Cleared : Pc → Prop
  | .snapshot _ | .stats .. | .log .. | .vibrate _ | .delay _ | .release _ | .recordDeath _ => True
  | _ => False

/-- Only the respawn check leads into the section, and only with a negative answer. -/
theorem cleared_taskStep (s : ProcessingTask.State) (a : ProcessingTask.Answers)
    (h : Cleared (s.taskStep validate a).pc) :
    Cleared s.pc ∨ a.respawning = false := by
  cases hpc : s.pc with
  | receive =>
    cases hw : a.word with
    | none => simp [ProcessingTask.State.taskStep, hpc, hw, Cleared] at h
    | some bits =>
      by_cases hv : (validate bits).1 = true <;>
        simp [ProcessingTask.State.taskStep, hpc, hw, hv, Cleared] at h
  | respawnCheck l =>
    cases hr : a.respawning with
    | false => exact Or.inr rfl
    | true => simp [ProcessingTask.State.taskStep, hpc, hr, Cleared] at h
  | report =>
    by_cases hb : a.browserConnected = true <;>
      simp [ProcessingTask.State.taskStep, hpc, hb, Cleared] at h
  | recordDeath l => simp [ProcessingTask.State.taskStep, hpc, Cleared] at h
  | recordHit l => simp [ProcessingTask.State.taskStep, hpc, Cleared] at h
  | postHit l => simp [ProcessingTask.State.taskStep, hpc, Cleared] at h
  | broadcast l => simp [ProcessingTask.State.taskStep, hpc, Cleared] at h
  | notifyBrowsers => simp [ProcessingTask.State.taskStep, hpc, Cleared] at h
  | _ => exact Or.inl trivial

/-- Recording the death is the last point of the section. -/
theorem not_cleared_recordDeath {s : ProcessingTask.State} {l : ProcessingTask.Laser}
    (hpc : s.pc = .recordDeath l) (a : ProcessingTask.Answers) :
    ¬Cleared (s.taskStep validate a).pc := by
  simp [ProcessingTask.State.taskStep, hpc, Cleared]

theorem respawning_afterCalls (s : State γ μ) (calls : List SideCall) :
    (s.afterCalls G calls).respawning G = s.respawning G := by
  simp only [State.respawning, State.afterCalls]
  generalize s.polling.shared = g
  induction calls generalizing g with
  | nil => rfl
  | cons c calls ih => rw [List.foldl_cons, ih, G.sideCall_keeps]

/-- What the other tasks may do to the respawn: nothing, or end it. -/
theorem respawning_polling (p : RespawnTasks.State γ) {e : RespawnTasks.Event} (he : e ≠ .death)
    (h : G.isRespawning p.shared = false) :
    G.isRespawning (RespawnTasks.next G.toGameState p e).shared = false := by
  rcases respawning_next G.toGameState p e with ⟨_, _, ended⟩ | ⟨_, kept | death⟩
  · exact ended
  · rw [kept, h]
  · exact absurd death he

def Guarded (s : State γ μ) : Prop := Cleared s.processing.pc → s.respawning G = false

theorem guarded_step {s : State γ μ} (h : Guarded G s) (e : Event μ) :
    Guarded G (s.step G validate e) := by
  intro hc
  cases e with
  | processing a =>
    cases hd : recordsDeath s (.processing a) with
    | false =>
      have hs : s.respawning G = false := by
        rcases cleared_taskStep validate _ _ hc with hc | hr
        · exact h hc
        · exact hr
      simp only [State.step, hd]
      exact hs
    | true =>
      obtain ⟨l, hpc⟩ := recordsDeath_pc hd
      exact absurd hc (not_cleared_recordDeath validate hpc _)
  | server e all => exact h hc
  | game a => exact respawning_polling G s.polling (by simp) (h hc)
  | ws a => exact respawning_polling G s.polling (by simp) (h hc)
  | espnow a => exact h hc
  | elapse ms => exact respawning_polling G s.polling (by simp) (h hc)

theorem guarded_next {s : State γ μ} (h : Guarded G s) (e : Event μ) :
    Guarded G (next G validate s e) := by
  refine guarded_step G validate ?_ e
  intro hc
  rw [respawning_afterCalls]
  exact h hc

/-- From any state in which the device is not respawning, and however the tasks interleave,
no death is recorded during a respawn. -/
theorem no_death_while_respawning (s : State γ μ) (hs : s.respawning G = false)
    (es : List (Event μ)) : true ∉ observe (next G validate) (deathCalls G) s es := by
  intro hmem
  obtain ⟨pre, e, post, _, hout⟩ := (mem_observe_iff ..).mp hmem
  have hguard := run_invariant (next G validate) (Guarded G) (fun _ => hs)
    (fun s e h => guarded_next G validate h e) pre
  rw [deathCalls] at hout
  split at hout
  · rename_i hd
    obtain ⟨l, hpc⟩ := recordsDeath_pc hd
    have hc : Cleared (run (next G validate) s pre).processing.pc := by
      rw [hpc]
      trivial
    rw [hguard hc] at hout
    cases List.mem_singleton.mp hout
  · cases hout

def countdownComponent : GameComponent (Bool × ℕ) :=
  { RespawnAnnouncement.countdown with
    sideCall := fun _ g => g
    sideCall_keeps := fun _ _ => rfl }

def oneHit : List (Event Unit) :=
  .server ⟨7, true, 100⟩ 1 :: .ws ⟨true, true, true⟩ ::
    List.replicate 13 (.processing (ProcessingTally.sevenAt 200)) ++
      [.elapse 5000, .ws ⟨true, true, true⟩]

theorem no_death_while_respawning_one_hit :
    observe (next countdownComponent fun _ => (true, 1, 2)) (deathCalls countdownComponent)
        (boot (false, 0)) oneHit = [false] ∧
      true ∉ observe (next countdownComponent fun _ => (true, 1, 2))
        (deathCalls countdownComponent) (boot (false, 0)) oneHit :=
  ⟨by rfl, no_death_while_respawning countdownComponent (fun _ => (true, 1, 2))
    (boot (false, 0)) rfl oneHit⟩

end TargetDevice
