import RayzTarget.ProcessingTask

/-! # The loop of `espnow_task`

The sender's address in an envelope is only logged; its type is a parameter. The device's
own id is copied from the configuration once, when the task starts. -/
namespace EspnowTask

open ProcessingTask

structure EspnowMessageEnvelope (μ : Type*) where
  srcMac : μ
  msg : PlayerMessage
  deriving DecidableEq

structure EspnowCommConfig where
  channel : UInt8
  preferWifi : Bool
  setPmk : Bool
  deriving DecidableEq, Repr

variable {μ : Type*}

inductive Pc (μ : Type*) where
  | start
  | waitWifi
  | wifiDelay
  | init
  | loadPeers
  | receive
  | recordHit (env : EspnowMessageEnvelope μ)
  | recordKill (env : EspnowMessageEnvelope μ)
  | broadcastState
  | deleted
  deriving DecidableEq

structure State (μ : Type*) where
  pc : Pc μ
  selfDeviceId : UInt8
  comm : Option EspnowCommConfig
  peers : Option String
  /-- One entry per `game_state_record_hit` call: the envelope it answers. -/
  recordedHits : List (EspnowMessageEnvelope μ)
  recordedKills : List (EspnowMessageEnvelope μ)
  stateBroadcasts : ℕ

structure Answers (μ : Type*) where
  config : DeviceConfig
  wifiConnected : Bool
  channel : UInt8
  initOk : Bool
  peerList : Option String
  received : Option (EspnowMessageEnvelope μ)

def boot : State μ where
  pc := .start
  selfDeviceId := 0
  comm := none
  peers := none
  recordedHits := []
  recordedKills := []
  stateBroadcasts := 0

def State.confirms (s : State μ) (env : EspnowMessageEnvelope μ) : Bool :=
  env.msg.type == .hitEvent && env.msg.deviceId == s.selfDeviceId

def State.taskStep (s : State μ) (a : Answers μ) : State μ :=
  match s.pc with
  | .start => { s with selfDeviceId := a.config.deviceId, pc := .waitWifi }
  | .waitWifi => { s with pc := if a.wifiConnected then .init else .wifiDelay }
  | .wifiDelay => { s with pc := .waitWifi }
  | .init =>
    { s with comm := some ⟨a.channel, true, true⟩
             pc := if a.initOk then .loadPeers else .deleted }
  | .loadPeers => { s with peers := a.peerList, pc := .receive }
  | .receive =>
    match a.received with
    | none => s
    | some env => if s.confirms env then { s with pc := .recordHit env } else s
  | .recordHit env => { s with recordedHits := s.recordedHits ++ [env], pc := .recordKill env }
  | .recordKill env => { s with recordedKills := s.recordedKills ++ [env], pc := .broadcastState }
  | .broadcastState => { s with stateBroadcasts := s.stateBroadcasts + 1, pc := .receive }
  | .deleted => s

/-- The envelope accepted by the receive that is not yet recorded as a kill. -/
def inHand : Pc μ → List (EspnowMessageEnvelope μ)
  | .recordHit env => [env]
  | .recordKill env => [env]
  | _ => []

def unrecorded : Pc μ → List (EspnowMessageEnvelope μ)
  | .recordHit env => [env]
  | _ => []

def State.credited (s : State μ) : List (EspnowMessageEnvelope μ) := s.recordedKills ++ inHand s.pc

def State.accepts (s : State μ) (a : Answers μ) : List (EspnowMessageEnvelope μ) :=
  match s.pc with
  | .receive => a.received.toList.filter s.confirms
  | _ => []

theorem credited_step (s : State μ) (a : Answers μ) :
    (s.taskStep a).credited = s.credited ++ s.accepts a := by
  cases hpc : s.pc with
  | waitWifi =>
    by_cases hw : a.wifiConnected = true <;>
      simp [State.taskStep, State.credited, State.accepts, hpc, hw, inHand]
  | init =>
    by_cases hi : a.initOk = true <;>
      simp [State.taskStep, State.credited, State.accepts, hpc, hi, inHand]
  | receive =>
    cases hr : a.received with
    | none => simp [State.taskStep, State.credited, State.accepts, hpc, hr]
    | some env =>
      by_cases hc : s.confirms env = true <;>
        simp [State.taskStep, State.credited, State.accepts, hpc, hr, hc, inHand]
  | _ => simp [State.taskStep, State.credited, State.accepts, hpc, inHand]

/-- Every credited envelope is a hit event that carries the id copied at the start, and the
calls that record hits and kills answer the same envelopes. -/
structure Confirmed (s : State μ) : Prop where
  idle_at_start : s.pc = .start → s.credited = []
  confirmed : ∀ env ∈ s.credited, s.confirms env = true
  hits_credited : s.recordedHits ++ unrecorded s.pc = s.credited

theorem confirmed_boot : Confirmed (boot : State μ) := by
  constructor <;> simp [boot, State.credited, inHand, unrecorded]

/-- The id is written at the start and never again. -/
theorem selfDeviceId_step {s : State μ} (h : s.pc ≠ .start) (a : Answers μ) :
    (s.taskStep a).selfDeviceId = s.selfDeviceId := by
  cases hpc : s.pc with
  | start => exact absurd hpc h
  | receive =>
    cases hr : a.received with
    | none => simp [State.taskStep, hpc, hr]
    | some env => by_cases hc : s.confirms env = true <;> simp [State.taskStep, hpc, hr, hc]
  | _ => simp [State.taskStep, hpc]

theorem started_step {s : State μ} (a : Answers μ) : (s.taskStep a).pc ≠ .start := by
  cases hpc : s.pc with
  | waitWifi => by_cases hw : a.wifiConnected = true <;> simp [State.taskStep, hpc, hw]
  | init => by_cases hi : a.initOk = true <;> simp [State.taskStep, hpc, hi]
  | receive =>
    cases hr : a.received with
    | none => simp [State.taskStep, hpc, hr]
    | some env => by_cases hc : s.confirms env = true <;> simp [State.taskStep, hpc, hr, hc]
  | _ => simp [State.taskStep, hpc]

theorem hits_step {s : State μ} (h : s.recordedHits ++ unrecorded s.pc = s.credited)
    (a : Answers μ) :
    (s.taskStep a).recordedHits ++ unrecorded (s.taskStep a).pc = (s.taskStep a).credited := by
  rw [credited_step, ← h]
  cases hpc : s.pc with
  | waitWifi =>
    by_cases hw : a.wifiConnected = true <;>
      simp [State.taskStep, State.accepts, hpc, hw, unrecorded]
  | init =>
    by_cases hi : a.initOk = true <;> simp [State.taskStep, State.accepts, hpc, hi, unrecorded]
  | receive =>
    cases hr : a.received with
    | none => simp [State.taskStep, State.accepts, hpc, hr]
    | some env =>
      by_cases hc : s.confirms env = true <;>
        simp [State.taskStep, State.accepts, hpc, hr, hc, unrecorded]
  | _ => simp [State.taskStep, State.accepts, hpc, unrecorded]

theorem confirmed_step {s : State μ} (h : Confirmed s) (a : Answers μ) :
    Confirmed (s.taskStep a) where
  idle_at_start hpc := absurd hpc (started_step a)
  confirmed env henv := by
    rw [credited_step] at henv
    by_cases hpc : s.pc = .start
    · simp [h.idle_at_start hpc, State.accepts, hpc] at henv
    · have kept : (s.taskStep a).confirms env = s.confirms env := by
        simp [State.confirms, selfDeviceId_step hpc a]
      rw [kept]
      rcases List.mem_append.mp henv with henv | henv
      · exact h.confirmed env henv
      · cases hr : s.pc with
        | receive =>
          simp only [State.accepts, hr] at henv
          exact (List.mem_filter.mp henv).2
        | _ => simp [State.accepts, hr] at henv
  hits_credited := hits_step h.hits_credited a

theorem Confirmed.mem_credited {s : State μ} (h : Confirmed s) {env : EspnowMessageEnvelope μ}
    (henv : env ∈ s.recordedHits ++ s.recordedKills) : env ∈ s.credited := by
  rcases List.mem_append.mp henv with henv | henv
  · rw [← h.hits_credited]
    exact List.mem_append_left _ henv
  · exact List.mem_append_left _ henv

end EspnowTask
