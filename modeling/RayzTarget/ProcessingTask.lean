import RayzTarget.TargetConfig
import RayzTarget.EventRuns

/-! # The loop of `processing_task`

The task is a machine over its program counter; one step runs to the next call that
another task or the outside can observe or answer. `Answers` holds what the calls of a
step return; a step reads the part its program counter asks for. Between any two steps
the game server may write the expected message. -/
namespace ProcessingTask

open TargetConfig EventRuns

/-- `expectedMessage`, `hasExpectedMessage` and `last_expected_update` of `task_shared.cpp` -/
structure Expectation where
  expectedMessage : UInt32
  hasExpectedMessage : Bool
  lastExpectedUpdate : UInt32
  deriving DecidableEq, Repr

structure HitStats where
  hitCount : UInt32
  lastHitMs : UInt32
  deriving DecidableEq, Repr

def timerMs (timerUs : ℕ) : UInt32 := UInt32.ofNat (timerUs / 1000)

def HitStats.gameTaskRecordHit (h : HitStats) (timerUs : ℕ) : HitStats :=
  ⟨h.hitCount + 1, timerMs timerUs⟩

structure Laser where
  bits : UInt32
  player : UInt8
  device : UInt8
  deriving DecidableEq, Repr

inductive EspnowMsgType where
  | hitEvent
  | other (code : UInt8)
  deriving DecidableEq, Repr

structure PlayerMessage where
  type : EspnowMsgType
  version : UInt8
  playerId : UInt8
  deviceId : UInt8
  teamId : UInt8
  colorRgb : UInt32
  data : UInt32
  timestampMs : UInt32
  deriving DecidableEq, Repr

structure DeviceConfig where
  playerId : UInt8
  deviceId : UInt8
  teamId : UInt8
  colorRgb : UInt32
  deriving DecidableEq, Repr

structure StatsLine where
  correctSnapshot : UInt16
  allSnapshot : UInt16
  notExpectedSnapshot : UInt16
  accuracy : ℚ
  deriving DecidableEq

inductive Pc where
  | receive
  | respawnCheck (l : Laser)
  | snapshot (l : Laser)
  | stats (l : Laser) (unlocked : StatsLine)
  | log (l : Laser) (matchesExpected : Bool) (line : StatsLine)
  | vibrate (l : Laser)
  | delay (l : Laser)
  | release (l : Laser)
  | recordDeath (l : Laser)
  | recordHit (l : Laser)
  | postHit (l : Laser)
  | broadcast (l : Laser)
  | report
  | notifyBrowsers
  deriving DecidableEq

structure State where
  pc : Pc
  expectation : Expectation
  allExpectedMessages : UInt16
  correctMessages : UInt16
  notExpectedMessages : UInt16
  hitStats : HitStats
  vibrationPin : Bool
  /-- One entry per `game_state_record_death` call: the word being processed. -/
  deaths : List Laser
  hitPosts : ℕ
  broadcasts : List PlayerMessage
  browserHits : ℕ
  statsLines : List StatsLine

/-- What the calls of a step answer. `word` is `none` when the receive is not `pdTRUE`. -/
structure Answers where
  word : Option UInt32
  respawning : Bool
  mutexTaken : Bool
  tickCount : UInt32
  timerUs : ℕ
  config : DeviceConfig
  browserConnected : Bool

inductive Event where
  | task (a : Answers)
  | server (e : Expectation) (allExpectedMessages : UInt16)

def boot : State where
  pc := .receive
  expectation := ⟨0, false, 0⟩
  allExpectedMessages := 0
  correctMessages := 0
  notExpectedMessages := 0
  hitStats := ⟨0, 0⟩
  vibrationPin := false
  deaths := []
  hitPosts := 0
  broadcasts := []
  browserHits := 0
  statsLines := []

/-- `hasExpectedMessage && (xTaskGetTickCount() - last_expected_update) < pdMS_TO_TICKS(5000)` -/
def Expectation.fresh (e : Expectation) (tickCount : UInt32) : Bool :=
  e.hasExpectedMessage && decide (tickCount - e.lastExpectedUpdate < pdMsToTicks 5000)

def Expectation.meets (e : Expectation) (tickCount bits : UInt32) : Bool :=
  e.fresh tickCount && bits == e.expectedMessage

def accuracyOf (correct all : UInt16) : ℚ :=
  if all > 0 then (correct.toNat : ℚ) * 100 / all.toNat else 0

def State.statsSection (s : State) (l : Laser) (tickCount : UInt32) : State :=
  let matchesExpected := s.expectation.meets tickCount l.bits
  let s :=
    if s.expectation.fresh tickCount then
      if matchesExpected then { s with correctMessages := s.correctMessages + 1 }
      else { s with notExpectedMessages := s.notExpectedMessages + 1 }
    else s
  let line : StatsLine := ⟨s.correctMessages, s.allExpectedMessages, s.notExpectedMessages,
    accuracyOf s.correctMessages s.allExpectedMessages⟩
  { s with pc := .log l matchesExpected line }

def hitMessage (l : Laser) (a : Answers) : PlayerMessage where
  type := .hitEvent
  version := 1
  playerId := l.player
  deviceId := l.device
  teamId := a.config.teamId
  colorRgb := a.config.colorRgb
  data := l.bits
  timestampMs := timerMs a.timerUs

variable (validate : UInt32 → Bool × UInt8 × UInt8)

def decode (bits : UInt32) : Laser := ⟨bits, (validate bits).2.1, (validate bits).2.2⟩

def State.taskStep (s : State) (a : Answers) : State :=
  match s.pc with
  | .receive =>
    match a.word with
    | none => s
    | some bits =>
      if !(validate bits).1 then s
      else { s with pc := .respawnCheck (decode validate bits) }
  | .respawnCheck l =>
    if a.respawning then { s with pc := .receive } else { s with pc := .snapshot l }
  | .snapshot l =>
    { s with pc := .stats l ⟨s.correctMessages, s.allExpectedMessages, s.notExpectedMessages, 0⟩ }
  | .stats l unlocked =>
    if a.mutexTaken then s.statsSection l a.tickCount
    else { s with pc := .log l false unlocked }
  | .log l matchesExpected line =>
    { s with statsLines := s.statsLines ++ [line]
             pc := if matchesExpected then .vibrate l else .receive }
  | .vibrate l => { s with vibrationPin := true, pc := .delay l }
  | .delay l => { s with pc := .release l }
  | .release l => { s with vibrationPin := false, pc := .recordDeath l }
  | .recordDeath l => { s with deaths := s.deaths ++ [l], pc := .recordHit l }
  | .recordHit l => { s with hitStats := s.hitStats.gameTaskRecordHit a.timerUs, pc := .postHit l }
  | .postHit l => { s with hitPosts := s.hitPosts + 1, pc := .broadcast l }
  | .broadcast l => { s with broadcasts := s.broadcasts ++ [hitMessage l a], pc := .report }
  | .report => { s with pc := if a.browserConnected then .notifyBrowsers else .receive }
  | .notifyBrowsers => { s with browserHits := s.browserHits + 1, pc := .receive }

def next (s : State) : Event → State
  | .task a => s.taskStep validate a
  | .server e allExpectedMessages =>
    { s with expectation := e, allExpectedMessages := allExpectedMessages }

/-- The section under the mutex writes its two counters only. -/
theorem statsSection_frame (s : State) (l : Laser) (tickCount : UInt32) :
    (s.statsSection l tickCount).expectation = s.expectation ∧
    (s.statsSection l tickCount).allExpectedMessages = s.allExpectedMessages ∧
    (s.statsSection l tickCount).hitStats = s.hitStats ∧
    (s.statsSection l tickCount).vibrationPin = s.vibrationPin ∧
    (s.statsSection l tickCount).deaths = s.deaths ∧
    (s.statsSection l tickCount).hitPosts = s.hitPosts ∧
    (s.statsSection l tickCount).broadcasts = s.broadcasts ∧
    (s.statsSection l tickCount).statsLines = s.statsLines := by
  simp only [State.statsSection]
  by_cases hf : s.expectation.fresh tickCount = true
  · by_cases hm : s.expectation.meets tickCount l.bits = true <;> simp [hf, hm]
  · simp [hf]

/-- The loop never writes what the server writes. -/
theorem next_server_fields (s : State) (a : Answers) :
    (next validate s (.task a)).expectation = s.expectation ∧
    (next validate s (.task a)).allExpectedMessages = s.allExpectedMessages := by
  cases hpc : s.pc with
  | receive =>
    cases hw : a.word with
    | none => simp [next, State.taskStep, hpc, hw]
    | some bits =>
      by_cases hv : (validate bits).1 = true <;> simp [next, State.taskStep, hpc, hw, hv]
  | respawnCheck l => by_cases hr : a.respawning = true <;> simp [next, State.taskStep, hpc, hr]
  | stats l unlocked =>
    by_cases ht : a.mutexTaken = true <;>
      simp [next, State.taskStep, hpc, ht, statsSection_frame]
  | _ => simp [next, State.taskStep, hpc]

/-- No step of the loop retires an expectation. -/
theorem next_expectation (s : State) (a : Answers) :
    (next validate s (.task a)).expectation = s.expectation :=
  (next_server_fields validate s a).1

end ProcessingTask
