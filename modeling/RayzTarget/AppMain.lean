import RayzTarget.MessageQueue
import RayzTarget.PhotodiodeTask

/-! # `app_main`

A failed game state, queue or statistics mutex ends the boot before any task exists, and a
failed display costs the display only. Whether the photodiode got its own mutex is not
looked at. Without one `begin` has not set up the ADC either, and the loop finds that out. -/
namespace AppMain

open TargetConfig CheckedBuffer PhotodiodeModel PhotodiodeHistory PhotodiodeTask EventRuns
open BoundedQueue
open MessageQueue (queueLength)

inductive TaskName where
  | displayManager
  | photodiode
  | processing
  | espnow
  | websocket
  | game
  deriving DecidableEq, Repr

/-- What the calls of `app_main` return; a handle that is NULL is `false`. -/
structure BootAnswers where
  gameStateInit : Bool
  begin : BeginAnswers
  photodiodeMessageQueue : Bool
  statsMutex : Bool
  initDisplay : Bool
  displayManagerInit : Bool

def soundBoot : BootAnswers := ⟨true, ⟨true, some (), some (), 0, 0⟩, true, true, true, true⟩

structure Started (cfg : ProtocolConfig) where
  photodiode : Photodiode cfg
  photodiodeMessageQueue : Queue UInt32 queueLength
  created : List TaskName

def initTaskShared (io : BootAnswers) : Option (Queue UInt32 queueLength) :=
  if io.photodiodeMessageQueue && io.statsMutex then some Queue.empty else none

def createdTasks (io : BootAnswers) : List TaskName :=
  (if io.initDisplay && io.displayManagerInit then [.displayManager] else []) ++
    [.photodiode, .processing, .espnow, .websocket, .game]

def globalPhotodiode (cfg : ProtocolConfig) : Photodiode cfg :=
  Photodiode.construct (fun _ => 0) (fun _ => 0)

/-- `none` is a boot that returned before any task was created. -/
def appMain (cfg : ProtocolConfig) (io : BootAnswers) : Except Fault (Option (Started cfg)) :=
  if !io.gameStateInit then .ok none
  else do
    let photodiode ← (globalPhotodiode cfg).begin io.begin
    match initTaskShared io with
    | none => return none
    | some queue => return some ⟨photodiode, queue, createdTasks io⟩

def Started.task {cfg : ProtocolConfig} (b : Started cfg) (startTick : UInt32) : Task cfg :=
  ⟨b.photodiode, startTick⟩

variable {cfg : ProtocolConfig}

/-! ## The loop without a mutex -/

/-- The photodiode as `begin` leaves it when it returns early. -/
structure Unlocked (t : Task cfg) : Prop where
  adc : t.photodiode.adcHandle = false
  flag : t.photodiode.sampleBufferFull = false
  lastSampleTime : t.photodiode.lastSampleTime = 0

theorem unlocked_start (startTick : UInt32) :
    Unlocked (⟨globalPhotodiode cfg, startTick⟩ : Task cfg) := ⟨rfl, rfl, rfl⟩

theorem wake_unlocked {t : Task cfg} (h : Unlocked t) {tickCount : UInt32}
    (early : tooSoon cfg (pdTicksToMs tickCount) 0 = true) (adc : Option ℚ) :
    ∃ t', t.wake tickCount adc = .ok (t', none) ∧ Unlocked t' := by
  refine ⟨⟨t.photodiode, t.lastWake + samplePeriodTicks cfg⟩, ?_, h.adc, h.flag, h.lastSampleTime⟩
  have hupdate : t.photodiode.update tickCount adc = .ok t.photodiode :=
    update_early (by rwa [h.lastSampleTime]) adc
  simp [Task.wake, hupdate, Photodiode.isSampleBufferFull, h.flag, bind, Except.bind, pure,
    Except.pure]

/-- The first sample that is due asks an ADC that was never set up. -/
theorem wake_unlocked_due {t : Task cfg} (h : Unlocked t) {tickCount : UInt32}
    (due : tooSoon cfg (pdTicksToMs tickCount) 0 = false) (adc : Option ℚ) :
    t.wake tickCount adc = .error .abort := by
  rw [← h.lastSampleTime] at due
  exact wake_unread due (by simp [Photodiode.adcRead, h.adc])

theorem begin_unlocked {io : BeginAnswers} (hm : io.mutexCreated = false) :
    (globalPhotodiode cfg).begin io = .ok (globalPhotodiode cfg) := begin_without_mutex _ io hm

/-- With a mutex, the ADC is set up or the firmware stops. -/
theorem begin_locked {io : BeginAnswers} (hm : io.mutexCreated = true) :
    (globalPhotodiode cfg).begin io =
      if io.adcUnit = some () ∧ io.adcChannel = some () then
        .ok (Photodiode.ready cfg io.sampleTick io.bitTick)
      else .error .abort := by
  rcases hu : io.adcUnit with _ | u
  · simp [Photodiode.begin, hm, hu, espErrorCheck, bind, Except.bind]
  · rcases hc : io.adcChannel with _ | c
    · simp [Photodiode.begin, hm, hu, hc, espErrorCheck, bind, Except.bind]
    · simp only [true_and, if_true]
      exact begin_construct_eq io hm hu hc _ _

def handlesCreated (io : BootAnswers) : Bool := io.photodiodeMessageQueue && io.statsMutex

/-- The boot as a table of what the calls answered. -/
theorem appMain_eq (cfg : ProtocolConfig) (io : BootAnswers) : appMain cfg io =
    let photodiode := if io.begin.mutexCreated then
      Photodiode.ready cfg io.begin.sampleTick io.begin.bitTick else globalPhotodiode cfg
    if io.gameStateInit then
      if io.begin.mutexCreated ∧ ¬(io.begin.adcUnit = some () ∧ io.begin.adcChannel = some ()) then
        .error .abort
      else if handlesCreated io then .ok (some ⟨photodiode, Queue.empty, createdTasks io⟩)
      else .ok none
    else .ok none := by
  have hshared : initTaskShared io = if handlesCreated io then some Queue.empty else none := rfl
  cases hg : io.gameStateInit with
  | false => simp [appMain, hg]
  | true =>
    cases hm : io.begin.mutexCreated with
    | true =>
      by_cases hadc : io.begin.adcUnit = some () ∧ io.begin.adcChannel = some ()
      · cases hq : handlesCreated io <;>
          simp [appMain, hg, begin_locked hm, hadc, hshared, hq, bind, Except.bind, pure,
            Except.pure]
      · simp [appMain, hg, begin_locked hm, hadc, bind, Except.bind]
    | false =>
      cases hq : handlesCreated io <;>
        simp [appMain, hg, begin_unlocked hm, hshared, hq, bind, Except.bind, pure, Except.pure]

end AppMain
