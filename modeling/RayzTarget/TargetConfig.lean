import Mathlib.Algebra.Order.Field.Rat
import Mathlib.Data.Nat.ModEq

/-! Build-time constants and the few kernel services the tasks rely on.
`protocol_config.h` is not in this repository, so its macros are parameters; the array
sizes among them are positive. Voltages are exact rationals. -/
namespace TargetConfig

structure ProtocolConfig where
  samplesPerBit : ℕ
  photodiodeBufferSize : ℕ
  sampleIntervalMs : ℕ
  thresholdMinWeight : ℚ
  thresholdNewWeight : ℚ
  thresholdSmoothOld : ℚ
  thresholdSmoothNew : ℚ
  samplesPerBit_pos : 0 < samplesPerBit
  photodiodeBufferSize_pos : 0 < photodiodeBufferSize

def twoWindows : ProtocolConfig where
  samplesPerBit := 1
  photodiodeBufferSize := 2
  sampleIntervalMs := 1
  thresholdMinWeight := 9 / 10
  thresholdNewWeight := 1 / 10
  thresholdSmoothOld := 1 / 2
  thresholdSmoothNew := 1 / 2
  samplesPerBit_pos := by decide
  photodiodeBufferSize_pos := by decide

variable (cfg : ProtocolConfig)

instance : NeZero cfg.samplesPerBit := ⟨cfg.samplesPerBit_pos.ne'⟩
instance : NeZero cfg.photodiodeBufferSize := ⟨cfg.photodiodeBufferSize_pos.ne'⟩

def adcVref : ℚ := 33 / 10
def adcResolution : ℚ := 4095

def configTickRateHz : ℕ := 1000

def pdTicksToMs (ticks : UInt32) : UInt32 := UInt32.ofNat (ticks.toNat * 1000 / configTickRateHz)
def pdMsToTicks (ms : ℕ) : UInt32 := UInt32.ofNat (ms * configTickRateHz / 1000)

/-- At a 1000 Hz tick a tick is a millisecond. -/
@[simp] theorem pdTicksToMs_eq (ticks : UInt32) : pdTicksToMs ticks = ticks := by
  simp [pdTicksToMs, configTickRateHz]

@[simp] theorem pdMsToTicks_eq (ms : ℕ) : pdMsToTicks ms = UInt32.ofNat ms := by
  simp [pdMsToTicks, configTickRateHz]

/-- What stops the firmware: a failed `ESP_ERROR_CHECK`, the kernel's assertion on a NULL
handle, or an access outside an array. -/
inductive Fault where
  | abort
  | nullHandle
  | outOfBounds
  deriving DecidableEq, Repr

def espErrorCheck {α : Type*} : Option α → Except Fault α
  | some a => .ok a
  | none => .error .abort

/-- With `portMAX_DELAY` the take blocks until a created mutex is obtained. -/
def xSemaphoreTake (created : Bool) : Except Fault Bool :=
  if created then .ok true else .error .nullHandle

end TargetConfig
