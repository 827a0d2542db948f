import RayzTarget.TargetConfig
import RayzTarget.CheckedBuffer
import RayzTarget.BitWord

/-! # The class `Photodiode`

Buffers are arrays of the configured sizes and every access is checked. An ADC reading is
any rational: the driver delivers integers in 0..4095, off-grid signal levels stay expressible.
The fields that are `float` in the class hold exact numbers, without its rounding. -/
namespace PhotodiodeModel

open TargetConfig CheckedBuffer BitWord

structure Photodiode (cfg : ProtocolConfig) where
  sampleBuffer : Fin cfg.samplesPerBit → ℚ
  sampleIndex : ℕ
  bitBuffer : Fin cfg.photodiodeBufferSize → ℚ
  bitHead : ℕ
  bitCount : ℕ
  bufferFull : Bool
  sampleBufferFull : Bool
  runningMin : ℚ
  runningMax : ℚ
  dynamicThreshold : ℚ
  lastSampleTime : UInt32
  bitStartTime : UInt32
  bufferMutex : Bool
  adcHandle : Bool

variable {cfg : ProtocolConfig}

/-- The constructor leaves both arrays as the memory was. -/
def Photodiode.construct (sampleBuffer : Fin cfg.samplesPerBit → ℚ)
    (bitBuffer : Fin cfg.photodiodeBufferSize → ℚ) : Photodiode cfg where
  sampleBuffer := sampleBuffer
  sampleIndex := 0
  bitBuffer := bitBuffer
  bitHead := 0
  bitCount := 0
  bufferFull := false
  sampleBufferFull := false
  runningMin := 33 / 10
  runningMax := 0
  dynamicThreshold := 165 / 100
  lastSampleTime := 0
  bitStartTime := 0
  bufferMutex := false
  adcHandle := false

structure BeginAnswers where
  mutexCreated : Bool
  adcUnit : Option Unit
  adcChannel : Option Unit
  sampleTick : UInt32
  bitTick : UInt32

def Photodiode.begin (s : Photodiode cfg) (io : BeginAnswers) : Except Fault (Photodiode cfg) :=
  let s := { s with bufferMutex := io.mutexCreated }
  if !s.bufferMutex then .ok s
  else do
    espErrorCheck io.adcUnit
    espErrorCheck io.adcChannel
    let sampleBuffer ← fill .outOfBounds s.sampleBuffer 0
    let bitBuffer ← fill .outOfBounds s.bitBuffer 0
    return { s with
      adcHandle := true
      sampleBuffer := sampleBuffer
      bitBuffer := bitBuffer
      bitHead := 0
      bitCount := 0
      lastSampleTime := pdTicksToMs io.sampleTick
      bitStartTime := pdTicksToMs io.bitTick }

/-- The section of `update` under `bufferMutex`: one window average enters the ring. -/
def Photodiode.pushBit (s : Photodiode cfg) (avgVoltage : ℚ) : Except Fault (Photodiode cfg) := do
  if ← xSemaphoreTake s.bufferMutex then
    let bitBuffer ← write .outOfBounds s.bitBuffer s.bitHead avgVoltage
    let s := { s with
      bitBuffer := bitBuffer
      bitHead := (s.bitHead + 1) % cfg.photodiodeBufferSize }
    if !s.bufferFull then
      let s := { s with bitCount := s.bitCount + 1 }
      if s.bitCount ≥ cfg.photodiodeBufferSize then
        return { s with bufferFull := true, bitCount := cfg.photodiodeBufferSize }
      else return s
    else return s
  else return s

/-- The branch of `update` taken when `sampleIndex` has reached `SAMPLES_PER_BIT`. -/
def Photodiode.completeBit (s : Photodiode cfg) (currentTime : UInt32) :
    Except Fault (Photodiode cfg) := do
  let s := { s with sampleBufferFull := true }
  let total : ℚ ← sum .outOfBounds s.sampleBuffer 0
  let avgVoltage := total / cfg.samplesPerBit
  let midpoint := (s.runningMin + s.runningMax) * (1 / 2)
  let s := { s with
    dynamicThreshold :=
      s.dynamicThreshold * cfg.thresholdSmoothOld + midpoint * cfg.thresholdSmoothNew }
  let s ← s.pushBit avgVoltage
  return { s with sampleIndex := 0, bitStartTime := currentTime }

def Photodiode.acceptSample (s : Photodiode cfg) (currentTime : UInt32) (voltage : ℚ) :
    Except Fault (Photodiode cfg) := do
  let s := { s with
    runningMin := s.runningMin * cfg.thresholdMinWeight + voltage * cfg.thresholdNewWeight
    runningMax := s.runningMax * cfg.thresholdMinWeight + voltage * cfg.thresholdNewWeight }
  let sampleBuffer ← write .outOfBounds s.sampleBuffer s.sampleIndex voltage
  let s := { s with sampleBuffer := sampleBuffer, sampleIndex := s.sampleIndex + 1 }
  if s.sampleIndex ≥ cfg.samplesPerBit then s.completeBit currentTime else return s

def adcVoltage (rawValue : ℚ) : ℚ := rawValue * adcVref / adcResolution

/-- `currentTime - lastSampleTime < SAMPLE_INTERVAL_MS`, the subtraction in `uint32_t` -/
def tooSoon (cfg : ProtocolConfig) (currentTime lastSampleTime : UInt32) : Bool :=
  decide ((currentTime - lastSampleTime).toNat < cfg.sampleIntervalMs)

/-- `adc_oneshot_read`, which refuses a handle that is NULL. -/
def Photodiode.adcRead (s : Photodiode cfg) (adc : Option ℚ) : Option ℚ :=
  if s.adcHandle then adc else none

def Photodiode.update (s : Photodiode cfg) (tickCount : UInt32) (adc : Option ℚ) :
    Except Fault (Photodiode cfg) :=
  let currentTime := pdTicksToMs tickCount
  if tooSoon cfg currentTime s.lastSampleTime then .ok s
  else do
    let s := { s with lastSampleTime := currentTime }
    let rawValue ← espErrorCheck (s.adcRead adc)
    s.acceptSample currentTime (adcVoltage rawValue)

/-- The read-out loop of `convertToBits`, oldest window first. -/
def Photodiode.readBits (s : Photodiode cfg) (threshold : ℚ) (start count : ℕ) :
    Except Fault UInt16 :=
  countedLoop (fun i result => do
    let idx := (start + i) % cfg.photodiodeBufferSize
    let bit ← read .outOfBounds s.bitBuffer idx
    return shiftIn result (decide (bit > threshold))) count 0

def Photodiode.convertToBits (s : Photodiode cfg) : Except Fault (UInt16 × Photodiode cfg) :=
  if !s.bufferFull then .ok (0, s)
  else do
    let s := { s with sampleBufferFull := false }
    let threshold := s.dynamicThreshold
    if ← xSemaphoreTake s.bufferMutex then
      let start := if s.bufferFull then s.bitHead else 0
      let count := if s.bufferFull then cfg.photodiodeBufferSize else s.bitCount
      let result ← s.readBits threshold start count
      return (result, s)
    else return (0, s)

def Photodiode.getDynamicThreshold (s : Photodiode cfg) : ℚ := s.dynamicThreshold
def Photodiode.isBufferFull (s : Photodiode cfg) : Bool := s.bufferFull
def Photodiode.isSampleBufferFull (s : Photodiode cfg) : Bool := s.sampleBufferFull
def Photodiode.getSignalStrength (s : Photodiode cfg) : ℚ := s.runningMax - s.runningMin

/-- A successful `begin` after the constructor: cleared buffers, both clocks taken. -/
def Photodiode.ready (cfg : ProtocolConfig) (sampleTick bitTick : UInt32) : Photodiode cfg :=
  { Photodiode.construct (fun _ => 0) (fun _ => 0) with
    lastSampleTime := pdTicksToMs sampleTick
    bitStartTime := pdTicksToMs bitTick
    bufferMutex := true
    adcHandle := true }

theorem begin_construct_eq (io : BeginAnswers) (hm : io.mutexCreated = true)
    (hu : io.adcUnit = some ()) (hc : io.adcChannel = some ())
    (samples : Fin cfg.samplesPerBit → ℚ) (bits : Fin cfg.photodiodeBufferSize → ℚ) :
    (Photodiode.construct samples bits).begin io =
      .ok (Photodiode.ready cfg io.sampleTick io.bitTick) := by
  simp [Photodiode.begin, Photodiode.construct, Photodiode.ready, hm, hu, hc, espErrorCheck,
    fill_eq, bind, Except.bind, pure, Except.pure]

/-- A failed mutex creation returns before the ADC is set up. -/
theorem begin_without_mutex (s : Photodiode cfg) (io : BeginAnswers)
    (hm : io.mutexCreated = false) : s.begin io = .ok { s with bufferMutex := false } := by
  simp [Photodiode.begin, hm]

theorem adcRead_set {s : Photodiode cfg} (h : s.adcHandle = true) (adc : Option ℚ) :
    s.adcRead adc = adc := if_pos h

theorem update_early {s : Photodiode cfg} {tickCount : UInt32}
    (h : tooSoon cfg (pdTicksToMs tickCount) s.lastSampleTime = true) (adc : Option ℚ) :
    s.update tickCount adc = .ok s := if_pos h

/-- A sample that is due is taken, or the firmware stops. -/
theorem update_due {s : Photodiode cfg} {tickCount : UInt32}
    (h : tooSoon cfg (pdTicksToMs tickCount) s.lastSampleTime = false) (adc : Option ℚ) :
    s.update tickCount adc =
      match s.adcRead adc with
      | some rawValue => { s with lastSampleTime := pdTicksToMs tickCount }.acceptSample
          (pdTicksToMs tickCount) (adcVoltage rawValue)
      | none => .error .abort := by
  have due : ¬tooSoon cfg (pdTicksToMs tickCount) s.lastSampleTime = true := by
    rw [h]
    decide
  rw [Photodiode.update, if_neg due]
  cases hread : s.adcRead adc with
  | none =>
    simp only [Photodiode.adcRead] at hread ⊢
    simp [hread, espErrorCheck, bind, Except.bind]
  | some rawValue =>
    simp only [Photodiode.adcRead] at hread ⊢
    simp [hread, espErrorCheck, bind, Except.bind]

end PhotodiodeModel
