import RayzTarget.PhotodiodeModel
import RayzTarget.RingBuffer
import RayzTarget.SampleBlocks
import RayzTarget.EventRuns
import RayzTarget.TwoStageFilter

/-! # The photodiode against the list of its accepted voltages

The interval gate alone decides which samples count. Everything else the object stores,
the one-shot flag aside, is a function of the accepted voltages: two rings, two filters
and three counters. -/
namespace PhotodiodeHistory

open TargetConfig CheckedBuffer BitWord PhotodiodeModel SampleBlocks EventRuns TwoStageFilter

variable {cfg : ProtocolConfig}

inductive Call where
  | update (tickCount : UInt32) (rawValue : ℚ)
  | convertToBits

def Photodiode.call (s : Photodiode cfg) : Call → Except Fault (Photodiode cfg × Option UInt16)
  | .update tickCount rawValue => do
    let s ← s.update tickCount (some rawValue)
    return (s, none)
  | .convertToBits => do
    let (word, s) ← s.convertToBits
    return (s, some word)

/-- The gate by itself: the time of the last accepted sample, and the voltages it let in. -/
structure Intake where
  lastSampleTime : UInt32
  voltages : List ℚ

def Intake.update (cfg : ProtocolConfig) (i : Intake) (tickCount : UInt32) (rawValue : ℚ) :
    Intake :=
  if tooSoon cfg (pdTicksToMs tickCount) i.lastSampleTime then i
  else ⟨pdTicksToMs tickCount, i.voltages ++ [adcVoltage rawValue]⟩

def Intake.call (cfg : ProtocolConfig) (i : Intake) : Call → Intake
  | .update tickCount rawValue => i.update cfg tickCount rawValue
  | .convertToBits => i

def intake (cfg : ProtocolConfig) (beginTick : UInt32) (calls : List Call) : Intake :=
  run (Intake.call cfg) ⟨pdTicksToMs beginTick, []⟩ calls

def acceptedVoltages (cfg : ProtocolConfig) (beginTick : UInt32) (calls : List Call) : List ℚ :=
  (intake cfg beginTick calls).voltages

def windowCount (cfg : ProtocolConfig) (v : List ℚ) : ℕ := blockCount cfg.samplesPerBit v

/-- Mean of the window `j` of accepted voltages, counted from zero. -/
def windowMean (cfg : ProtocolConfig) (v : List ℚ) (j : ℕ) : ℚ := mean (block cfg.samplesPerBit v j)

def windowMeans (cfg : ProtocolConfig) (v : List ℚ) : List ℚ :=
  (blocks cfg.samplesPerBit v).map mean

def runningAfter (cfg : ProtocolConfig) (start : ℚ) (v : List ℚ) : ℚ :=
  v.foldl (smooth cfg.thresholdMinWeight cfg.thresholdNewWeight) start

def midpointAfter (cfg : ProtocolConfig) (v : List ℚ) : ℚ :=
  (runningAfter cfg (33 / 10) v + runningAfter cfg 0 v) * (1 / 2)

/-- The threshold as updated by the first `k` windows of `v`. -/
def thresholdAfter (cfg : ProtocolConfig) (v : List ℚ) : ℕ → ℚ
  | 0 => 165 / 100
  | k + 1 => smooth cfg.thresholdSmoothOld cfg.thresholdSmoothNew (thresholdAfter cfg v k)
      (midpointAfter cfg (v.take ((k + 1) * cfg.samplesPerBit)))

/-- The last `N` of the first `k` windows as bits against `threshold`, oldest first. -/
def lastBits (cfg : ProtocolConfig) (v : List ℚ) (k : ℕ) (threshold : ℚ) : List Bool :=
  (List.range cfg.photodiodeBufferSize).map fun i =>
    decide (windowMean cfg v (k - cfg.photodiodeBufferSize + i) > threshold)

def wordOf (bits : List Bool) : UInt16 := UInt16.ofNat (msbValue bits)

theorem wordOf_toNat (bits : List Bool) : (wordOf bits).toNat = msbValue bits % 2 ^ 16 :=
  UInt16.toNat_ofNat'

structure Records (v : List ℚ) (s : Photodiode cfg) : Prop where
  mutex : s.bufferMutex = true
  adc : s.adcHandle = true
  sampleIndex : s.sampleIndex = v.length % cfg.samplesPerBit
  samples : RingBuffer.Holds s.sampleBuffer v
  bitHead : s.bitHead = windowCount cfg v % cfg.photodiodeBufferSize
  bitCount : s.bitCount = min (windowCount cfg v) cfg.photodiodeBufferSize
  bufferFull : s.bufferFull = decide (cfg.photodiodeBufferSize ≤ windowCount cfg v)
  bits : RingBuffer.Holds s.bitBuffer (windowMeans cfg v)
  runningMin : s.runningMin = runningAfter cfg (33 / 10) v
  runningMax : s.runningMax = runningAfter cfg 0 v
  dynamicThreshold : s.dynamicThreshold = thresholdAfter cfg v (windowCount cfg v)

theorem windowMeans_length (v : List ℚ) : (windowMeans cfg v).length = windowCount cfg v := by
  simp [windowMeans, windowCount]

theorem windowMeans_getElem (v : List ℚ) {j : ℕ} (hj : j < (windowMeans cfg v).length) :
    (windowMeans cfg v)[j] = windowMean cfg v j := by
  simp [windowMeans, windowMean]

theorem runningAfter_snoc (start : ℚ) (v : List ℚ) (x : ℚ) :
    runningAfter cfg start (v ++ [x]) =
      runningAfter cfg start v * cfg.thresholdMinWeight + x * cfg.thresholdNewWeight := by
  simp [runningAfter, smooth]

/-- Later samples do not change the threshold a window has left behind. -/
theorem thresholdAfter_append {v : List ℚ} (w : List ℚ) {k : ℕ} (h : k ≤ windowCount cfg v) :
    thresholdAfter cfg (v ++ w) k = thresholdAfter cfg v k := by
  induction k with
  | zero => rfl
  | succ k ih =>
    have hend := block_end_le (v := v) (S := cfg.samplesPerBit) h
    simp only [thresholdAfter]
    rw [ih (by omega), List.take_append_of_le_length hend]

theorem windowMean_append {v : List ℚ} (w : List ℚ) {j : ℕ} (h : j < windowCount cfg v) :
    windowMean cfg (v ++ w) j = windowMean cfg v j := by
  rw [windowMean, block_append h, windowMean]

theorem ready_records (sampleTick bitTick : UInt32) :
    Records [] (Photodiode.ready cfg sampleTick bitTick) where
  mutex := rfl
  adc := rfl
  sampleIndex := by simp [Photodiode.ready, Photodiode.construct]
  samples := RingBuffer.holds_nil _
  bitHead := by simp [Photodiode.ready, Photodiode.construct, windowCount]
  bitCount := by simp [Photodiode.ready, Photodiode.construct, windowCount]
  bufferFull := by
    have := cfg.photodiodeBufferSize_pos
    simp [Photodiode.ready, Photodiode.construct, windowCount]
    omega
  bits := by
    rw [show windowMeans cfg [] = [] by simp [windowMeans, blocks]]
    exact RingBuffer.holds_nil _
  runningMin := rfl
  runningMax := rfl
  dynamicThreshold := by simp [Photodiode.ready, Photodiode.construct, windowCount, thresholdAfter]

/-- The ring section writes at `k % N` and leaves head, count and flag as for `k + 1` windows. -/
theorem pushBit_eq (s : Photodiode cfg) {k : ℕ} (hm : s.bufferMutex = true)
    (hh : s.bitHead = k % cfg.photodiodeBufferSize)
    (hc : s.bitCount = min k cfg.photodiodeBufferSize)
    (hf : s.bufferFull = decide (cfg.photodiodeBufferSize ≤ k)) (avgVoltage : ℚ) :
    s.pushBit avgVoltage = .ok { s with
      bitBuffer := Function.update s.bitBuffer (RingBuffer.slot k) avgVoltage
      bitHead := (k + 1) % cfg.photodiodeBufferSize
      bitCount := min (k + 1) cfg.photodiodeBufferSize
      bufferFull := decide (cfg.photodiodeBufferSize ≤ k + 1) } := by
  have hhead : (k % cfg.photodiodeBufferSize + 1) % cfg.photodiodeBufferSize =
      (k + 1) % cfg.photodiodeBufferSize := by rw [Nat.mod_add_mod]
  simp only [Photodiode.pushBit, xSemaphoreTake, hm, if_true, bind, Except.bind, hh,
    RingBuffer.write_mod, hf, hc, pure, Except.pure, hhead]
  rcases Nat.lt_trichotomy (k + 1) cfg.photodiodeBufferSize with hlt | heq | hgt
  · -- fill phase: the count is still below the size afterwards
    have h₁ : ¬cfg.photodiodeBufferSize ≤ k := by omega
    have h₂ : ¬cfg.photodiodeBufferSize ≤ k + 1 := by omega
    have h₃ : min k cfg.photodiodeBufferSize = k := by omega
    have h₄ : min (k + 1) cfg.photodiodeBufferSize = k + 1 := by omega
    simp [h₁, h₂, h₃, h₄]
  · -- the window that fills the ring
    have h₁ : ¬cfg.photodiodeBufferSize ≤ k := by omega
    have h₂ : cfg.photodiodeBufferSize ≤ k + 1 := by omega
    have h₃ : min k cfg.photodiodeBufferSize = k := by omega
    simp [h₁, h₂, h₃]
  · -- wrapped phase: count and flag are saturated
    have h₁ : cfg.photodiodeBufferSize ≤ k := by omega
    have h₂ : cfg.photodiodeBufferSize ≤ k + 1 := by omega
    simp [h₁, h₂]

theorem completeBit_eq (s : Photodiode cfg) {k : ℕ} (hm : s.bufferMutex = true)
    (hh : s.bitHead = k % cfg.photodiodeBufferSize)
    (hc : s.bitCount = min k cfg.photodiodeBufferSize)
    (hf : s.bufferFull = decide (cfg.photodiodeBufferSize ≤ k)) (currentTime : UInt32) :
    s.completeBit currentTime = .ok { s with
      sampleBufferFull := true
      dynamicThreshold := s.dynamicThreshold * cfg.thresholdSmoothOld +
        (s.runningMin + s.runningMax) * (1 / 2) * cfg.thresholdSmoothNew
      bitBuffer := Function.update s.bitBuffer (RingBuffer.slot k) (mean (List.ofFn s.sampleBuffer))
      bitHead := (k + 1) % cfg.photodiodeBufferSize
      bitCount := min (k + 1) cfg.photodiodeBufferSize
      bufferFull := decide (cfg.photodiodeBufferSize ≤ k + 1)
      sampleIndex := 0
      bitStartTime := currentTime } := by
  simp only [Photodiode.completeBit, sum_eq, bind, Except.bind, pure, Except.pure]
  rw [pushBit_eq (k := k)]
  · simp [mean]
  · exact hm
  · exact hh
  · exact hc
  · exact hf

theorem windowMeans_snoc_within {v : List ℚ} (x : ℚ)
    (h : v.length % cfg.samplesPerBit + 1 < cfg.samplesPerBit) :
    windowMeans cfg (v ++ [x]) = windowMeans cfg v := by
  rw [windowMeans, blocks_snoc_within x h, windowMeans]

theorem windowMeans_snoc_boundary {v : List ℚ} (x : ℚ)
    (h : v.length % cfg.samplesPerBit + 1 = cfg.samplesPerBit) :
    windowMeans cfg (v ++ [x]) =
      windowMeans cfg v ++ [windowMean cfg (v ++ [x]) (windowCount cfg v)] := by
  rw [windowMeans, blocks_snoc_boundary cfg.samplesPerBit_pos x h, List.map_append,
    List.map_singleton]
  rfl

/-- An accepted sample that does not fill the sample window touches no bit. -/
theorem acceptSample_within {v : List ℚ} {s : Photodiode cfg} (h : Records v s)
    (currentTime : UInt32) (x : ℚ)
    (hw : v.length % cfg.samplesPerBit + 1 < cfg.samplesPerBit) :
    ∃ s', s.acceptSample currentTime x = .ok s' ∧ Records (v ++ [x]) s' ∧
      s'.lastSampleTime = s.lastSampleTime ∧ s'.sampleBufferFull = s.sampleBufferFull := by
  have hcount : windowCount cfg (v ++ [x]) = windowCount cfg v := blockCount_snoc_within x hw
  have hlt : ¬v.length % cfg.samplesPerBit + 1 ≥ cfg.samplesPerBit := by omega
  refine ⟨{ s with
    runningMin := s.runningMin * cfg.thresholdMinWeight + x * cfg.thresholdNewWeight
    runningMax := s.runningMax * cfg.thresholdMinWeight + x * cfg.thresholdNewWeight
    sampleBuffer := Function.update s.sampleBuffer (RingBuffer.slot v.length) x
    sampleIndex := v.length % cfg.samplesPerBit + 1 }, ?_, ?_, rfl, rfl⟩
  · simp only [Photodiode.acceptSample, h.sampleIndex, RingBuffer.write_mod, bind, Except.bind,
      if_neg hlt, pure, Except.pure]
  · constructor
    · exact h.mutex
    · exact h.adc
    · exact (length_mod_within x hw).symm
    · exact h.samples.push x
    · rw [hcount]; exact h.bitHead
    · rw [hcount]; exact h.bitCount
    · rw [hcount]; exact h.bufferFull
    · rw [windowMeans_snoc_within x hw]; exact h.bits
    · rw [runningAfter_snoc, ← h.runningMin]
    · rw [runningAfter_snoc, ← h.runningMax]
    · rw [hcount, thresholdAfter_append [x] le_rfl]
      exact h.dynamicThreshold

/-- The sample that fills the window: its mean enters the ring, the threshold is updated. -/
theorem acceptSample_boundary {v : List ℚ} {s : Photodiode cfg} (h : Records v s)
    (currentTime : UInt32) (x : ℚ)
    (hb : v.length % cfg.samplesPerBit + 1 = cfg.samplesPerBit) :
    ∃ s', s.acceptSample currentTime x = .ok s' ∧ Records (v ++ [x]) s' ∧
      s'.lastSampleTime = s.lastSampleTime ∧ s'.sampleBufferFull = true := by
  have hcount : windowCount cfg (v ++ [x]) = windowCount cfg v + 1 :=
    blockCount_snoc_boundary cfg.samplesPerBit_pos x hb
  have hge : v.length % cfg.samplesPerBit + 1 ≥ cfg.samplesPerBit := hb.ge
  have hsamples := h.samples.push x
  have hlen := length_snoc_boundary x hb
  have hmean : mean (List.ofFn (Function.update s.sampleBuffer (RingBuffer.slot v.length) x)) =
      windowMean cfg (v ++ [x]) (windowCount cfg v) :=
    congrArg mean (hsamples.ofFn_eq hlen)
  let t : Photodiode cfg := { s with
    runningMin := s.runningMin * cfg.thresholdMinWeight + x * cfg.thresholdNewWeight
    runningMax := s.runningMax * cfg.thresholdMinWeight + x * cfg.thresholdNewWeight
    sampleBuffer := Function.update s.sampleBuffer (RingBuffer.slot v.length) x
    sampleIndex := v.length % cfg.samplesPerBit + 1 }
  have hstep : s.acceptSample currentTime x = t.completeBit currentTime := by
    simp only [Photodiode.acceptSample, h.sampleIndex, RingBuffer.write_mod, bind, Except.bind,
      if_pos hge, t]
  refine ⟨_, hstep.trans
    (completeBit_eq t h.mutex h.bitHead h.bitCount h.bufferFull currentTime), ?_, rfl, rfl⟩
  · constructor
    · exact h.mutex
    · exact h.adc
    · exact (length_mod_boundary x hb).symm
    · exact hsamples
    · rw [hcount]
    · rw [hcount]
    · rw [hcount]
    · rw [windowMeans_snoc_boundary x hb, ← hmean, ← windowMeans_length v]
      exact h.bits.push _
    · rw [runningAfter_snoc, ← h.runningMin]
    · rw [runningAfter_snoc, ← h.runningMax]
    · rw [hcount, thresholdAfter, thresholdAfter_append [x] le_rfl, ← h.dynamicThreshold,
        List.take_of_length_le (by rw [hlen]; rfl), midpointAfter, runningAfter_snoc,
        runningAfter_snoc, ← h.runningMin, ← h.runningMax]
      rfl

theorem acceptSample_records {v : List ℚ} {s : Photodiode cfg} (h : Records v s)
    (currentTime : UInt32) (x : ℚ) :
    ∃ s', s.acceptSample currentTime x = .ok s' ∧ Records (v ++ [x]) s' ∧
      s'.lastSampleTime = s.lastSampleTime ∧
      s'.sampleBufferFull = (s.sampleBufferFull ||
        decide (windowCount cfg v < windowCount cfg (v ++ [x]))) := by
  have hlt := Nat.mod_lt v.length cfg.samplesPerBit_pos
  rcases Nat.lt_or_eq_of_le (Nat.succ_le_of_lt hlt) with hw | hb
  · obtain ⟨s', hs, hr, ht, hf⟩ := acceptSample_within h currentTime x hw
    have hcount : windowCount cfg (v ++ [x]) = windowCount cfg v := blockCount_snoc_within x hw
    exact ⟨s', hs, hr, ht, by simp [hf, hcount]⟩
  · obtain ⟨s', hs, hr, ht, hf⟩ := acceptSample_boundary h currentTime x hb
    have hcount : windowCount cfg (v ++ [x]) = windowCount cfg v + 1 :=
      blockCount_snoc_boundary cfg.samplesPerBit_pos x hb
    exact ⟨s', hs, hr, ht, by simp [hf, hcount]⟩

/-- The read-out loop from the head of a full ring shifts in the last `N` windows, oldest first. -/
theorem readBits_eq {v : List ℚ} {s : Photodiode cfg} (h : Records v s) (threshold : ℚ)
    (full : cfg.photodiodeBufferSize ≤ windowCount cfg v) :
    s.readBits threshold s.bitHead cfg.photodiodeBufferSize =
      .ok (wordOf (lastBits cfg v (windowCount cfg v) threshold)) := by
  let bits := lastBits cfg v (windowCount cfg v) threshold
  have hlen : bits.length = cfg.photodiodeBufferSize := by simp [bits, lastBits]
  obtain ⟨w, hw, hbits⟩ := countedLoop_rule (fun i result => do
      let idx := (s.bitHead + i) % cfg.photodiodeBufferSize
      let bit ← read Fault.outOfBounds s.bitBuffer idx
      return shiftIn result (decide (bit > threshold)))
    (fun i result => result.toNat = msbValue (bits.take i) % 2 ^ 16)
    cfg.photodiodeBufferSize 0 (by simp) (by
      intro i result hi ih
      have hfull : cfg.photodiodeBufferSize ≤ (windowMeans cfg v).length := by
        rw [windowMeans_length]; exact full
      have hcell : s.bitBuffer (RingBuffer.slot (s.bitHead + i)) =
          windowMean cfg v (windowCount cfg v - cfg.photodiodeBufferSize + i) := by
        rw [h.bitHead, RingBuffer.slot_add_mod, ← windowMeans_length v,
          h.bits.oldest_first hfull hi, windowMeans_getElem]
      refine ⟨shiftIn result (decide (s.bitBuffer (RingBuffer.slot (s.bitHead + i)) > threshold)),
        by simp only [RingBuffer.read_mod, bind, Except.bind, pure, Except.pure], ?_⟩
      have hin : i < bits.length := by omega
      have htake : bits.take (i + 1) = bits.take i ++ [bits[i]] := by simp
      rw [htake, hcell]
      have hbit : bits[i] = decide (windowMean cfg v
          (windowCount cfg v - cfg.photodiodeBufferSize + i) > threshold) := by
        simp [bits, lastBits]
      rw [hbit]
      exact shiftIn_msbValue ih _)
  rw [Photodiode.readBits, hw]
  congr 1
  apply UInt16.toNat_inj.mp
  rw [hbits, wordOf_toNat, List.take_of_length_le hlen.le]

theorem convertToBits_warmup {v : List ℚ} {s : Photodiode cfg} (h : Records v s)
    (hk : windowCount cfg v < cfg.photodiodeBufferSize) : s.convertToBits = .ok (0, s) := by
  have hf : s.bufferFull = false := by rw [h.bufferFull]; simpa using hk
  simp [Photodiode.convertToBits, hf]

theorem convertToBits_full {v : List ℚ} {s : Photodiode cfg} (h : Records v s)
    (hk : cfg.photodiodeBufferSize ≤ windowCount cfg v) :
    s.convertToBits = .ok (wordOf (lastBits cfg v (windowCount cfg v) s.dynamicThreshold),
      { s with sampleBufferFull := false }) := by
  have hf : s.bufferFull = true := by rw [h.bufferFull]; simpa using hk
  have hr : Records v { s with sampleBufferFull := false } := { h with }
  have hread := readBits_eq hr s.dynamicThreshold hk
  simp only [Photodiode.convertToBits, hf, Bool.not_true, Bool.false_eq_true, if_false,
    xSemaphoreTake, h.mutex, if_true, bind, Except.bind, pure, Except.pure] at hread ⊢
  rw [hread]

/-- `update` against the gate: rejected calls change nothing, accepted ones extend the record. -/
theorem update_records {i : Intake} {s : Photodiode cfg} (h : Records i.voltages s)
    (ht : s.lastSampleTime = i.lastSampleTime) (tickCount : UInt32) (rawValue : ℚ) :
    ∃ s', s.update tickCount (some rawValue) = .ok s' ∧
      Records (i.update cfg tickCount rawValue).voltages s' ∧
      s'.lastSampleTime = (i.update cfg tickCount rawValue).lastSampleTime ∧
      s'.sampleBufferFull = (s.sampleBufferFull || decide (windowCount cfg i.voltages <
        windowCount cfg (i.update cfg tickCount rawValue).voltages)) := by
  by_cases hg : tooSoon cfg (pdTicksToMs tickCount) i.lastSampleTime
  · have hi : i.update cfg tickCount rawValue = i := if_pos hg
    rw [hi]
    exact ⟨s, update_early (by rwa [ht]) _, h, ht, by simp⟩
  · have hi : i.update cfg tickCount rawValue =
        ⟨pdTicksToMs tickCount, i.voltages ++ [adcVoltage rawValue]⟩ := if_neg hg
    rw [hi]
    have hr : Records i.voltages { s with lastSampleTime := pdTicksToMs tickCount } := { h with }
    obtain ⟨s', hs, hr', ht', hf⟩ :=
      acceptSample_records hr (pdTicksToMs tickCount) (adcVoltage rawValue)
    refine ⟨s', ?_, hr', ht', hf⟩
    rw [update_due (by rwa [ht, ← Bool.not_eq_true]), adcRead_set h.adc]
    exact hs

theorem call_records {i : Intake} {s : Photodiode cfg} (h : Records i.voltages s)
    (ht : s.lastSampleTime = i.lastSampleTime) (c : Call) :
    ∃ s' o, Photodiode.call s c = .ok (s', o) ∧ Records (i.call cfg c).voltages s' ∧
      s'.lastSampleTime = (i.call cfg c).lastSampleTime := by
  cases c with
  | update tickCount rawValue =>
    obtain ⟨s', hs, hr, ht', _⟩ := update_records h ht tickCount rawValue
    exact ⟨s', none, by simp [Photodiode.call, hs, bind, Except.bind, pure, Except.pure], hr, ht'⟩
  | convertToBits =>
    by_cases hk : cfg.photodiodeBufferSize ≤ windowCount cfg i.voltages
    · refine ⟨{ s with sampleBufferFull := false },
        some (wordOf (lastBits cfg i.voltages (windowCount cfg i.voltages) s.dynamicThreshold)),
        ?_, { h with }, ht⟩
      simp only [Photodiode.call, convertToBits_full h hk, bind, Except.bind, pure, Except.pure]
    · refine ⟨s, some 0, ?_, h, ht⟩
      simp [Photodiode.call, convertToBits_warmup h (by omega), bind, Except.bind, pure,
        Except.pure]

/-- No run of calls fails, and the object it ends in records the accepted voltages. -/
theorem run_records (sampleTick bitTick : UInt32) (calls : List Call) :
    ∃ s outs, runE Photodiode.call (Photodiode.ready cfg sampleTick bitTick) calls = .ok (s, outs) ∧
      Records (acceptedVoltages cfg sampleTick calls) s ∧
      s.lastSampleTime = (intake cfg sampleTick calls).lastSampleTime := by
  refine runE_rule Photodiode.call (fun s cs _ =>
    Records (acceptedVoltages cfg sampleTick cs) s ∧
      s.lastSampleTime = (intake cfg sampleTick cs).lastSampleTime)
    ⟨ready_records sampleTick bitTick, rfl⟩ ?_ calls
  rintro s cs os c ⟨hr, ht⟩
  obtain ⟨s', o, hs, hr', ht'⟩ := call_records hr ht c
  refine ⟨s', o, hs, ?_⟩
  unfold acceptedVoltages intake
  rw [run_snoc]
  exact ⟨hr', ht'⟩

/-- Any stream of voltages can be fed, one interval apart, as long as the gate can open at all. -/
theorem stream_accepted (hI : cfg.sampleIntervalMs < 2 ^ 32) (beginTick : UInt32) (v : List ℚ) :
    ∃ calls, acceptedVoltages cfg beginTick calls = v := by
  induction v using List.reverseRecOn with
  | nil => exact ⟨[], rfl⟩
  | append_singleton v x ih =>
    obtain ⟨calls, hv⟩ := ih
    let last := (intake cfg beginTick calls).lastSampleTime
    refine ⟨calls ++ [.update (last + UInt32.ofNat cfg.sampleIntervalMs)
      (x * adcResolution / adcVref)], ?_⟩
    have hopen : ¬tooSoon cfg (last + UInt32.ofNat cfg.sampleIntervalMs) last := by
      have hsub : last + UInt32.ofNat cfg.sampleIntervalMs - last =
          UInt32.ofNat cfg.sampleIntervalMs := by
        rw [UInt32.add_comm, UInt32.add_sub_cancel]
      simp only [tooSoon, hsub, decide_eq_true_eq, Nat.not_lt]
      rw [UInt32.toNat_ofNat_of_lt' hI]
    have hx : adcVoltage (x * adcResolution / adcVref) = x := by
      norm_num [adcVoltage, adcVref, adcResolution]
    rw [acceptedVoltages, intake, run_snoc]
    change (Intake.update cfg (intake cfg beginTick calls) _ _).voltages = _
    rw [Intake.update, pdTicksToMs_eq, if_neg hopen, hx]
    exact congrArg (· ++ [x]) hv

theorem lastBits_msbValue (v : List ℚ) (k : ℕ) (threshold : ℚ) :
    msbValue (lastBits cfg v k threshold) = ∑ i ∈ Finset.range cfg.photodiodeBufferSize,
      if windowMean cfg v (k - cfg.photodiodeBufferSize + i) > threshold
        then 2 ^ (cfg.photodiodeBufferSize - 1 - i) else 0 := by
  rw [lastBits, msbValue_ofFn]
  exact Finset.sum_congr rfl fun i _ => by simp only [decide_eq_true_eq]

/-- Whatever calls came before, a read-out sees the last `N` complete windows of accepted
samples against the current threshold, oldest first, or answers zero while there are
fewer; the windows partition the accepted samples up to an unfinished tail. -/
theorem convertToBits_reads_last_windows (cfg : ProtocolConfig) (sampleTick bitTick : UInt32)
    (calls : List Call) :
    let v := acceptedVoltages cfg sampleTick calls
    let k := v.length / cfg.samplesPerBit
    (blocks cfg.samplesPerBit v).flatten = v.take (k * cfg.samplesPerBit) ∧
    ∃ s outs, runE Photodiode.call (Photodiode.ready cfg sampleTick bitTick) calls = .ok (s, outs) ∧
      ∃ word s', s.convertToBits = .ok (word, s') ∧
        word.toNat = if k < cfg.photodiodeBufferSize then 0 else
          (∑ i ∈ Finset.range cfg.photodiodeBufferSize,
            if windowMean cfg v (k - cfg.photodiodeBufferSize + i) > s.dynamicThreshold
              then 2 ^ (cfg.photodiodeBufferSize - 1 - i) else 0) % 2 ^ 16 := by
  intro v k
  refine ⟨blocks_flatten v, ?_⟩
  obtain ⟨s, outs, hrun, hr, _⟩ := run_records sampleTick bitTick calls
  refine ⟨s, outs, hrun, ?_⟩
  by_cases hk : k < cfg.photodiodeBufferSize
  · exact ⟨0, s, convertToBits_warmup hr hk, by simp [hk]⟩
  · refine ⟨_, _, convertToBits_full hr (Nat.le_of_not_lt hk), ?_⟩
    rw [if_neg hk, wordOf_toNat, lastBits_msbValue]
    rfl

end PhotodiodeHistory
