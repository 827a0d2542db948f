import RayzTarget.Firmware
import RayzTarget.PhotodiodeDecoding

/-! # From transmitted bits to recorded deaths

A shooter's bits reach the photodiode as one voltage a window. What the firmware makes of
them is followed through the ring, the queue and the game: the words it decides on are the
sliding windows of the bits, after the zeros offered while the ring fills. The filters compute
with exact numbers here; what rounding in `float` adds to a voltage is not followed. -/
namespace TransmittedWords

open TargetConfig BitWord PhotodiodeHistory PhotodiodeDecoding PhotodiodeTask EventRuns
open TwoStageFilter SampleBlocks Firmware
open ProcessingTask (Laser)
open ProcessingTally (Dequeued)
open TargetDevice (GameComponent)
open AppMain (BootAnswers soundBoot)

variable {cfg : ProtocolConfig}

structure ConvexWeights (cfg : ProtocolConfig) : Prop where
  minWeight_pos : 0 < cfg.thresholdMinWeight
  minWeight_lt : cfg.thresholdMinWeight < 1
  weights_add : cfg.thresholdMinWeight + cfg.thresholdNewWeight = 1
  smoothOld_nonneg : 0 ≤ cfg.thresholdSmoothOld
  smoothNew_nonneg : 0 ≤ cfg.thresholdSmoothNew
  smooth_add : cfg.thresholdSmoothOld + cfg.thresholdSmoothNew = 1

/-- The `N` bits up to bit `j`, as the value of a word. -/
def windowValue (cfg : ProtocolConfig) (bits : List Bool) (j : ℕ) : ℕ :=
  msbValue ((bits.take j).drop (j - cfg.photodiodeBufferSize)) % 2 ^ 16

def slidingWords (cfg : ProtocolConfig) (bits : List Bool) : List ℕ :=
  (List.range' cfg.photodiodeBufferSize (bits.length + 1 - cfg.photodiodeBufferSize)).map
    (windowValue cfg bits)

def ringWords (cfg : ProtocolConfig) (v : List ℚ) : List UInt32 :=
  (List.range' cfg.photodiodeBufferSize (windowCount cfg v + 1 - cfg.photodiodeBufferSize)).map
    (windowWord cfg v)

theorem ringWords_of_lt {v : List ℚ} (h : windowCount cfg v < cfg.photodiodeBufferSize) :
    ringWords cfg v = [] := by
  have none_left : windowCount cfg v + 1 - cfg.photodiodeBufferSize = 0 := by omega
  rw [ringWords, none_left]
  rfl

/-- The words of complete rings are settled: further samples append to them only. -/
theorem ringWords_within {v w : List ℚ} (h : windowCount cfg (v ++ w) = windowCount cfg v) :
    ringWords cfg (v ++ w) = ringWords cfg v := by
  unfold ringWords
  rw [h]
  refine List.map_congr_left fun j hj => ?_
  obtain ⟨hN, hj⟩ := List.mem_range'_1.mp hj
  exact windowWord_append w (by omega) hN

theorem ringWords_boundary {v w : List ℚ} (h : windowCount cfg (v ++ w) = windowCount cfg v + 1)
    (hfull : cfg.photodiodeBufferSize ≤ windowCount cfg v + 1) :
    ringWords cfg (v ++ w) =
      ringWords cfg v ++ [windowWord cfg (v ++ w) (windowCount cfg v + 1)] := by
  have grown : windowCount cfg v + 1 + 1 - cfg.photodiodeBufferSize =
      windowCount cfg v + 1 - cfg.photodiodeBufferSize + 1 := by omega
  have newest : cfg.photodiodeBufferSize +
      1 * (windowCount cfg v + 1 - cfg.photodiodeBufferSize) = windowCount cfg v + 1 := by omega
  unfold ringWords
  rw [h, grown, List.range'_concat, List.map_append, newest, List.map_singleton]
  refine congrArg (· ++ _) (List.map_congr_left fun j hj => ?_)
  obtain ⟨hN, hj⟩ := List.mem_range'_1.mp hj
  exact windowWord_append w (by omega) hN

/-- All that is ever offered: zeros while the ring fills, then the word of each complete ring. -/
theorem offers_words (beginTick : UInt32) (rs : List Reading) :
    ∃ z, (offers cfg beginTick rs).reduceOption =
      List.replicate z 0 ++ ringWords cfg (taskIntake cfg beginTick rs).voltages := by
  induction rs using List.reverseRecOn with
  | nil =>
    have hpos := cfg.photodiodeBufferSize_pos
    have hzero : windowCount cfg ([] : List ℚ) = 0 := blockCount_nil
    refine ⟨0, ?_⟩
    rw [show (taskIntake cfg beginTick []).voltages = [] from rfl, ringWords_of_lt (by omega)]
    rfl
  | append_singleton rs r ih =>
    obtain ⟨z, hz⟩ := ih
    rw [offers_snoc, List.reduceOption_append, hz, taskIntake_snoc, offered]
    have hcount := windowCount_update cfg (taskIntake cfg beginTick rs) r.tickCount r.rawValue
    have hext : ∃ w, ((taskIntake cfg beginTick rs).update cfg r.tickCount r.rawValue).voltages =
        (taskIntake cfg beginTick rs).voltages ++ w := by
      rcases intake_update_voltages cfg (taskIntake cfg beginTick rs) r.tickCount r.rawValue with
        h | h
      · exact ⟨[], by rw [h, List.append_nil]⟩
      · exact ⟨_, h⟩
    obtain ⟨w, hw⟩ := hext
    rw [hw] at hcount ⊢
    generalize (taskIntake cfg beginTick rs).voltages = v at hcount ⊢
    by_cases hfull : cfg.photodiodeBufferSize ≤ windowCount cfg (v ++ w)
    · rw [if_pos hfull]
      refine ⟨z, ?_⟩
      rcases hcount with heq | heq
      · rw [if_neg (by omega), ringWords_within heq]
        simp
      · rw [if_pos (by omega), ringWords_boundary heq (by omega), heq]
        simp
    · rw [if_neg hfull, ringWords_of_lt (v := v) (by omega), ringWords_of_lt (by omega)]
      by_cases hone : 0 < windowCount cfg (v ++ w)
      · rw [if_pos hone]
        refine ⟨z + 1, ?_⟩
        rw [List.replicate_succ']
        simp
      · rw [if_neg hone]
        exact ⟨z, by simp⟩

variable (hcfg : ConvexWeights cfg) {low high : ℚ} (hlow : low ≤ 165 / 100)
  (hhigh : 165 / 100 < high)

include hcfg hlow hhigh

/-- Levels on the two sides of mid-scale keep the threshold between them, at every window. -/
theorem windowFilter_between (bits : List Bool) :
    low ≤ (windowFilter cfg (bits.map (level low high))).threshold ∧
      (windowFilter cfg (bits.map (level low high))).threshold < high := by
  have hpow := pow_pos hcfg.minWeight_pos cfg.samplesPerBit
  have hpow₁ := pow_le_one₀ (n := cfg.samplesPerBit) hcfg.minWeight_pos.le hcfg.minWeight_lt.le
  have hold₁ : cfg.thresholdSmoothOld ≤ 1 := by
    have := hcfg.smooth_add
    have := hcfg.smoothNew_nonneg
    linarith
  have hlh : low ≤ high := hlow.trans hhigh.le
  constructor
  · refine (Cascade.le_run hpow hpow₁ hcfg.smoothOld_nonneg hold₁ hlow hlow fun y hy => ?_).2
    rcases mem_levels hy with rfl | rfl
    · exact le_rfl
    · exact hlh
  · refine (Cascade.run_lt hpow hpow₁ hcfg.smoothOld_nonneg hold₁ hhigh hhigh fun y hy => ?_).2
    rcases mem_levels hy with rfl | rfl
    · exact hlh
    · exact le_rfl

/-- The ring that ends with window `j` reads as the bits sent up to window `j`. -/
theorem windowWord_transmitted {bits : List Bool} {tail : List ℚ} {j : ℕ}
    (hN : cfg.photodiodeBufferSize ≤ j) (hj : j ≤ bits.length) :
    (windowWord cfg (transmitted cfg low high bits tail) j).toNat = windowValue cfg bits j := by
  have hlen : (bits.take j).length = j := List.length_take_of_le hj
  have hsplit : transmitted cfg low high bits tail =
      transmitted cfg low high (bits.take j) [] ++
        (held cfg.samplesPerBit ((bits.drop j).map (level low high)) ++ tail) := by
    rw [transmitted, transmitted, List.append_nil, ← List.append_assoc, ← held_append,
      ← List.map_append, List.take_append_drop]
  have hcount : windowCount cfg (transmitted cfg low high (bits.take j) []) = j := by
    rw [transmitted_windowCount (by simpa using cfg.samplesPerBit_pos), hlen]
  obtain ⟨hlow', hhigh'⟩ := windowFilter_between hcfg hlow hhigh (bits.take j)
  have hthreshold := @transmitted_threshold cfg hcfg.weights_add hcfg.smooth_add low high
    (bits.take j) []
  have hbits := @lastBits_transmitted cfg low high _ (bits.take j) [] (by rw [hlen]; exact hN)
    hlow' hhigh'
  rw [hlen] at hthreshold hbits
  rw [hsplit, windowWord_append _ hcount.ge hN, windowWord_toNat, hthreshold, hbits, windowValue]

theorem ringWords_transmitted {bits : List Bool} {tail : List ℚ}
    (htail : tail.length < cfg.samplesPerBit) :
    (ringWords cfg (transmitted cfg low high bits tail)).map UInt32.toNat =
      slidingWords cfg bits := by
  unfold ringWords slidingWords
  rw [transmitted_windowCount htail, List.map_map]
  refine List.map_congr_left fun j hj => ?_
  obtain ⟨hN, hj⟩ := List.mem_range'_1.mp hj
  exact windowWord_transmitted hcfg hlow hhigh hN (by omega)

/-- The words offered while `bits` are received: zeros, then the windows of the bits. -/
theorem offers_transmitted {beginTick : UInt32} {rs : List Reading} {bits : List Bool}
    {tail : List ℚ} (htail : tail.length < cfg.samplesPerBit)
    (hv : (taskIntake cfg beginTick rs).voltages = transmitted cfg low high bits tail) :
    ∃ z, (offers cfg beginTick rs).reduceOption.map UInt32.toNat =
      List.replicate z 0 ++ slidingWords cfg bits := by
  obtain ⟨z, hz⟩ := @offers_words cfg beginTick rs
  refine ⟨z, ?_⟩
  rw [hz, hv, List.map_append, List.map_replicate, ringWords_transmitted hcfg hlow hhigh htail]
  rfl

omit hcfg hlow hhigh

variable {γ μ : Type} (G : GameComponent γ) (validate : UInt32 → Bool × UInt8 × UInt8)

/-- Every recorded death is a word that `validateLaserMessage` has accepted. -/
theorem deaths_valid (g : γ) (es : List (MessageQueue.Event μ)) :
    ∀ l ∈ (run (MessageQueue.next G validate) (MessageQueue.boot g) es).device.processing.deaths,
      (validate l.bits).1 = true := by
  intro l hl
  have hhit : l ∈ ProcessingTally.hitsOf validate (MessageQueue.decided G validate g es) := by
    rw [← MessageQueue.deaths_run]
    exact List.mem_append_left _ hl
  obtain ⟨d, hd, rfl⟩ := List.mem_map.mp hhit
  obtain ⟨hd, hit⟩ := List.mem_filter.mp hd
  have hverdict := ProcessingTally.verdict_invalid_iff validate
    (MessageQueue.processingRun G validate (MessageQueue.boot g : MessageQueue.State γ μ) es) d hd
  by_contra hv
  rw [Dequeued.hit, hverdict.mpr (Bool.eq_false_iff.mpr hv)] at hit
  cases hit

def lightOnOff : List (Firmware.Event Unit) := lightOff ++ [.photodiode ⟨3, 4095⟩]

theorem twoWindows_convex : ConvexWeights twoWindows := by
  constructor <;> norm_num [twoWindows]

theorem lightOnOff_transmits : (taskIntake twoWindows 0 (readings lightOnOff)).voltages =
    transmitted twoWindows 0 (33 / 10) [true, false, true] [] := by decide +kernel

end TransmittedWords
