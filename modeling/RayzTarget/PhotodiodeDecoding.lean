import RayzTarget.PhotodiodeHistory
import RayzTarget.TwoStageFilter

/-! # Decoding two-level signals

While every window is held at one of two levels, the envelope midpoint and the threshold
are a two-stage filter stepped once per window, and the read-out is decided by the side of
the two levels the threshold lies on. -/
namespace PhotodiodeDecoding

open TargetConfig BitWord PhotodiodeModel PhotodiodeHistory SampleBlocks EventRuns TwoStageFilter

variable {cfg : ProtocolConfig}

def level (low high : ℚ) (b : Bool) : ℚ := if b then high else low

/-- The accepted samples while `bits` are sent, one window a bit, and part of the next window. -/
def transmitted (cfg : ProtocolConfig) (low high : ℚ) (bits : List Bool) (tail : List ℚ) : List ℚ :=
  held cfg.samplesPerBit (bits.map (level low high)) ++ tail

def initialFilter : Cascade ℚ := ⟨165 / 100, 165 / 100⟩

/-- The filter over whole windows: `S` samples at one level weigh as one input. -/
def windowFilter (cfg : ProtocolConfig) (xs : List ℚ) : Cascade ℚ :=
  initialFilter.run (cfg.thresholdMinWeight ^ cfg.samplesPerBit) cfg.thresholdSmoothOld xs

/-- The inverted envelope does not matter: its midpoint starts at mid-scale and smooths the
samples. -/
theorem midpointAfter_eq (v : List ℚ) : midpointAfter cfg v =
    v.foldl (smooth cfg.thresholdMinWeight cfg.thresholdNewWeight) (165 / 100) := by
  induction v using List.reverseRecOn with
  | nil => norm_num [midpointAfter, runningAfter]
  | append_singleton v x ih =>
    rw [midpointAfter, runningAfter_snoc, runningAfter_snoc, List.foldl_append, ← ih]
    simp only [List.foldl_cons, List.foldl_nil, smooth, midpointAfter]
    ring

theorem midpointAfter_held (hw : cfg.thresholdMinWeight + cfg.thresholdNewWeight = 1)
    (xs : List ℚ) (x : ℚ) :
    midpointAfter cfg (held cfg.samplesPerBit (xs ++ [x])) =
      smooth (cfg.thresholdMinWeight ^ cfg.samplesPerBit)
        (1 - cfg.thresholdMinWeight ^ cfg.samplesPerBit)
        (midpointAfter cfg (held cfg.samplesPerBit xs)) x := by
  rw [midpointAfter_eq, midpointAfter_eq, held_append, List.foldl_append,
    show held cfg.samplesPerBit [x] = List.replicate cfg.samplesPerBit x by simp [held],
    foldl_smooth_replicate hw]

theorem windowCount_held (xs : List ℚ) :
    windowCount cfg (held cfg.samplesPerBit xs) = xs.length := by
  rw [windowCount, blockCount, held_length, Nat.mul_div_cancel _ cfg.samplesPerBit_pos]

/-- Threshold and midpoint of a held signal are the window filter's two stages. -/
theorem thresholdAfter_held (hw : cfg.thresholdMinWeight + cfg.thresholdNewWeight = 1)
    (hs : cfg.thresholdSmoothOld + cfg.thresholdSmoothNew = 1) (xs : List ℚ) :
    (windowFilter cfg xs).level = midpointAfter cfg (held cfg.samplesPerBit xs) ∧
    (windowFilter cfg xs).threshold =
      thresholdAfter cfg (held cfg.samplesPerBit xs) xs.length := by
  induction xs using List.reverseRecOn with
  | nil => exact ⟨by norm_num [windowFilter, Cascade.run, initialFilter, midpointAfter,
      runningAfter, held], rfl⟩
  | append_singleton xs x ih =>
    obtain ⟨hl, ht⟩ := ih
    have hcount : windowCount cfg (held cfg.samplesPerBit xs) = xs.length := windowCount_held xs
    have hlevel : (windowFilter cfg (xs ++ [x])).level =
        midpointAfter cfg (held cfg.samplesPerBit (xs ++ [x])) := by
      rw [midpointAfter_held hw, ← hl, windowFilter, Cascade.run_append]
      rfl
    refine ⟨hlevel, ?_⟩
    have htake : (held cfg.samplesPerBit (xs ++ [x])).take
        ((xs.length + 1) * cfg.samplesPerBit) = held cfg.samplesPerBit (xs ++ [x]) :=
      List.take_of_length_le (by simp)
    have hold : thresholdAfter cfg (held cfg.samplesPerBit (xs ++ [x])) xs.length =
        (windowFilter cfg xs).threshold := by
      rw [held_append, thresholdAfter_append _ hcount.ge, ht]
    rw [List.length_append, List.length_singleton, thresholdAfter, htake, hold, ← hlevel,
      show cfg.thresholdSmoothNew = 1 - cfg.thresholdSmoothOld by rw [← hs, add_sub_cancel_left],
      windowFilter, Cascade.run_append]
    rfl

theorem transmitted_windowCount {low high : ℚ} {bits : List Bool} {tail : List ℚ}
    (ht : tail.length < cfg.samplesPerBit) :
    windowCount cfg (transmitted cfg low high bits tail) = bits.length :=
  (blockCount_held cfg.samplesPerBit_pos (bits.map (level low high)) ht).trans (List.length_map _)

theorem transmitted_windowMean {low high : ℚ} {bits : List Bool} {tail : List ℚ} {j : ℕ}
    (hj : j < bits.length) :
    windowMean cfg (transmitted cfg low high bits tail) j = level low high bits[j] := by
  rw [windowMean, transmitted, block_held _ _ (by simpa using hj),
    mean_replicate cfg.samplesPerBit_pos, List.getElem_map]

theorem transmitted_threshold (hw : cfg.thresholdMinWeight + cfg.thresholdNewWeight = 1)
    (hs : cfg.thresholdSmoothOld + cfg.thresholdSmoothNew = 1) {low high : ℚ} {bits : List Bool}
    {tail : List ℚ} :
    thresholdAfter cfg (transmitted cfg low high bits tail) bits.length =
      (windowFilter cfg (bits.map (level low high))).threshold := by
  have hcount : windowCount cfg (held cfg.samplesPerBit (bits.map (level low high))) =
      bits.length := (windowCount_held _).trans (List.length_map _)
  rw [transmitted, thresholdAfter_append _ hcount.ge, (thresholdAfter_held hw hs _).2,
    List.length_map]

/-- A threshold between the levels reads the last `N` bits back. -/
theorem lastBits_transmitted {low high threshold : ℚ} {bits : List Bool} {tail : List ℚ}
    (hk : cfg.photodiodeBufferSize ≤ bits.length) (hlow : low ≤ threshold)
    (hhigh : threshold < high) :
    lastBits cfg (transmitted cfg low high bits tail) bits.length threshold =
      bits.drop (bits.length - cfg.photodiodeBufferSize) := by
  apply List.ext_getElem
  · simp only [lastBits, List.length_map, List.length_range, List.length_drop]
    omega
  · intro i hi hi'
    simp only [lastBits, List.length_map, List.length_range] at hi
    simp only [lastBits, List.getElem_map, List.getElem_range, List.getElem_drop]
    have hj : bits.length - cfg.photodiodeBufferSize + i < bits.length := by omega
    rw [transmitted_windowMean hj]
    cases bits[bits.length - cfg.photodiodeBufferSize + i] with
    | true => simpa [level] using hhigh
    | false => simpa [level] using hlow

/-- The read-out after a run that has received `bits`, once the threshold separates the levels. -/
theorem readout_transmitted (hw : cfg.thresholdMinWeight + cfg.thresholdNewWeight = 1)
    (hs : cfg.thresholdSmoothOld + cfg.thresholdSmoothNew = 1) {low high : ℚ} {bits : List Bool}
    {tail : List ℚ} {sampleTick bitTick : UInt32} {calls : List Call}
    (hk : cfg.photodiodeBufferSize ≤ bits.length) (htail : tail.length < cfg.samplesPerBit)
    (hv : acceptedVoltages cfg sampleTick calls = transmitted cfg low high bits tail)
    (hlow : low ≤ (windowFilter cfg (bits.map (level low high))).threshold)
    (hhigh : (windowFilter cfg (bits.map (level low high))).threshold < high) :
    ∃ s outs, runE Photodiode.call (Photodiode.ready cfg sampleTick bitTick) calls = .ok (s, outs) ∧
      ∃ word s', s.convertToBits = .ok (word, s') ∧ word.toNat =
        msbValue (bits.drop (bits.length - cfg.photodiodeBufferSize)) % 2 ^ 16 := by
  obtain ⟨s, outs, hrun, hr, _⟩ := run_records sampleTick bitTick calls
  rw [hv] at hr
  have hcount : windowCount cfg (transmitted cfg low high bits tail) = bits.length :=
    transmitted_windowCount htail
  refine ⟨s, outs, hrun, _, _, convertToBits_full hr (by rw [hcount]; exact hk), ?_⟩
  rw [wordOf_toNat, hr.dynamicThreshold, hcount, transmitted_threshold hw hs,
    lastBits_transmitted hk hlow hhigh]

theorem mem_levels {low high : ℚ} {bits : List Bool} {y : ℚ}
    (hy : y ∈ bits.map (level low high)) : y = low ∨ y = high := by
  obtain ⟨b, _, rfl⟩ := List.mem_map.mp hy
  cases b with
  | true => exact Or.inr rfl
  | false => exact Or.inl rfl

/-- Levels on the two sides of mid-scale are told apart from the first full ring on,
whatever the bits: the threshold never leaves the interval between them. -/
theorem decoding_undoes_transmission (cfg : ProtocolConfig)
    (hmin : 0 < cfg.thresholdMinWeight) (hmin₁ : cfg.thresholdMinWeight < 1)
    (hw : cfg.thresholdMinWeight + cfg.thresholdNewWeight = 1)
    (hold : 0 ≤ cfg.thresholdSmoothOld) (hnew : 0 ≤ cfg.thresholdSmoothNew)
    (hs : cfg.thresholdSmoothOld + cfg.thresholdSmoothNew = 1)
    (low high : ℚ) (hlow : low ≤ 165 / 100) (hhigh : 165 / 100 < high)
    (sampleTick bitTick : UInt32) (calls : List Call) (bits : List Bool) (tail : List ℚ)
    (hk : cfg.photodiodeBufferSize ≤ bits.length) (htail : tail.length < cfg.samplesPerBit)
    (hv : acceptedVoltages cfg sampleTick calls = transmitted cfg low high bits tail) :
    ∃ s outs, runE Photodiode.call (Photodiode.ready cfg sampleTick bitTick) calls = .ok (s, outs) ∧
      ∃ word s', s.convertToBits = .ok (word, s') ∧ word.toNat =
        msbValue (bits.drop (bits.length - cfg.photodiodeBufferSize)) % 2 ^ 16 := by
  have hpow := pow_pos hmin cfg.samplesPerBit
  have hpow₁ := pow_le_one₀ (n := cfg.samplesPerBit) hmin.le hmin₁.le
  have hold₁ : cfg.thresholdSmoothOld ≤ 1 := by linarith
  refine readout_transmitted hw hs hk htail hv ?_ ?_
  · refine (Cascade.le_run hpow hpow₁ hold hold₁ hlow hlow fun y hy => ?_).2
    rcases mem_levels hy with rfl | rfl
    · exact le_rfl
    · exact hlow.trans hhigh.le
  · refine (Cascade.run_lt hpow hpow₁ hold hold₁ hhigh hhigh fun y hy => ?_).2
    rcases mem_levels hy with rfl | rfl
    · exact hlow.trans hhigh.le
    · exact le_rfl

/-- Full scale and zero, sent as 101 with a read-out in between. -/
theorem decoding_undoes_transmission_101 :
    ∃ s outs, runE Photodiode.call (Photodiode.ready twoWindows 0 0)
        [.update 1 4095, .update 2 0, .convertToBits, .update 3 4095] = .ok (s, outs) ∧
      ∃ word s', s.convertToBits = .ok (word, s') ∧
        word.toNat = msbValue ([true, false, true].drop 1) % 2 ^ 16 :=
  decoding_undoes_transmission twoWindows (by norm_num [twoWindows]) (by norm_num [twoWindows])
    (by norm_num [twoWindows]) (by norm_num [twoWindows]) (by norm_num [twoWindows])
    (by norm_num [twoWindows]) 0 (33 / 10) (by norm_num) (by norm_num) 0 0 _
    [true, false, true] [] (by decide) (by decide) (by decide +kernel)

/-- Any two levels are told apart after a number of windows that depends on the levels and
the configuration only, as soon as both occur among the last `N` bits. -/
theorem threshold_adapts (cfg : ProtocolConfig)
    (hmin : 0 < cfg.thresholdMinWeight) (hmin₁ : cfg.thresholdMinWeight < 1)
    (hw : cfg.thresholdMinWeight + cfg.thresholdNewWeight = 1)
    (hold : 0 < cfg.thresholdSmoothOld) (hold₁ : cfg.thresholdSmoothOld < 1)
    (hs : cfg.thresholdSmoothOld + cfg.thresholdSmoothNew = 1)
    (low high : ℚ) (hlh : low < high) :
    ∃ K, ∀ (sampleTick bitTick : UInt32) (calls : List Call) (bits : List Bool) (tail : List ℚ),
      K ≤ bits.length →
      false ∈ bits.drop (bits.length - cfg.photodiodeBufferSize) →
      true ∈ bits.drop (bits.length - cfg.photodiodeBufferSize) →
      tail.length < cfg.samplesPerBit →
      acceptedVoltages cfg sampleTick calls = transmitted cfg low high bits tail →
      ∃ s outs,
        runE Photodiode.call (Photodiode.ready cfg sampleTick bitTick) calls = .ok (s, outs) ∧
        ∃ word s', s.convertToBits = .ok (word, s') ∧ word.toNat =
          msbValue (bits.drop (bits.length - cfg.photodiodeBufferSize)) % 2 ^ 16 := by
  have hpow := pow_pos hmin cfg.samplesPerBit
  have hpow₁ := pow_lt_one₀ hmin.le hmin₁ cfg.samplesPerBit_pos.ne'
  obtain ⟨k₁, hdip⟩ := Cascade.dips_below hpow hpow₁ hold hold₁ initialFilter hlh
    cfg.photodiodeBufferSize
  obtain ⟨k₂, hrise⟩ := Cascade.rises_above hpow hpow₁ hold hold₁ initialFilter hlh
    cfg.photodiodeBufferSize
  refine ⟨cfg.photodiodeBufferSize + k₁ + k₂, ?_⟩
  intro sampleTick bitTick calls bits tail hK hzero hone htail hv
  have hlevels : ∀ b, b ∈ bits.drop (bits.length - cfg.photodiodeBufferSize) →
      level low high b ∈ (bits.map (level low high)).drop
        ((bits.map (level low high)).length - cfg.photodiodeBufferSize) := by
    intro b hb
    rw [List.length_map, ← List.map_drop]
    exact List.mem_map_of_mem hb
  refine readout_transmitted hw hs (by omega) htail hv (le_of_lt ?_) ?_
  · refine hrise _ (by rw [List.length_map]; omega) (fun y hy => ?_) (hlevels true hone)
    rcases mem_levels hy with rfl | rfl
    · exact le_rfl
    · exact hlh.le
  · refine hdip _ (by rw [List.length_map]; omega) (fun y hy => ?_) (hlevels false hzero)
    rcases mem_levels hy with rfl | rfl
    · exact hlh.le
    · exact le_rfl

/-- Two levels that both lie above mid-scale: after enough windows at the upper one, 01 is read
out as one. -/
theorem threshold_adapts_above_midscale :
    ∃ n calls, acceptedVoltages twoWindows 0 calls =
        transmitted twoWindows 2 3 (List.replicate n true ++ [false, true]) [] ∧
      ∃ s outs word s', runE Photodiode.call (Photodiode.ready twoWindows 0 0) calls =
          .ok (s, outs) ∧ s.convertToBits = .ok (word, s') ∧ word.toNat = 1 := by
  obtain ⟨K, hK⟩ := threshold_adapts twoWindows (by norm_num [twoWindows])
    (by norm_num [twoWindows]) (by norm_num [twoWindows]) (by norm_num [twoWindows])
    (by norm_num [twoWindows]) (by norm_num [twoWindows]) 2 3 (by norm_num)
  let bits := List.replicate K true ++ [false, true]
  have hlast : bits.drop (bits.length - twoWindows.photodiodeBufferSize) = [false, true] := by
    have htwo : bits.length - twoWindows.photodiodeBufferSize = (List.replicate K true).length := by
      simp [bits, twoWindows]
    rw [htwo, List.drop_left]
  obtain ⟨calls, hcalls⟩ := @stream_accepted twoWindows (by decide) 0
    (transmitted twoWindows 2 3 bits [])
  obtain ⟨s, outs, hrun, word, s', hconv, hword⟩ := hK 0 0 calls bits [] (by simp [bits])
    (by rw [hlast]; decide) (by rw [hlast]; decide) (by decide) hcalls
  refine ⟨K, calls, hcalls, s, outs, word, s', hrun, hconv, ?_⟩
  rw [hword, hlast]
  rfl

end PhotodiodeDecoding
