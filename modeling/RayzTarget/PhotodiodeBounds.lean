import RayzTarget.PhotodiodeDecoding

/-! # What holds of the photodiode in every reachable state

Ring indices, the threshold and the envelope, each a function of the accepted voltages,
over every sequence of calls after a successful `begin`. -/
namespace PhotodiodeBounds

open TargetConfig CheckedBuffer PhotodiodeModel PhotodiodeHistory PhotodiodeDecoding EventRuns
open SampleBlocks TwoStageFilter

variable {cfg : ProtocolConfig}

structure RingIndices (s : Photodiode cfg) : Prop where
  sampleIndex_lt : s.sampleIndex < cfg.samplesPerBit
  bitHead_lt : s.bitHead < cfg.photodiodeBufferSize
  bitCount_le : s.bitCount ≤ cfg.photodiodeBufferSize
  full_iff : s.bufferFull = true ↔ s.bitCount = cfg.photodiodeBufferSize
  filling : s.bufferFull = false → s.bitHead = s.bitCount

theorem ringIndices_of_records {v : List ℚ} {s : Photodiode cfg} (h : Records v s) :
    RingIndices s := by
  constructor
  · rw [h.sampleIndex]
    exact Nat.mod_lt _ cfg.samplesPerBit_pos
  · rw [h.bitHead]
    exact Nat.mod_lt _ cfg.photodiodeBufferSize_pos
  · rw [h.bitCount]
    exact min_le_right _ _
  · rw [h.bufferFull, h.bitCount, decide_eq_true_eq, min_eq_right_iff]
  · intro hf
    rw [h.bufferFull, decide_eq_false_iff_not, Nat.not_le] at hf
    rw [h.bitHead, h.bitCount, Nat.mod_eq_of_lt hf, min_eq_left hf.le]

/-- Neither operation leaves its arrays, whatever the clock and the converter answer. -/
theorem accesses_in_bounds {v : List ℚ} {s : Photodiode cfg} (h : Records v s) :
    (∀ tickCount adc, s.update tickCount adc ≠ .error .outOfBounds) ∧
      s.convertToBits ≠ .error .outOfBounds := by
  constructor
  · intro tickCount adc
    cases adc with
    | none =>
      cases hg : tooSoon cfg (pdTicksToMs tickCount) s.lastSampleTime with
      | true => simp [update_early hg]
      | false => simp [update_due hg, adcRead_set h.adc]
    | some rawValue =>
      obtain ⟨s', hs, _⟩ := update_records (i := ⟨s.lastSampleTime, v⟩) h rfl tickCount rawValue
      simp [hs]
  · obtain ⟨s', o, hs, _⟩ := call_records (i := ⟨s.lastSampleTime, v⟩) h rfl .convertToBits
    intro he
    simp [Photodiode.call, he, bind, Except.bind] at hs

theorem voltages_grow (i : Intake) (c : Call) :
    i.voltages <+: (i.call cfg c).voltages := by
  cases c with
  | convertToBits => exact List.prefix_rfl
  | update tickCount rawValue =>
    rw [Intake.call, Intake.update]
    split
    · exact List.prefix_rfl
    · exact List.prefix_append _ _

/-- From a recorded state on, calls only add to the recorded voltages. -/
theorem continued_records {v : List ℚ} {s : Photodiode cfg} (h : Records v s)
    (later : List Call) : ∃ s' outs, runE Photodiode.call s later = .ok (s', outs) ∧
      ∃ v', v <+: v' ∧ Records v' s' := by
  obtain ⟨s', outs, hrun, i, hv, hr, _⟩ := runE_rule Photodiode.call
    (fun s' (_ : List Call) (_ : List (Option UInt16)) => ∃ i : Intake, v <+: i.voltages ∧
      Records i.voltages s' ∧ s'.lastSampleTime = i.lastSampleTime)
    ⟨⟨s.lastSampleTime, v⟩, List.prefix_rfl, h, rfl⟩ (by
      rintro s' _ _ c ⟨i, hv, hr, ht⟩
      obtain ⟨s'', o, hs, hr', ht'⟩ := call_records hr ht c
      exact ⟨s'', o, hs, i.call cfg c, hv.trans (voltages_grow i c), hr', ht'⟩) later
  exact ⟨s', outs, hrun, i.voltages, hv, hr⟩

/-- Head, count, flag and sample index agree in every reachable state, full stays full, and
neither operation ever leaves an array. -/
theorem ring_indices_in_every_state (samples : Fin cfg.samplesPerBit → ℚ)
    (bits : Fin cfg.photodiodeBufferSize → ℚ) (sampleTick bitTick : UInt32) (calls : List Call) :
    ∃ s₀ s outs,
      (Photodiode.construct samples bits).begin ⟨true, some (), some (), sampleTick, bitTick⟩ =
        .ok s₀ ∧
      runE Photodiode.call s₀ calls = .ok (s, outs) ∧
      RingIndices s ∧
      (s.bufferFull = true → ∀ later, ∃ s' outs',
        runE Photodiode.call s later = .ok (s', outs') ∧ s'.bufferFull = true) ∧
      (∀ tickCount adc, s.update tickCount adc ≠ .error .outOfBounds) ∧
      s.convertToBits ≠ .error .outOfBounds := by
  obtain ⟨s, outs, hrun, hr, _⟩ := run_records sampleTick bitTick calls
  refine ⟨Photodiode.ready cfg sampleTick bitTick, s, outs,
    begin_construct_eq ⟨true, some (), some (), sampleTick, bitTick⟩ rfl rfl rfl samples bits,
    hrun, ringIndices_of_records hr, ?_, accesses_in_bounds hr⟩
  intro hf later
  obtain ⟨s', outs', hlater, v', ⟨w, rfl⟩, hr'⟩ := continued_records hr later
  rw [hr.bufferFull, decide_eq_true_eq] at hf
  refine ⟨s', outs', hlater, ?_⟩
  rw [hr'.bufferFull, decide_eq_true_eq]
  exact hf.trans (blockCount_mono _ w)

/-- A convex set with the start and all samples in it holds the threshold too. -/
theorem thresholdAfter_mem {C : Set ℚ} (hC : Convex ℚ C) (hmin : 0 ≤ cfg.thresholdMinWeight)
    (hnew : 0 ≤ cfg.thresholdNewWeight)
    (hone : cfg.thresholdMinWeight + cfg.thresholdNewWeight = 1)
    (hold : 0 ≤ cfg.thresholdSmoothOld) (hsmooth : 0 ≤ cfg.thresholdSmoothNew)
    (hsum : cfg.thresholdSmoothOld + cfg.thresholdSmoothNew = 1) (h₀ : 165 / 100 ∈ C)
    {v : List ℚ} (hv : ∀ x ∈ v, x ∈ C) (k : ℕ) : thresholdAfter cfg v k ∈ C := by
  induction k with
  | zero => exact h₀
  | succ k ih =>
    have hmid : midpointAfter cfg (v.take ((k + 1) * cfg.samplesPerBit)) ∈ C := by
      rw [midpointAfter_eq]
      exact foldl_smooth_mem hC hmin hnew hone h₀ fun x hx => hv x (List.mem_of_mem_take hx)
    exact smooth_mem hC hold hsmooth hsum ih hmid

theorem intake_voltages_forall {P : ℚ → Prop} (beginTick : UInt32) {calls : List Call}
    (h : ∀ tickCount rawValue, Call.update tickCount rawValue ∈ calls → P (adcVoltage rawValue)) :
    ∀ x ∈ acceptedVoltages cfg beginTick calls, P x := by
  induction calls using List.reverseRecOn with
  | nil => exact fun x hx => nomatch hx
  | append_singleton calls c ih =>
    have hcalls := ih fun tickCount rawValue hc =>
      h tickCount rawValue (List.mem_append_left _ hc)
    rw [acceptedVoltages, intake, run_snoc]
    cases c with
    | convertToBits => exact hcalls
    | update tickCount rawValue =>
      rw [Intake.call, Intake.update]
      split
      · exact hcalls
      · intro x hx
        rcases List.mem_append.mp hx with hx | hx
        · exact hcalls x hx
        · rw [List.mem_singleton.mp hx]
          exact h tickCount rawValue (List.mem_append_right _ List.mem_cons_self)

theorem adcVoltage_mem {rawValue : ℚ} (h₀ : 0 ≤ rawValue) (h₁ : rawValue ≤ 4095) :
    adcVoltage rawValue ∈ Set.Icc 0 (33 / 10 : ℚ) := by
  simp only [adcVoltage, adcVref, adcResolution]
  constructor <;> linarith

theorem foldr_min_le {α : Type*} [LinearOrder α] (b : α) (v : List α) :
    v.foldr min b ≤ b ∧ ∀ x ∈ v, v.foldr min b ≤ x := by
  induction v with
  | nil => simp
  | cons y v ih =>
    rw [List.foldr_cons]
    refine ⟨(min_le_right _ _).trans ih.1, ?_⟩
    intro x hx
    rcases List.mem_cons.mp hx with rfl | hx
    · exact min_le_left _ _
    · exact (min_le_right _ _).trans (ih.2 x hx)

theorem le_foldr_max {α : Type*} [LinearOrder α] (b : α) (v : List α) :
    b ≤ v.foldr max b ∧ ∀ x ∈ v, x ≤ v.foldr max b :=
  foldr_min_le (α := αᵒᵈ) b v

/-- The envelope may lie outside its samples; its midpoint and hence the threshold never do. -/
theorem dynamicThreshold_between_samples (hmin : 0 ≤ cfg.thresholdMinWeight)
    (hnew : 0 ≤ cfg.thresholdNewWeight)
    (hone : cfg.thresholdMinWeight + cfg.thresholdNewWeight = 1)
    (hold : 0 ≤ cfg.thresholdSmoothOld) (hsmooth : 0 ≤ cfg.thresholdSmoothNew)
    (hsum : cfg.thresholdSmoothOld + cfg.thresholdSmoothNew = 1) (sampleTick bitTick : UInt32)
    (calls : List Call) (hadc : ∀ tickCount rawValue, Call.update tickCount rawValue ∈ calls →
      0 ≤ rawValue ∧ rawValue ≤ 4095) :
    ∃ s outs, runE Photodiode.call (Photodiode.ready cfg sampleTick bitTick) calls = .ok (s, outs) ∧
      (acceptedVoltages cfg sampleTick calls).foldr min (165 / 100) ≤ s.getDynamicThreshold ∧
      s.getDynamicThreshold ≤ (acceptedVoltages cfg sampleTick calls).foldr max (165 / 100) ∧
      0 ≤ s.getDynamicThreshold ∧ s.getDynamicThreshold ≤ 33 / 10 := by
  obtain ⟨s, outs, hrun, hr, _⟩ := @run_records cfg sampleTick bitTick calls
  let v := acceptedVoltages cfg sampleTick calls
  have hlow := foldr_min_le (165 / 100 : ℚ) v
  have hhigh := le_foldr_max (165 / 100 : ℚ) v
  have hbetween : s.dynamicThreshold ∈
      Set.Icc (v.foldr min (165 / 100)) (v.foldr max (165 / 100)) := by
    rw [hr.dynamicThreshold]
    exact thresholdAfter_mem (convex_Icc _ _) hmin hnew hone hold hsmooth hsum
      ⟨hlow.1, hhigh.1⟩ (fun x hx => ⟨hlow.2 x hx, hhigh.2 x hx⟩) _
  have hscale : s.dynamicThreshold ∈ Set.Icc 0 (33 / 10) := by
    rw [hr.dynamicThreshold]
    refine thresholdAfter_mem (convex_Icc _ _) hmin hnew hone hold hsmooth hsum
      (by norm_num) ?_ _
    exact intake_voltages_forall sampleTick fun tickCount rawValue hc =>
      adcVoltage_mem (hadc tickCount rawValue hc).1 (hadc tickCount rawValue hc).2
  exact ⟨s, outs, hrun, hbetween.1, hbetween.2, hscale.1, hscale.2⟩

/-- Three windows at two levels, one on each side of mid-scale. -/
theorem dynamicThreshold_between_samples_two_levels :
    let calls : List Call := [.update 1 2730, .update 2 1365, .convertToBits, .update 3 2730]
    acceptedVoltages twoWindows 0 calls = [22 / 10, 11 / 10, 22 / 10] ∧
    ∃ s outs, runE Photodiode.call (Photodiode.ready twoWindows 0 0) calls = .ok (s, outs) ∧
      [22 / 10, 11 / 10, 22 / 10].foldr min (165 / 100) ≤ s.getDynamicThreshold ∧
      s.getDynamicThreshold ≤ [22 / 10, 11 / 10, 22 / 10].foldr max (165 / 100) ∧
      0 ≤ s.getDynamicThreshold ∧ s.getDynamicThreshold ≤ 33 / 10 := by
  intro calls
  have hadc : ∀ tickCount rawValue, Call.update tickCount rawValue ∈ calls →
      0 ≤ rawValue ∧ rawValue ≤ 4095 := by
    intro tickCount rawValue hc
    simp only [calls, List.mem_cons, Call.update.injEq, reduceCtorEq, false_or, List.not_mem_nil,
      or_false] at hc
    rcases hc with ⟨-, rfl⟩ | ⟨-, rfl⟩ | ⟨-, rfl⟩ <;> norm_num
  have hv : acceptedVoltages twoWindows 0 calls = [22 / 10, 11 / 10, 22 / 10] := by decide +kernel
  have hthreshold := @dynamicThreshold_between_samples twoWindows
    (by norm_num [twoWindows]) (by norm_num [twoWindows]) (by norm_num [twoWindows])
    (by norm_num [twoWindows]) (by norm_num [twoWindows]) (by norm_num [twoWindows]) 0 0 calls hadc
  rw [hv] at hthreshold
  exact ⟨hv, hthreshold⟩

/-- The two trackers differ by what is left of their inverted start: the samples cancel out. -/
theorem signalStrength_of_records {v : List ℚ} {s : Photodiode cfg} (h : Records v s) :
    s.getSignalStrength = -(33 / 10 * cfg.thresholdMinWeight ^ v.length) := by
  rw [Photodiode.getSignalStrength, h.runningMax, h.runningMin, runningAfter, runningAfter,
    foldl_smooth_sub]
  ring

/-- No number of accepted samples ever brings the envelope the right way round. -/
theorem signalStrength_negative (hw : 0 < cfg.thresholdMinWeight) (sampleTick bitTick : UInt32)
    (calls : List Call) :
    ∃ s outs, runE Photodiode.call (Photodiode.ready cfg sampleTick bitTick) calls = .ok (s, outs) ∧
      ¬s.runningMin ≤ s.runningMax ∧ ¬0 ≤ s.getSignalStrength := by
  obtain ⟨s, outs, hrun, hr, _⟩ := @run_records cfg sampleTick bitTick calls
  have hpow := pow_pos hw (acceptedVoltages cfg sampleTick calls).length
  have hneg : s.getSignalStrength < 0 := by
    rw [signalStrength_of_records hr]
    linarith
  refine ⟨s, outs, hrun, ?_, not_le.mpr hneg⟩
  rw [Photodiode.getSignalStrength] at hneg
  linarith

theorem signalStrength_negative_full_scale :
    ∃ s outs, runE Photodiode.call (Photodiode.ready twoWindows 0 0) [.update 1 4095] =
      .ok (s, outs) ∧ ¬s.runningMin ≤ s.runningMax ∧ ¬0 ≤ s.getSignalStrength :=
  signalStrength_negative (by norm_num [twoWindows]) 0 0 _

/-- One full-scale sample already leaves the amplitude at -2.97 V. -/
theorem full_scale_signalStrength :
    twoWindows.thresholdMinWeight + twoWindows.thresholdNewWeight = 1 ∧
    (acceptedVoltages twoWindows 0 [.update 1 4095]).length = 1 ∧
    ∃ s outs, runE Photodiode.call (Photodiode.ready twoWindows 0 0) [.update 1 4095] =
      .ok (s, outs) ∧ s.getSignalStrength = -297 / 100 ∧ ¬s.runningMin ≤ s.runningMax := by
  obtain ⟨s, outs, hrun, hr, _⟩ := @run_records twoWindows 0 0 [.update 1 4095]
  have hone : (acceptedVoltages twoWindows 0 [.update 1 4095]).length = 1 := by decide
  have hstrength : s.getSignalStrength = -297 / 100 := by
    rw [signalStrength_of_records hr, hone]
    norm_num [twoWindows]
  refine ⟨by norm_num [twoWindows], hone, s, outs, hrun, hstrength, ?_⟩
  rw [Photodiode.getSignalStrength] at hstrength
  linarith

end PhotodiodeBounds
