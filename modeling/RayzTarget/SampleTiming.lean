import RayzTarget.PhotodiodeTask
import RayzTarget.WrappedClock

/-! # Sampling against real time

`photodiode_task` woken at times of an unbounded millisecond clock, which the tick counter
shows modulo its period. Full rings offer words one window length apart at least; whether a
late wake costs a sample is decided by the wake after it. -/
namespace SampleTiming

open TargetConfig PhotodiodeModel PhotodiodeHistory PhotodiodeTask SampleBlocks EventRuns
open WrappedClock

variable {cfg : ProtocolConfig}

structure Wake where
  time : ℕ
  rawValue : ℚ

def Wake.reading (w : Wake) : Reading := ⟨UInt32.ofNat w.time, w.rawValue⟩

def Wake.intake (cfg : ProtocolConfig) (i : Intake) (w : Wake) : Intake :=
  i.update cfg w.reading.tickCount w.rawValue

theorem Wake.intake_of_closed {i : Intake} {w : Wake}
    (h : tooSoon cfg (UInt32.ofNat w.time) i.lastSampleTime = true) : w.intake cfg i = i := by
  simp only [Wake.intake, Intake.update, Wake.reading, pdTicksToMs_eq, h, if_true]

theorem Wake.intake_of_open {i : Intake} {w : Wake}
    (h : tooSoon cfg (UInt32.ofNat w.time) i.lastSampleTime = false) :
    w.intake cfg i = ⟨UInt32.ofNat w.time, i.voltages ++ [adcVoltage w.rawValue]⟩ := by
  simp only [Wake.intake, Intake.update, Wake.reading, pdTicksToMs_eq, h, Bool.false_eq_true,
    if_false]

/-- One iteration, with the time at which a full buffer has offered its word. -/
def timedOffer (t : Task cfg) (w : Wake) : Except Fault (Task cfg × Option ℕ) := do
  let (t', word) ← t.iterate w.reading
  return (t', if t'.photodiode.isBufferFull then word.map fun _ => w.time else none)

def offerTime (cfg : ProtocolConfig) (i : Intake) (w : Wake) : Option ℕ :=
  if cfg.photodiodeBufferSize ≤ windowCount cfg (w.intake cfg i).voltages ∧
    windowCount cfg i.voltages < windowCount cfg (w.intake cfg i).voltages
  then some w.time else none

theorem timedOffer_records {i : Intake} {t : Task cfg} (h : TaskRecords i t) (w : Wake) :
    ∃ t', timedOffer t w = .ok (t', offerTime cfg i w) ∧ TaskRecords (w.intake cfg i) t' := by
  obtain ⟨t', ht, hr, _⟩ := iterate_records h w.reading
  refine ⟨t', ?_, hr⟩
  have hfull := hr.records.bufferFull
  change t'.photodiode.bufferFull = decide (_ ≤ windowCount cfg (w.intake cfg i).voltages) at hfull
  change t.iterate w.reading = .ok (t', offered cfg _ (w.intake cfg i).voltages) at ht
  simp only [timedOffer, ht, bind, Except.bind, pure, Except.pure, Photodiode.isBufferFull,
    hfull, decide_eq_true_eq, offered, offerTime]
  by_cases h₁ : cfg.photodiodeBufferSize ≤ windowCount cfg (w.intake cfg i).voltages
  · by_cases h₂ : windowCount cfg i.voltages < windowCount cfg (w.intake cfg i).voltages
    · simp only [h₁, h₂, and_self, if_true, Option.map_some]
    · rw [if_pos h₁, if_pos h₁, if_neg h₂, if_neg fun h => h₂ h.2, Option.map_none]
  · rw [if_neg h₁, if_neg fun h => h₁ h.1]

/-- The offers so far are spaced, and the samples of the unfinished window already stand
between the last of them and the last sample. -/
structure Paced (cfg : ProtocolConfig) (i : Intake) (times offers : List ℕ) : Prop where
  spaced : Spaced (cfg.samplesPerBit * cfg.sampleIntervalMs) offers
  since : ∀ p ∈ offers, ∃ τ ∈ times, i.lastSampleTime = UInt32.ofNat τ ∧
    p + i.voltages.length % cfg.samplesPerBit * cfg.sampleIntervalMs ≤ τ

/-- The wrapped gate lets a sample through only a full interval of real time after the last. -/
theorem interval_of_accepted {τ t : ℕ} (hle : τ ≤ t)
    (h : tooSoon cfg (UInt32.ofNat t) (UInt32.ofNat τ) = false) :
    τ + cfg.sampleIntervalMs ≤ t := by
  rw [tooSoon, decide_eq_false_iff_not, Nat.not_lt] at h
  have := h.trans (elapsed_le hle)
  omega

theorem paced_closed {i : Intake} {times offers : List ℕ} (h : Paced cfg i times offers)
    {w : Wake} (hg : tooSoon cfg (UInt32.ofNat w.time) i.lastSampleTime = true) :
    Paced cfg (w.intake cfg i) (times ++ [w.time]) (offers ++ (offerTime cfg i w).toList) := by
  have hi : w.intake cfg i = i := Wake.intake_of_closed hg
  have hnone : offerTime cfg i w = none := by
    rw [offerTime, hi, if_neg fun h => lt_irrefl _ h.2]
  rw [hi, hnone, Option.toList_none, List.append_nil]
  refine ⟨h.spaced, fun p hp => ?_⟩
  obtain ⟨τ, hτ, hlt, hle⟩ := h.since p hp
  exact ⟨τ, List.mem_append_left _ hτ, hlt, hle⟩

/-- An accepted sample adds its interval to those since every earlier offer. -/
theorem gap_of_open {i : Intake} {times offers : List ℕ} (h : Paced cfg i times offers) {w : Wake}
    (hlast : ∀ τ ∈ times, τ ≤ w.time)
    (hg : tooSoon cfg (UInt32.ofNat w.time) i.lastSampleTime = false) :
    ∀ p ∈ offers,
      p + (i.voltages.length % cfg.samplesPerBit + 1) * cfg.sampleIntervalMs ≤ w.time := by
  intro p hp
  obtain ⟨τ, hτ, hlt, hle⟩ := h.since p hp
  rw [hlt] at hg
  have := interval_of_accepted (hlast τ hτ) hg
  rw [Nat.add_mul, Nat.one_mul]
  omega

theorem paced_open {i : Intake} {times offers : List ℕ} (h : Paced cfg i times offers) {w : Wake}
    (hlast : ∀ τ ∈ times, τ ≤ w.time)
    (hg : tooSoon cfg (UInt32.ofNat w.time) i.lastSampleTime = false) :
    Paced cfg (w.intake cfg i) (times ++ [w.time]) (offers ++ (offerTime cfg i w).toList) := by
  have hi := Wake.intake_of_open hg
  have hgap := gap_of_open h hlast hg
  have hnow : w.time ∈ times ++ [w.time] := List.mem_append_right _ List.mem_cons_self
  have hlt := Nat.mod_lt i.voltages.length cfg.samplesPerBit_pos
  rcases Nat.lt_or_eq_of_le (Nat.succ_le_of_lt hlt) with hw | hb
  · -- the window stays open: nothing is offered
    have hcount := blockCount_snoc_within (adcVoltage w.rawValue) hw
    have hnone : offerTime cfg i w = none := by
      rw [offerTime, hi, if_neg fun h => lt_irrefl _ (h.2.trans_eq hcount)]
    rw [hi, hnone, Option.toList_none, List.append_nil]
    refine ⟨h.spaced, fun p hp => ⟨w.time, hnow, rfl, ?_⟩⟩
    rw [length_mod_within _ hw]
    exact hgap p hp
  · -- the window is complete: all its intervals lie behind every earlier offer
    rw [Nat.succ_eq_add_one] at hb
    rw [hb] at hgap
    have hzero := length_mod_boundary (adcVoltage w.rawValue) hb
    have hsince : ∀ p ≤ w.time, ∃ τ ∈ times ++ [w.time], UInt32.ofNat w.time = UInt32.ofNat τ ∧
        p + (i.voltages ++ [adcVoltage w.rawValue]).length % cfg.samplesPerBit *
          cfg.sampleIntervalMs ≤ τ := by
      intro p hp
      refine ⟨w.time, hnow, rfl, ?_⟩
      rw [hzero, Nat.zero_mul]
      exact hp
    rw [offerTime, hi]
    split
    · refine ⟨h.spaced.snoc hgap, fun p hp => hsince p ?_⟩
      rcases List.mem_append.mp hp with hp | hp
      · exact (Nat.le_add_right _ _).trans (hgap p hp)
      · exact (List.mem_singleton.mp hp).le
    · rw [Option.toList_none, List.append_nil]
      exact ⟨h.spaced, fun p hp => hsince p ((Nat.le_add_right _ _).trans (hgap p hp))⟩

theorem paced_wake {i : Intake} {times offers : List ℕ} (h : Paced cfg i times offers) (w : Wake)
    (hlast : ∀ τ ∈ times, τ ≤ w.time) :
    Paced cfg (w.intake cfg i) (times ++ [w.time]) (offers ++ (offerTime cfg i w).toList) := by
  cases hg : tooSoon cfg (UInt32.ofNat w.time) i.lastSampleTime with
  | false => exact paced_open h hlast hg
  | true => exact paced_closed h hg

/-- Full buffers offer words one window length of real time apart, however the loop is woken. -/
theorem offers_spaced (hI : 1 ≤ cfg.sampleIntervalMs) (sampleTick bitTick startTick : UInt32)
    (ws : List Wake) (hclock : (ws.map Wake.time).Pairwise (· ≤ ·)) :
    ∃ t outs, runE timedOffer (Task.boot cfg sampleTick bitTick startTick) ws = .ok (t, outs) ∧
      outs.reduceOption.Pairwise
        (fun p q => p + cfg.samplesPerBit * cfg.sampleIntervalMs ≤ q) ∧
      ∀ x T, (outs.reduceOption.filter fun p => x ≤ p ∧ p ≤ x + T).length ≤
        T / (cfg.samplesPerBit * cfg.sampleIntervalMs) + 1 := by
  obtain ⟨t, outs, hrun, i, _, hpaced⟩ := runE_rule timedOffer (fun (t : Task cfg) ws outs =>
      ∃ i, TaskRecords i t ∧ ((ws.map Wake.time).Pairwise (· ≤ ·) →
        Paced cfg i (ws.map Wake.time) outs.reduceOption))
    ⟨_, boot_records sampleTick bitTick startTick,
      fun _ => ⟨spaced_nil, fun p hp => nomatch hp⟩⟩ (by
      rintro t ws outs w ⟨i, ht, hpaced⟩
      obtain ⟨t', hs, ht'⟩ := timedOffer_records ht w
      refine ⟨t', _, hs, w.intake cfg i, ht', fun hclock => ?_⟩
      rw [List.map_append, List.map_singleton] at hclock ⊢
      obtain ⟨hbefore, _, hlast⟩ := List.pairwise_append.mp hclock
      rw [List.reduceOption_append, List.reduceOption_singleton]
      exact paced_wake (hpaced hbefore) w fun τ hτ => hlast τ hτ w.time List.mem_cons_self) ws
  have hspaced := (hpaced hclock).spaced
  exact ⟨t, outs, hrun, hspaced, hspaced.count_le (Nat.mul_pos cfg.samplesPerBit_pos hI)⟩

/-- Four wakes of a ring of two: the words of the second, third and fourth window. -/
theorem offers_spaced_four_wakes : ∃ t outs,
    runE timedOffer (Task.boot twoWindows 0 0 0) [⟨1, 0⟩, ⟨2, 0⟩, ⟨4, 0⟩, ⟨7, 0⟩] =
      .ok (t, outs) ∧
    outs.reduceOption.Pairwise
      (fun p q => p + twoWindows.samplesPerBit * twoWindows.sampleIntervalMs ≤ q) ∧
    ∀ x T, (outs.reduceOption.filter fun p => x ≤ p ∧ p ≤ x + T).length ≤
      T / (twoWindows.samplesPerBit * twoWindows.sampleIntervalMs) + 1 :=
  offers_spaced (by decide) 0 0 0 _ (by decide)

def timedSample (t : Task cfg) (w : Wake) : Except Fault (Task cfg × Option ℚ) := do
  let accepted := if tooSoon cfg (pdTicksToMs w.reading.tickCount) t.photodiode.lastSampleTime
    then none else some (adcVoltage w.rawValue)
  let (t', _) ← t.iterate w.reading
  return (t', accepted)

def sampleOf (cfg : ProtocolConfig) (i : Intake) (w : Wake) : Option ℚ :=
  if tooSoon cfg (pdTicksToMs w.reading.tickCount) i.lastSampleTime then none
  else some (adcVoltage w.rawValue)

theorem timedSample_records {i : Intake} {t : Task cfg} (h : TaskRecords i t) (w : Wake) :
    ∃ t', timedSample t w = .ok (t', sampleOf cfg i w) ∧ TaskRecords (w.intake cfg i) t' ∧
      t'.lastWake = t.lastWake + samplePeriodTicks cfg := by
  obtain ⟨t', ht, hr, hwake⟩ := iterate_records h w.reading
  refine ⟨t', ?_, hr, hwake⟩
  simp only [timedSample, ht, h.lastSampleTime, bind, Except.bind, pure, Except.pure, sampleOf]

theorem intake_sampleOf (i : Intake) (w : Wake) :
    (w.intake cfg i).voltages = i.voltages ++ (sampleOf cfg i w).toList := by
  unfold Wake.intake Intake.update sampleOf
  split
  · rw [Option.toList_none, List.append_nil]
  · rfl

def intakeAfter (cfg : ProtocolConfig) (beginTick : UInt32) (ws : List Wake) : Intake :=
  run (fun i w => w.intake cfg i) ⟨pdTicksToMs beginTick, []⟩ ws

def samplesOf (cfg : ProtocolConfig) (beginTick : UInt32) (ws : List Wake) : List (Option ℚ) :=
  observe (fun i w => w.intake cfg i) (fun i w => [sampleOf cfg i w]) ⟨pdTicksToMs beginTick, []⟩ ws

theorem samplesOf_reduceOption (beginTick : UInt32) (ws : List Wake) :
    (samplesOf cfg beginTick ws).reduceOption = (intakeAfter cfg beginTick ws).voltages := by
  induction ws using List.reverseRecOn with
  | nil => rfl
  | append_singleton ws w ih =>
    unfold samplesOf intakeAfter at ih ⊢
    rw [observe_snoc, run_snoc, List.reduceOption_append, List.reduceOption_singleton,
      intake_sampleOf, ih]

theorem run_samples (sampleTick bitTick startTick : UInt32) (ws : List Wake) :
    ∃ t, runE timedSample (Task.boot cfg sampleTick bitTick startTick) ws =
        .ok (t, samplesOf cfg sampleTick ws) ∧
      TaskRecords (intakeAfter cfg sampleTick ws) t ∧
      t.lastWake = startTick + UInt32.ofNat (ws.length * cfg.sampleIntervalMs) := by
  obtain ⟨t, outs, hrun, ht, hwake, rfl⟩ := runE_rule timedSample (fun t ws outs =>
      TaskRecords (intakeAfter cfg sampleTick ws) t ∧
      t.lastWake = startTick + UInt32.ofNat (ws.length * cfg.sampleIntervalMs) ∧
      outs = samplesOf cfg sampleTick ws)
    ⟨boot_records sampleTick bitTick startTick, by simp [Task.boot], rfl⟩ (by
      rintro t ws outs w ⟨ht, hwake, rfl⟩
      obtain ⟨t', hs, ht', hwake'⟩ := timedSample_records ht w
      refine ⟨t', _, hs, ?_, ?_, ?_⟩
      · rw [intakeAfter, run_snoc]
        exact ht'
      · rw [hwake', hwake, samplePeriodTicks, pdMsToTicks_eq, UInt32.add_assoc,
          ← UInt32.ofNat_add, List.length_append, List.length_singleton, Nat.add_mul, Nat.one_mul]
      · exact (observe_snoc _ _ _ ws w).symm) ws
  exact ⟨t, hrun, ht, hwake⟩

/-- Wakes on the grid `w₀ + i * P`, wake `i` late by `j i`. -/
def onGrid (cfg : ProtocolConfig) (w₀ : ℕ) (j : ℕ → ℕ) (raw : ℕ → ℚ) (n : ℕ) : List Wake :=
  (List.range n).map fun i => ⟨w₀ + i * cfg.sampleIntervalMs + j i, raw i⟩

/-- Lateness that grows keeps the gate open; lateness that shrinks closes it. -/
theorem tooSoon_grid {x a b : ℕ} (ha : a < cfg.sampleIntervalMs) (hb : b < cfg.sampleIntervalMs) :
    tooSoon cfg (UInt32.ofNat (x + cfg.sampleIntervalMs + b)) (UInt32.ofNat (x + a)) = false ↔
      a ≤ b ∧ cfg.sampleIntervalMs + b < 2 ^ 32 + a := by
  rw [tooSoon, decide_eq_false_iff_not, elapsed (by omega)]
  omega

section Grid

variable {sampleTick : UInt32} {w₀ : ℕ} {j : ℕ → ℕ} {raw : ℕ → ℚ}

theorem onGrid_succ (n : ℕ) : onGrid cfg w₀ j raw (n + 1) =
    onGrid cfg w₀ j raw n ++ [⟨w₀ + n * cfg.sampleIntervalMs + j n, raw n⟩] := by
  rw [onGrid, List.range_succ, List.map_append, List.map_singleton, onGrid]

theorem onGrid_intake_zero :
    intakeAfter cfg sampleTick (onGrid cfg w₀ j raw 0) = ⟨sampleTick, []⟩ := by
  simp [intakeAfter, onGrid]

theorem sampleOf_ne_none_iff (i : Intake) (w : Wake) : sampleOf cfg i w ≠ none ↔
    tooSoon cfg (UInt32.ofNat w.time) i.lastSampleTime = false := by
  simp only [sampleOf, Wake.reading, pdTicksToMs_eq]
  split <;> simp_all

theorem onGrid_accepts_succ (n : ℕ) :
    (∀ o ∈ samplesOf cfg sampleTick (onGrid cfg w₀ j raw (n + 1)), o ≠ none) ↔
      (∀ o ∈ samplesOf cfg sampleTick (onGrid cfg w₀ j raw n), o ≠ none) ∧
      tooSoon cfg (UInt32.ofNat (w₀ + n * cfg.sampleIntervalMs + j n))
        (intakeAfter cfg sampleTick (onGrid cfg w₀ j raw n)).lastSampleTime = false := by
  rw [onGrid_succ, samplesOf, observe_snoc, List.forall_mem_append, List.forall_mem_singleton,
    sampleOf_ne_none_iff]
  rfl

theorem onGrid_intake_succ {n : ℕ} {i : Intake}
    (hi : intakeAfter cfg sampleTick (onGrid cfg w₀ j raw n) = i)
    (h : tooSoon cfg (UInt32.ofNat (w₀ + n * cfg.sampleIntervalMs + j n)) i.lastSampleTime =
      false) : intakeAfter cfg sampleTick (onGrid cfg w₀ j raw (n + 1)) =
        ⟨UInt32.ofNat (w₀ + n * cfg.sampleIntervalMs + j n),
          i.voltages ++ [adcVoltage (raw n)]⟩ := by
  rw [onGrid_succ, intakeAfter, run_snoc]
  change Wake.intake cfg (intakeAfter cfg sampleTick (onGrid cfg w₀ j raw n)) _ = _
  rw [hi]
  exact Wake.intake_of_open h

/-- As long as every wake was accepted, the last sample is that of the last wake. -/
theorem onGrid_intake (hfirst : tooSoon cfg (UInt32.ofNat (w₀ + j 0)) sampleTick = false) (n : ℕ)
    (h : ∀ o ∈ samplesOf cfg sampleTick (onGrid cfg w₀ j raw (n + 1)), o ≠ none) :
    intakeAfter cfg sampleTick (onGrid cfg w₀ j raw (n + 1)) =
      ⟨UInt32.ofNat (w₀ + n * cfg.sampleIntervalMs + j n),
        (List.range (n + 1)).map fun i => adcVoltage (raw i)⟩ := by
  induction n with
  | zero =>
    rw [onGrid_intake_succ onGrid_intake_zero (by rwa [Nat.zero_mul, Nat.add_zero])]
    rfl
  | succ n ih =>
    obtain ⟨hbefore, hgate⟩ := (onGrid_accepts_succ (n + 1)).mp h
    have hi := ih hbefore
    rw [hi] at hgate
    rw [onGrid_intake_succ hi hgate, List.range_succ (n := n + 1), List.map_append,
      List.map_singleton]

/-- The gate and the grid agree exactly while the lateness never shrinks. -/
theorem onGrid_accepts_iff (hj : ∀ i, j i < cfg.sampleIntervalMs)
    (hfirst : tooSoon cfg (UInt32.ofNat (w₀ + j 0)) sampleTick = false) (n : ℕ) :
    (∀ o ∈ samplesOf cfg sampleTick (onGrid cfg w₀ j raw n), o ≠ none) ↔
      ∀ i, i + 1 < n → j i ≤ j (i + 1) ∧ cfg.sampleIntervalMs + j (i + 1) < 2 ^ 32 + j i := by
  induction n with
  | zero => simp [onGrid, samplesOf, observe]
  | succ n ih =>
    rw [onGrid_accepts_succ, ih]
    cases n with
    | zero =>
      rw [onGrid_intake_zero]
      constructor
      · intro _ i hi
        omega
      · intro _
        refine ⟨fun i hi => by omega, ?_⟩
        rw [Nat.zero_mul, Nat.add_zero]
        exact hfirst
    | succ n =>
      have hgrid : w₀ + (n + 1) * cfg.sampleIntervalMs + j (n + 1) =
          w₀ + n * cfg.sampleIntervalMs + cfg.sampleIntervalMs + j (n + 1) := by
        rw [Nat.add_mul, Nat.one_mul, ← Nat.add_assoc w₀]
      constructor
      · rintro ⟨hbefore, hgate⟩ i hi
        rcases Nat.lt_or_eq_of_le (Nat.le_of_lt_succ hi) with hlt | heq
        · exact hbefore i hlt
        · obtain rfl : i = n := by omega
          rw [onGrid_intake hfirst i (ih.mpr hbefore), hgrid] at hgate
          exact (tooSoon_grid (hj i) (hj (i + 1))).mp hgate
      · intro hall
        have hbefore : ∀ i, i + 1 < n + 1 → _ := fun i hi => hall i (Nat.lt_succ_of_lt hi)
        refine ⟨hbefore, ?_⟩
        rw [onGrid_intake hfirst n (ih.mpr hbefore), hgrid]
        exact (tooSoon_grid (hj n) (hj (n + 1))).mpr (hall n (Nat.lt_succ_self _))

theorem block_map_range {α : Type*} {S : ℕ} (f : ℕ → α) {n k : ℕ}
    (hk : k < blockCount S ((List.range n).map f)) :
    block S ((List.range n).map f) k = (List.range' (k * S) S).map f := by
  have hend := block_end_le hk
  rw [Nat.add_mul, Nat.one_mul, List.length_map, List.length_range] at hend
  rw [block, ← List.map_drop, ← List.map_take, List.range_eq_range', List.drop_range',
    List.take_range'_of_length_ge (by omega), Nat.mul_one, Nat.zero_add]

end Grid

def twoTicks : ProtocolConfig := { twoWindows with sampleIntervalMs := 2 }

/-- On the grid of `vTaskDelayUntil` every iteration samples, and window `k` is the samples of
its own `S` periods, exactly while no wake is less late than the one before it. -/
theorem every_period_sampled_iff (sampleTick bitTick : UInt32) (w₀ : ℕ) (j : ℕ → ℕ) (raw : ℕ → ℚ)
    (hj : ∀ i, j i < cfg.sampleIntervalMs)
    (hfirst : tooSoon cfg (UInt32.ofNat (w₀ + j 0)) (pdTicksToMs sampleTick) = false) (n : ℕ) :
    ∃ t outs, runE timedSample (Task.boot cfg sampleTick bitTick (UInt32.ofNat w₀))
        (onGrid cfg w₀ j raw n) = .ok (t, outs) ∧
      t.lastWake = UInt32.ofNat (w₀ + n * cfg.sampleIntervalMs) ∧
      Records outs.reduceOption t.photodiode ∧
      ((∀ o ∈ outs, o ≠ none) ∧
          (∀ k < windowCount cfg outs.reduceOption,
            block cfg.samplesPerBit outs.reduceOption k =
              (List.range' (k * cfg.samplesPerBit) cfg.samplesPerBit).map
                fun i => adcVoltage (raw i)) ↔
        ∀ i, i + 1 < n →
          j i ≤ j (i + 1) ∧ cfg.sampleIntervalMs + j (i + 1) < 2 ^ 32 + j i) := by
  rw [pdTicksToMs_eq] at hfirst
  obtain ⟨t, hrun, ht, hwake⟩ := @run_samples cfg sampleTick bitTick (UInt32.ofNat w₀)
    (onGrid cfg w₀ j raw n)
  refine ⟨t, _, hrun, ?_, ?_, ?_⟩
  · rw [hwake, onGrid, List.length_map, List.length_range, UInt32.ofNat_add]
  · rw [samplesOf_reduceOption]
    exact ht.records
  · rw [← onGrid_accepts_iff hj hfirst n, samplesOf_reduceOption]
    refine ⟨And.left, fun h => ⟨h, fun k hk => ?_⟩⟩
    cases n with
    | zero => simp [onGrid, intakeAfter, windowCount] at hk
    | succ n =>
      rw [onGrid_intake hfirst n h] at hk ⊢
      exact block_map_range _ hk

theorem every_period_sampled_iff_one_tick_late : ∃ t outs,
    runE timedSample (Task.boot twoTicks 0 0 (UInt32.ofNat 2))
      (onGrid twoTicks 2 (fun _ => 1) (fun _ => 0) 3) = .ok (t, outs) ∧
    t.lastWake = UInt32.ofNat (2 + 3 * twoTicks.sampleIntervalMs) ∧
    Records outs.reduceOption t.photodiode ∧
    ((∀ o ∈ outs, o ≠ none) ∧
        (∀ k < windowCount twoTicks outs.reduceOption,
          block twoTicks.samplesPerBit outs.reduceOption k =
            (List.range' (k * twoTicks.samplesPerBit) twoTicks.samplesPerBit).map
              fun _ => adcVoltage 0) ↔
      ∀ i, i + 1 < 3 → 1 ≤ 1 ∧ twoTicks.sampleIntervalMs + 1 < 2 ^ 32 + 1) :=
  every_period_sampled_iff 0 0 2 (fun _ => 1) (fun _ => 0) (fun _ => by decide) (by decide) 3

/-- One late wake is enough: the wake after it, on time, comes a tick too soon for the gate. -/
theorem late_wake_costs_next_sample :
    let j : ℕ → ℕ := fun i => if i = 0 then 1 else 0
    (∀ i, j i < twoTicks.sampleIntervalMs) ∧
      tooSoon twoTicks (UInt32.ofNat (2 + j 0)) (pdTicksToMs 0) = false ∧
      (runE timedSample (Task.boot twoTicks 0 0 (UInt32.ofNat 2))
        (onGrid twoTicks 2 j (fun _ => 0) 2)).map (fun r => r.2.map Option.isSome) =
          .ok [true, false] := by
  refine ⟨fun i => ?_, by decide, rfl⟩
  dsimp only
  split <;> decide

end SampleTiming
