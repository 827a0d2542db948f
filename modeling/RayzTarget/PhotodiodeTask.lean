import RayzTarget.PhotodiodeHistory
import Mathlib.Data.List.ReduceOption

/-! # The loop of `photodiode_task`

One iteration samples, and offers a word to the queue when `isSampleBufferFull` says so.
What each iteration offers is a function of the accepted voltages before and after it. -/
namespace PhotodiodeTask

open TargetConfig PhotodiodeModel PhotodiodeHistory SampleBlocks EventRuns

variable {cfg : ProtocolConfig}

structure Task (cfg : ProtocolConfig) where
  photodiode : Photodiode cfg
  lastWake : UInt32

structure Reading where
  tickCount : UInt32
  rawValue : ℚ

def samplePeriodTicks (cfg : ProtocolConfig) : UInt32 := pdMsToTicks cfg.sampleIntervalMs

def Task.boot (cfg : ProtocolConfig) (sampleTick bitTick startTick : UInt32) : Task cfg :=
  ⟨Photodiode.ready cfg sampleTick bitTick, startTick⟩

/-- One iteration, with what `adc_oneshot_read` answers if it is asked. The output is the word
handed to `xQueueSend`, whether or not the queue has room. -/
def Task.wake (t : Task cfg) (tickCount : UInt32) (adc : Option ℚ) :
    Except Fault (Task cfg × Option UInt32) := do
  let photodiode ← t.photodiode.update tickCount adc
  let lastWake := t.lastWake + samplePeriodTicks cfg
  if photodiode.isSampleBufferFull then
    let (messageBits, photodiode) ← photodiode.convertToBits
    return (⟨photodiode, lastWake⟩, some messageBits.toUInt32)
  else return (⟨photodiode, lastWake⟩, none)

/-- An iteration in which the ADC can be read. -/
def Task.iterate (t : Task cfg) (r : Reading) : Except Fault (Task cfg × Option UInt32) :=
  t.wake r.tickCount (some r.rawValue)

def taskIntake (cfg : ProtocolConfig) (beginTick : UInt32) (rs : List Reading) : Intake :=
  run (fun i r => i.update cfg r.tickCount r.rawValue) ⟨pdTicksToMs beginTick, []⟩ rs

def voltagesAfter (cfg : ProtocolConfig) (beginTick : UInt32) (rs : List Reading) (n : ℕ) :
    List ℚ :=
  (taskIntake cfg beginTick (rs.take n)).voltages

def windowsAfter (cfg : ProtocolConfig) (beginTick : UInt32) (rs : List Reading) (n : ℕ) : ℕ :=
  windowCount cfg (voltagesAfter cfg beginTick rs n)

/-- The word of window `j`, counted from one: the windows `j - N + 1 .. j` against the
threshold as window `j` has updated it. -/
def windowWord (cfg : ProtocolConfig) (v : List ℚ) (j : ℕ) : UInt32 :=
  (wordOf (lastBits cfg v j (thresholdAfter cfg v j))).toUInt32

def offered (cfg : ProtocolConfig) (before after : List ℚ) : Option UInt32 :=
  if cfg.photodiodeBufferSize ≤ windowCount cfg after then
    if windowCount cfg before < windowCount cfg after then
      some (windowWord cfg after (windowCount cfg after))
    else none
  else if 0 < windowCount cfg after then some 0 else none

variable (cfg) in
theorem intake_update_voltages (i : Intake) (tickCount : UInt32) (rawValue : ℚ) :
    (i.update cfg tickCount rawValue).voltages = i.voltages ∨
    (i.update cfg tickCount rawValue).voltages = i.voltages ++ [adcVoltage rawValue] := by
  unfold Intake.update
  split
  · exact Or.inl rfl
  · exact Or.inr rfl

variable (cfg) in
/-- One iteration completes at most one window. -/
theorem windowCount_update (i : Intake) (tickCount : UInt32) (rawValue : ℚ) :
    windowCount cfg (i.update cfg tickCount rawValue).voltages = windowCount cfg i.voltages ∨
    windowCount cfg (i.update cfg tickCount rawValue).voltages =
      windowCount cfg i.voltages + 1 := by
  rcases intake_update_voltages cfg i tickCount rawValue with h | h
  · exact Or.inl (by rw [h])
  · have hlt := Nat.mod_lt i.voltages.length cfg.samplesPerBit_pos
    rw [h]
    rcases Nat.lt_or_eq_of_le (Nat.succ_le_of_lt hlt) with hw | hb
    · exact Or.inl (blockCount_snoc_within _ hw)
    · exact Or.inr (blockCount_snoc_boundary cfg.samplesPerBit_pos _ hb)

/-- At the loop head the one-shot flag is up exactly while the ring is filling: it is
stale from the first window until the ring is full, and down from then on. -/
structure TaskRecords (i : Intake) (t : Task cfg) : Prop where
  records : Records i.voltages t.photodiode
  lastSampleTime : t.photodiode.lastSampleTime = i.lastSampleTime
  flag : t.photodiode.sampleBufferFull = decide (0 < windowCount cfg i.voltages ∧
    windowCount cfg i.voltages < cfg.photodiodeBufferSize)

theorem boot_records (sampleTick bitTick startTick : UInt32) :
    TaskRecords ⟨pdTicksToMs sampleTick, []⟩ (Task.boot cfg sampleTick bitTick startTick) where
  records := ready_records sampleTick bitTick
  lastSampleTime := rfl
  flag := by simp [Task.boot, Photodiode.ready, Photodiode.construct, windowCount]

theorem iterate_records {i : Intake} {t : Task cfg} (h : TaskRecords i t) (r : Reading) :
    ∃ t', t.iterate r =
        .ok (t', offered cfg i.voltages (i.update cfg r.tickCount r.rawValue).voltages) ∧
      TaskRecords (i.update cfg r.tickCount r.rawValue) t' ∧
      t'.lastWake = t.lastWake + samplePeriodTicks cfg := by
  obtain ⟨s, hs, hr, ht, hf⟩ := update_records h.records h.lastSampleTime r.tickCount r.rawValue
  have hstep := windowCount_update cfg i r.tickCount r.rawValue
  have hpos := cfg.photodiodeBufferSize_pos
  generalize i.update cfg r.tickCount r.rawValue = i' at *
  rw [h.flag] at hf
  simp only [Task.iterate, Task.wake, hs, bind, Except.bind, Photodiode.isSampleBufferFull, offered]
  by_cases hfull : cfg.photodiodeBufferSize ≤ windowCount cfg i'.voltages
  · by_cases hnew : windowCount cfg i.voltages < windowCount cfg i'.voltages
    · -- a window completed with the ring full: one word, and the flag goes down
      have hup : s.sampleBufferFull = true := by rw [hf]; simp [hnew]
      refine ⟨⟨{ s with sampleBufferFull := false }, _⟩, ?_, ⟨{ hr with }, ht, ?_⟩, rfl⟩
      · simp only [hup, if_true, convertToBits_full hr hfull, hr.dynamicThreshold, pure,
          Except.pure, if_pos hfull, if_pos hnew, windowWord]
      · symm
        rw [decide_eq_false_iff_not]
        omega
    · -- no window completed: the flag was already down
      have hdown : s.sampleBufferFull = false := by
        rw [hf, Bool.or_eq_false_iff, decide_eq_false_iff_not, decide_eq_false_iff_not]
        omega
      refine ⟨⟨s, _⟩, ?_, ⟨hr, ht, ?_⟩, rfl⟩
      · simp only [hdown, Bool.false_eq_true, if_false, pure, Except.pure, if_pos hfull,
          if_neg hnew]
      · rw [hdown, eq_comm, decide_eq_false_iff_not]
        omega
  · by_cases hone : 0 < windowCount cfg i'.voltages
    · -- the ring is still filling: the read-out returns early and leaves the flag up
      have hup : s.sampleBufferFull = true := by
        rw [hf, Bool.or_eq_true, decide_eq_true_iff, decide_eq_true_iff]
        omega
      refine ⟨⟨s, _⟩, ?_, ⟨hr, ht, ?_⟩, rfl⟩
      · simp only [hup, if_true, convertToBits_warmup hr (by omega), pure, Except.pure,
          if_neg hfull, if_pos hone]
        rfl
      · rw [hup, eq_comm, decide_eq_true_iff]
        omega
    · have hdown : s.sampleBufferFull = false := by
        rw [hf, Bool.or_eq_false_iff, decide_eq_false_iff_not, decide_eq_false_iff_not]
        omega
      refine ⟨⟨s, _⟩, ?_, ⟨hr, ht, ?_⟩, rfl⟩
      · simp only [hdown, Bool.false_eq_true, if_false, pure, Except.pure, if_neg hfull,
          if_neg hone]
      · rw [hdown, eq_comm, decide_eq_false_iff_not]
        omega

/-- An iteration that finds no sample due does not ask the ADC. -/
theorem wake_early {t : Task cfg} {tickCount : UInt32}
    (h : tooSoon cfg (pdTicksToMs tickCount) t.photodiode.lastSampleTime = true)
    (adc adc' : Option ℚ) : t.wake tickCount adc = t.wake tickCount adc' := by
  simp only [Task.wake, update_early h]

/-- One that does stops the firmware when the ADC cannot be read. -/
theorem wake_unread {t : Task cfg} {tickCount : UInt32} {adc : Option ℚ}
    (h : tooSoon cfg (pdTicksToMs tickCount) t.photodiode.lastSampleTime = false)
    (hread : t.photodiode.adcRead adc = none) : t.wake tickCount adc = .error .abort := by
  have hupdate : t.photodiode.update tickCount adc = .error .abort := by
    rw [update_due h, hread]
  simp only [Task.wake, hupdate, bind, Except.bind]

theorem taskIntake_snoc (beginTick : UInt32) (rs : List Reading) (r : Reading) :
    taskIntake cfg beginTick (rs ++ [r]) =
      (taskIntake cfg beginTick rs).update cfg r.tickCount r.rawValue := run_snoc _ _ rs r

theorem voltagesAfter_of_length_le (beginTick : UInt32) {rs : List Reading} {n : ℕ}
    (h : rs.length ≤ n) :
    voltagesAfter cfg beginTick rs n = (taskIntake cfg beginTick rs).voltages := by
  rw [voltagesAfter, List.take_of_length_le h]

theorem voltagesAfter_snoc (beginTick : UInt32) (rs : List Reading) (r : Reading) {n : ℕ}
    (h : n ≤ rs.length) :
    voltagesAfter cfg beginTick (rs ++ [r]) n = voltagesAfter cfg beginTick rs n := by
  rw [voltagesAfter, List.take_append_of_le_length h, voltagesAfter]

variable (cfg) in
/-- One more iteration extends the accepted voltages by at most one sample. -/
theorem voltagesAfter_succ (beginTick : UInt32) (rs : List Reading) (n : ℕ) :
    (∃ w, voltagesAfter cfg beginTick rs (n + 1) = voltagesAfter cfg beginTick rs n ++ w) ∧
    (windowsAfter cfg beginTick rs (n + 1) = windowsAfter cfg beginTick rs n ∨
      windowsAfter cfg beginTick rs (n + 1) = windowsAfter cfg beginTick rs n + 1) := by
  unfold windowsAfter voltagesAfter taskIntake
  by_cases hn : n < rs.length
  · rw [← List.take_append_getElem hn, run_snoc]
    refine ⟨?_, windowCount_update cfg _ _ _⟩
    rcases intake_update_voltages cfg
        (run (fun i r => i.update cfg r.tickCount r.rawValue) ⟨pdTicksToMs beginTick, []⟩
          (rs.take n)) rs[n].tickCount rs[n].rawValue with h | h
    · exact ⟨[], by rw [h, List.append_nil]⟩
    · exact ⟨_, h⟩
  · rw [List.take_of_length_le (by omega), List.take_of_length_le (by omega)]
    exact ⟨⟨[], (List.append_nil _).symm⟩, Or.inl rfl⟩

variable (cfg) in
theorem voltagesAfter_prefix (beginTick : UInt32) (rs : List Reading) {m n : ℕ} (h : m ≤ n) :
    ∃ w, voltagesAfter cfg beginTick rs n = voltagesAfter cfg beginTick rs m ++ w := by
  induction n, h using Nat.le_induction with
  | base => exact ⟨[], (List.append_nil _).symm⟩
  | succ n _ ih =>
    obtain ⟨w, hw⟩ := ih
    obtain ⟨w', hw'⟩ := (voltagesAfter_succ cfg beginTick rs n).1
    exact ⟨w ++ w', by rw [hw', hw, List.append_assoc]⟩

variable (cfg) in
theorem windowsAfter_mono (beginTick : UInt32) (rs : List Reading) {m n : ℕ} (h : m ≤ n) :
    windowsAfter cfg beginTick rs m ≤ windowsAfter cfg beginTick rs n := by
  obtain ⟨w, hw⟩ := voltagesAfter_prefix cfg beginTick rs h
  rw [windowsAfter, windowsAfter, hw]
  exact blockCount_mono _ _

@[simp] theorem windowsAfter_zero (beginTick : UInt32) (rs : List Reading) :
    windowsAfter cfg beginTick rs 0 = 0 := by
  simp [windowsAfter, voltagesAfter, taskIntake, windowCount]

/-- The word of a window is settled when the window is complete. -/
theorem windowWord_append {v : List ℚ} (w : List ℚ) {j : ℕ} (hj : j ≤ windowCount cfg v)
    (hN : cfg.photodiodeBufferSize ≤ j) : windowWord cfg (v ++ w) j = windowWord cfg v j := by
  unfold windowWord lastBits
  rw [thresholdAfter_append w hj]
  congr 2
  refine List.map_congr_left fun i hi => ?_
  have := List.mem_range.mp hi
  rw [windowMean_append w (by omega)]

def offers (cfg : ProtocolConfig) (beginTick : UInt32) (rs : List Reading) : List (Option UInt32) :=
  (List.range rs.length).map fun n =>
    offered cfg (voltagesAfter cfg beginTick rs n) (voltagesAfter cfg beginTick rs (n + 1))

theorem offers_snoc (beginTick : UInt32) (rs : List Reading) (r : Reading) :
    offers cfg beginTick (rs ++ [r]) = offers cfg beginTick rs ++
      [offered cfg (taskIntake cfg beginTick rs).voltages
        (taskIntake cfg beginTick (rs ++ [r])).voltages] := by
  unfold offers
  rw [List.length_append, List.length_singleton, List.range_succ, List.map_append,
    List.map_singleton, voltagesAfter_snoc beginTick rs r le_rfl,
    voltagesAfter_of_length_le beginTick le_rfl, voltagesAfter_of_length_le beginTick (by simp)]
  congr 1
  refine List.map_congr_left fun n hn => ?_
  have := List.mem_range.mp hn
  rw [voltagesAfter_snoc beginTick rs r (by omega), voltagesAfter_snoc beginTick rs r (by omega)]

/-- No run of the loop fails, and the offers are the ones read off the accepted voltages. -/
theorem run_offers (cfg : ProtocolConfig) (sampleTick bitTick startTick : UInt32)
    (rs : List Reading) : ∃ t, runE Task.iterate (Task.boot cfg sampleTick bitTick startTick) rs =
      .ok (t, offers cfg sampleTick rs) ∧ TaskRecords (taskIntake cfg sampleTick rs) t := by
  obtain ⟨t, outs, hrun, ht, rfl⟩ := runE_rule Task.iterate (fun t rs outs =>
      TaskRecords (taskIntake cfg sampleTick rs) t ∧ outs = offers cfg sampleTick rs)
    ⟨boot_records sampleTick bitTick startTick, rfl⟩ (by
      rintro t rs outs r ⟨ht, rfl⟩
      obtain ⟨t', hs, ht', _⟩ := iterate_records ht r
      refine ⟨t', _, hs, ?_, ?_⟩
      · rw [taskIntake_snoc]
        exact ht'
      · rw [offers_snoc, taskIntake_snoc]) rs
  exact ⟨t, hrun, ht⟩

theorem offers_getElem? (beginTick : UInt32) (rs : List Reading) {n : ℕ} (hn : n < rs.length) :
    (offers cfg beginTick rs)[n]? = some (
      if cfg.photodiodeBufferSize ≤ windowsAfter cfg beginTick rs (n + 1) then
        if windowsAfter cfg beginTick rs n < windowsAfter cfg beginTick rs (n + 1) then
          some (windowWord cfg (voltagesAfter cfg beginTick rs (n + 1))
            (windowsAfter cfg beginTick rs (n + 1)))
        else none
      else if 0 < windowsAfter cfg beginTick rs (n + 1) then some 0 else none) := by
  simp only [offers, List.getElem?_map, List.getElem?_range hn, Option.map_some]
  rfl

/-- In a full ring an iteration offers the window it completes, if it completes one. -/
theorem offered_full (beginTick : UInt32) (rs : List Reading) {n : ℕ}
    (h : cfg.photodiodeBufferSize ≤ windowsAfter cfg beginTick rs (n + 1)) :
    offered cfg (voltagesAfter cfg beginTick rs n) (voltagesAfter cfg beginTick rs (n + 1)) =
      if windowsAfter cfg beginTick rs n < windowsAfter cfg beginTick rs (n + 1) then
        some (windowWord cfg (voltagesAfter cfg beginTick rs (n + 1))
          (windowsAfter cfg beginTick rs (n + 1))) else none := if_pos h

/-- The words of the windows completed before an iteration are not changed by it. -/
theorem windowWords_succ (beginTick : UInt32) (rs : List Reading) (m : ℕ) :
    (List.range' cfg.photodiodeBufferSize
        (windowsAfter cfg beginTick rs m + 1 - cfg.photodiodeBufferSize)).map
        (windowWord cfg (voltagesAfter cfg beginTick rs (m + 1))) =
      (List.range' cfg.photodiodeBufferSize
        (windowsAfter cfg beginTick rs m + 1 - cfg.photodiodeBufferSize)).map
        (windowWord cfg (voltagesAfter cfg beginTick rs m)) := by
  obtain ⟨w, hw⟩ := (voltagesAfter_succ cfg beginTick rs m).1
  refine List.map_congr_left fun j hj => ?_
  obtain ⟨hN, hj⟩ := List.mem_range'_1.mp hj
  have complete : j ≤ windowsAfter cfg beginTick rs m := by omega
  rw [hw]
  exact windowWord_append w complete hN

/-- From the iteration that completes window `N` on, the words offered up to iteration `m`
are those of the windows `N, N + 1, ...` completed by then. -/
theorem offered_words (beginTick : UInt32) (rs : List Reading) {n₀ m : ℕ} (hm : n₀ < m)
    (h₀ : windowsAfter cfg beginTick rs n₀ < cfg.photodiodeBufferSize)
    (h₁ : cfg.photodiodeBufferSize ≤ windowsAfter cfg beginTick rs (n₀ + 1)) :
    ((List.range' n₀ (m - n₀)).map fun n => offered cfg (voltagesAfter cfg beginTick rs n)
        (voltagesAfter cfg beginTick rs (n + 1))).reduceOption =
      (List.range' cfg.photodiodeBufferSize
        (windowsAfter cfg beginTick rs m + 1 - cfg.photodiodeBufferSize)).map
        (windowWord cfg (voltagesAfter cfg beginTick rs m)) := by
  induction m, hm using Nat.le_induction with
  | base =>
    have hN : windowsAfter cfg beginTick rs (n₀ + 1) = cfg.photodiodeBufferSize := by
      have := (voltagesAfter_succ cfg beginTick rs n₀).2
      omega
    have one : n₀ + 1 - n₀ = 1 := by omega
    have first : cfg.photodiodeBufferSize + 1 - cfg.photodiodeBufferSize = 1 := by omega
    have hoff := offered_full beginTick rs h₁
    rw [hN, if_pos h₀] at hoff
    rw [Nat.succ_eq_add_one, hN, one, first]
    simp [hoff]
  | succ m hm ih =>
    have hlt : n₀ + 1 ≤ m := hm
    have hfull : cfg.photodiodeBufferSize ≤ windowsAfter cfg beginTick rs m :=
      h₁.trans (windowsAfter_mono cfg beginTick rs hlt)
    have hoff := offered_full beginTick rs
      (hfull.trans (windowsAfter_mono cfg beginTick rs m.le_succ))
    have span : m + 1 - n₀ = m - n₀ + 1 := by omega
    have last : n₀ + 1 * (m - n₀) = m := by omega
    rw [span, List.range'_concat, List.map_append, List.reduceOption_append, ih,
      ← windowWords_succ, last, List.map_singleton, hoff]
    rcases (voltagesAfter_succ cfg beginTick rs m).2 with heq | heq
    · rw [if_neg (by omega), heq]
      simp
    · have grown : windowsAfter cfg beginTick rs m + 1 + 1 - cfg.photodiodeBufferSize =
          windowsAfter cfg beginTick rs m + 1 - cfg.photodiodeBufferSize + 1 := by omega
      have newest : cfg.photodiodeBufferSize +
          1 * (windowsAfter cfg beginTick rs m + 1 - cfg.photodiodeBufferSize) =
            windowsAfter cfg beginTick rs m + 1 := by omega
      rw [if_pos (by omega), heq, grown, List.range'_concat, List.map_append, newest]
      rfl

theorem windowWord_toNat (v : List ℚ) (j : ℕ) : (windowWord cfg v j).toNat =
    BitWord.msbValue (lastBits cfg v j (thresholdAfter cfg v j)) % 2 ^ 16 := by
  rw [windowWord, UInt16.toNat_toUInt32, wordOf_toNat]

/-- From the iteration that completes window `N` on, every completed window is offered once,
in the iteration that completes it, and nothing else is; the threshold a word is compared
with is the one its last window has left in the object. -/
theorem one_word_per_window (cfg : ProtocolConfig) (sampleTick bitTick startTick : UInt32)
    (rs : List Reading) :
    ∃ t outs, runE Task.iterate (Task.boot cfg sampleTick bitTick startTick) rs = .ok (t, outs) ∧
      t.photodiode.dynamicThreshold = thresholdAfter cfg
        (voltagesAfter cfg sampleTick rs rs.length) (windowsAfter cfg sampleTick rs rs.length) ∧
      (∀ n, n < rs.length →
        cfg.photodiodeBufferSize ≤ windowsAfter cfg sampleTick rs (n + 1) →
        (windowsAfter cfg sampleTick rs (n + 1) = windowsAfter cfg sampleTick rs n ∧
          outs[n]? = some none) ∨
        (windowsAfter cfg sampleTick rs (n + 1) = windowsAfter cfg sampleTick rs n + 1 ∧
          outs[n]? = some (some (windowWord cfg (voltagesAfter cfg sampleTick rs (n + 1))
            (windowsAfter cfg sampleTick rs (n + 1)))))) ∧
      (∀ n₀, n₀ < rs.length →
        windowsAfter cfg sampleTick rs n₀ < cfg.photodiodeBufferSize →
        cfg.photodiodeBufferSize ≤ windowsAfter cfg sampleTick rs (n₀ + 1) →
        (outs.drop n₀).reduceOption = (List.range' cfg.photodiodeBufferSize
          (windowsAfter cfg sampleTick rs rs.length + 1 - cfg.photodiodeBufferSize)).map
            (windowWord cfg (voltagesAfter cfg sampleTick rs rs.length))) := by
  obtain ⟨t, hrun, ht⟩ := run_offers cfg sampleTick bitTick startTick rs
  refine ⟨t, offers cfg sampleTick rs, hrun, ?_, ?_, ?_⟩
  · rw [ht.records.dynamicThreshold, windowsAfter, voltagesAfter_of_length_le sampleTick le_rfl]
  · intro n hn hfull
    rw [offers_getElem? sampleTick rs hn, if_pos hfull]
    rcases (voltagesAfter_succ cfg sampleTick rs n).2 with h | h
    · left
      exact ⟨h, by rw [if_neg (by omega)]⟩
    · right
      exact ⟨h, by rw [if_pos (by omega)]⟩
  · intro n₀ hn h₀ h₁
    rw [← offered_words sampleTick rs hn h₀ h₁, offers, ← List.map_drop, List.range_eq_range',
      List.drop_range', Nat.mul_one, Nat.zero_add]

/-- A zero is offered in every iteration between the first complete window and the full ring. -/
theorem offers_before_full (beginTick : UInt32) (rs : List Reading) {n : ℕ} (hn : n < rs.length)
    (h₀ : 0 < windowsAfter cfg beginTick rs (n + 1))
    (h₁ : windowsAfter cfg beginTick rs (n + 1) < cfg.photodiodeBufferSize) :
    (offers cfg beginTick rs)[n]? = some (some 0) := by
  rw [offers_getElem? beginTick rs hn, if_neg h₁.not_ge, if_pos h₀]

/-- Some iteration completes the first window of a run that completes any. -/
theorem first_window (beginTick : UInt32) (rs : List Reading) {m : ℕ}
    (h : 0 < windowsAfter cfg beginTick rs m) :
    ∃ n, n < m ∧ windowsAfter cfg beginTick rs (n + 1) = 1 := by
  induction m with
  | zero => simp at h
  | succ m ih =>
    by_cases hm : 0 < windowsAfter cfg beginTick rs m
    · obtain ⟨n, hn, h₁⟩ := ih hm
      exact ⟨n, by omega, h₁⟩
    · have := (voltagesAfter_succ cfg beginTick rs m).2
      exact ⟨m, m.lt_succ_self, by omega⟩

/-- Only complete rings are offered exactly when the ring holds a single window or the
run accepts fewer samples than one window takes. -/
theorem offers_complete_iff (cfg : ProtocolConfig) (sampleTick bitTick startTick : UInt32)
    (rs : List Reading) :
    ∃ t outs, runE Task.iterate (Task.boot cfg sampleTick bitTick startTick) rs = .ok (t, outs) ∧
      ((∀ n word, outs[n]? = some (some word) →
          cfg.photodiodeBufferSize ≤ windowsAfter cfg sampleTick rs (n + 1) ∧
          word = windowWord cfg (voltagesAfter cfg sampleTick rs (n + 1))
            (windowsAfter cfg sampleTick rs (n + 1))) ↔
        cfg.photodiodeBufferSize = 1 ∨
          (taskIntake cfg sampleTick rs).voltages.length < cfg.samplesPerBit) := by
  obtain ⟨t, hrun, _⟩ := run_offers cfg sampleTick bitTick startTick rs
  refine ⟨t, offers cfg sampleTick rs, hrun, ?_, ?_⟩
  · intro h
    by_contra hne
    rw [not_or, Nat.not_lt] at hne
    have hpos := cfg.photodiodeBufferSize_pos
    have hlast : 0 < windowsAfter cfg sampleTick rs rs.length := by
      rw [windowsAfter, voltagesAfter_of_length_le sampleTick le_rfl]
      exact Nat.div_pos hne.2 cfg.samplesPerBit_pos
    obtain ⟨n, hn, h₁⟩ := first_window sampleTick rs hlast
    have := (h n 0 (offers_before_full sampleTick rs hn (by omega) (by omega))).1
    omega
  · intro h n word hout
    have hn : n < rs.length := by
      obtain ⟨hn, _⟩ := List.getElem?_eq_some_iff.mp hout
      simpa [offers] using hn
    rw [offers_getElem? sampleTick rs hn, Option.some.injEq] at hout
    have hpos : 0 < windowsAfter cfg sampleTick rs (n + 1) := by
      by_contra hz
      have hpos := cfg.photodiodeBufferSize_pos
      rw [if_neg (by omega), if_neg hz] at hout
      cases hout
    have hone : cfg.photodiodeBufferSize = 1 := by
      refine h.resolve_right fun hlt => ?_
      have hmono := windowsAfter_mono cfg sampleTick rs (Nat.succ_le_of_lt hn)
      rw [Nat.succ_eq_add_one] at hmono
      have hzero : windowsAfter cfg sampleTick rs rs.length = 0 := by
        rw [windowsAfter, voltagesAfter_of_length_le sampleTick le_rfl]
        exact Nat.div_eq_of_lt hlt
      omega
    have hfull : cfg.photodiodeBufferSize ≤ windowsAfter cfg sampleTick rs (n + 1) := by omega
    refine ⟨hfull, ?_⟩
    rw [if_pos hfull] at hout
    split at hout
    · exact (Option.some.inj hout).symm
    · cases hout

/-- The first accepted sample completes one window of two, and a zero is offered. -/
theorem warmup_zero_offered :
    (runE Task.iterate (Task.boot twoWindows 0 0 0) [⟨1, 0⟩]).map Prod.snd = .ok [some 0] ∧
      windowsAfter twoWindows 0 [⟨1, 0⟩] 1 = 1 ∧ twoWindows.photodiodeBufferSize = 2 := by
  refine ⟨?_, ?_, rfl⟩
  · rfl
  · rfl

end PhotodiodeTask
