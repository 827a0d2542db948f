import RayzTarget.AppMain

/-! # The firmware from power-on

`photodiode_task` feeds the queue, and the four other tasks run behind it. A run is any
interleaving of their steps after the boot. It either stops at a sample the ADC cannot be asked
for, or it is a run of the queue machine on the words `photodiode_task` offers. -/
namespace Firmware

open TargetConfig CheckedBuffer PhotodiodeModel PhotodiodeHistory PhotodiodeTask SampleBlocks
open EventRuns AppMain
open TargetDevice (GameComponent)

structure State (cfg : ProtocolConfig) (γ μ : Type) where
  photodiodeTask : Task cfg
  queued : MessageQueue.State γ μ

/-- What can happen, with what `adc_oneshot_read` answers if it is asked; `none` is an error. -/
inductive Occurrence (μ : Type) where
  | photodiode (tickCount : UInt32) (adc : Option ℚ)
  | device (e : TargetDevice.Event μ)

/-- What happens while the ADC can be read. -/
inductive Event (μ : Type) where
  | photodiode (r : Reading)
  | device (e : TargetDevice.Event μ)

variable {cfg : ProtocolConfig} {γ μ : Type} (G : GameComponent γ)
  (validate : UInt32 → Bool × UInt8 × UInt8)

/-- The output is the word `photodiode_task` hands to the queue. -/
def State.react (s : State cfg γ μ) : Occurrence μ → Except Fault (State cfg γ μ × Option UInt32)
  | .photodiode tickCount adc => do
    let (photodiodeTask, word) ← s.photodiodeTask.wake tickCount adc
    match word with
    | none => return (⟨photodiodeTask, s.queued⟩, none)
    | some bits =>
      return (⟨photodiodeTask, MessageQueue.next G validate s.queued (.offer bits)⟩, some bits)
  | .device e => .ok (⟨s.photodiodeTask, MessageQueue.next G validate s.queued (.device e)⟩, none)

def Event.occurrence : Event μ → Occurrence μ
  | .photodiode r => .photodiode r.tickCount (some r.rawValue)
  | .device e => .device e

def State.step (s : State cfg γ μ) (e : Event μ) : Except Fault (State cfg γ μ × Option UInt32) :=
  s.react G validate e.occurrence

def start (b : Started cfg) (startTick : UInt32) (g : γ) : State cfg γ μ :=
  ⟨b.task startTick, ⟨b.photodiodeMessageQueue, TargetDevice.boot g⟩⟩

/-- From power-on: the boot, and what happens to the tasks if it created any. -/
def powerUp (cfg : ProtocolConfig) (io : BootAnswers) (startTick : UInt32) (g : γ)
    (os : List (Occurrence μ)) : Except Fault (Option (State cfg γ μ × List (Option UInt32))) := do
  match ← appMain cfg io with
  | none => return none
  | some b =>
    let r ← runE (State.react G validate) (start b startTick g) os
    return some r

/-- The same while the ADC can be read. -/
def powerOn (cfg : ProtocolConfig) (io : BootAnswers) (startTick : UInt32) (g : γ)
    (es : List (Event μ)) : Except Fault (Option (State cfg γ μ × List (Option UInt32))) :=
  powerUp G validate cfg io startTick g (es.map Event.occurrence)

def Event.reading? : Event μ → Option Reading
  | .photodiode r => some r
  | .device _ => none

def readings (es : List (Event μ)) : List Reading := es.filterMap Event.reading?

theorem readings_snoc (es : List (Event μ)) (e : Event μ) :
    readings (es ++ [e]) = readings es ++ e.reading?.toList := by
  rw [readings, List.filterMap_append, readings]
  cases e <;> rfl

def intakeNext (cfg : ProtocolConfig) (i : Intake) : Event μ → Intake
  | .photodiode r => i.update cfg r.tickCount r.rawValue
  | .device _ => i

/-- What the queue sees of a step: the word offered, or the step of another task. -/
def feeds (cfg : ProtocolConfig) (i : Intake) : Event μ → List (MessageQueue.Event μ)
  | .photodiode r =>
    ((offered cfg i.voltages (i.update cfg r.tickCount r.rawValue).voltages).map .offer).toList
  | .device e => [.device e]

def fed (cfg : ProtocolConfig) (beginTick : UInt32) (es : List (Event μ)) :
    List (MessageQueue.Event μ) :=
  observe (intakeNext cfg) (feeds cfg) ⟨pdTicksToMs beginTick, []⟩ es

theorem intake_run (beginTick : UInt32) (es : List (Event μ)) :
    run (intakeNext cfg) ⟨pdTicksToMs beginTick, []⟩ es =
      taskIntake cfg beginTick (readings es) := by
  induction es using List.reverseRecOn with
  | nil => rfl
  | append_singleton es e ih =>
    rw [run_snoc, ih, readings_snoc]
    cases e with
    | photodiode r => exact (taskIntake_snoc beginTick (readings es) r).symm
    | device e => simp [intakeNext, Event.reading?]

theorem fed_snoc (beginTick : UInt32) (es : List (Event μ)) (e : Event μ) :
    fed cfg beginTick (es ++ [e]) =
      fed cfg beginTick es ++ feeds cfg (taskIntake cfg beginTick (readings es)) e := by
  rw [fed, observe_snoc, intake_run, fed]

/-- The words fed to the queue are those `photodiode_task` offers on these readings. -/
theorem fed_words (beginTick : UInt32) (es : List (Event μ)) :
    (fed cfg beginTick es).filterMap MessageQueue.Event.word? =
      (offers cfg beginTick (readings es)).reduceOption := by
  induction es using List.reverseRecOn with
  | nil => rfl
  | append_singleton es e ih =>
    rw [fed_snoc, List.filterMap_append, ih, readings_snoc]
    cases e with
    | photodiode r =>
      simp only [feeds, Event.reading?, Option.toList_some]
      rw [offers_snoc, List.reduceOption_append, taskIntake_snoc]
      cases offered cfg (taskIntake cfg beginTick (readings es)).voltages
        ((taskIntake cfg beginTick (readings es)).update cfg r.tickCount r.rawValue).voltages <;>
        rfl
    | device e => simp [feeds, MessageQueue.Event.word?, Event.reading?]

/-- The state of a firmware whose photodiode has its mutex, against the readings. -/
structure Runs (sampleTick : UInt32) (g : γ) (es : List (Event μ)) (s : State cfg γ μ) : Prop where
  task : TaskRecords (taskIntake cfg sampleTick (readings es)) s.photodiodeTask
  queued : s.queued = run (MessageQueue.next G validate) (MessageQueue.boot g)
    (fed cfg sampleTick es)

theorem step_runs {sampleTick : UInt32} {g : γ} {es : List (Event μ)} {s : State cfg γ μ}
    (h : Runs G validate sampleTick g es s) (e : Event μ) :
    ∃ s' o, s.step G validate e = .ok (s', o) ∧ Runs G validate sampleTick g (es ++ [e]) s' := by
  obtain ⟨ht, hq⟩ := h
  cases e with
  | photodiode r =>
    obtain ⟨t', hs, ht', -⟩ := iterate_records ht r
    have htask : TaskRecords (taskIntake cfg sampleTick (readings (es ++ [.photodiode r]))) t' := by
      rw [readings_snoc, Event.reading?, Option.toList_some, taskIntake_snoc]
      exact ht'
    have hfed := @fed_snoc cfg μ sampleTick es (.photodiode r)
    simp only [Task.iterate] at hs
    simp only [State.step, Event.occurrence, State.react, hs, bind, Except.bind]
    simp only [feeds] at hfed
    cases ho : offered cfg (taskIntake cfg sampleTick (readings es)).voltages
      ((taskIntake cfg sampleTick (readings es)).update cfg r.tickCount r.rawValue).voltages with
    | none =>
      rw [ho] at hfed
      exact ⟨_, _, rfl, htask, by rw [hfed]; simpa using hq⟩
    | some word =>
      rw [ho] at hfed
      exact ⟨_, _, rfl, htask, by rw [hfed, hq]; simp⟩
  | device e =>
    refine ⟨_, _, rfl, ?_, ?_⟩
    · simpa [readings_snoc, Event.reading?] using ht
    · rw [fed_snoc, hq]
      simp [feeds]

theorem run_runs (sampleTick bitTick startTick : UInt32) (g : γ) (es : List (Event μ)) :
    ∃ s outs, runE (State.step G validate)
        (⟨Task.boot cfg sampleTick bitTick startTick, MessageQueue.boot g⟩ : State cfg γ μ) es =
          .ok (s, outs) ∧ Runs G validate sampleTick g es s := by
  obtain ⟨s, outs, hrun, hs⟩ := runE_rule (State.step G validate)
    (fun s es (_ : List (Option UInt32)) => Runs G validate sampleTick g es s)
    (s := (⟨Task.boot cfg sampleTick bitTick startTick, MessageQueue.boot g⟩ : State cfg γ μ))
    ⟨boot_records sampleTick bitTick startTick, rfl⟩
    (fun s es _ e h => step_runs G validate h e) es
  exact ⟨s, outs, hrun, hs⟩

/-! ## Where it stops -/

def Occurrence.event : Occurrence μ → Event μ
  | .photodiode tickCount adc => .photodiode ⟨tickCount, adc.getD 0⟩
  | .device e => .device e

def gate (cfg : ProtocolConfig) (lastSampleTime : UInt32) : Occurrence μ → UInt32
  | .photodiode tickCount _ =>
    if tooSoon cfg (pdTicksToMs tickCount) lastSampleTime then lastSampleTime
    else pdTicksToMs tickCount
  | .device _ => lastSampleTime

/-- An iteration that finds a sample due, and an ADC that cannot be read. -/
def Unread (cfg : ProtocolConfig) (beginTick : UInt32) (pre : List (Occurrence μ))
    (o : Occurrence μ) : Prop :=
  ∃ tickCount, o = .photodiode tickCount none ∧
    tooSoon cfg (pdTicksToMs tickCount) (run (gate cfg) (pdTicksToMs beginTick) pre) = false

/-- An iteration that finds a sample due in a photodiode whose clock was never set. -/
def Due (cfg : ProtocolConfig) (o : Occurrence μ) : Prop :=
  ∃ tickCount adc, o = .photodiode tickCount adc ∧ tooSoon cfg (pdTicksToMs tickCount) 0 = false

theorem gate_run (beginTick : UInt32) (os : List (Occurrence μ)) :
    run (gate cfg) (pdTicksToMs beginTick) os =
      (taskIntake cfg beginTick (readings (os.map Occurrence.event))).lastSampleTime := by
  induction os using List.reverseRecOn with
  | nil => rfl
  | append_singleton os o ih =>
    rw [run_snoc, List.map_append, List.map_singleton, readings_snoc, ih]
    cases o with
    | photodiode tickCount adc =>
      simp only [Occurrence.event, Event.reading?, Option.toList_some, taskIntake_snoc, gate,
        Intake.update]
      split
      · rfl
      · rfl
    | device e => simp [Occurrence.event, Event.reading?, gate]

/-- Unless the ADC is asked in vain, its answer is one that could be read. -/
theorem react_eq {s : State cfg γ μ} {beginTick : UInt32} {pre : List (Occurrence μ)}
    (ht : s.photodiodeTask.photodiode.lastSampleTime =
      run (gate cfg) (pdTicksToMs beginTick) pre) {o : Occurrence μ}
    (h : ¬ Unread cfg beginTick pre o) : s.react G validate o = s.step G validate o.event := by
  cases o with
  | device e => rfl
  | photodiode tickCount adc =>
    cases adc with
    | some rawValue => rfl
    | none =>
      have early : tooSoon cfg (pdTicksToMs tickCount)
          s.photodiodeTask.photodiode.lastSampleTime = true := by
        by_contra hdue
        rw [ht] at hdue
        exact h ⟨tickCount, rfl, by simpa using hdue⟩
      simp only [State.step, Occurrence.event, Event.occurrence, State.react,
        wake_early early none (some ((none : Option ℚ).getD 0))]

theorem run_locked (sampleTick bitTick startTick : UInt32) (g : γ) (os : List (Occurrence μ)) :
    ((∃ pre o post, os = pre ++ o :: post ∧ Unread cfg sampleTick pre o) ∧
      runE (State.react G validate)
        (⟨Task.boot cfg sampleTick bitTick startTick, MessageQueue.boot g⟩ : State cfg γ μ) os =
          .error .abort) ∨
    (¬(∃ pre o post, os = pre ++ o :: post ∧ Unread cfg sampleTick pre o) ∧
      ∃ s outs, runE (State.react G validate)
        (⟨Task.boot cfg sampleTick bitTick startTick, MessageQueue.boot g⟩ : State cfg γ μ) os =
          .ok (s, outs) ∧ Runs G validate sampleTick g (os.map Occurrence.event) s) := by
  have lastSample : ∀ (s : State cfg γ μ) (pre : List (Occurrence μ)),
      Runs G validate sampleTick g (pre.map Occurrence.event) s →
      s.photodiodeTask.photodiode.lastSampleTime =
        run (gate cfg) (pdTicksToMs sampleTick) pre := by
    intro s pre hs
    rw [gate_run, hs.task.lastSampleTime]
  refine runE_stops (State.react G validate)
    (fun s os => Runs G validate sampleTick g (os.map Occurrence.event) s)
    (Unread cfg sampleTick) Fault.abort
    (s := (⟨Task.boot cfg sampleTick bitTick startTick, MessageQueue.boot g⟩ : State cfg γ μ))
    ⟨boot_records sampleTick bitTick startTick, rfl⟩ ?_ ?_ os
  · intro s pre o hs hread
    rw [react_eq G validate (lastSample s pre hs) hread, List.map_append]
    exact step_runs G validate hs o.event
  · rintro s pre o hs ⟨tickCount, rfl, hdue⟩
    rw [← lastSample s pre hs] at hdue
    have hread : s.photodiodeTask.photodiode.adcRead none = none := by
      simp [Photodiode.adcRead]
    simp only [State.react, wake_unread hdue hread, bind, Except.bind]

theorem run_unlocked (startTick : UInt32) (g : γ) (os : List (Occurrence μ)) :
    ((∃ pre o post, os = pre ++ o :: post ∧ Due cfg o) ∧ runE (State.react G validate)
        (⟨⟨globalPhotodiode cfg, startTick⟩, MessageQueue.boot g⟩ : State cfg γ μ) os =
          .error .abort) ∨
    (¬(∃ pre o post, os = pre ++ o :: post ∧ Due cfg o) ∧
      ∃ s outs, runE (State.react G validate)
        (⟨⟨globalPhotodiode cfg, startTick⟩, MessageQueue.boot g⟩ : State cfg γ μ) os =
          .ok (s, outs) ∧ Unlocked s.photodiodeTask) := by
  refine runE_stops (State.react G validate)
    (fun s (_ : List (Occurrence μ)) => Unlocked s.photodiodeTask) (fun _ => Due cfg) Fault.abort
    (s := (⟨⟨globalPhotodiode cfg, startTick⟩, MessageQueue.boot g⟩ : State cfg γ μ))
    (unlocked_start startTick) ?_ ?_ os
  · intro s pre o hs hdue
    cases o with
    | photodiode tickCount adc =>
      have early : tooSoon cfg (pdTicksToMs tickCount) 0 = true := by
        by_contra h
        exact hdue ⟨tickCount, adc, rfl, by simpa using h⟩
      obtain ⟨t', ht, ht'⟩ := wake_unlocked hs early adc
      refine ⟨⟨t', s.queued⟩, none, ?_, ht'⟩
      simp only [State.react, ht, bind, Except.bind, pure, Except.pure]
    | device e => exact ⟨_, none, rfl, hs⟩
  · rintro s pre o hs ⟨tickCount, adc, rfl, hdue⟩
    simp only [State.react, wake_unlocked_due hs hdue adc, bind, Except.bind]

def Booted (io : BootAnswers) : Prop :=
  io.gameStateInit = true ∧ handlesCreated io = true

instance (io : BootAnswers) : Decidable (Booted io) := inferInstanceAs (Decidable (_ ∧ _))

def AdcReady (io : BootAnswers) : Prop :=
  io.begin.adcUnit = some () ∧ io.begin.adcChannel = some ()

theorem powerUp_eq (cfg : ProtocolConfig) (io : BootAnswers) (startTick : UInt32) (g : γ)
    (os : List (Occurrence μ)) : powerUp G validate cfg io startTick g os =
      if io.gameStateInit = true then
        if io.begin.mutexCreated = true ∧
          ¬(io.begin.adcUnit = some () ∧ io.begin.adcChannel = some ()) then .error .abort
        else if handlesCreated io = true then (runE (State.react G validate)
          (⟨if io.begin.mutexCreated = true then
              Task.boot cfg io.begin.sampleTick io.begin.bitTick startTick
            else ⟨globalPhotodiode cfg, startTick⟩, MessageQueue.boot g⟩ : State cfg γ μ)
              os).map some
        else .ok none
      else .ok none := by
  rw [powerUp, appMain_eq]
  cases hg : io.gameStateInit with
  | false => simp [bind, Except.bind, pure, Except.pure]
  | true =>
    simp only [if_true]
    by_cases hlost : io.begin.mutexCreated = true ∧
        ¬(io.begin.adcUnit = some () ∧ io.begin.adcChannel = some ())
    · rw [if_pos hlost, if_pos hlost]
      rfl
    · rw [if_neg hlost, if_neg hlost]
      cases hq : handlesCreated io with
      | false => simp [bind, Except.bind, pure, Except.pure]
      | true => cases hm : io.begin.mutexCreated <;> rfl

theorem powerOn_locked {io : BootAnswers} (hb : Booted io) (hm : io.begin.mutexCreated = true)
    (hadc : AdcReady io) (startTick : UInt32) (g : γ) (es : List (Event μ)) :
    powerOn G validate cfg io startTick g es = (runE (State.step G validate)
      (⟨Task.boot cfg io.begin.sampleTick io.begin.bitTick startTick, MessageQueue.boot g⟩ :
        State cfg γ μ) es).map some := by
  obtain ⟨hg, hq⟩ := hb
  obtain ⟨hu, hc⟩ := hadc
  rw [powerOn, powerUp_eq, runE_map]
  simp only [hg, hm, hu, hc, hq, if_true, and_self, not_true_eq_false, and_false, if_false]
  rfl

theorem powerOn_ok {io : BootAnswers} (hb : Booted io) (hm : io.begin.mutexCreated = true)
    (hadc : AdcReady io) (startTick : UInt32) (g : γ) (es : List (Event μ)) :
    ∃ s outs, powerOn G validate cfg io startTick g es = .ok (some (s, outs)) ∧
      Runs G validate io.begin.sampleTick g es s := by
  obtain ⟨s, outs, hrun, hs⟩ := @run_runs cfg γ μ G validate io.begin.sampleTick
    io.begin.bitTick startTick g es
  refine ⟨s, outs, ?_, hs⟩
  rw [powerOn_locked G validate hb hm hadc, hrun]
  rfl

theorem booted_of_powerOn {io : BootAnswers} {startTick : UInt32} {g : γ} {es : List (Event μ)}
    {s : State cfg γ μ} {outs : List (Option UInt32)}
    (h : powerOn G validate cfg io startTick g es = .ok (some (s, outs)))
    (hm : io.begin.mutexCreated = true) : Booted io ∧ AdcReady io := by
  rw [powerOn, powerUp_eq] at h
  simp only [hm, if_true, true_and] at h
  split at h
  · rename_i hg
    split at h
    · cases h
    · rename_i hadc
      split at h
      · rename_i hq
        exact ⟨⟨hg, hq⟩, not_not.mp hadc⟩
      · cases h
  · cases h

/-- What a run that did not stop has become, when the photodiode has its mutex. -/
theorem powerOn_runs {io : BootAnswers} {startTick : UInt32} {g : γ} {es : List (Event μ)}
    {s : State cfg γ μ} {outs : List (Option UInt32)}
    (h : powerOn G validate cfg io startTick g es = .ok (some (s, outs)))
    (hm : io.begin.mutexCreated = true) : Runs G validate io.begin.sampleTick g es s := by
  obtain ⟨hb, hadc⟩ := booted_of_powerOn G validate h hm
  obtain ⟨s', outs', hrun, hs'⟩ := @powerOn_ok cfg γ μ G validate io hb hm hadc startTick g es
  rw [hrun] at h
  cases h
  exact hs'

/-! ## Pace -/

open MessageQueue (passSteps queueLength)

def isSample (e : Event μ) : Bool := e.reading?.isSome

def isProcessing : Event μ → Bool
  | .device (.processing _) => true
  | _ => false

/-- In every stretch of the run `processing_task` steps often enough for the windows that so
many samples can complete. -/
def Scheduled (cfg : ProtocolConfig) (es : List (Event μ)) : Prop :=
  ∀ pre mid post, es = pre ++ mid ++ post →
    passSteps * (mid.countP isSample / cfg.samplesPerBit) <
      passSteps * queueLength + mid.countP isProcessing

theorem feeds_length_le (i : Intake) (e : Event μ) : (feeds cfg i e).length ≤ 1 := by
  cases e with
  | photodiode r =>
    simp only [feeds]
    cases offered cfg i.voltages (i.update cfg r.tickCount r.rawValue).voltages <;> simp
  | device e => simp [feeds]

theorem fed_processing (i : Intake) (es : List (Event μ)) :
    (observe (intakeNext cfg) (feeds cfg) i es).countP MessageQueue.isProcessing =
      es.countP isProcessing := by
  induction es generalizing i with
  | nil => rfl
  | cons e es ih =>
    rw [observe, List.countP_append, ih, List.countP_cons, Nat.add_comm]
    congr 1
    cases e with
    | photodiode r =>
      simp only [feeds]
      cases offered cfg i.voltages (i.update cfg r.tickCount r.rawValue).voltages <;> rfl
    | device e => cases e <;> rfl

/-- Once the ring is full, a stretch offers as many words as it completes windows. -/
theorem fed_offers {i : Intake} (hfull : cfg.photodiodeBufferSize ≤ windowCount cfg i.voltages)
    (es : List (Event μ)) :
    windowCount cfg i.voltages +
        (observe (intakeNext cfg) (feeds cfg) i es).countP MessageQueue.isOffer =
      windowCount cfg (run (intakeNext cfg) i es).voltages := by
  induction es generalizing i with
  | nil => rfl
  | cons e es ih =>
    rw [observe, List.countP_append]
    cases e with
    | photodiode r =>
      have hstep := windowCount_update cfg i r.tickCount r.rawValue
      have hlater := ih (i := i.update cfg r.tickCount r.rawValue) (by omega)
      have hone : ((feeds cfg i (.photodiode (μ := μ) r)).countP MessageQueue.isOffer) =
          windowCount cfg (i.update cfg r.tickCount r.rawValue).voltages -
            windowCount cfg i.voltages := by
        simp only [feeds, offered]
        rw [if_pos (by omega)]
        rcases hstep with heq | heq
        · rw [if_neg (by omega), heq, Nat.sub_self]
          rfl
        · rw [if_pos (by omega), heq, Nat.add_sub_cancel_left]
          rfl
      rw [hone]
      simp only [intakeNext, run, List.foldl_cons] at hlater ⊢
      omega
    | device e =>
      have none_offered : (feeds cfg i (.device e)).countP MessageQueue.isOffer = 0 := rfl
      rw [none_offered, Nat.zero_add]
      exact ih hfull

theorem voltages_length_le (i : Intake) (es : List (Event μ)) :
    (run (intakeNext cfg) i es).voltages.length ≤ i.voltages.length + es.countP isSample := by
  induction es using List.reverseRecOn with
  | nil => exact Nat.le_refl _
  | append_singleton es e ih =>
    rw [run_snoc, List.countP_append, List.countP_singleton]
    cases e with
    | photodiode r =>
      have grown := intake_update_voltages cfg (run (intakeNext cfg) i es) r.tickCount r.rawValue
      simp only [intakeNext, isSample, Event.reading?, Option.isSome_some, if_true]
      rcases grown with h | h
      · rw [h]
        omega
      · rw [h, List.length_append, List.length_singleton]
        omega
    | device e => exact ih.trans (by omega)

/-- So many samples complete at most one window more than they fill. -/
theorem fed_offers_le {i : Intake} (hfull : cfg.photodiodeBufferSize ≤ windowCount cfg i.voltages)
    (es : List (Event μ)) :
    (observe (intakeNext cfg) (feeds cfg) i es).countP MessageQueue.isOffer ≤
      es.countP isSample / cfg.samplesPerBit + 1 := by
  have hoffers := fed_offers hfull es
  have hlen := Nat.div_le_div_right (c := cfg.samplesPerBit) (@voltages_length_le cfg μ i es)
  rw [Nat.add_div cfg.samplesPerBit_pos] at hlen
  have hcarry : (if cfg.samplesPerBit ≤ i.voltages.length % cfg.samplesPerBit +
      es.countP isSample % cfg.samplesPerBit then 1 else 0) ≤ 1 := by split <;> omega
  simp only [windowCount, blockCount] at hoffers
  omega

theorem paced_of_scheduled {i : Intake}
    (hfull : cfg.photodiodeBufferSize ≤ windowCount cfg i.voltages) {es : List (Event μ)}
    (h : Scheduled cfg es) : MessageQueue.Paced (observe (intakeNext cfg) (feeds cfg) i es) := by
  intro pre mid post hsplit
  obtain ⟨pm, q, rfl, hpm, -⟩ := observe_split feeds_length_le hsplit
  obtain ⟨p, m, rfl, -, rfl⟩ := observe_split feeds_length_le hpm
  have hstill : cfg.photodiodeBufferSize ≤
      windowCount cfg (run (intakeNext cfg) i p).voltages := by
    have := fed_offers hfull p
    omega
  have hoffers := fed_offers_le hstill m
  have hpace := h p m q rfl
  rw [fed_processing]
  unfold passSteps at *
  omega

theorem powerOn_continues {io : BootAnswers} {startTick : UInt32} {g : γ}
    {es₀ : List (Event μ)} {s₀ : State cfg γ μ} {outs₀ : List (Option UInt32)}
    (h : powerOn G validate cfg io startTick g es₀ = .ok (some (s₀, outs₀)))
    (hm : io.begin.mutexCreated = true) (es : List (Event μ)) :
    ∃ s outs, powerOn G validate cfg io startTick g (es₀ ++ es) = .ok (some (s, outs)) ∧
      s.queued = run (MessageQueue.next G validate) s₀.queued (observe (intakeNext cfg) (feeds cfg)
        (taskIntake cfg io.begin.sampleTick (readings es₀)) es) := by
  obtain ⟨hb, hadc⟩ := booted_of_powerOn G validate h hm
  obtain ⟨s, outs, hrun, hs⟩ := @powerOn_ok cfg γ μ G validate io hb hm hadc startTick g (es₀ ++ es)
  refine ⟨s, outs, hrun, ?_⟩
  rw [hs.queued, (powerOn_runs G validate h hm).queued, ← run_append, fed, fed, observe_append,
    intake_run]

/-- An iteration hands over the word its readings decide, and the queue takes it if it can. -/
theorem step_photodiode {sampleTick : UInt32} {g : γ} {es : List (Event μ)} {s : State cfg γ μ}
    (h : Runs G validate sampleTick g es s) {r : Reading} {word : Option UInt32}
    (hword : offered cfg (taskIntake cfg sampleTick (readings es)).voltages
      ((taskIntake cfg sampleTick (readings es)).update cfg r.tickCount r.rawValue).voltages =
        word) :
    ∃ t', s.step G validate (.photodiode r) = .ok (⟨t', word.elim s.queued fun bits =>
      MessageQueue.next G validate s.queued (.offer bits)⟩, word) := by
  obtain ⟨t', ht, -, -⟩ := iterate_records h.task r
  rw [hword] at ht
  simp only [Task.iterate] at ht
  refine ⟨t', ?_⟩
  simp only [State.step, Event.occurrence, State.react, ht, bind, Except.bind]
  cases word <;> rfl

/-- From a full ring and an idle `processing_task` on, every word handed to the queue finds room
in any run that keeps to the schedule, however the tasks interleave. -/
theorem full_ring_loses_nothing {io : BootAnswers} {startTick : UInt32} {g : γ}
    {es₀ es : List (Event μ)} {s₀ : State cfg γ μ} {outs₀ : List (Option UInt32)}
    (hrun : powerOn G validate cfg io startTick g es₀ = .ok (some (s₀, outs₀)))
    (hmutex : io.begin.mutexCreated = true)
    (hfull : cfg.photodiodeBufferSize ≤
      windowCount cfg (taskIntake cfg io.begin.sampleTick (readings es₀)).voltages)
    (hidle : s₀.queued.device.processing.pc = .receive)
    (hempty : s₀.queued.photodiodeMessageQueue.items = []) (hsched : Scheduled cfg es)
    {pre post : List (Event μ)} {r : Reading} (hes : es = pre ++ .photodiode r :: post) :
    ∃ s outs, powerOn G validate cfg io startTick g (es₀ ++ pre) = .ok (some (s, outs)) ∧
      ∀ s' word, s.step G validate (.photodiode r) = .ok (s', some word) →
        s'.queued.photodiodeMessageQueue.items =
          s.queued.photodiodeMessageQueue.items ++ [word] := by
  obtain ⟨s, outs, hs, hqueued⟩ := powerOn_continues G validate hrun hmutex pre
  refine ⟨s, outs, hs, ?_⟩
  intro s' word hstep
  obtain ⟨t', heq⟩ := step_photodiode G validate (powerOn_runs G validate hs hmutex) (r := r) rfl
  obtain ⟨rfl, hword⟩ := Prod.mk.inj (Except.ok.inj (heq.symm.trans hstep))
  have hwork : s₀.queued.work = 0 := by
    rw [MessageQueue.State.work, hidle, hempty]
    rfl
  have hpaced := @paced_of_scheduled cfg μ _ hfull es hsched
  rw [hes, observe_append, observe] at hpaced
  -- the iteration reads the accepted samples of the whole run so far
  have hintake : run (intakeNext cfg) (taskIntake cfg io.begin.sampleTick (readings es₀)) pre =
      taskIntake cfg io.begin.sampleTick (readings (es₀ ++ pre)) := by
    rw [← intake_run, ← intake_run, run_append]
  have hfeeds : feeds cfg (run (intakeNext cfg)
      (taskIntake cfg io.begin.sampleTick (readings es₀)) pre) (.photodiode (μ := μ) r) =
        [.offer word] := by
    rw [hintake, feeds, hword]
    rfl
  rw [hfeeds, List.singleton_append] at hpaced
  have room := MessageQueue.queue_has_room G validate hwork hpaced
  rw [← hqueued] at room
  simp only [hword, Option.elim_some]
  rw [MessageQueue.next, BoundedQueue.Queue.send_items,
    BoundedQueue.Queue.accepted_of_lost (BoundedQueue.Queue.lost_of_lt room word)]

def lightOff : List (Event Unit) :=
  [.device (.server ⟨2, true, 100⟩ 1), .photodiode ⟨1, 4095⟩, .photodiode ⟨2, 0⟩] ++
    List.replicate 28 (.device (.processing (ProcessingTally.sevenAt 200)))

theorem soundBoot_runs (es : List (Event Unit)) : ∃ s outs,
    powerOn TargetDevice.countdownComponent (fun _ => (true, 1, 2)) twoWindows soundBoot 0
      (false, 0) es = .ok (some (s, outs)) ∧
    Runs TargetDevice.countdownComponent (fun _ => (true, 1, 2)) 0 (false, 0) es s := by
  have booted : Booted soundBoot := ⟨rfl, rfl⟩
  exact powerOn_ok _ _ booted rfl ⟨rfl, rfl⟩ 0 (false, 0) es

/-- The light goes on again: 01 is handed over and stands in the queue. -/
theorem full_ring_loses_nothing_light_on : ∃ s outs s',
    powerOn TargetDevice.countdownComponent (fun _ => (true, 1, 2)) twoWindows soundBoot 0
      (false, 0) lightOff = .ok (some (s, outs)) ∧
    s.step TargetDevice.countdownComponent (fun _ => (true, 1, 2)) (.photodiode ⟨3, 4095⟩) =
      .ok (s', some 1) ∧ s'.queued.photodiodeMessageQueue.items = [1] := by
  obtain ⟨s₀, outs₀, h₀, hs₀⟩ := soundBoot_runs lightOff
  have idle : s₀.queued.device.processing.pc = .receive := by
    rw [hs₀.queued]
    exact ExpectationExpiry.receive_of_stepsLeft (by decide +kernel)
  have drained : s₀.queued.photodiodeMessageQueue.items = [] := by
    rw [hs₀.queued]
    decide +kernel
  have scheduled : Scheduled twoWindows [Event.photodiode (μ := Unit) ⟨3, 4095⟩] := by
    intro pre mid post h
    have hlen := congrArg List.length h
    have hcount := List.countP_le_length (p := isSample) (l := mid)
    simp only [List.length_append, List.length_singleton] at hlen
    have hone : mid.countP isSample / twoWindows.samplesPerBit ≤ 1 :=
      (Nat.div_le_self _ _).trans (by omega)
    simp only [passSteps, queueLength]
    omega
  obtain ⟨s, outs, hs, happended⟩ := full_ring_loses_nothing TargetDevice.countdownComponent
    (fun _ => (true, 1, 2)) h₀ rfl (by decide +kernel) idle drained scheduled
    (List.nil_append [Event.photodiode ⟨3, 4095⟩]).symm
  rw [List.append_nil, h₀] at hs
  cases hs
  have hword : offered twoWindows (taskIntake twoWindows 0 (readings lightOff)).voltages
      ((taskIntake twoWindows 0 (readings lightOff)).update twoWindows 3 4095).voltages =
        some 1 := by decide +kernel
  obtain ⟨t', hstep⟩ := step_photodiode TargetDevice.countdownComponent (fun _ => (true, 1, 2))
    hs₀ (r := ⟨3, 4095⟩) hword
  refine ⟨s₀, outs₀, _, h₀, hstep, ?_⟩
  rw [happended _ 1 hstep, drained]
  rfl

end Firmware
