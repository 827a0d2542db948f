import RayzTarget.EspnowTask
import RayzTarget.LossyBroadcast
import RayzTarget.ProcessingTally

/-! # A network of targets

Every device runs `processing_task` and `espnow_task`; the air between them loses, delays
and reorders. A device may be reconfigured at any time, and a broadcast carries its number
among the sender's broadcasts, which no code reads. -/
namespace TargetNetwork

open EventRuns ProcessingTask ProcessingTally EspnowTask

structure Origin (ι : Type*) where
  sender : ι
  number : ℕ
  deriving DecidableEq

abbrev Packet (ι : Type*) := EspnowMessageEnvelope (Origin ι)

def Packet.sender {ι : Type*} (p : Packet ι) : ι := p.srcMac.sender

structure Device (ι : Type*) where
  config : DeviceConfig
  processing : ProcessingTask.State
  espnow : EspnowTask.State (Origin ι)

structure State (ι : Type*) where
  device : ι → Device ι
  flight : ι → List (Packet ι)

/-- The network supplies the configuration and the envelope of an answer: `pick` is the
position, among the copies in flight to the device, of the one that arrives. -/
inductive Event (ι : Type*) where
  | processing (d : ι) (a : ProcessingTask.Answers)
  | server (d : ι) (e : Expectation) (allExpectedMessages : UInt16)
  | espnow (d : ι) (a : EspnowTask.Answers (Origin ι)) (pick : Option ℕ)
  | lose (d : ι) (i : ℕ)
  | reconfigure (d : ι) (c : DeviceConfig)

variable {ι : Type*}

def boot (configs : ι → DeviceConfig) : State ι where
  device d := ⟨configs d, ProcessingTask.boot, EspnowTask.boot⟩
  flight _ := []

def State.set [DecidableEq ι] (s : State ι) (d : ι) (dev : Device ι) : State ι :=
  { s with device := Function.update s.device d dev }

def State.processingAnswers (s : State ι) (d : ι) (a : ProcessingTask.Answers) :
    ProcessingTask.Answers := { a with config := (s.device d).config }

def State.espnowAnswers (s : State ι) (d : ι) (a : EspnowTask.Answers (Origin ι))
    (pick : Option ℕ) : EspnowTask.Answers (Origin ι) :=
  { a with config := (s.device d).config, received := pick.bind fun i => (s.flight d)[i]? }

def airs (s : State ι) : Event ι → List (Packet ι)
  | .processing d a =>
    (sent (s.device d).processing (.task (s.processingAnswers d a))).map fun m =>
      ⟨⟨d, (s.device d).processing.broadcasts.length⟩, m⟩
  | _ => []

/-- The copies in flight after `espnow_task` asked for one: a copy leaves at a receive only. -/
def State.afterReceive [DecidableEq ι] (s : State ι) (d : ι) (pick : Option ℕ) :
    ι → List (Packet ι) :=
  match (s.device d).espnow.pc, pick with
  | .receive, some i => LossyBroadcast.remove s.flight d i
  | _, _ => s.flight

def next [DecidableEq ι] (validate : UInt32 → Bool × UInt8 × UInt8) (s : State ι) :
    Event ι → State ι
  | .processing d a =>
    { s.set d { s.device d with
        processing := ProcessingTask.next validate (s.device d).processing
          (.task (s.processingAnswers d a)) } with
      flight := (airs s (.processing d a)).foldl (LossyBroadcast.broadcast Packet.sender) s.flight }
  | .server d e all =>
    s.set d { s.device d with
      processing := ProcessingTask.next validate (s.device d).processing (.server e all) }
  | .espnow d a pick =>
    { s.set d { s.device d with
        espnow := (s.device d).espnow.taskStep (s.espnowAnswers d a pick) } with
      flight := s.afterReceive d pick }
  | .lose d i => { s with flight := LossyBroadcast.remove s.flight d i }
  | .reconfigure d c => s.set d { s.device d with config := c }

theorem airs_cases (s : State ι) (e : Event ι) :
    airs s e = [] ∨ ∃ p, airs s e = [p] ∧
      p.srcMac.number = (s.device p.sender).processing.broadcasts.length := by
  cases e with
  | processing d a =>
    cases hpc : (s.device d).processing.pc with
    | broadcast l =>
      right
      refine ⟨⟨⟨d, (s.device d).processing.broadcasts.length⟩,
        hitMessage l (s.processingAnswers d a)⟩, ?_, rfl⟩
      simp [airs, sent, hpc]
    | _ => left; simp [airs, sent, hpc]
  | _ => left; rfl

variable [DecidableEq ι] (validate : UInt32 → Bool × UInt8 × UInt8)

@[simp] theorem set_device (s : State ι) (d d' : ι) (dev : Device ι) :
    (s.set d dev).device d' = if d' = d then dev else s.device d' := by
  simp [State.set, Function.update_apply]

@[simp] theorem set_flight (s : State ι) (d : ι) (dev : Device ι) :
    (s.set d dev).flight = s.flight := rfl

/-- A device's broadcasts are what it has put on the air. -/
theorem broadcasts_next (s : State ι) (e : Event ι) (d : ι) :
    ((next validate s e).device d).processing.broadcasts =
      (s.device d).processing.broadcasts ++
        ((airs s e).filter fun p => p.sender = d).map EspnowMessageEnvelope.msg := by
  cases e with
  | processing d' a =>
    by_cases hd : d = d'
    · subst hd
      have grown := (tail_next validate (s.device d).processing
        (.task (s.processingAnswers d a))).2.2.2
      simpa [next, airs, Packet.sender, List.filter_map, Function.comp_def] using grown
    · have others : d' ≠ d := Ne.symm hd
      simp [next, airs, Packet.sender, List.filter_map, Function.comp_def, hd, others]
  | server d' e all =>
    by_cases hd : d = d'
    · subst hd
      simp [next, airs, ProcessingTask.next]
    · simp [next, airs, hd]
  | espnow d' a pick => by_cases hd : d = d' <;> simp [next, airs, hd]
  | lose d' i => simp [next, airs]
  | reconfigure d' c => by_cases hd : d = d' <;> simp [next, airs, hd]

/-- Only a step of its own `espnow_task` touches that part of a device. -/
theorem espnow_kept {s : State ι} {e : Event ι} {d : ι} (h : ∀ a pick, e ≠ .espnow d a pick) :
    ((next validate s e).device d).espnow = (s.device d).espnow := by
  cases e with
  | processing d' a => by_cases hd : d = d' <;> simp [next, hd]
  | server d' e all => by_cases hd : d = d' <;> simp [next, hd]
  | espnow d' a pick =>
    have hd : d ≠ d' := by
      rintro rfl
      exact h a pick rfl
    simp [next, hd]
  | lose d' i => rfl
  | reconfigure d' c => by_cases hd : d = d' <;> simp [next, hd]

/-- The copy that arrives is credited or dropped; either way it leaves the air. -/
theorem conserved_espnow {s : State ι} {aired : List (Packet ι)}
    (h : LossyBroadcast.Conserved Packet.sender aired
      (fun d => (s.device d).espnow.credited) s.flight)
    (d : ι) (a : EspnowTask.Answers (Origin ι)) (pick : Option ℕ) :
    LossyBroadcast.Conserved Packet.sender aired
      (Function.update (fun d => (s.device d).espnow.credited) d
        ((s.device d).espnow.credited ++
          (s.device d).espnow.accepts (s.espnowAnswers d a pick)))
      (s.afterReceive d pick) := by
  by_cases hpc : (s.device d).espnow.pc = .receive
  · cases pick with
    | none => simpa [State.accepts, State.afterReceive, State.espnowAnswers, hpc] using h
    | some i =>
      cases hp : (s.flight d)[i]? with
      | none =>
        simpa [State.accepts, State.afterReceive, State.espnowAnswers, hpc, hp] using h.lose d i
      | some p =>
        by_cases hc : (s.device d).espnow.confirms p = true
        · simpa [State.accepts, State.afterReceive, State.espnowAnswers, hpc, hp, hc] using
            h.take hp
        · simpa [State.accepts, State.afterReceive, State.espnowAnswers, hpc, hp, hc] using
            h.lose d i
  · have kept : s.afterReceive d pick = s.flight := by
      cases hq : (s.device d).espnow.pc with
      | receive => exact absurd hq hpc
      | _ => simp [State.afterReceive, hq]
    have none : (s.device d).espnow.accepts (s.espnowAnswers d a pick) = [] := by
      simp [State.accepts]
    simpa [kept, none] using h

theorem conserved_next {s : State ι} {aired : List (Packet ι)}
    (h : LossyBroadcast.Conserved Packet.sender aired
      (fun d => (s.device d).espnow.credited) s.flight) (e : Event ι) :
    LossyBroadcast.Conserved Packet.sender (aired ++ airs s e)
      (fun d => ((next validate s e).device d).espnow.credited) (next validate s e).flight := by
  have quiet (hq : ∀ d a pick, e ≠ .espnow d a pick) :
      (fun d => ((next validate s e).device d).espnow.credited) =
        fun d => (s.device d).espnow.credited :=
    funext fun d => by rw [espnow_kept validate (hq d)]
  cases e with
  | processing d a =>
    rw [quiet (by simp)]
    exact h.broadcasts (airs s (.processing d a))
  | server d e all =>
    rw [quiet (by simp)]
    simpa [airs, next] using h
  | espnow d a pick =>
    have moved : (fun d' => ((next validate s (.espnow d a pick)).device d').espnow.credited) =
        Function.update (fun d => (s.device d).espnow.credited) d
          ((s.device d).espnow.credited ++
            (s.device d).espnow.accepts (s.espnowAnswers d a pick)) := by
      funext d'
      by_cases hd : d' = d
      · subst hd
        simp [next, credited_step]
      · simp [next, hd]
    rw [moved]
    simpa [airs, next] using conserved_espnow h d a pick
  | lose d i =>
    rw [quiet (by simp)]
    simpa [airs, next] using h.lose d i
  | reconfigure d c =>
    rw [quiet (by simp)]
    simpa [airs, next] using h

/-- What every run keeps: the air conserves copies, every broadcast is issued once under its
sender's next number, and only confirmed copies are credited. -/
structure Invariant (s : State ι) (aired : List (Packet ι)) : Prop where
  conserved : LossyBroadcast.Conserved Packet.sender aired
    (fun d => (s.device d).espnow.credited) s.flight
  issued : ∀ d, (aired.filter fun p => p.sender = d).map EspnowMessageEnvelope.msg =
    (s.device d).processing.broadcasts
  numbered : ∀ p ∈ aired,
    (s.device p.sender).processing.broadcasts[p.srcMac.number]? = some p.msg
  distinct : (aired.map EspnowMessageEnvelope.srcMac).Nodup
  confirmed : ∀ d, Confirmed (s.device d).espnow

theorem invariant_boot (configs : ι → DeviceConfig) : Invariant (boot configs) [] where
  conserved := by simpa [boot, EspnowTask.boot, State.credited, inHand] using
    LossyBroadcast.conserved_start
  issued d := by simp [boot, ProcessingTask.boot]
  numbered := by simp
  distinct := List.nodup_nil
  confirmed d := confirmed_boot

theorem confirmed_next {s : State ι} (h : ∀ d, Confirmed (s.device d).espnow) (e : Event ι)
    (d : ι) : Confirmed ((next validate s e).device d).espnow := by
  by_cases he : ∃ a pick, e = .espnow d a pick
  · obtain ⟨a, pick, rfl⟩ := he
    simpa [next] using confirmed_step (h d) (s.espnowAnswers d a pick)
  · rw [espnow_kept validate fun a pick hp => he ⟨a, pick, hp⟩]
    exact h d

theorem numbered_next {s : State ι} {aired : List (Packet ι)} (h : Invariant s aired)
    (e : Event ι) : ∀ p ∈ aired ++ airs s e,
      ((next validate s e).device p.sender).processing.broadcasts[p.srcMac.number]? =
        some p.msg := by
  intro p hp
  rw [broadcasts_next]
  rcases List.mem_append.mp hp with hp | hp
  · have old := h.numbered p hp
    have inside : p.srcMac.number < (s.device p.sender).processing.broadcasts.length :=
      (List.getElem?_eq_some_iff.mp old).1
    rwa [List.getElem?_append_left inside]
  · rcases airs_cases s e with none | ⟨q, one, number⟩
    · simp [none] at hp
    · rw [one, List.mem_singleton] at hp
      subst hp
      rw [number, List.getElem?_append_right le_rfl]
      simp [one]

theorem distinct_next {s : State ι} {aired : List (Packet ι)} (h : Invariant s aired)
    (e : Event ι) : ((aired ++ airs s e).map EspnowMessageEnvelope.srcMac).Nodup := by
  rcases airs_cases s e with none | ⟨q, one, number⟩
  · simpa [none] using h.distinct
  · rw [one, List.map_append]
    refine List.nodup_append.mpr ⟨h.distinct, by simp, ?_⟩
    rintro o ho o' ho' rfl
    obtain ⟨p, hp, hpo⟩ := List.mem_map.mp ho
    have hq : o = q.srcMac := by simpa using ho'
    have sameOrigin : p.srcMac = q.srcMac := hpo.trans hq
    have old := h.numbered p hp
    rw [Packet.sender, sameOrigin, number] at old
    simp [Packet.sender] at old

theorem invariant_next {s : State ι} {aired : List (Packet ι)} (h : Invariant s aired)
    (e : Event ι) : Invariant (next validate s e) (aired ++ airs s e) where
  conserved := conserved_next validate h.conserved e
  issued d := by rw [List.filter_append, List.map_append, h.issued, broadcasts_next]
  numbered := numbered_next validate h e
  distinct := distinct_next h e
  confirmed := confirmed_next validate h.confirmed e

theorem invariant_run (configs : ι → DeviceConfig) (es : List (Event ι)) :
    Invariant (run (next validate) (boot configs) es)
      (observe (next validate) airs (boot configs) es) :=
  run_rule (next validate) airs Invariant (invariant_boot configs)
    (fun _ _ e h => invariant_next validate h e) es

/-- Seen alone, the `processing_task` of a device is in a state of one of its own runs. -/
theorem processing_reachable (configs : ι → DeviceConfig) (es : List (Event ι)) (d : ι) :
    ∃ fs, ((run (next validate) (boot configs) es).device d).processing =
      run (ProcessingTask.next validate) ProcessingTask.boot fs := by
  refine run_invariant (next validate) (fun s => ∃ fs, (s.device d).processing =
    run (ProcessingTask.next validate) ProcessingTask.boot fs) ⟨[], rfl⟩ ?_ es
  rintro s e ⟨fs, hfs⟩
  cases e with
  | processing d' a =>
    by_cases hd : d = d'
    · subst hd
      exact ⟨fs ++ [.task (s.processingAnswers d a)], by simp [next, hfs]⟩
    · exact ⟨fs, by simpa [next, hd] using hfs⟩
  | server d' e all =>
    by_cases hd : d = d'
    · subst hd
      exact ⟨fs ++ [.server e all], by simp [next, hfs]⟩
    · exact ⟨fs, by simpa [next, hd] using hfs⟩
  | espnow d' a pick => exact ⟨fs, by by_cases hd : d = d' <;> simpa [next, hd] using hfs⟩
  | lose d' i => exact ⟨fs, hfs⟩
  | reconfigure d' c => exact ⟨fs, by by_cases hd : d = d' <;> simpa [next, hd] using hfs⟩

/-- The id a running `espnow_task` compares with was configured when the task started. -/
theorem started_with (configs : ι → DeviceConfig) (es : List (Event ι)) (d : ι)
    (h : ((run (next validate) (boot configs) es).device d).espnow.pc ≠ .start) :
    ∃ pre a pick post, es = pre ++ .espnow d a pick :: post ∧
      ((run (next validate) (boot configs) pre).device d).espnow.pc = .start ∧
      ((run (next validate) (boot configs) pre).device d).config.deviceId =
        ((run (next validate) (boot configs) es).device d).espnow.selfDeviceId := by
  induction es using List.reverseRecOn with
  | nil => exact absurd rfl h
  | append_singleton es e ih =>
    rw [run_snoc] at h ⊢
    by_cases he : ∃ a pick, e = .espnow d a pick
    · obtain ⟨a, pick, rfl⟩ := he
      by_cases hs : ((run (next validate) (boot configs) es).device d).espnow.pc = .start
      · exact ⟨es, a, pick, [], rfl, hs, by
          simp [next, EspnowTask.State.taskStep, hs, State.espnowAnswers]⟩
      · obtain ⟨pre, b, q, post, rfl, hstart, hid⟩ := ih hs
        refine ⟨pre, b, q, post ++ [.espnow d a pick], by simp, hstart, ?_⟩
        rw [hid]
        simp [next, selfDeviceId_step hs]
    · have kept := espnow_kept validate (s := run (next validate) (boot configs) es)
        fun a pick hp => he ⟨a, pick, hp⟩
      rw [kept] at h ⊢
      obtain ⟨pre, b, q, post, rfl, hstart, hid⟩ := ih h
      exact ⟨pre, b, q, post ++ [e], by simp, hstart, hid⟩

end TargetNetwork
