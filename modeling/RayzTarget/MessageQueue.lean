import RayzTarget.BoundedQueue
import RayzTarget.ExpectationExpiry
import RayzTarget.TargetDevice

/-! # `photodiodeMessageQueue` between the light and the game

`photodiode_task` sends without waiting, `processing_task` takes the oldest word or waits.
The queue is followed under every interleaving of the offers with the four tasks behind it:
which words are lost, and what becomes of the others. -/
namespace MessageQueue

open EventRuns BoundedQueue TargetDevice ProcessingTally
open ProcessingTask (Pc Laser)

def queueLength : ℕ := 10

structure State (γ μ : Type*) where
  photodiodeMessageQueue : Queue UInt32 queueLength
  device : TargetDevice.State γ μ

inductive Event (μ : Type*) where
  | offer (word : UInt32)
  | device (e : TargetDevice.Event μ)

variable {γ μ : Type*} (G : GameComponent γ) (validate : UInt32 → Bool × UInt8 × UInt8)

def boot (g : γ) : State γ μ := ⟨Queue.empty, TargetDevice.boot g⟩

@[simp] theorem boot_items (g : γ) : (boot g : State γ μ).photodiodeMessageQueue.items = [] := rfl

@[simp] theorem boot_processing (g : γ) :
    (boot g : State γ μ).device.processing = ProcessingTask.boot := rfl

/-- `xQueueReceive` answers with the oldest word; on an empty queue the task stays where it is. -/
def State.answered (s : State γ μ) : TargetDevice.Event μ → TargetDevice.Event μ
  | .processing a => .processing { a with word := s.photodiodeMessageQueue.items.head? }
  | e => e

def atReceive : Pc → Bool
  | .receive => true
  | _ => false

def State.receives (s : State γ μ) : TargetDevice.Event μ → Bool
  | .processing _ => atReceive s.device.processing.pc
  | _ => false

def next (s : State γ μ) : Event μ → State γ μ
  | .offer word => { s with photodiodeMessageQueue := s.photodiodeMessageQueue.send word }
  | .device e =>
    { photodiodeMessageQueue :=
        if s.receives e then s.photodiodeMessageQueue.receive else s.photodiodeMessageQueue
      device := TargetDevice.next G validate s.device (s.answered e) }

def processingEvents (s : State γ μ) : Event μ → List ProcessingTask.Event
  | .device (.processing a) => [.task { a with
      word := s.photodiodeMessageQueue.items.head?
      respawning := s.device.respawning G }]
  | .device (.server e all) => [.server e all]
  | _ => []

def Event.word? : Event μ → Option UInt32
  | .offer word => some word
  | .device _ => none

def offered (_ : State γ μ) (e : Event μ) : List UInt32 := e.word?.toList

def accepted (s : State γ μ) : Event μ → List UInt32
  | .offer word => s.photodiodeMessageQueue.accepted word
  | _ => []

def lost (s : State γ μ) : Event μ → List UInt32
  | .offer word => s.photodiodeMessageQueue.lost word
  | _ => []

def received (s : State γ μ) : Event μ → List UInt32
  | .device e => if s.receives e then s.photodiodeMessageQueue.items.head?.toList else []
  | _ => []

theorem processing_next (s : State γ μ) (e : Event μ) :
    (next G validate s e).device.processing =
      run (ProcessingTask.next validate) s.device.processing (processingEvents G s e) := by
  have kept := fun calls => respawning_afterCalls G s.device calls
  cases e with
  | offer word => rfl
  | device e =>
    cases e with
    | processing a =>
      simp only [next, State.answered, TargetDevice.next, TargetDevice.State.step, kept]
      rfl
    | _ => rfl

theorem received_eq_taken (s : State γ μ) (e : Event μ) : received s e =
    observe (ProcessingTask.next validate) taken s.device.processing (processingEvents G s e) := by
  cases e with
  | offer word => rfl
  | device e =>
    cases e with
    | processing a =>
      cases hpc : s.device.processing.pc <;>
        simp [received, State.receives, processingEvents, observe, taken, atReceive, hpc]
    | _ => rfl

/-- A word enters behind the waiting ones and leaves before them. -/
theorem queue_balance (s : State γ μ) (e : Event μ) :
    s.photodiodeMessageQueue.items ++ accepted s e =
      received s e ++ (next G validate s e).photodiodeMessageQueue.items := by
  cases e with
  | offer word => simp [accepted, received, next]
  | device e =>
    cases hr : s.receives e with
    | false => simp [accepted, received, next, hr]
    | true =>
      simp only [accepted, received, next, hr, if_true, List.append_nil]
      exact s.photodiodeMessageQueue.items_eq

theorem accepted_sublist_offered (s : State γ μ) (e : Event μ) :
    (accepted s e).Sublist (offered s e) := by
  cases e with
  | offer word => exact s.photodiodeMessageQueue.accepted_sublist word
  | device e => exact List.Sublist.refl _

theorem offered_length (s : State γ μ) (e : Event μ) :
    (offered s e).length = (accepted s e).length + (lost s e).length := by
  cases e with
  | offer word => exact s.photodiodeMessageQueue.accepted_length_add_lost word
  | device e => rfl

theorem observe_offered (s : State γ μ) (es : List (Event μ)) :
    observe (next G validate) offered s es = es.filterMap Event.word? := by
  induction es generalizing s with
  | nil => rfl
  | cons e es ih =>
    rw [observe, ih]
    cases e <;> rfl

def State.waiting (s : State γ μ) : List UInt32 :=
  unsettled s.device.processing.pc ++ s.photodiodeMessageQueue.items

def processingRun (s : State γ μ) (es : List (Event μ)) : List ProcessingTask.Event :=
  observe (next G validate) (processingEvents G) s es

theorem processing_run (s : State γ μ) (es : List (Event μ)) :
    (run (next G validate) s es).device.processing =
      run (ProcessingTask.next validate) s.device.processing (processingRun G validate s es) :=
  run_refine (fun s => s.device.processing) (processingEvents G)
    (fun s e => processing_next G validate s e) s es

/-- The words `processing_task` has decided on, with what it found. -/
def decided (g : γ) (es : List (Event μ)) : List Dequeued :=
  observe (ProcessingTask.next validate) (settled validate) ProcessingTask.boot
    (processingRun G validate (boot g) es)

/-- Every accepted word has been settled or is waiting, in the order of acceptance. -/
theorem accepted_accounted (g : γ) (es : List (Event μ)) :
    observe (next G validate) accepted (boot g) es =
      (decided G validate g es).map Dequeued.bits ++
        (run (next G validate) (boot g) es).waiting := by
  have queue := observe_balance (s := (boot g : State γ μ)) (next G validate) accepted received
    (fun s => s.photodiodeMessageQueue.items) (fun _ => True) trivial (fun _ _ _ => trivial)
    (fun s e _ => queue_balance G validate s e) es
  have taken_eq := observe_refine (f := fun s : State γ μ => s.device.processing)
    (fun s e => processing_next G validate s e)
    (fun s e => received_eq_taken G validate s e) (boot g) es
  have hand := bits_run validate (processingRun G validate (boot g : State γ μ) es)
  rw [boot_items, List.nil_append] at queue
  rw [boot_processing] at taken_eq
  rw [State.waiting, processing_run, boot_processing, queue, taken_eq, ← List.append_assoc]
  exact congrArg (· ++ _) hand.symm

theorem deaths_run (g : γ) (es : List (Event μ)) :
    (run (next G validate) (boot g) es).device.processing.deaths ++
        owed 4 (run (next G validate) (boot g) es).device.processing.pc =
      hitsOf validate (decided G validate g es) := by
  rw [processing_run, boot_processing, (tail_run validate _).1]
  exact (hits_run validate (by omega) _).symm

theorem hitsOf_bits (ds : List Dequeued) :
    (hitsOf validate ds).map Laser.bits = (ds.filter Dequeued.hit).map Dequeued.bits := by
  rw [hitsOf, List.map_map]
  rfl

/-- Under every interleaving the words settled, in hand and queued are some of the offered
ones, each at most once and in the order of the offers; the others found the queue full. -/
theorem offers_accounted (g : γ) (es : List (Event μ)) :
    let s := run (next G validate) (boot g) es
    let offers := es.filterMap Event.word?
    ((decided G validate g es).map Dequeued.bits ++ s.waiting).Sublist offers ∧
    offers.length = (decided G validate g es).length + s.waiting.length +
      (observe (next G validate) lost (boot g) es).length ∧
    (s.device.processing.deaths.map Laser.bits).Sublist offers := by
  intro s offers
  have accounted := accepted_accounted G validate g es
  have sub : ((decided G validate g es).map Dequeued.bits ++ s.waiting).Sublist offers := by
    rw [← accounted, show offers = _ from (observe_offered G validate (boot g) es).symm]
    exact observe_sublist accepted_sublist_offered _ es
  have count := observe_length_add (next G validate) offered_length (boot g) es
  rw [observe_offered] at count
  refine ⟨sub, ?_, ?_⟩
  · rw [accounted, List.length_append, List.length_map] at count
    exact count
  · have recorded : (s.device.processing.deaths.map Laser.bits).Sublist
        ((decided G validate g es).map Dequeued.bits) := by
      refine List.Sublist.trans ?_ ((List.filter_sublist (p := Dequeued.hit)).map Dequeued.bits)
      rw [← hitsOf_bits validate, ← deaths_run, List.map_append]
      exact List.sublist_append_left _ _
    exact recorded.trans ((List.sublist_append_left _ _).trans sub)

/-! ## Work in the queue -/

def passSteps : ℕ := 14

def isOffer (e : Event μ) : Bool := e.word?.isSome

def isProcessing : Event μ → Bool
  | .device (.processing _) => true
  | _ => false

open ExpectationExpiry (stepsLeft stepsLeft_next)

def State.work (s : State γ μ) : ℕ :=
  passSteps * s.photodiodeMessageQueue.items.length + stepsLeft s.device.processing.pc

theorem stepsLeft_lt (pc : Pc) : stepsLeft pc < passSteps := by
  cases pc <;> simp [stepsLeft, passSteps]

theorem work_processing (s : State γ μ) (e : Event μ) (he : isProcessing e = true) :
    (next G validate s e).work ≤ s.work - 1 := by
  cases e with
  | offer word => cases he
  | device e =>
    cases e with
    | processing a =>
      have hnext := processing_next G validate s (.device (.processing a))
      simp only [processingEvents, run, List.foldl_cons, List.foldl_nil] at hnext
      unfold State.work
      rw [hnext]
      cases hpc : s.device.processing.pc with
      | receive =>
        simp only [next, State.receives, hpc, atReceive, if_true, Queue.receive_items]
        cases hq : s.photodiodeMessageQueue.items with
        | nil => simp [ProcessingTask.next, ProcessingTask.State.taskStep, hpc, stepsLeft]
        | cons w ws =>
          have := stepsLeft_lt (ProcessingTask.next validate s.device.processing (.task { a with
            word := (w :: ws).head?
            respawning := s.device.respawning G })).pc
          have waits : stepsLeft Pc.receive = 0 := rfl
          simp only [List.tail_cons, List.length_cons, waits]
          unfold passSteps at *
          omega
      | _ =>
        have hpos : 0 < stepsLeft s.device.processing.pc := by rw [hpc]; simp [stepsLeft]
        have hlt := stepsLeft_next validate s.device.processing (.task { a with
            word := s.photodiodeMessageQueue.items.head?
            respawning := s.device.respawning G }) rfl hpos
        simp only [next, State.receives, hpc, atReceive, Bool.false_eq_true, if_false] at hlt ⊢
        omega
    | _ => cases he

theorem work_other (s : State γ μ) (e : Event μ) (he : isProcessing e = false) :
    (next G validate s e).work ≤ s.work + passSteps * (offered s e).length := by
  cases e with
  | offer word =>
    have := (s.photodiodeMessageQueue.accepted_sublist word).length_le
    simp only [State.work, next, offered, Event.word?, Option.toList_some, Queue.send_items,
      List.length_append, List.length_singleton] at this ⊢
    unfold passSteps
    omega
  | device e =>
    cases e with
    | processing a => cases he
    | _ => exact Nat.le_refl _

theorem words_length (es : List (Event μ)) :
    (es.filterMap Event.word?).length = es.countP isOffer := List.length_filterMap_eq_countP

/-- The offers of any stretch of the run exceed what the queue holds by no more than what
`processing_task` can take off it in the stretch. -/
def Paced (es : List (Event μ)) : Prop :=
  ∀ pre mid post, es = pre ++ mid ++ post →
    passSteps * mid.countP isOffer < passSteps * (queueLength + 1) + mid.countP isProcessing

/-- As many offers as the queue is long can come at any time. -/
theorem paced_of_burst {es : List (Event μ)} (h : es.countP isOffer ≤ queueLength) : Paced es := by
  rintro pre mid post rfl
  rw [List.countP_append, List.countP_append] at h
  unfold passSteps
  omega

/-- A paced run that starts with nothing to do never finds the queue full. -/
theorem queue_has_room {s : State γ μ} (hs : s.work = 0) {pre : List (Event μ)} {word : UInt32}
    {post : List (Event μ)} (h : Paced (pre ++ .offer word :: post)) :
    (run (next G validate) s pre).photodiodeMessageQueue.items.length < queueLength := by
  obtain ⟨p, m, rfl, hwork⟩ := run_backlog (next G validate) State.work isProcessing offered
    passSteps (work_processing G validate) (work_other G validate) hs pre
  rw [observe_offered, words_length] at hwork
  have hpaced := h p (m ++ [.offer word]) post (by simp)
  rw [List.countP_append, List.countP_append, List.countP_singleton, List.countP_singleton]
    at hpaced
  simp only [isOffer, Event.word?, Option.isSome_some, isProcessing, if_true, Bool.false_eq_true,
    if_false] at hpaced
  simp only [State.work] at hwork
  unfold passSteps at *
  omega

theorem paced_loses_nothing {s : State γ μ} (hs : s.work = 0) {es : List (Event μ)}
    (h : Paced es) : observe (next G validate) lost s es = [] := by
  rw [observe_nil_iff]
  rintro pre e post rfl
  cases e with
  | offer word => exact Queue.lost_of_lt (queue_has_room G validate hs h) word
  | device e => rfl

/-- In a paced run no word is lost: every offered word is settled or waiting, once, in order. -/
theorem offers_settled_once (g : γ) (es : List (Event μ)) (h : Paced es) :
    observe (next G validate) lost (boot g) es = [] ∧
    es.filterMap Event.word? =
      (decided G validate g es).map Dequeued.bits ++
        (run (next G validate) (boot g) es).waiting := by
  have none_lost := paced_loses_nothing G validate (s := boot g) rfl h
  refine ⟨none_lost, ?_⟩
  obtain ⟨sub, count, -⟩ := offers_accounted G validate g es
  rw [none_lost, List.length_nil, Nat.add_zero] at count
  refine (sub.eq_of_length ?_).symm
  rw [count, List.length_append, List.length_map]

end MessageQueue
