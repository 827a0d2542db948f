import RayzTarget.ProcessingTask

/-! # The tallies of `processing_task`

Every dequeued word is settled once: invalid, dropped while respawning, or checked against
the expectation in force under the mutex. A checked word that meets the expectation is a
hit, and passes the calls of the tail one after the other. -/
namespace ProcessingTally

open TargetConfig EventRuns ProcessingTask

variable (validate : UInt32 → Bool × UInt8 × UInt8)

inductive Verdict where
  | invalid
  | respawning
  | checked (mutexTaken : Bool) (tickCount : UInt32) (e : Expectation)

structure Dequeued where
  bits : UInt32
  verdict : Verdict

/-- The word met an expectation that was present and fresh while the mutex was held. -/
def Dequeued.fresh (d : Dequeued) : Bool :=
  match d.verdict with
  | .checked mutexTaken tickCount e => mutexTaken && e.fresh tickCount
  | _ => false

def Dequeued.hit (d : Dequeued) : Bool :=
  match d.verdict with
  | .checked mutexTaken tickCount e => mutexTaken && e.meets tickCount d.bits
  | _ => false

def taken (s : State) : Event → List UInt32
  | .task a => match s.pc with
    | .receive => a.word.toList
    | _ => []
  | .server _ _ => []

/-- The words whose fate a step decides, with what the calls answered. -/
def settled (s : State) : Event → List Dequeued
  | .task a => match s.pc with
    | .receive => match a.word with
      | some bits => if (validate bits).1 then [] else [⟨bits, .invalid⟩]
      | none => []
    | .respawnCheck l => if a.respawning then [⟨l.bits, .respawning⟩] else []
    | .stats l _ => [⟨l.bits, .checked a.mutexTaken a.tickCount s.expectation⟩]
    | _ => []
  | .server _ _ => []

def unsettled : Pc → List UInt32
  | .respawnCheck l => [l.bits]
  | .snapshot l => [l.bits]
  | .stats l _ => [l.bits]
  | _ => []

/-- Where a hit stands on its way through the tail of the loop. -/
def stage : Pc → Option (ℕ × Laser)
  | .log l true _ => some (0, l)
  | .vibrate l => some (1, l)
  | .delay l => some (2, l)
  | .release l => some (3, l)
  | .recordDeath l => some (4, l)
  | .recordHit l => some (5, l)
  | .postHit l => some (6, l)
  | .broadcast l => some (7, l)
  | _ => none

/-- The hit that has not yet passed stage `k`. -/
def owed (k : ℕ) (pc : Pc) : List Laser :=
  match stage pc with
  | some (i, l) => if i ≤ k then [l] else []
  | none => []

/-- The hit whose stage `k` is this step. -/
def emitted (k : ℕ) (s : State) : Event → List Laser
  | .task _ => match stage s.pc with
    | some (i, l) => if i = k then [l] else []
    | none => []
  | .server _ _ => []

def aloft (pc : Pc) : List Laser :=
  match stage pc with
  | some (i, l) => if 4 < i ∧ i ≤ 7 then [l] else []
  | none => []

def sent (s : State) : Event → List PlayerMessage
  | .task a => match s.pc with
    | .broadcast l => [hitMessage l a]
    | _ => []
  | .server _ _ => []

def hitsOf (ds : List Dequeued) : List Laser :=
  (ds.filter Dequeued.hit).map fun d => decode validate d.bits

def laser? : Pc → Option Laser
  | .receive => none
  | .respawnCheck l => some l
  | .snapshot l => some l
  | .stats l _ => some l
  | .log l _ _ => some l
  | .vibrate l => some l
  | .delay l => some l
  | .release l => some l
  | .recordDeath l => some l
  | .recordHit l => some l
  | .postHit l => some l
  | .broadcast l => some l
  | .report => none
  | .notifyBrowsers => none

def Decoded (s : State) : Prop :=
  ∀ l, laser? s.pc = some l → (validate l.bits).1 = true ∧ l = decode validate l.bits

def carried (m : PlayerMessage) : EspnowMsgType × Laser :=
  (m.type, ⟨m.data, m.playerId, m.deviceId⟩)

theorem decoded_next {s : State} (h : Decoded validate s) (e : Event) :
    Decoded validate (next validate s e) := by
  cases e with
  | server e all => exact h
  | task a =>
    unfold Decoded at h ⊢
    cases hpc : s.pc with
    | receive =>
      simp only [next, State.taskStep, hpc]
      cases a.word with
      | none => simpa [hpc] using h
      | some bits =>
        by_cases hv : (validate bits).1 = true
        · simp [hv, laser?, decode]
        · simpa [hv, hpc] using h
    | respawnCheck l =>
      by_cases hr : a.respawning = true
      · simp [next, State.taskStep, hpc, hr, laser?]
      · simpa [next, State.taskStep, hpc, hr, laser?] using h
    | stats l unlocked =>
      by_cases ht : a.mutexTaken = true <;>
        simpa [next, State.taskStep, hpc, ht, laser?, State.statsSection] using h
    | log l m line =>
      cases m with
      | false => simp [next, State.taskStep, hpc, laser?]
      | true => simpa [next, State.taskStep, hpc, laser?] using h
    | report =>
      by_cases hb : a.browserConnected = true <;>
        simp [next, State.taskStep, hpc, hb, laser?]
    | broadcast l => simp [next, State.taskStep, hpc, laser?]
    | notifyBrowsers => simp [next, State.taskStep, hpc, laser?]
    | _ => simpa [next, State.taskStep, hpc, laser?] using h

theorem decoded_boot : Decoded validate boot := by
  intro l h
  cases h

/-- A word taken from the queue is in hand until it is settled. -/
theorem unsettled_balance (s : State) (e : Event) :
    unsettled s.pc ++ taken s e =
      (settled validate s e).map Dequeued.bits ++ unsettled (next validate s e).pc := by
  cases e with
  | server e all => simp [taken, settled, next]
  | task a =>
    cases hpc : s.pc with
    | receive =>
      cases hw : a.word with
      | none => simp [taken, settled, next, State.taskStep, hpc, hw, unsettled]
      | some bits =>
        by_cases hv : (validate bits).1 = true <;>
          simp [taken, settled, next, State.taskStep, hpc, hw, hv, unsettled, decode]
    | respawnCheck l =>
      by_cases hr : a.respawning = true <;>
        simp [taken, settled, next, State.taskStep, hpc, hr, unsettled]
    | stats l unlocked =>
      by_cases ht : a.mutexTaken = true <;>
        simp [taken, settled, next, State.taskStep, hpc, ht, unsettled, State.statsSection]
    | log l m line => cases m <;> simp [taken, settled, next, State.taskStep, hpc, unsettled]
    | report =>
      by_cases hb : a.browserConnected = true <;>
        simp [taken, settled, next, State.taskStep, hpc, hb, unsettled]
    | _ => simp [taken, settled, next, State.taskStep, hpc, unsettled]

/-- A hit at stage `i` either passes stage `k` now or is owed to it from stage `i + 1` on. -/
theorem stage_split (i k : ℕ) (l : Laser) :
    (if i ≤ k then [l] else []) = (if i = k then [l] else []) ++ if i + 1 ≤ k then [l] else [] := by
  rcases Nat.lt_trichotomy i k with h | rfl | h
  · simp [h.le, h.ne, Nat.succ_le_of_lt h]
  · simp
  · simp [Nat.not_le_of_gt h, h.ne', Nat.not_le_of_gt (Nat.lt_succ_of_lt h)]

/-- A hit enters the tail when its word is settled and is owed to stage `k` until it passes. -/
theorem owed_balance {k : ℕ} (hk : k ≤ 7) {s : State} (h : Decoded validate s) (e : Event) :
    owed k s.pc ++ hitsOf validate (settled validate s e) =
      emitted k s e ++ owed k (next validate s e).pc := by
  cases e with
  | server e all => simp [settled, hitsOf, emitted, next]
  | task a =>
    cases hpc : s.pc with
    | receive =>
      cases hw : a.word with
      | none => simp [settled, hitsOf, emitted, next, State.taskStep, hpc, hw, owed, stage]
      | some bits =>
        by_cases hv : (validate bits).1 = true <;>
          simp [settled, hitsOf, emitted, next, State.taskStep, hpc, hw, hv, owed, stage,
            Dequeued.hit]
    | respawnCheck l =>
      by_cases hr : a.respawning = true <;>
        simp [settled, hitsOf, emitted, next, State.taskStep, hpc, hr, owed, stage, Dequeued.hit]
    | stats l unlocked =>
      have hl := (h l (by simp [hpc, laser?])).2
      by_cases ht : a.mutexTaken = true
      · by_cases hm : s.expectation.meets a.tickCount l.bits = true <;>
          simp [settled, hitsOf, emitted, next, State.taskStep, hpc, ht, hm, owed, stage,
            Dequeued.hit, State.statsSection, ← hl]
      · simp [settled, hitsOf, emitted, next, State.taskStep, hpc, ht, owed, stage, Dequeued.hit]
    | log l m line =>
      cases m with
      | false => simp [settled, hitsOf, emitted, next, State.taskStep, hpc, owed, stage]
      | true =>
        simp only [settled, hitsOf, emitted, next, State.taskStep, hpc, owed, stage, if_true,
          List.filter_nil, List.map_nil, List.append_nil]
        exact stage_split 0 k l
    | report =>
      by_cases hb : a.browserConnected = true <;>
        simp [settled, hitsOf, emitted, next, State.taskStep, hpc, hb, owed, stage]
    | snapshot l => simp [settled, hitsOf, emitted, next, State.taskStep, hpc, owed, stage]
    | vibrate l =>
      simp only [settled, hitsOf, emitted, next, State.taskStep, hpc, owed, stage, List.filter_nil,
        List.map_nil, List.append_nil]
      exact stage_split 1 k l
    | delay l =>
      simp only [settled, hitsOf, emitted, next, State.taskStep, hpc, owed, stage, List.filter_nil,
        List.map_nil, List.append_nil]
      exact stage_split 2 k l
    | release l =>
      simp only [settled, hitsOf, emitted, next, State.taskStep, hpc, owed, stage, List.filter_nil,
        List.map_nil, List.append_nil]
      exact stage_split 3 k l
    | recordDeath l =>
      simp only [settled, hitsOf, emitted, next, State.taskStep, hpc, owed, stage, List.filter_nil,
        List.map_nil, List.append_nil]
      exact stage_split 4 k l
    | recordHit l =>
      simp only [settled, hitsOf, emitted, next, State.taskStep, hpc, owed, stage, List.filter_nil,
        List.map_nil, List.append_nil]
      exact stage_split 5 k l
    | postHit l =>
      simp only [settled, hitsOf, emitted, next, State.taskStep, hpc, owed, stage, List.filter_nil,
        List.map_nil, List.append_nil]
      exact stage_split 6 k l
    | broadcast l =>
      have h8 : ¬ 7 + 1 ≤ k := by omega
      have split := stage_split 7 k l
      rw [if_neg h8] at split
      simp only [settled, hitsOf, emitted, next, State.taskStep, hpc, owed, stage, List.filter_nil,
        List.map_nil, List.append_nil]
      simpa only [List.append_nil] using split
    | notifyBrowsers => simp [settled, hitsOf, emitted, next, State.taskStep, hpc, owed, stage]

theorem sent_carried (s : State) (e : Event) :
    (sent s e).map carried = (emitted 7 s e).map fun l => (.hitEvent, l) := by
  cases e with
  | server e all => rfl
  | task a =>
    cases hpc : s.pc with
    | log l m line => cases m <;> simp [sent, emitted, hpc, stage]
    | broadcast l => simp [sent, emitted, hpc, stage, carried, hitMessage]
    | _ => simp [sent, emitted, hpc, stage]

/-- What one step adds to the four tallies of the tail. -/
theorem tail_next (s : State) (e : Event) :
    (next validate s e).deaths = s.deaths ++ emitted 4 s e ∧
    (next validate s e).hitStats.hitCount =
      s.hitStats.hitCount + UInt32.ofNat (emitted 5 s e).length ∧
    (next validate s e).hitPosts = s.hitPosts + (emitted 6 s e).length ∧
    (next validate s e).broadcasts = s.broadcasts ++ sent s e := by
  cases e with
  | server e all => simp [next, emitted, sent]
  | task a =>
    cases hpc : s.pc with
    | receive =>
      cases hw : a.word with
      | none => simp [next, State.taskStep, hpc, hw, emitted, stage, sent]
      | some bits =>
        by_cases hv : (validate bits).1 = true <;>
          simp [next, State.taskStep, hpc, hw, hv, emitted, stage, sent]
    | respawnCheck l =>
      by_cases hr : a.respawning = true <;>
        simp [next, State.taskStep, hpc, hr, emitted, stage, sent]
    | stats l unlocked =>
      by_cases ht : a.mutexTaken = true <;>
        simp [next, State.taskStep, hpc, ht, emitted, stage, sent, statsSection_frame]
    | log l m line => cases m <;> simp [next, State.taskStep, hpc, emitted, stage, sent]
    | recordHit l =>
      simp [next, State.taskStep, hpc, emitted, stage, sent, HitStats.gameTaskRecordHit]
    | _ => simp [next, State.taskStep, hpc, emitted, stage, sent]

/-- The counters move under the mutex only, at a word that meets a fresh expectation. -/
theorem counters_next (s : State) (e : Event) :
    (next validate s e).correctMessages =
      s.correctMessages + UInt16.ofNat ((settled validate s e).countP Dequeued.hit) ∧
    (next validate s e).correctMessages + (next validate s e).notExpectedMessages =
      s.correctMessages + s.notExpectedMessages +
        UInt16.ofNat ((settled validate s e).countP Dequeued.fresh) := by
  cases e with
  | server e all => simp [next, settled]
  | task a =>
    cases hpc : s.pc with
    | receive =>
      cases hw : a.word with
      | none => simp [next, State.taskStep, hpc, hw, settled]
      | some bits =>
        by_cases hv : (validate bits).1 = true <;>
          simp [next, State.taskStep, hpc, hw, hv, settled, Dequeued.hit, Dequeued.fresh]
    | respawnCheck l =>
      by_cases hr : a.respawning = true <;>
        simp [next, State.taskStep, hpc, hr, settled, Dequeued.hit, Dequeued.fresh]
    | stats l unlocked =>
      by_cases ht : a.mutexTaken = true
      · by_cases hf : s.expectation.fresh a.tickCount = true
        · by_cases hb : l.bits = s.expectation.expectedMessage
          · simp [next, State.taskStep, hpc, ht, settled, Dequeued.hit, Dequeued.fresh,
              State.statsSection, Expectation.meets, hf, hb]
            rw [UInt16.add_assoc, UInt16.add_comm 1, ← UInt16.add_assoc]
          · simp [next, State.taskStep, hpc, ht, settled, Dequeued.hit, Dequeued.fresh,
              State.statsSection, Expectation.meets, hf, hb, UInt16.add_assoc]
        · simp [next, State.taskStep, hpc, ht, settled, Dequeued.hit, Dequeued.fresh,
            State.statsSection, Expectation.meets, hf]
      · simp [next, State.taskStep, hpc, ht, settled, Dequeued.hit, Dequeued.fresh]
    | _ => simp [next, State.taskStep, hpc, settled]

/-- The tail's tallies over a run from any state grow by what passes their stages. -/
theorem tail_run_from (s : State) (es : List Event) :
    (run (next validate) s es).deaths =
      s.deaths ++ observe (next validate) (emitted 4) s es ∧
    (run (next validate) s es).hitStats.hitCount = s.hitStats.hitCount +
      UInt32.ofNat (observe (next validate) (emitted 5) s es).length ∧
    (run (next validate) s es).hitPosts =
      s.hitPosts + (observe (next validate) (emitted 6) s es).length ∧
    (run (next validate) s es).broadcasts.map carried = s.broadcasts.map carried ++
      (observe (next validate) (emitted 7) s es).map fun l => (.hitEvent, l) := by
  induction es using List.reverseRecOn with
  | nil => simp [observe]
  | append_singleton es e ih =>
    obtain ⟨hd, hc, hp, hb⟩ := ih
    obtain ⟨hd', hc', hp', hb'⟩ := tail_next validate (run (next validate) s es) e
    refine ⟨?_, ?_, ?_, ?_⟩
    · rw [run_snoc, hd', hd, observe_snoc, List.append_assoc]
    · rw [run_snoc, hc', hc, observe_snoc, List.length_append, UInt32.ofNat_add,
        UInt32.add_assoc]
    · rw [run_snoc, hp', hp, observe_snoc, List.length_append, Nat.add_assoc]
    · rw [run_snoc, hb', List.map_append, hb, sent_carried, observe_snoc, List.map_append,
        List.append_assoc]

theorem tail_run (es : List Event) :
    (run (next validate) boot es).deaths = observe (next validate) (emitted 4) boot es ∧
    (run (next validate) boot es).hitStats.hitCount =
      UInt32.ofNat (observe (next validate) (emitted 5) boot es).length ∧
    (run (next validate) boot es).hitPosts =
      (observe (next validate) (emitted 6) boot es).length ∧
    (run (next validate) boot es).broadcasts.map carried =
      (observe (next validate) (emitted 7) boot es).map fun l => (.hitEvent, l) := by
  simpa [boot] using tail_run_from validate boot es

theorem counters_run (es : List Event) :
    (run (next validate) boot es).correctMessages =
      UInt16.ofNat ((observe (next validate) (settled validate) boot es).countP Dequeued.hit) ∧
    (run (next validate) boot es).correctMessages +
        (run (next validate) boot es).notExpectedMessages =
      UInt16.ofNat
        ((observe (next validate) (settled validate) boot es).countP Dequeued.fresh) := by
  induction es using List.reverseRecOn with
  | nil => exact ⟨rfl, rfl⟩
  | append_singleton es e ih =>
    obtain ⟨hc, hn⟩ := ih
    obtain ⟨hc', hn'⟩ := counters_next validate (run (next validate) boot es) e
    constructor
    · simp [hc, hc']
    · rw [run_snoc, hn', hn, observe_snoc, List.countP_append, UInt16.ofNat_add]

/-- The hits of the settled words are those past stage `k` and the one still owed to it. -/
theorem hits_run {k : ℕ} (hk : k ≤ 7) (es : List Event) :
    hitsOf validate (observe (next validate) (settled validate) boot es) =
      observe (next validate) (emitted k) boot es ++ owed k (run (next validate) boot es).pc := by
  have balance := observe_balance (next validate)
    (fun s e => hitsOf validate (settled validate s e)) (emitted k) (fun s => owed k s.pc)
    (Decoded validate) (decoded_boot validate) (fun s e h => decoded_next validate h e)
    (fun s e h => owed_balance validate hk h e) es
  have idle : owed k boot.pc = [] := rfl
  rw [idle, List.nil_append] at balance
  rw [← balance, hitsOf, observe_filter, observe_map]
  rfl

/-- Deaths and broadcasts go in step: the last death may still be on its way to the air. -/
theorem deaths_broadcast (es : List Event) :
    (run (next validate) boot es).deaths =
      (run (next validate) boot es).broadcasts.map (fun m => (carried m).2) ++
        aloft (run (next validate) boot es).pc := by
  obtain ⟨hd, -, -, hb⟩ := tail_run validate es
  have words := congrArg (List.map Prod.snd) hb
  rw [List.map_map, List.map_map] at words
  have both := (hits_run validate (k := 4) (by omega) es).symm.trans
    (hits_run validate (k := 7) le_rfl es)
  rw [hd]
  simp only [Function.comp_def, List.map_id'] at words
  rw [words]
  cases hs : stage (run (next validate) boot es).pc with
  | none => simpa [owed, aloft, hs] using both
  | some il =>
    obtain ⟨i, l⟩ := il
    by_cases h4 : i ≤ 4
    · have h7 : i ≤ 7 := by omega
      simpa [owed, aloft, hs, h4, h7, Nat.not_lt.mpr h4] using both
    · simpa [owed, aloft, hs, h4, Nat.lt_of_not_le h4] using both

/-- Every settled word carries the verdict of `validateLaserMessage`. -/
theorem verdict_invalid_iff (es : List Event) :
    ∀ d ∈ observe (next validate) (settled validate) boot es,
      d.verdict = .invalid ↔ (validate d.bits).1 = false := by
  refine (run_rule (next validate) (settled validate) (fun s r => Decoded validate s ∧
    ∀ d ∈ r, d.verdict = .invalid ↔ (validate d.bits).1 = false)
    ⟨decoded_boot validate, by simp⟩ ?_ es).2
  rintro s r e ⟨hs, hr⟩
  refine ⟨decoded_next validate hs e, ?_⟩
  intro d hd
  rcases List.mem_append.mp hd with hd | hd
  · exact hr d hd
  · cases e with
    | server e all => simp [settled] at hd
    | task a =>
      cases hpc : s.pc with
      | receive =>
        cases hw : a.word with
        | none => simp [settled, hpc, hw] at hd
        | some bits =>
          by_cases hv : (validate bits).1 = true
          · simp [settled, hpc, hw, hv] at hd
          · simp only [settled, hpc, hw, hv, Bool.false_eq_true, if_false,
              List.mem_singleton] at hd
            subst hd
            simpa using hv
      | respawnCheck l =>
        have hl := (hs l (by simp [hpc, laser?])).1
        by_cases hr : a.respawning = true
        · simp only [settled, hpc, hr, if_true, List.mem_singleton] at hd
          subst hd
          simp [hl]
        · simp [settled, hpc, hr] at hd
      | stats l unlocked =>
        have hl := (hs l (by simp [hpc, laser?])).1
        simp only [settled, hpc, List.mem_singleton] at hd
        subst hd
        simp [hl]
      | _ => simp [settled, hpc] at hd

theorem bits_run (es : List Event) :
    (observe (next validate) (settled validate) boot es).map Dequeued.bits ++
        unsettled (run (next validate) boot es).pc =
      observe (next validate) taken boot es := by
  have balance := observe_balance (s := boot) (next validate) taken
    (fun s e => (settled validate s e).map Dequeued.bits) (fun s => unsettled s.pc)
    (fun _ => True) trivial (fun _ _ _ => trivial)
    (fun s e _ => unsettled_balance validate s e) es
  have idle : unsettled boot.pc = [] := rfl
  rw [idle, List.nil_append] at balance
  rw [balance, observe_map]

/-- Whenever the task waits for a word, the five tallies agree with the words it has taken:
one death, one counted hit, one display event and one broadcast for each word that was
valid, found no respawn and met the expectation, and one counter step for each fresh check. -/
theorem tallies_agree (es : List Event)
    (hpc : (run (next validate) boot es).pc = .receive) :
    let s := run (next validate) boot es
    let words := observe (next validate) (settled validate) boot es
    let hits := words.filter Dequeued.hit
    words.map Dequeued.bits = observe (next validate) taken boot es ∧
    (∀ d ∈ words, d.verdict = .invalid ↔ (validate d.bits).1 = false) ∧
    s.broadcasts.map carried =
      hits.map (fun d => (.hitEvent, ⟨d.bits, (validate d.bits).2.1, (validate d.bits).2.2⟩)) ∧
    s.deaths.length = hits.length ∧
    s.hitPosts = hits.length ∧
    s.hitStats.hitCount.toNat = hits.length % 2 ^ 32 ∧
    s.correctMessages.toNat = hits.length % 2 ^ 16 ∧
    (s.correctMessages + s.notExpectedMessages).toNat =
      words.countP Dequeued.fresh % 2 ^ 16 := by
  have passed : ∀ k ≤ 7, observe (next validate) (emitted k) boot es =
      hitsOf validate (observe (next validate) (settled validate) boot es) := by
    intro k hk
    simp [hits_run validate hk es, hpc, owed, stage]
  have count : ∀ k ≤ 7, (observe (next validate) (emitted k) boot es).length =
      ((observe (next validate) (settled validate) boot es).filter Dequeued.hit).length := by
    intro k hk
    simp [passed k hk, hitsOf]
  obtain ⟨hd, hc, hp, hb⟩ := tail_run validate es
  obtain ⟨hcorrect, hfresh⟩ := counters_run validate es
  have hbits := bits_run validate es
  rw [hpc] at hbits
  refine ⟨by simpa [unsettled] using hbits, verdict_invalid_iff validate es, ?_, ?_, ?_, ?_, ?_, ?_⟩
  · rw [hb, passed 7 le_rfl]
    simp [hitsOf, decode]
  · rw [hd, count 4 (by omega)]
  · rw [hp, count 6 (by omega)]
  · rw [hc, count 5 (by omega), UInt32.toNat_ofNat']
  · rw [hcorrect, UInt16.toNat_ofNat', List.countP_eq_length_filter]
  · rw [hfresh, UInt16.toNat_ofNat']

def sevenAt (tickCount : UInt32) : Answers :=
  ⟨some 7, false, true, tickCount, 0, ⟨3, 4, 1, 0⟩, false⟩

def sevenPasses (tickCount : UInt32) : List Event := List.replicate 13 (.task (sevenAt tickCount))

theorem tallies_agree_one_hit :
    (run (next fun _ => (true, 1, 2)) boot
      (.server ⟨7, true, 100⟩ 1 :: sevenPasses 200)).broadcasts.map carried =
        [(.hitEvent, ⟨7, 1, 2⟩)] :=
  (tallies_agree (fun _ => (true, 1, 2)) (.server ⟨7, true, 100⟩ 1 :: sevenPasses 200)
    rfl).2.2.1.trans rfl

end ProcessingTally
