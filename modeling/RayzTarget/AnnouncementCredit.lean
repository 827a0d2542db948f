import Mathlib.Order.Interval.Finset.Nat
import RayzTarget.ProcessingTally

/-! # Which announcement a hit is credited to

The device is run together with a ledger that numbers the announcements of the game server.
A hit is credited to the announcement in force when its word was found to match. -/
namespace AnnouncementCredit

open TargetConfig EventRuns ProcessingTask ProcessingTally

variable (validate : UInt32 → Bool × UInt8 × UInt8)

/-- The device, the announcements so far, and the one in force at the last match. -/
structure Audited where
  device : State
  announced : ℕ
  matchedUnder : ℕ

def audited : Audited := ⟨boot, 0, 0⟩

def announces : Event → Bool
  | .server e _ => e.hasExpectedMessage
  | .task _ => false

/-- The step checks a word, under the mutex, that equals a fresh expectation. -/
def finds (s : State) : Event → Bool
  | .task a => match s.pc with
    | .stats l _ => a.mutexTaken && s.expectation.meets a.tickCount l.bits
    | _ => false
  | .server _ _ => false

def auditNext (x : Audited) (e : Event) : Audited where
  device := next validate x.device e
  announced := if announces e then x.announced + 1 else x.announced
  matchedUnder := if finds x.device e then x.announced else x.matchedUnder

def matched (x : Audited) (e : Event) : List ℕ := if finds x.device e then [x.announced] else []

/-- The announcement to which the death recorded by this step is credited. -/
def credited (x : Audited) (e : Event) : List ℕ :=
  (emitted 4 x.device e).map fun _ => x.matchedUnder

/-- Between any two matches of the run the server makes an announcement. -/
def AnnouncedBetween (es : List Event) : Prop :=
  ∀ pre e mid f post, es = pre ++ e :: (mid ++ f :: post) →
    finds (run (next validate) boot pre) e = true →
    finds (run (next validate) boot (pre ++ e :: mid)) f = true →
    ∃ g ∈ mid, announces g = true

theorem audited_device (es : List Event) :
    (run (auditNext validate) audited es).device = run (next validate) boot es :=
  run_project Audited.device (fun _ _ => rfl) audited es

theorem audited_announced (es : List Event) :
    (run (auditNext validate) audited es).announced = es.countP announces := by
  induction es using List.reverseRecOn with
  | nil => rfl
  | append_singleton es e ih =>
    by_cases he : announces e = true <;> simp [auditNext, he, ih]

/-- A match is a settled hit, and the only one of its step. -/
theorem hits_length (s : State) (e : Event) :
    (hitsOf validate (settled validate s e)).length = if finds s e then 1 else 0 := by
  cases e with
  | server e all => simp [settled, finds, hitsOf]
  | task a =>
    cases hpc : s.pc with
    | receive =>
      cases hw : a.word with
      | none => simp [settled, hpc, hw, finds, hitsOf]
      | some bits =>
        by_cases hv : (validate bits).1 = true <;>
          simp [settled, hpc, hw, hv, finds, hitsOf, Dequeued.hit]
    | respawnCheck l =>
      by_cases hr : a.respawning = true <;> simp [settled, hpc, hr, finds, hitsOf, Dequeued.hit]
    | stats l unlocked =>
      by_cases hm : (a.mutexTaken && s.expectation.meets a.tickCount l.bits) = true <;>
        simp [settled, hpc, finds, hitsOf, Dequeued.hit, hm]
    | _ => simp [settled, hpc, finds, hitsOf]

/-- At a match no earlier hit is still in the tail. -/
theorem idle_of_finds {s : State} {e : Event} (h : finds s e = true) (k : ℕ) :
    owed k s.pc = [] ∧ emitted k s e = [] := by
  cases e with
  | server e all => simp [finds] at h
  | task a =>
    cases hpc : s.pc with
    | stats l unlocked => simp [owed, stage, emitted, hpc]
    | _ => simp [finds, hpc] at h

/-- A match enters the ledger when it is found and leaves it when its death is recorded. -/
theorem credit_balance {x : Audited} (h : Decoded validate x.device) (e : Event) :
    (owed 4 x.device.pc).map (fun _ => x.matchedUnder) ++ matched x e =
      credited x e ++ (owed 4 (auditNext validate x e).device.pc).map
        fun _ => (auditNext validate x e).matchedUnder := by
  have balance := owed_balance validate (k := 4) (by omega) h e
  have hits := hits_length validate x.device e
  by_cases hf : finds x.device e = true
  · obtain ⟨howed, hemitted⟩ := idle_of_finds hf 4
    rw [howed, hemitted, List.nil_append, List.nil_append] at balance
    rw [balance, if_pos hf] at hits
    simp [matched, credited, howed, hemitted, auditNext, hf, List.map_const', hits]
  · rw [if_neg hf, List.length_eq_zero_iff] at hits
    rw [hits, List.append_nil] at balance
    simp [matched, credited, auditNext, hf, balance]

/-- Every match is credited once its death is recorded. -/
theorem matched_run (es : List Event) :
    observe (auditNext validate) matched audited es =
      observe (auditNext validate) credited audited es ++
        (owed 4 (run (next validate) boot es).pc).map
          fun _ => (run (auditNext validate) audited es).matchedUnder := by
  have balance := observe_balance (s := audited) (auditNext validate) matched credited
    (fun x => (owed 4 x.device.pc).map fun _ => x.matchedUnder)
    (fun x => Decoded validate x.device) (decoded_boot validate)
    (fun x e h => decoded_next validate h e) (fun x e h => credit_balance validate h e) es
  have idle : owed 4 audited.device.pc = [] := rfl
  simpa [idle, audited_device] using balance

theorem present_of_finds {s : State} {e : Event} (h : finds s e = true) :
    s.expectation.hasExpectedMessage = true := by
  cases e with
  | server e all => simp [finds] at h
  | task a =>
    cases hpc : s.pc with
    | stats l unlocked =>
      simp only [finds, hpc, Expectation.meets, Expectation.fresh, Bool.and_eq_true] at h
      exact h.2.1.1
    | _ => simp [finds, hpc] at h

/-- An expectation is present only after an announcement. -/
theorem announced_pos (es : List Event) :
    (run (next validate) boot es).expectation.hasExpectedMessage = true →
      0 < es.countP announces := by
  induction es using List.reverseRecOn with
  | nil => simp [boot]
  | append_singleton es e ih =>
    rw [run_snoc, List.countP_append]
    cases e with
    | server e all =>
      intro he
      have he : e.hasExpectedMessage = true := he
      simp [announces, he]
    | task a =>
      rw [next_expectation]
      intro he
      exact Nat.lt_of_lt_of_le (ih he) (Nat.le_add_right _ _)

/-- A match is numbered by the announcements before it. -/
theorem mem_matched_iff (es : List Event) (n : ℕ) :
    n ∈ observe (auditNext validate) matched audited es ↔
      ∃ pre e post, es = pre ++ e :: post ∧ finds (run (next validate) boot pre) e = true ∧
        n = pre.countP announces := by
  rw [mem_observe_iff]
  constructor
  · rintro ⟨pre, e, post, hes, hn⟩
    by_cases hf : finds (run (next validate) boot pre) e = true
    · exact ⟨pre, e, post, hes, hf, by
        simpa [matched, audited_device, hf, audited_announced] using hn⟩
    · simp [matched, audited_device, hf] at hn
  · rintro ⟨pre, e, post, hes, hf, rfl⟩
    exact ⟨pre, e, post, hes, by simp [matched, audited_device, hf, audited_announced]⟩

theorem announcedBetween_before {es : List Event} {e : Event}
    (h : AnnouncedBetween validate (es ++ [e])) : AnnouncedBetween validate es := by
  intro pre x mid f post hes
  exact h pre x mid f (post ++ [e]) (by simp [hes])

/-- The matches are under distinct announcements exactly when one is made in between. -/
theorem matched_nodup_iff (es : List Event) :
    (observe (auditNext validate) matched audited es).Nodup ↔ AnnouncedBetween validate es := by
  constructor
  · rintro h pre e mid f post rfl he hf
    by_contra hmid
    have quiet : mid.countP announces = 0 := by
      rw [List.countP_eq_zero]
      intro g hg ha
      exact hmid ⟨g, hg, ha⟩
    have heard : announces e = false := by
      cases e with
      | server e all => simp [finds] at he
      | task a => rfl
    have first : pre.countP announces ∈
        observe (auditNext validate) matched audited (pre ++ e :: mid) :=
      (mem_matched_iff ..).mpr ⟨pre, e, mid, rfl, he, rfl⟩
    have second : (pre ++ e :: mid).countP announces = pre.countP announces := by
      simp [heard, quiet]
    have split : pre ++ e :: (mid ++ f :: post) = (pre ++ e :: mid) ++ f :: post := by simp
    rw [split, observe_append, observe] at h
    have apart := (List.nodup_append.mp h).2.2 _ first (pre.countP announces)
    simp [matched, audited_device, hf, audited_announced, second] at apart
  · intro h
    induction es using List.reverseRecOn with
    | nil => exact List.nodup_nil
    | append_singleton es f ih =>
      rw [observe_snoc]
      have before := ih (announcedBetween_before validate h)
      by_cases hf : finds (run (next validate) boot es) f = true
      · refine List.nodup_append.mpr ⟨before, by simp [matched, audited_device, hf], ?_⟩
        rintro n hn m hm rfl
        obtain ⟨pre, e, mid, rfl, he, hn⟩ := (mem_matched_iff ..).mp hn
        obtain ⟨g, hg, ha⟩ := h pre e mid f [] (by simp) he hf
        have between : 0 < mid.countP announces := List.countP_pos_iff.mpr ⟨g, hg, ha⟩
        have count : n = (pre ++ e :: mid).countP announces := by
          simpa [matched, audited_device, hf, audited_announced] using hm
        rw [List.countP_append, List.countP_cons] at count
        omega
      · simpa [matched, audited_device, hf] using before

/-- Distinct matches are no more than the announcements. -/
theorem matched_length_le {es : List Event}
    (h : (observe (auditNext validate) matched audited es).Nodup) :
    (observe (auditNext validate) matched audited es).length ≤ es.countP announces := by
  have inside : (observe (auditNext validate) matched audited es).toFinset ⊆
      Finset.Icc 1 (es.countP announces) := by
    intro n hn
    obtain ⟨pre, e, post, rfl, hf, rfl⟩ :=
      (mem_matched_iff ..).mp (List.mem_toFinset.mp hn)
    have positive := announced_pos validate pre (present_of_finds hf)
    simp only [Finset.mem_Icc, List.countP_append]
    omega
  have card := Finset.card_le_card inside
  rwa [List.toFinset_card_of_nodup h, Nat.card_Icc, Nat.add_sub_cancel] at card

/-- No stage of the tail has let more hits pass than there were matches. -/
theorem emitted_length_le {k : ℕ} (hk : k ≤ 7) (es : List Event) :
    (observe (next validate) (emitted k) boot es).length ≤
      (observe (auditNext validate) matched audited es).length := by
  have count : ∀ es : List Event,
      (hitsOf validate (observe (next validate) (settled validate) boot es)).length =
        (observe (auditNext validate) matched audited es).length := by
    intro es
    induction es using List.reverseRecOn with
    | nil => rfl
    | append_singleton es e ih =>
      have hits := hits_length validate (run (next validate) boot es) e
      rw [observe_snoc, observe_snoc, List.length_append, ← ih, matched, audited_device]
      have split : hitsOf validate (observe (next validate) (settled validate) boot es ++
          settled validate (run (next validate) boot es) e) =
          hitsOf validate (observe (next validate) (settled validate) boot es) ++
            hitsOf validate (settled validate (run (next validate) boot es) e) := by
        simp [hitsOf]
      rw [split, List.length_append, hits]
      by_cases hf : finds (run (next validate) boot es) e = true <;> simp [hf]
  rw [← count, hits_run validate hk, List.length_append]
  exact Nat.le_add_right _ _

/-- An announcement is credited with at most one hit as long as the server announces between
any two matches, and whenever the loop waits for a word it is only then. -/
theorem credited_once_iff_announced_between (es : List Event) :
    (AnnouncedBetween validate es →
      (observe (auditNext validate) credited audited es).Nodup ∧
      (run (next validate) boot es).deaths.length ≤ es.countP announces ∧
      (run (next validate) boot es).hitStats.hitCount.toNat ≤ es.countP announces ∧
      (run (next validate) boot es).broadcasts.length ≤ es.countP announces) ∧
    ((run (next validate) boot es).pc = .receive →
      ((observe (auditNext validate) credited audited es).Nodup ↔
        AnnouncedBetween validate es)) := by
  have settledCredit := matched_run validate es
  constructor
  · intro h
    have distinct := (matched_nodup_iff validate es).mpr h
    have bound : ∀ k ≤ 7, (observe (next validate) (emitted k) boot es).length ≤
        es.countP announces := fun k hk =>
      (emitted_length_le validate hk es).trans (matched_length_le validate distinct)
    obtain ⟨hd, hc, -, hb⟩ := tail_run validate es
    refine ⟨?_, ?_, ?_, ?_⟩
    · rw [settledCredit] at distinct
      exact (List.nodup_append.mp distinct).1
    · rw [hd]
      exact bound 4 (by omega)
    · rw [hc, UInt32.toNat_ofNat']
      exact (Nat.mod_le _ _).trans (bound 5 (by omega))
    · have length := congrArg List.length hb
      rw [List.length_map, List.length_map] at length
      rw [length]
      exact bound 7 le_rfl
  · intro hpc
    rw [← matched_nodup_iff, settledCredit, hpc]
    simp [owed, stage]

/-- Two words under one announcement: both are recorded as deaths. -/
theorem one_announcement_two_deaths :
    let es := .server ⟨7, true, 100⟩ 1 :: (sevenPasses 200 ++ sevenPasses 300)
    es.countP announces = 1 ∧
    (run (next fun _ => (true, 1, 2)) boot es).deaths.length = 2 ∧
    ¬ (observe (auditNext fun _ => (true, 1, 2)) credited audited es).Nodup := by
  decide

end AnnouncementCredit
