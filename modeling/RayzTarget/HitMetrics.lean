import RayzTarget.ProcessingTask
import RayzTarget.WrappedClock

/-! # The hit metrics of `game_task.cpp`

The time of the last hit is kept as a 32-bit millisecond value, and zero stands for "no hit
yet". Hits and queries come at nondecreasing times of the microsecond timer. -/
namespace HitMetrics

open ProcessingTask EventRuns WrappedClock

def metricLastHitMsAgo (h : HitStats) (timerUs : ℕ) : UInt32 :=
  if h.lastHitMs = 0 then 4294967295 else timerMs timerUs - h.lastHitMs

inductive Event where
  | hit (timerUs : ℕ)
  | query (timerUs : ℕ)

def Event.timerUs : Event → ℕ
  | .hit timerUs => timerUs
  | .query timerUs => timerUs

def boot : HitStats := ⟨0, 0⟩

def next (h : HitStats) : Event → HitStats
  | .hit timerUs => h.gameTaskRecordHit timerUs
  | .query _ => h

def lastHit (es : List Event) : Option ℕ :=
  es.foldl (fun last e => match e with
    | .hit timerUs => some timerUs
    | .query _ => last) none

/-- What a query is to answer: that nothing was hit yet, or the milliseconds since the last
hit, as long as they are less than the value that says "no hit"; never that value after a hit. -/
def Reported (last : Option ℕ) (timerUs : ℕ) (answer : UInt32) : Prop :=
  match last with
  | none => answer.toNat = 2 ^ 32 - 1
  | some hitUs =>
    (timerUs / 1000 - hitUs / 1000 < 2 ^ 32 - 1 →
      answer.toNat = timerUs / 1000 - hitUs / 1000) ∧ answer.toNat ≠ 2 ^ 32 - 1

theorem lastHit_snoc (es : List Event) (e : Event) : lastHit (es ++ [e]) = match e with
    | .hit timerUs => some timerUs
    | .query _ => lastHit es := by
  rw [lastHit, List.foldl_append]
  cases e <;> rfl

theorem lastHit_mem {es : List Event} {hitUs : ℕ} (h : lastHit es = some hitUs) :
    Event.hit hitUs ∈ es := by
  induction es using List.reverseRecOn with
  | nil => cases h
  | append_singleton es e ih =>
    rw [lastHit_snoc] at h
    cases e with
    | hit timerUs =>
      rw [Option.some.inj h]
      exact List.mem_append_right _ List.mem_cons_self
    | query timerUs => exact List.mem_append_left _ (ih h)

/-- The stored value is the last hit's millisecond count, cut to 32 bits. -/
theorem lastHitMs_run (es : List Event) : (run next boot es).lastHitMs =
    match lastHit es with
    | none => 0
    | some hitUs => timerMs hitUs := by
  induction es using List.reverseRecOn with
  | nil => rfl
  | append_singleton es e ih =>
    rw [run_snoc, lastHit_snoc]
    cases e with
    | hit timerUs => rfl
    | query timerUs => exact ih

theorem timerMs_eq_zero_iff (timerUs : ℕ) :
    timerMs timerUs = 0 ↔ timerUs / 1000 % 2 ^ 32 = 0 := by
  rw [← UInt32.toNat_inj, timerMs, UInt32.toNat_ofNat', UInt32.toNat_zero]

theorem reported_after_hit_iff {s : HitStats} {hitUs timerUs : ℕ}
    (hs : s.lastHitMs = timerMs hitUs) (hle : hitUs ≤ timerUs) :
    Reported (some hitUs) timerUs (metricLastHitMsAgo s timerUs) ↔
      hitUs / 1000 % 2 ^ 32 ≠ 0 ∧
        (timerUs / 1000 - hitUs / 1000) % 2 ^ 32 ≠ 2 ^ 32 - 1 := by
  have hms : hitUs / 1000 ≤ timerUs / 1000 := Nat.div_le_div_right hle
  simp only [metricLastHitMsAgo, hs, timerMs_eq_zero_iff]
  by_cases hz : hitUs / 1000 % 2 ^ 32 = 0
  · rw [if_pos hz]
    constructor
    · intro h
      exact absurd rfl h.2
    · intro h
      exact absurd hz h.1
  · rw [if_neg hz, Reported, timerMs, timerMs, elapsed hms]
    constructor
    · intro h
      exact ⟨hz, h.2⟩
    · intro h
      exact ⟨fun hlt => Nat.mod_eq_of_lt (by omega), h.2⟩

theorem query_reported_iff {pre : List Event} {timerUs : ℕ}
    (hbefore : ∀ t ∈ pre.map Event.timerUs, t ≤ timerUs) :
    Reported (lastHit pre) timerUs (metricLastHitMsAgo (run next boot pre) timerUs) ↔
      ∀ hitUs, lastHit pre = some hitUs → hitUs / 1000 % 2 ^ 32 ≠ 0 ∧
        (timerUs / 1000 - hitUs / 1000) % 2 ^ 32 ≠ 2 ^ 32 - 1 := by
  have hms := lastHitMs_run pre
  cases hlast : lastHit pre with
  | none =>
    rw [hlast] at hms
    simp [metricLastHitMsAgo, hms, Reported]
  | some hitUs =>
    rw [hlast] at hms
    have hle : hitUs ≤ timerUs := hbefore hitUs (List.mem_map_of_mem (lastHit_mem hlast))
    simp [reported_after_hit_iff hms hle]

/-- Every query of a run answers right exactly if no hit before it fell on a millisecond that
the stored value shows as zero, and no elapsed time shows as the "no hit" value. -/
theorem lastHitMsAgo_reported_iff (es : List Event)
    (hclock : (es.map Event.timerUs).Pairwise (· ≤ ·)) :
    (∀ pre timerUs post, es = pre ++ .query timerUs :: post →
      Reported (lastHit pre) timerUs (metricLastHitMsAgo (run next boot pre) timerUs)) ↔
    ∀ pre timerUs post, es = pre ++ .query timerUs :: post → ∀ hitUs, lastHit pre = some hitUs →
      hitUs / 1000 % 2 ^ 32 ≠ 0 ∧
        (timerUs / 1000 - hitUs / 1000) % 2 ^ 32 ≠ 2 ^ 32 - 1 := by
  have hbefore : ∀ pre timerUs post, es = pre ++ .query timerUs :: post →
      ∀ t ∈ pre.map Event.timerUs, t ≤ timerUs := by
    intro pre timerUs post hes t ht
    rw [hes, List.map_append, List.map_cons] at hclock
    exact (List.pairwise_append.mp hclock).2.2 t ht timerUs List.mem_cons_self
  constructor
  · intro h pre timerUs post hes
    exact (query_reported_iff (hbefore pre timerUs post hes)).mp (h pre timerUs post hes)
  · intro h pre timerUs post hes
    exact (query_reported_iff (hbefore pre timerUs post hes)).mpr (h pre timerUs post hes)

theorem lastHitMsAgo_reported_iff_two_seconds :
    (∀ pre timerUs post, [Event.hit 1000000, .query 3000000] = pre ++ .query timerUs :: post →
      Reported (lastHit pre) timerUs (metricLastHitMsAgo (run next boot pre) timerUs)) ↔
    ∀ pre timerUs post, [Event.hit 1000000, .query 3000000] = pre ++ .query timerUs :: post →
      ∀ hitUs, lastHit pre = some hitUs → hitUs / 1000 % 2 ^ 32 ≠ 0 ∧
        (timerUs / 1000 - hitUs / 1000) % 2 ^ 32 ≠ 2 ^ 32 - 1 :=
  lastHitMsAgo_reported_iff [.hit 1000000, .query 3000000] (by decide)

/-- A hit 2^32 milliseconds after the start is answered with "no hit" five milliseconds later. -/
theorem hit_at_wrap_reported_as_none :
    lastHit [.hit (2 ^ 32 * 1000)] = some (2 ^ 32 * 1000) ∧
      (2 ^ 32 * 1000 + 5000) / 1000 - 2 ^ 32 * 1000 / 1000 = 5 ∧
      metricLastHitMsAgo (run next boot [.hit (2 ^ 32 * 1000)]) (2 ^ 32 * 1000 + 5000) =
        4294967295 := by
  decide

end HitMetrics
