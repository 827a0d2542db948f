import RayzTarget.ProcessingTally
import RayzTarget.WrappedClock

/-! # How long an announcement counts

An expectation is dated by the wrapped tick counter and never cleared. A word checked against
it is followed through the tail of the loop, and compared with the age of the announcement on
an unbounded clock. -/
namespace ExpectationExpiry

open TargetConfig EventRuns ProcessingTask ProcessingTally WrappedClock

variable (validate : UInt32 → Bool × UInt8 × UInt8)

def isTask : Event → Bool
  | .task _ => true
  | .server _ _ => false

/-- The steps left until the task waits for the next word, at most. -/
def stepsLeft : Pc → ℕ
  | .receive => 0
  | .respawnCheck _ => 13
  | .snapshot _ => 12
  | .stats _ _ => 11
  | .log _ _ _ => 10
  | .vibrate _ => 9
  | .delay _ => 8
  | .release _ => 7
  | .recordDeath _ => 6
  | .recordHit _ => 5
  | .postHit _ => 4
  | .broadcast _ => 3
  | .report => 2
  | .notifyBrowsers => 1

/-- Every step of the task away from the queue brings it nearer to the queue. -/
theorem stepsLeft_next (s : State) (e : Event) (he : isTask e = true) (h : 0 < stepsLeft s.pc) :
    stepsLeft (next validate s e).pc < stepsLeft s.pc := by
  cases e with
  | server e all => cases he
  | task a =>
    cases hpc : s.pc with
    | receive => simp [hpc, stepsLeft] at h
    | respawnCheck l =>
      by_cases hr : a.respawning = true <;> simp [next, State.taskStep, hpc, hr, stepsLeft]
    | stats l unlocked =>
      by_cases ht : a.mutexTaken = true <;>
        simp [next, State.taskStep, hpc, ht, stepsLeft, State.statsSection]
    | log l m line => cases m <;> simp [next, State.taskStep, hpc, stepsLeft]
    | report =>
      by_cases hb : a.browserConnected = true <;>
        simp [next, State.taskStep, hpc, hb, stepsLeft]
    | _ => simp [next, State.taskStep, hpc, stepsLeft]

theorem stepsLeft_server (s : State) (e : Event) (he : isTask e = false) :
    stepsLeft (next validate s e).pc = stepsLeft s.pc := by
  cases e with
  | server e all => rfl
  | task a => cases he

/-- In the tail, past the statistics, no word is taken and none is settled. -/
theorem tail_quiet {s : State} (h₀ : 0 < stepsLeft s.pc) (h₁ : stepsLeft s.pc ≤ 10) (e : Event) :
    taken s e = [] ∧ settled validate s e = [] := by
  cases e with
  | server e all => exact ⟨rfl, rfl⟩
  | task a => cases hpc : s.pc <;> simp [hpc, stepsLeft, taken, settled] at *

theorem receive_of_stepsLeft {pc : Pc} (h : stepsLeft pc = 0) : pc = .receive := by
  cases pc <;> simp [stepsLeft] at h ⊢

/-- Between two states the tail has recorded `hits`, in all four of its places. -/
structure Tallied (s s' : State) (hits : List Laser) : Prop where
  deaths : s'.deaths = s.deaths ++ hits
  hitCount : s'.hitStats.hitCount = s.hitStats.hitCount + UInt32.ofNat hits.length
  hitPosts : s'.hitPosts = s.hitPosts + hits.length
  broadcasts : s'.broadcasts.map carried =
    s.broadcasts.map carried ++ hits.map fun l => (.hitEvent, l)

/-- A run that starts at the check, settles nothing after it and ends at the queue records
exactly the checked word, if that met the expectation. -/
theorem tallied_of_quiet {s : State} (hs : Decoded validate s) {l : Laser} {u : StatsLine}
    (hpc : s.pc = .stats l u) (a : Answers) {p : List Event}
    (hquiet : observe (next validate) (settled validate) (next validate s (.task a)) p = [])
    (hend : (run (next validate) s (.task a :: p)).pc = .receive) :
    Tallied s (run (next validate) s (.task a :: p))
      (if a.mutexTaken && s.expectation.meets a.tickCount l.bits then [l] else []) := by
  have hl := (hs l (by rw [hpc]; rfl)).2
  have hsettled : observe (next validate) (settled validate) s (.task a :: p) =
      [⟨l.bits, .checked a.mutexTaken a.tickCount s.expectation⟩] := by
    simp only [observe, hquiet, settled, hpc, List.append_nil]
  have hpassed : ∀ k ≤ 7, observe (next validate) (emitted k) s (.task a :: p) =
      if a.mutexTaken && s.expectation.meets a.tickCount l.bits then [l] else [] := by
    intro k hk
    have balance := observe_balance (s := s) (next validate)
      (fun s e => hitsOf validate (settled validate s e)) (emitted k) (fun s => owed k s.pc)
      (Decoded validate) hs (fun s e h => decoded_next validate h e)
      (fun s e h => owed_balance validate hk h e) (.task a :: p)
    have hits : observe (next validate) (fun s e => hitsOf validate (settled validate s e)) s
        (.task a :: p) = hitsOf validate
          (observe (next validate) (settled validate) s (.task a :: p)) := by
      rw [hitsOf, observe_filter, observe_map]
      rfl
    rw [hits, hsettled, hend, hpc] at balance
    simp only [owed, stage, List.nil_append, List.append_nil] at balance
    rw [← balance, hitsOf]
    by_cases hm : (a.mutexTaken && s.expectation.meets a.tickCount l.bits) = true <;>
      simp [Dequeued.hit, hm, ← hl]
  obtain ⟨hd, hc, hp, hb⟩ := tail_run_from validate s (.task a :: p)
  rw [hpassed 4 (by omega)] at hd
  rw [hpassed 5 (by omega)] at hc
  rw [hpassed 6 (by omega)] at hp
  rw [hpassed 7 le_rfl] at hb
  exact ⟨hd, hc, hp, hb⟩

/-- Ten steps after the check at the latest the task is back at the queue. -/
theorem checked_word_tallied {s : State} (hs : Decoded validate s) {l : Laser} {u : StatsLine}
    (hpc : s.pc = .stats l u) (a : Answers) {post : List Event}
    (hpost : 10 ≤ post.countP isTask) :
    ∃ p q, post = p ++ q ∧ (run (next validate) s (.task a :: p)).pc = .receive ∧
      observe (next validate) taken s (.task a :: p) = [] ∧
      Tallied s (run (next validate) s (.task a :: p))
        (if a.mutexTaken && s.expectation.meets a.tickCount l.bits then [l] else []) := by
  have hten : stepsLeft (next validate s (.task a)).pc = 10 := by
    by_cases ht : a.mutexTaken = true <;>
      simp [next, State.taskStep, hpc, ht, stepsLeft, State.statsSection]
  obtain ⟨p, q, hsplit, hzero, hbetween⟩ := run_reaches (s := next validate s (.task a))
    (next validate) (fun s => stepsLeft s.pc) isTask
    (fun s e he h => stepsLeft_next validate s e he h)
    (fun s e he => stepsLeft_server validate s e he) (hpost.trans' hten.le)
  rw [hten] at hbetween
  have hend : (run (next validate) s (.task a :: p)).pc = .receive := receive_of_stepsLeft hzero
  have htaken : taken s (.task a) = [] := by simp only [taken, hpc]
  refine ⟨p, q, hsplit, hend, ?_, tallied_of_quiet validate hs hpc a ?_ hend⟩
  · rw [observe, htaken, List.nil_append, observe_nil_iff]
    intro pre e post hp
    exact (tail_quiet validate (hbetween pre e post hp).1 (hbetween pre e post hp).2 e).1
  · rw [observe_nil_iff]
    intro pre e post hp
    exact (tail_quiet validate (hbetween pre e post hp).1 (hbetween pre e post hp).2 e).2

/-- No step of the task touches the expectation in force. -/
theorem expectation_run (s : State) {es : List Event} (h : ∀ e ∈ es, isTask e = true) :
    (run (next validate) s es).expectation = s.expectation := by
  induction es using List.reverseRecOn with
  | nil => rfl
  | append_singleton es e ih =>
    have he := h e (List.mem_append_right _ List.mem_cons_self)
    cases e with
    | server e all => cases he
    | task a =>
      rw [run_snoc, next_expectation]
      exact ih fun e he => h e (List.mem_append_left _ he)

/-- The wrapped test asks for the age modulo the period of the tick counter. -/
theorem meets_iff {a t : ℕ} (h : a ≤ t) (w : UInt32) :
    (⟨w, true, UInt32.ofNat a⟩ : Expectation).meets (UInt32.ofNat t) w = true ↔
      (t - a) % 2 ^ 32 < 5000 := by
  simp only [Expectation.meets, Expectation.fresh, Bool.true_and, beq_self_eq_true, Bool.and_true,
    decide_eq_true_eq, pdMsToTicks_eq, UInt32.lt_iff_toNat_lt, elapsed h]
  rfl

def RecordedAsHit (s s' : State) (l : Laser) : Prop := Tallied s s' [l]

theorem recordedAsHit_iff {s s' : State} {l : Laser} {m : Bool}
    (h : Tallied s s' (if m then [l] else [])) : RecordedAsHit s s' l ↔ m = true := by
  cases m with
  | true => exact ⟨fun _ => rfl, fun _ => h⟩
  | false =>
    constructor
    · intro hr
      have hlen := congrArg List.length (h.deaths.symm.trans hr.deaths)
      simp at hlen
    · intro hm
      cases hm

/-- A word that equals the announcement in force is recorded as a hit by the age of the
announcement alone, and this is the 5 s test exactly until the tick counter has gone all the
way round and the old announcement looks new. -/
theorem recorded_iff_within_expiry (pre mid post : List Event) (w : UInt32) (a t : ℕ)
    (all : UInt16) (ans : Answers) (l : Laser) (u : StatsLine)
    (hmid : ∀ e ∈ mid, isTask e = true)
    (hpc : (run (next validate) boot
      (pre ++ .server ⟨w, true, UInt32.ofNat a⟩ all :: mid)).pc = .stats l u)
    (hword : l.bits = w) (htaken : ans.mutexTaken = true)
    (htick : ans.tickCount = UInt32.ofNat t) (hat : a ≤ t) (hpost : 10 ≤ post.countP isTask) :
    let s := run (next validate) boot (pre ++ .server ⟨w, true, UInt32.ofNat a⟩ all :: mid)
    ∃ p q, post = p ++ q ∧
      (run (next validate) s (.task ans :: p)).pc = .receive ∧
      observe (next validate) taken s (.task ans :: p) = [] ∧
      ((RecordedAsHit s (run (next validate) s (.task ans :: p)) l ↔ t - a < 5000) ↔
        t - a < 5000 ∨ 5000 ≤ (t - a) % 2 ^ 32) := by
  intro s
  have hs : Decoded validate s := run_invariant (next validate) (Decoded validate)
    (decoded_boot validate) (fun _ e h => decoded_next validate h e) _
  have hexp : s.expectation = ⟨w, true, UInt32.ofNat a⟩ := by
    have hsplit : pre ++ .server ⟨w, true, UInt32.ofNat a⟩ all :: mid =
        (pre ++ [.server ⟨w, true, UInt32.ofNat a⟩ all]) ++ mid := by simp
    have hrun : s = run (next validate)
        (run (next validate) boot (pre ++ [.server ⟨w, true, UInt32.ofNat a⟩ all])) mid := by
      rw [← run_append, ← hsplit]
    rw [hrun, expectation_run validate _ hmid, run_snoc]
    rfl
  obtain ⟨p, q, hsplit, hend, hquiet, htally⟩ := checked_word_tallied validate hs hpc ans hpost
  refine ⟨p, q, hsplit, hend, hquiet, ?_⟩
  have hmeets : (ans.mutexTaken && s.expectation.meets ans.tickCount l.bits) = true ↔
      (t - a) % 2 ^ 32 < 5000 := by
    rw [htaken, Bool.true_and, hexp, htick, hword]
    exact meets_iff hat w
  rw [recordedAsHit_iff htally, hmeets]
  omega

/-- A word found in the queue a hundred ticks after its announcement. -/
theorem recorded_iff_within_expiry_hundred_ticks :
    let s := run (next fun _ => (true, 1, 2)) boot
      ([] ++ .server ⟨7, true, UInt32.ofNat 100⟩ 1 :: List.replicate 3 (.task (sevenAt 200)))
    ∃ p q, List.replicate 10 (.task (sevenAt 200)) = p ++ q ∧
      (run (next fun _ => (true, 1, 2)) s (.task (sevenAt 200) :: p)).pc = .receive ∧
      observe (next fun _ => (true, 1, 2)) taken s (.task (sevenAt 200) :: p) = [] ∧
      ((RecordedAsHit s (run (next fun _ => (true, 1, 2)) s (.task (sevenAt 200) :: p)) ⟨7, 1, 2⟩ ↔
          200 - 100 < 5000) ↔
        200 - 100 < 5000 ∨ 5000 ≤ (200 - 100) % 2 ^ 32) :=
  recorded_iff_within_expiry (fun _ => (true, 1, 2)) [] (List.replicate 3 (.task (sevenAt 200)))
    (List.replicate 10 (.task (sevenAt 200))) 7 100 200 1 (sevenAt 200) ⟨7, 1, 2⟩ ⟨0, 1, 0, 0⟩
    (by decide) rfl rfl rfl rfl (by decide) (by decide)

/-- Forty-nine days after the announcement, one whole period of the tick counter, the same
word is recorded as a death again. -/
theorem stale_announcement_recorded :
    (run (next fun _ => (true, 1, 2)) boot (.server ⟨7, true, UInt32.ofNat 100⟩ 1 ::
      sevenPasses (UInt32.ofNat (100 + 2 ^ 32)))).deaths = [⟨7, 1, 2⟩] ∧
    ¬100 + 2 ^ 32 - 100 < 5000 := by
  decide

end ExpectationExpiry
