import Mathlib.Algebra.Order.Field.Basic
import Mathlib.Data.List.Forall2
import Mathlib.Tactic.NormNum
import Mathlib.Tactic.Positivity
import RayzTarget.AnnouncementCredit

/-! # The logged statistics

Matches and announcements are counted in 16 bits each. A ledger beside the device counts
both without a bound, and keeps the two counts that stand behind the next log line. -/
namespace StatisticsLog

open EventRuns ProcessingTask ProcessingTally AnnouncementCredit

variable (validate : UInt32 → Bool × UInt8 × UInt8)

/-- `allSnapshot - correctSnapshot`, computed in `int`. -/
def incorrect (line : StatsLine) : ℤ := line.allSnapshot.toNat - line.correctSnapshot.toNat

def Ordered (line : StatsLine) : Prop :=
  line.correctSnapshot ≤ line.allSnapshot ∧ 0 ≤ incorrect line ∧
    0 ≤ line.accuracy ∧ line.accuracy ≤ 100

/-- The server adds one to `all_expected_messages` with every announcement, and only then. -/
def IncrementsOnce (es : List Event) : Prop :=
  ∀ pre e all post, es = pre ++ .server e all :: post →
    all = (run (next validate) boot pre).allExpectedMessages +
      UInt16.ofNat (if e.hasExpectedMessage then 1 else 0)

structure Ledger where
  device : State
  found : ℕ
  announced : ℕ
  /-- The counts at the snapshot that the next log line shows. -/
  shown : ℕ × ℕ

def ledger : Ledger := ⟨boot, 0, 0, (0, 0)⟩

def ledgerNext (x : Ledger) (e : Event) : Ledger :=
  let found := x.found + if finds x.device e then 1 else 0
  { device := next validate x.device e
    found := found
    announced := x.announced + if announces e then 1 else 0
    shown := match e with
      | .task a => match x.device.pc with
        | .snapshot _ => (found, x.announced)
        | .stats _ _ => if a.mutexTaken then (found, x.announced) else x.shown
        | _ => x.shown
      | .server _ _ => x.shown }

/-- The matches and announcements behind the line that a step logs. -/
def logged (x : Ledger) : Event → List (ℕ × ℕ)
  | .task _ => match x.device.pc with
    | .log _ _ _ => [x.shown]
    | _ => []
  | .server _ _ => []

def pending : Pc → List StatsLine
  | .stats _ unlocked => [unlocked]
  | .log _ _ line => [line]
  | _ => []

def Shows (line : StatsLine) (c : ℕ × ℕ) : Prop :=
  line.correctSnapshot = UInt16.ofNat c.1 ∧ line.allSnapshot = UInt16.ofNat c.2 ∧
    (line.accuracy = 0 ∨ line.accuracy = accuracyOf line.correctSnapshot line.allSnapshot)

structure Mirrors (x : Ledger) : Prop where
  correct : x.device.correctMessages = UInt16.ofNat x.found
  all : x.device.allExpectedMessages = UInt16.ofNat x.announced
  pending : ∀ line ∈ pending x.device.pc, Shows line x.shown

theorem statsSection_line (s : State) (l : Laser) (tickCount : UInt32) :
    ∃ m line, (s.statsSection l tickCount).pc = .log l m line ∧
      line.correctSnapshot = (s.statsSection l tickCount).correctMessages ∧
      line.allSnapshot = s.allExpectedMessages ∧
      line.accuracy = accuracyOf line.correctSnapshot line.allSnapshot := by
  simp only [State.statsSection]
  split
  · split
    · exact ⟨_, _, rfl, rfl, rfl, rfl⟩
    · exact ⟨_, _, rfl, rfl, rfl, rfl⟩
  · exact ⟨_, _, rfl, rfl, rfl, rfl⟩

theorem correctMessages_next (s : State) (e : Event) :
    (next validate s e).correctMessages =
      s.correctMessages + UInt16.ofNat (if finds s e then 1 else 0) := by
  have hits := hits_length validate s e
  rw [hitsOf, List.length_map, ← List.countP_eq_length_filter] at hits
  rw [(counters_next validate s e).1, hits]

/-- A step logs what was pending, and takes a new line from its own counters. -/
theorem statsLines_next (s : State) (e : Event) :
    (next validate s e).statsLines = s.statsLines ++ match e with
      | .task _ => match s.pc with
        | .log _ _ line => [line]
        | _ => []
      | .server _ _ => [] := by
  cases e with
  | server e all => simp [next]
  | task a =>
    cases hpc : s.pc with
    | receive =>
      cases hw : a.word with
      | none => simp [next, State.taskStep, hpc, hw]
      | some bits =>
        by_cases hv : (validate bits).1 = true <;> simp [next, State.taskStep, hpc, hw, hv]
    | respawnCheck l => by_cases hr : a.respawning = true <;> simp [next, State.taskStep, hpc, hr]
    | stats l unlocked =>
      by_cases ht : a.mutexTaken = true <;>
        simp [next, State.taskStep, hpc, ht, statsSection_frame]
    | _ => simp [next, State.taskStep, hpc]

theorem pending_next {x : Ledger} (h : Mirrors x) (e : Event) :
    ∀ line ∈ pending (ledgerNext validate x e).device.pc,
      Shows line (ledgerNext validate x e).shown := by
  cases e with
  | server e all => exact h.pending
  | task a =>
    have hcorrect := correctMessages_next validate x.device (.task a)
    rw [h.correct, ← UInt16.ofNat_add] at hcorrect
    cases hpc : x.device.pc with
    | receive =>
      cases hw : a.word with
      | none => simp [ledgerNext, next, State.taskStep, hpc, hw, pending]
      | some bits =>
        by_cases hv : (validate bits).1 = true <;>
          simp [ledgerNext, next, State.taskStep, hpc, hw, hv, pending]
    | respawnCheck l =>
      by_cases hr : a.respawning = true <;>
        simp [ledgerNext, next, State.taskStep, hpc, hr, pending]
    | snapshot l =>
      intro line hline
      simp only [ledgerNext, next, State.taskStep, hpc, pending, List.mem_singleton] at hline ⊢
      rw [hline]
      refine ⟨?_, h.all, Or.inl rfl⟩
      simp only [finds, hpc, Bool.false_eq_true, if_false, Nat.add_zero]
      exact h.correct
    | stats l unlocked =>
      intro line hline
      cases ht : a.mutexTaken with
      | false =>
        simp only [ledgerNext, next, State.taskStep, hpc, ht, Bool.false_eq_true, if_false,
          pending, List.mem_singleton] at hline ⊢
        rw [hline]
        exact h.pending unlocked (by simp [hpc, pending])
      | true =>
        obtain ⟨m, line', hlog, hc, hall, hacc⟩ := statsSection_line x.device l a.tickCount
        simp only [ledgerNext, next, State.taskStep, hpc, ht, if_true, hlog, pending,
          List.mem_singleton] at hline hcorrect ⊢
        rw [hline]
        refine ⟨hc.trans hcorrect, hall.trans h.all, Or.inr hacc⟩
    | log l m line => cases m <;> simp [ledgerNext, next, State.taskStep, hpc, pending]
    | report =>
      by_cases hb : a.browserConnected = true <;>
        simp [ledgerNext, next, State.taskStep, hpc, hb, pending]
    | _ => simp [ledgerNext, next, State.taskStep, hpc, pending]

theorem ledger_device (es : List Event) :
    (run (ledgerNext validate) ledger es).device = run (next validate) boot es :=
  run_project Ledger.device (fun _ _ => rfl) ledger es

theorem ledger_announced (es : List Event) :
    (run (ledgerNext validate) ledger es).announced = es.countP announces := by
  induction es using List.reverseRecOn with
  | nil => rfl
  | append_singleton es e ih =>
    rw [run_snoc, List.countP_append, List.countP_singleton, ← ih]
    rfl

theorem ledger_found (es : List Event) : (run (ledgerNext validate) ledger es).found =
    (observe (auditNext validate) matched audited es).length := by
  induction es using List.reverseRecOn with
  | nil => rfl
  | append_singleton es e ih =>
    rw [run_snoc, observe_snoc, List.length_append, ← ih, matched, audited_device]
    simp only [ledgerNext, ledger_device]
    split <;> rfl

theorem IncrementsOnce.before {es : List Event} {e : Event}
    (h : IncrementsOnce validate (es ++ [e])) : IncrementsOnce validate es := by
  intro pre x all post hes
  exact h pre x all (post ++ [e]) (by rw [hes, List.append_assoc, List.cons_append])

theorem mirrors_run {es : List Event} (h : IncrementsOnce validate es) :
    Mirrors (run (ledgerNext validate) ledger es) := by
  induction es using List.reverseRecOn with
  | nil => exact ⟨rfl, rfl, fun line hline => nomatch hline⟩
  | append_singleton es e ih =>
    have before := ih h.before
    rw [run_snoc]
    refine ⟨?_, ?_, pending_next validate before e⟩
    · have hstep := correctMessages_next validate (run (ledgerNext validate) ledger es).device e
      rw [before.correct, ← UInt16.ofNat_add] at hstep
      exact hstep
    · cases e with
      | task a =>
        have hstep :=
          (next_server_fields validate (run (ledgerNext validate) ledger es).device a).2
        exact hstep.trans before.all
      | server e all =>
        have hall := h es e all [] rfl
        rw [← ledger_device, before.all, ← UInt16.ofNat_add] at hall
        exact hall

/-- Every logged line shows the two counts of its snapshot, in order. -/
theorem lines_show {es : List Event} (h : IncrementsOnce validate es) :
    List.Forall₂ Shows (run (next validate) boot es).statsLines
      (observe (ledgerNext validate) logged ledger es) := by
  induction es using List.reverseRecOn with
  | nil => exact List.Forall₂.nil
  | append_singleton es e ih =>
    have before := mirrors_run validate h.before
    have hpending := before.pending
    rw [ledger_device] at hpending
    rw [run_snoc, observe_snoc, statsLines_next]
    refine List.rel_append (ih h.before) ?_
    cases e with
    | server e all => exact List.Forall₂.nil
    | task a =>
      rw [logged, ledger_device]
      cases hpc : (run (next validate) boot es).pc with
      | log l m line =>
        rw [hpc] at hpending
        exact List.Forall₂.cons (hpending line List.mem_cons_self) List.Forall₂.nil
      | _ => exact List.Forall₂.nil

/-- A line is in order exactly when its two counters are, both cut to 16 bits. -/
theorem ordered_iff {line : StatsLine} {c : ℕ × ℕ} (h : Shows line c) :
    Ordered line ↔ c.1 % 2 ^ 16 ≤ c.2 % 2 ^ 16 := by
  obtain ⟨hc, hall, hacc⟩ := h
  have hle : line.correctSnapshot ≤ line.allSnapshot ↔ c.1 % 2 ^ 16 ≤ c.2 % 2 ^ 16 := by
    rw [UInt16.le_iff_toNat_le, hc, hall, UInt16.toNat_ofNat', UInt16.toNat_ofNat']
  rw [← hle]
  refine ⟨And.left, fun hline => ⟨hline, ?_, ?_⟩⟩
  · rw [UInt16.le_iff_toNat_le] at hline
    rw [incorrect]
    omega
  · rcases hacc with hzero | hacc
    · rw [hzero]
      norm_num
    · rw [hacc, accuracyOf]
      split
      · rename_i hpos
        have hall₀ : (0 : ℚ) < line.allSnapshot.toNat := by
          exact_mod_cast UInt16.lt_iff_toNat_lt.mp hpos
        have hcast : (line.correctSnapshot.toNat : ℚ) ≤ line.allSnapshot.toNat := by
          exact_mod_cast UInt16.le_iff_toNat_le.mp hline
        constructor
        · positivity
        · rw [div_le_iff₀ hall₀, mul_comm]
          exact mul_le_mul_of_nonneg_left hcast (by norm_num)
      · norm_num

/-- While every announcement is matched at most once, each shown pair is in order, and its
announcements are among those of the run. -/
theorem shown_le {es : List Event} (h : AnnouncedBetween validate es) :
    (run (ledgerNext validate) ledger es).shown.1 ≤
        (run (ledgerNext validate) ledger es).shown.2 ∧
      (run (ledgerNext validate) ledger es).shown.2 ≤ es.countP announces := by
  induction es using List.reverseRecOn with
  | nil => exact ⟨le_rfl, le_rfl⟩
  | append_singleton es e ih =>
    obtain ⟨hle, hcount⟩ := ih (announcedBetween_before validate h)
    have hmono : es.countP announces ≤ (es ++ [e]).countP announces :=
      (List.sublist_append_left es [e]).countP_le
    have hkept : (run (ledgerNext validate) ledger es).shown.1 ≤
        (run (ledgerNext validate) ledger es).shown.2 ∧
      (run (ledgerNext validate) ledger es).shown.2 ≤ (es ++ [e]).countP announces :=
      ⟨hle, hcount.trans hmono⟩
    have hfound : (run (ledgerNext validate) ledger (es ++ [e])).found ≤
        (es ++ [e]).countP announces := by
      rw [ledger_found]
      exact matched_length_le validate ((matched_nodup_iff validate _).mpr h)
    have hnow := ledger_announced validate es
    rw [run_snoc] at hfound ⊢
    cases e with
    | server e all => exact hkept
    | task a =>
      have hquiet : (es ++ [Event.task a]).countP announces = es.countP announces := by
        rw [List.countP_append]
        rfl
      rw [hquiet] at hfound hkept ⊢
      simp only [ledgerNext] at hfound ⊢
      rw [hnow]
      split
      · exact ⟨hfound, le_rfl⟩
      · split
        · exact ⟨hfound, le_rfl⟩
        · exact hkept
      · exact hkept

theorem logged_le {es : List Event} (h : AnnouncedBetween validate es) :
    ∀ c ∈ observe (ledgerNext validate) logged ledger es,
      c.1 ≤ c.2 ∧ c.2 ≤ es.countP announces := by
  induction es using List.reverseRecOn with
  | nil => exact fun c hc => nomatch hc
  | append_singleton es e ih =>
    have before := announcedBetween_before validate h
    have hmono : es.countP announces ≤ (es ++ [e]).countP announces :=
      (List.sublist_append_left es [e]).countP_le
    intro c hc
    rw [observe_snoc] at hc
    rcases List.mem_append.mp hc with hc | hc
    · obtain ⟨hle, hcount⟩ := ih before c hc
      exact ⟨hle, hcount.trans hmono⟩
    · have hshown : c = (run (ledgerNext validate) ledger es).shown := by
        cases e with
        | server e all => cases hc
        | task a =>
          rw [logged] at hc
          split at hc
          · exact List.mem_singleton.mp hc
          · cases hc
      obtain ⟨hle, hcount⟩ := shown_le validate before
      rw [hshown]
      exact ⟨hle, hcount.trans hmono⟩

theorem IncrementsOnce.snoc {es : List Event} (h : IncrementsOnce validate es) {e : Event}
    (he : ∀ x all, e = .server x all →
      all = (run (next validate) boot es).allExpectedMessages +
        UInt16.ofNat (if x.hasExpectedMessage then 1 else 0)) :
    IncrementsOnce validate (es ++ [e]) := by
  intro pre x all post hes
  rcases List.eq_nil_or_concat post with rfl | ⟨post, f, rfl⟩
  · obtain ⟨rfl, hlast⟩ := List.append_inj_left' hes rfl, List.append_inj_right' hes rfl
    exact he x all (List.singleton_inj.mp hlast)
  · have hsplit : es ++ [e] = (pre ++ .server x all :: post) ++ [f] := by simpa using hes
    exact h pre x all post (List.append_inj_left' hsplit rfl)

def sevenAnnouncements (n : ℕ) : List Event :=
  (List.range n).map fun i => .server ⟨7, true, 100⟩ (UInt16.ofNat (i + 1))

def sevenRun (n : ℕ) : List Event := sevenAnnouncements n ++ sevenPasses 200

theorem run_announcements (n : ℕ) :
    run (auditNext validate) audited (sevenAnnouncements (n + 1)) =
      ⟨{ boot with expectation := ⟨7, true, 100⟩, allExpectedMessages := UInt16.ofNat (n + 1) },
        n + 1, 0⟩ := by
  induction n with
  | zero => rfl
  | succ n ih =>
    rw [sevenAnnouncements, List.range_succ, List.map_append, List.map_singleton, run_snoc]
    rw [sevenAnnouncements] at ih
    rw [ih]
    rfl

theorem incrementsOnce_announcements (n : ℕ) :
    IncrementsOnce validate (sevenAnnouncements n) ∧
      (run (next validate) boot (sevenAnnouncements n)).allExpectedMessages = UInt16.ofNat n := by
  induction n with
  | zero => exact ⟨fun pre e all post hes => absurd hes (by simp [sevenAnnouncements]), rfl⟩
  | succ n ih =>
    obtain ⟨hinc, hall⟩ := ih
    rw [sevenAnnouncements, List.range_succ, List.map_append, List.map_singleton,
      ← sevenAnnouncements]
    refine ⟨hinc.snoc validate ?_, by rw [run_snoc]; rfl⟩
    intro x all hx
    obtain ⟨rfl, rfl⟩ := Event.server.inj hx
    rw [hall, UInt16.ofNat_add]
    rfl

theorem sevenRun_increments (n : ℕ) : IncrementsOnce validate (sevenRun n) := by
  have htasks : ∀ m, IncrementsOnce validate
      (sevenAnnouncements n ++ List.replicate m (.task (sevenAt 200))) := by
    intro m
    induction m with
    | zero =>
      rw [List.replicate_zero, List.append_nil]
      exact (incrementsOnce_announcements validate n).1
    | succ m ih =>
      rw [List.replicate_succ', ← List.append_assoc]
      exact ih.snoc validate fun x all hx => nomatch hx
  exact htasks 13

theorem seven_fresh : (⟨7, true, 100⟩ : Expectation).fresh 200 = true := by decide

theorem seven_meets : (⟨7, true, 100⟩ : Expectation).meets 200 7 = true := by decide

/-- The one match of such a run is under its last announcement. -/
theorem sevenRun_matched (n : ℕ) :
    observe (auditNext fun _ => (true, 1, 2)) matched audited (sevenRun (n + 1)) = [n + 1] := by
  have hquiet : observe (auditNext fun _ => (true, 1, 2)) matched audited
      (sevenAnnouncements (n + 1)) = [] := by
    rw [observe_nil_iff]
    intro pre e post hes
    have hmem : e ∈ sevenAnnouncements (n + 1) := by
      rw [hes]
      exact List.mem_append_right _ List.mem_cons_self
    obtain ⟨i, _, rfl⟩ := List.mem_map.mp hmem
    rfl
  rw [sevenRun, observe_append, hquiet, run_announcements]
  simp [sevenPasses, sevenAt, List.replicate, observe, auditNext, matched, finds, announces, next,
    State.taskStep, State.statsSection, decode, boot, seven_fresh, seven_meets]

theorem sevenRun_announcedBetween (n : ℕ) :
    AnnouncedBetween (fun _ => (true, 1, 2)) (sevenRun (n + 1)) := by
  rw [← matched_nodup_iff, sevenRun_matched]
  exact List.nodup_singleton _

theorem sevenRun_lines (n : ℕ) :
    (run (next fun _ => (true, 1, 2)) boot (sevenRun (n + 1))).statsLines =
      [⟨1, UInt16.ofNat (n + 1), 0, accuracyOf 1 (UInt16.ofNat (n + 1))⟩] := by
  rw [sevenRun, run_append, ← audited_device, run_announcements]
  simp [sevenPasses, sevenAt, run, next, State.taskStep, State.statsSection, decode, boot,
    seven_fresh, seven_meets]

/-- With at most one match for each announcement the logged statistics are in order until
`all_expected_messages` wraps; from then on exactly while the counts modulo 2^16 are. -/
theorem statistics_ordered (es : List Event) (hinc : IncrementsOnce validate es)
    (hone : AnnouncedBetween validate es) :
    (es.countP announces < 2 ^ 16 →
      ∀ line ∈ (run (next validate) boot es).statsLines, Ordered line) ∧
    ((∀ line ∈ (run (next validate) boot es).statsLines, Ordered line) ↔
      ∀ c ∈ observe (ledgerNext validate) logged ledger es, c.1 % 2 ^ 16 ≤ c.2 % 2 ^ 16) := by
  have exact_iff : (∀ line ∈ (run (next validate) boot es).statsLines, Ordered line) ↔
      ∀ c ∈ observe (ledgerNext validate) logged ledger es, c.1 % 2 ^ 16 ≤ c.2 % 2 ^ 16 := by
    have lines := lines_show validate hinc
    generalize (run (next validate) boot es).statsLines = shown at lines
    generalize observe (ledgerNext validate) logged ledger es = counts at lines
    induction lines with
    | nil => simp
    | cons hshow _ ih =>
      rw [List.forall_mem_cons, List.forall_mem_cons]
      exact and_congr (ordered_iff hshow) ih
  refine ⟨fun hfew => exact_iff.mpr fun c hc => ?_, exact_iff⟩
  obtain ⟨hle, hcount⟩ := logged_le validate hone c hc
  rw [Nat.mod_eq_of_lt (by omega), Nat.mod_eq_of_lt (by omega)]
  exact hle

theorem statistics_ordered_one_match :
    ((sevenRun 1).countP announces < 2 ^ 16 →
      ∀ line ∈ (run (next fun _ => (true, 1, 2)) boot (sevenRun 1)).statsLines, Ordered line) ∧
    ((∀ line ∈ (run (next fun _ => (true, 1, 2)) boot (sevenRun 1)).statsLines, Ordered line) ↔
      ∀ c ∈ observe (ledgerNext fun _ => (true, 1, 2)) logged ledger (sevenRun 1),
        c.1 % 2 ^ 16 ≤ c.2 % 2 ^ 16) :=
  statistics_ordered (fun _ => (true, 1, 2)) (sevenRun 1) (sevenRun_increments _ 1)
    (sevenRun_announcedBetween 0)

/-- The announcement that wraps `all_expected_messages` to zero is matched once: minus one
incorrect. -/
theorem wrapped_statistics :
    IncrementsOnce (fun _ => (true, 1, 2)) (sevenRun 65536) ∧
    AnnouncedBetween (fun _ => (true, 1, 2)) (sevenRun 65536) ∧
    ∃ line ∈ (run (next fun _ => (true, 1, 2)) boot (sevenRun 65536)).statsLines,
      incorrect line = -1 ∧ ¬Ordered line := by
  refine ⟨sevenRun_increments _ 65536, sevenRun_announcedBetween 65535, ?_⟩
  rw [sevenRun_lines 65535]
  refine ⟨_, List.mem_cons_self, by decide, fun h => ?_⟩
  exact absurd h.1 (by decide)

end StatisticsLog
