import RayzTarget.RespawnAnnouncement

/-! # The period of the statistics lines

`game_task` compares whole seconds of a tick counter that starts again after 2^32 ticks. Its
polls come at nondecreasing times of the unbounded clock, in any interleaving with the other
tasks, and pass the statistics only when the device is not respawning. -/
namespace StatisticsPeriod

open TargetConfig EventRuns RespawnTasks

variable {γ : Type*} (G : GameState γ)

/-- An event at a time of the unbounded clock, which the tick counter shows modulo 2^32. -/
abbrev Timed := ℕ × Event

def stamped : Timed → Event
  | (t, .game a) => .game { a with tickCount := UInt32.ofNat t }
  | (_, e) => e

def timedNext (s : State γ) (e : Timed) : State γ := next G s (stamped e)

def now (t : ℕ) : UInt32 := UInt32.ofNat t / UInt32.ofNat configTickRateHz

def seconds (t : ℕ) : ℕ := t % 2 ^ 32 / configTickRateHz

def turn (t : ℕ) : ℕ := t / 2 ^ 32

def passesStats (s : State γ) : Timed → Bool
  | (_, .game _) => s.gamePc == .stats
  | _ => false

def logTimes (s : State γ) (e : Timed) : List ℕ :=
  if passesStats s e && decide (now e.1 - s.lastLog ≥ 30) then [e.1] else []

theorem now_toNat (t : ℕ) : (now t).toNat = seconds t := by
  rw [now, UInt32.toNat_div, UInt32.toNat_ofNat', UInt32.toNat_ofNat', seconds]
  rfl

theorem seconds_lt (t : ℕ) : seconds t < 4294968 := by
  have := Nat.mod_lt t (show 0 < 2 ^ 32 by decide)
  unfold seconds configTickRateHz
  omega

/-- Within a turn of the counter the seconds follow the clock. -/
theorem seconds_mono {t u : ℕ} (h : t ≤ u) (hturn : turn t = turn u) : seconds t ≤ seconds u := by
  unfold turn at hturn
  unfold seconds configTickRateHz
  omega

/-- Seconds of the counter compared in `uint32_t`: nonnegative differences, and far apart
when the counter has started again in between. -/
theorem thirty_le_iff (t l : ℕ) (last : UInt32) (hl : last.toNat = seconds l) :
    now t - last ≥ 30 ↔ seconds t < seconds l ∨ seconds l + 30 ≤ seconds t := by
  have ht := seconds_lt t
  have hll := seconds_lt l
  rw [ge_iff_le, UInt32.le_iff_toNat_le, UInt32.toNat_sub, now_toNat, hl,
    show (30 : UInt32).toNat = 30 from rfl]
  omega

/-- One step: it writes a line and notes the second, or it leaves both alone. -/
theorem log_next (s : State γ) (e : Timed) :
    (logTimes s e = [e.1] ∧ now e.1 - s.lastLog ≥ 30 ∧ (timedNext G s e).lastLog = now e.1 ∧
      (timedNext G s e).statsLogs.length = s.statsLogs.length + 1) ∨
    (logTimes s e = [] ∧ (passesStats s e = true → ¬now e.1 - s.lastLog ≥ 30) ∧
      (timedNext G s e).lastLog = s.lastLog ∧
      (timedNext G s e).statsLogs.length = s.statsLogs.length) := by
  obtain ⟨t, e⟩ := e
  cases e with
  | game a =>
    cases hpc : s.gamePc with
    | stats =>
      by_cases hl : now t - s.lastLog ≥ 30
      · left
        refine ⟨by simp [logTimes, passesStats, hpc, hl], hl, ?_, ?_⟩
        · unfold now at hl ⊢
          simp [timedNext, stamped, next, State.gameTask, hpc, hl]
        · unfold now at hl
          simp [timedNext, stamped, next, State.gameTask, hpc, hl]
      · right
        refine ⟨by simp [logTimes, passesStats, hpc, hl], fun _ => hl, ?_, ?_⟩
        · unfold now at hl
          simp [timedNext, stamped, next, State.gameTask, hpc, hl]
        · unfold now at hl
          simp [timedNext, stamped, next, State.gameTask, hpc, hl]
    | poll =>
      right
      by_cases hd : (G.checkRespawn s.shared).1 = true <;>
        simp [logTimes, passesStats, hpc, timedNext, stamped, next, State.gameTask, hd]
    | loop => right; simp [logTimes, passesStats, hpc, timedNext, stamped, next, State.gameTask]
    | delay => right; simp [logTimes, passesStats, hpc, timedNext, stamped, next, State.gameTask]
  | ws a =>
    right
    cases hpc : s.wsPc <;>
      simp [logTimes, passesStats, timedNext, stamped, next, State.wsTask, hpc]
  | death => right; simp [logTimes, passesStats, timedNext, stamped, next]
  | elapse ms => right; simp [logTimes, passesStats, timedNext, stamped, next]

def Apart (t u : ℕ) : Prop := t ≤ u ∧ (turn t = turn u → seconds t + 30 ≤ seconds u)

/-- The boot counts as a line at time zero; the last line is the one the task remembers. -/
structure Logged (s : State γ) (logs : List ℕ) : Prop where
  last : ∃ before l, 0 :: logs = before ++ [l] ∧ s.lastLog.toNat = seconds l
  apart : (0 :: logs).Pairwise Apart
  lines : s.statsLogs.length = logs.length

theorem logged_boot (g : γ) : Logged (boot g) [] :=
  ⟨⟨[], 0, rfl, rfl⟩, List.pairwise_singleton _ _, rfl⟩

theorem le_last {before : List ℕ} {l : ℕ} (h : (before ++ [l]).Pairwise Apart) :
    ∀ t ∈ before ++ [l], t ≤ l := by
  intro t ht
  rcases List.mem_append.mp ht with ht | ht
  · exact ((List.pairwise_append.mp h).2.2 t ht l List.mem_cons_self).1
  · exact (List.mem_singleton.mp ht).le

/-- A line at least thirty counted seconds after the last is so after all earlier ones. -/
theorem apart_snoc {before : List ℕ} {l u : ℕ} (h : (before ++ [l]).Pairwise Apart) (hlu : l ≤ u)
    (hdue : seconds u < seconds l ∨ seconds l + 30 ≤ seconds u) :
    (before ++ [l] ++ [u]).Pairwise Apart := by
  refine List.pairwise_append.mpr ⟨h, List.pairwise_singleton _ _, ?_⟩
  intro t ht v hv
  rw [List.mem_singleton.mp hv]
  have htl := le_last h t ht
  refine ⟨htl.trans hlu, ?_⟩
  intro hturn
  have same : turn l = turn u := by
    unfold turn at hturn ⊢
    have h₁ := Nat.div_le_div_right (c := 2 ^ 32) htl
    have h₂ := Nat.div_le_div_right (c := 2 ^ 32) hlu
    omega
  have h₁ := seconds_mono htl (hturn.trans same.symm)
  have h₂ := seconds_mono hlu same
  omega

theorem logged_next {s : State γ} {logs : List ℕ} (h : Logged s logs) {e : Timed}
    (hlate : ∀ t ∈ logs, t ≤ e.1) : Logged (timedNext G s e) (logs ++ logTimes s e) := by
  obtain ⟨⟨before, l, hsplit, hlast⟩, hapart, hlines⟩ := h
  rcases log_next G s e with ⟨hout, hdue, hl, hlen⟩ | ⟨hout, -, hl, hlen⟩
  · have hle : l ≤ e.1 := by
      have hmem : l ∈ 0 :: logs := by
        rw [hsplit]
        exact List.mem_append_right _ List.mem_cons_self
      rcases List.mem_cons.mp hmem with rfl | hmem
      · exact Nat.zero_le _
      · exact hlate l hmem
    rw [hout]
    refine ⟨⟨0 :: logs, e.1, by simp, by rw [hl, now_toNat]⟩, ?_, ?_⟩
    · rw [← List.cons_append, hsplit]
      rw [hsplit] at hapart
      exact apart_snoc hapart hle ((thirty_le_iff e.1 l s.lastLog hlast).mp hdue)
    · rw [hlen, hlines, List.length_append, List.length_singleton]
  · rw [hout, List.append_nil]
    exact ⟨⟨before, l, hsplit, by rw [hl]; exact hlast⟩, hapart, by rw [hlen, hlines]⟩

theorem logTimes_subset (s : State γ) (e : Timed) : ∀ t ∈ logTimes s e, t = e.1 := by
  intro t ht
  unfold logTimes at ht
  split at ht
  · exact List.mem_singleton.mp ht
  · cases ht

theorem logged_run (g : γ) (es : List Timed) (hes : es.Pairwise fun a b => a.1 ≤ b.1) :
    Logged (run (timedNext G) (boot g) es) (observe (timedNext G) logTimes (boot g) es) ∧
      ∀ t ∈ observe (timedNext G) logTimes (boot g) es, ∃ e ∈ es, t = e.1 := by
  induction es using List.reverseRecOn with
  | nil => exact ⟨logged_boot g, by simp [observe]⟩
  | append_singleton es e ih =>
    obtain ⟨hsorted, -, hlater⟩ := List.pairwise_append.mp hes
    obtain ⟨hlog, horigin⟩ := ih hsorted
    rw [run_snoc, observe_snoc]
    constructor
    · refine logged_next G hlog ?_
      intro t ht
      obtain ⟨e', he', rfl⟩ := horigin t ht
      exact hlater e' he' e List.mem_cons_self
    · intro t ht
      rcases List.mem_append.mp ht with ht | ht
      · obtain ⟨e', he', rfl⟩ := horigin t ht
        exact ⟨e', List.mem_append_left _ he', rfl⟩
      · exact ⟨e, List.mem_append_right _ List.mem_cons_self, logTimes_subset _ e t ht⟩

/-- The statistics lines come thirty counted seconds apart, within a turn of the tick counter,
and whenever `game_task` has passed the statistics the last line, or the boot, is less than
thirty counted seconds old. -/
theorem lines_every_thirty_seconds (g : γ) (es : List Timed)
    (hes : es.Pairwise fun a b => a.1 ≤ b.1) :
    let logs := observe (timedNext G) logTimes (boot g) es
    (run (timedNext G) (boot g) es).statsLogs.length = logs.length ∧
    (0 :: logs).Pairwise (fun t u => turn t = turn u → seconds t + 30 ≤ seconds u) ∧
    ∀ pre e, es = pre ++ [e] → passesStats (run (timedNext G) (boot g) pre) e = true →
      ∃ before l, 0 :: logs = before ++ [l] ∧ l ≤ e.1 ∧ seconds l ≤ seconds e.1 ∧
        seconds e.1 < seconds l + 30 := by
  intro logs
  obtain ⟨hlog, -⟩ := logged_run G g es hes
  refine ⟨hlog.lines, hlog.apart.imp fun h => h.2, ?_⟩
  rintro pre e rfl hpass
  obtain ⟨hsorted, -, hlater⟩ := List.pairwise_append.mp hes
  obtain ⟨⟨⟨before, l, hsplit, hlast⟩, -, -⟩, horigin⟩ := logged_run G g pre hsorted
  have hlogs : logs = observe (timedNext G) logTimes (boot g) pre ++
      logTimes (run (timedNext G) (boot g) pre) e := observe_snoc ..
  rcases log_next G (run (timedNext G) (boot g) pre) e with ⟨hout, -, -, -⟩ | ⟨hout, hnot, -, -⟩
  · -- this very step wrote a line
    rw [hout] at hlogs
    exact ⟨0 :: observe (timedNext G) logTimes (boot g) pre, e.1, by rw [hlogs]; rfl,
      Nat.le_refl _, Nat.le_refl _, by omega⟩
  · rw [hout, List.append_nil] at hlogs
    have recent := mt (thirty_le_iff e.1 l _ hlast).mpr (hnot hpass)
    have hle : l ≤ e.1 := by
      have hmem : l ∈ 0 :: observe (timedNext G) logTimes (boot g) pre := by
        rw [hsplit]
        exact List.mem_append_right _ List.mem_cons_self
      rcases List.mem_cons.mp hmem with rfl | hmem
      · exact Nat.zero_le _
      · obtain ⟨e', he', rfl⟩ := horigin l hmem
        exact hlater e' he' e List.mem_cons_self
    exact ⟨before, l, by rw [hlogs, hsplit], hle, by omega, by omega⟩

def loopTo (t : ℕ) : List Timed :=
  [(t, RespawnAnnouncement.gameQuiet), (t, RespawnAnnouncement.gameQuiet)]

/-- Lines half a minute after boot and right after a wrap of the tick counter; the last one is
nineteen seconds old when the task passes the statistics again. -/
theorem lines_every_thirty_seconds_past_wrap :
    let delay t : List Timed := [(t, RespawnAnnouncement.gameQuiet)]
    let es := loopTo 30000 ++ delay 30000 ++ loopTo (2 ^ 32 + 1000) ++ delay (2 ^ 32 + 1000) ++
      loopTo (2 ^ 32 + 20000)
    observe (timedNext RespawnAnnouncement.countdown) logTimes (boot (false, 0)) es =
        [30000, 2 ^ 32 + 1000] ∧
      ∃ before l, [0, 30000, 2 ^ 32 + 1000] = before ++ [l] ∧ l ≤ 2 ^ 32 + 20000 ∧
        seconds l ≤ seconds (2 ^ 32 + 20000) ∧ seconds (2 ^ 32 + 20000) < seconds l + 30 := by
  intro delay es
  have hlogs : observe (timedNext RespawnAnnouncement.countdown) logTimes (boot (false, 0)) es =
      [30000, 2 ^ 32 + 1000] := by decide +kernel
  obtain ⟨-, -, hlast⟩ := lines_every_thirty_seconds RespawnAnnouncement.countdown (false, 0) es
    (by decide +kernel)
  rw [hlogs] at hlast
  exact ⟨hlogs, hlast es.dropLast (2 ^ 32 + 20000, RespawnAnnouncement.gameQuiet) rfl
    (by decide +kernel)⟩

end StatisticsPeriod
