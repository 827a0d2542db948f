import Mathlib.Data.List.Induction

/-! Runs of deterministic event machines, with what an observer records on the way.
A machine's step is a total function or may fail; every run is a finite list of events,
and a property of all runs is a relation kept by one step. -/
namespace EventRuns

variable {σ ε β ω φ : Type*}

def run (next : σ → ε → σ) (s : σ) (es : List ε) : σ := es.foldl next s

/-- What `out` records at each step, before the step is taken, in order. -/
def observe (next : σ → ε → σ) (out : σ → ε → List β) : σ → List ε → List β
  | _, [] => []
  | s, e :: es => out s e ++ observe next out (next s e) es

@[simp] theorem run_nil (next : σ → ε → σ) (s : σ) : run next s [] = s := rfl

theorem run_append (next : σ → ε → σ) (s : σ) (es fs : List ε) :
    run next s (es ++ fs) = run next (run next s es) fs := List.foldl_append

@[simp] theorem run_snoc (next : σ → ε → σ) (s : σ) (es : List ε) (e : ε) :
    run next s (es ++ [e]) = next (run next s es) e := run_append next s es [e]

theorem observe_append (next : σ → ε → σ) (out : σ → ε → List β) (s : σ) (es fs : List ε) :
    observe next out s (es ++ fs) =
      observe next out s es ++ observe next out (run next s es) fs := by
  induction es generalizing s with
  | nil => rfl
  | cons e es ih => simp [observe, run, ih]

@[simp] theorem observe_snoc (next : σ → ε → σ) (out : σ → ε → List β) (s : σ) (es : List ε)
    (e : ε) : observe next out s (es ++ [e]) =
      observe next out s es ++ out (run next s es) e := by
  simp [observe_append, observe]

theorem mem_observe_iff (next : σ → ε → σ) (out : σ → ε → List β) (s : σ) (es : List ε)
    (b : β) : b ∈ observe next out s es ↔
      ∃ pre e post, es = pre ++ e :: post ∧ b ∈ out (run next s pre) e := by
  constructor
  · intro h
    induction es using List.reverseRecOn with
    | nil => cases h
    | append_singleton es e ih =>
      rw [observe_snoc] at h
      rcases List.mem_append.mp h with h | h
      · obtain ⟨pre, f, post, rfl, hb⟩ := ih h
        exact ⟨pre, f, post ++ [e], by simp, hb⟩
      · exact ⟨es, e, [], rfl, h⟩
  · rintro ⟨pre, e, post, rfl, hb⟩
    rw [observe_append]
    exact List.mem_append_right _ (List.mem_append_left _ hb)

theorem observe_nil_iff (next : σ → ε → σ) (out : σ → ε → List β) (s : σ) (es : List ε) :
    observe next out s es = [] ↔
      ∀ pre e post, es = pre ++ e :: post → out (run next s pre) e = [] := by
  constructor
  · intro h pre e post hes
    refine List.eq_nil_iff_forall_not_mem.mpr fun b hb => ?_
    have : b ∈ observe next out s es := (mem_observe_iff ..).mpr ⟨pre, e, post, hes, hb⟩
    simp [h] at this
  · intro h
    refine List.eq_nil_iff_forall_not_mem.mpr fun b hb => ?_
    obtain ⟨pre, e, post, hes, hb⟩ := (mem_observe_iff ..).mp hb
    simp [h pre e post hes] at hb

/-- The induction rule of total machines, the invariant coupled with the record so far. -/
theorem run_rule (next : σ → ε → σ) (out : σ → ε → List β) (R : σ → List β → Prop) {s : σ}
    (start : R s []) (step : ∀ s r e, R s r → R (next s e) (r ++ out s e)) (es : List ε) :
    R (run next s es) (observe next out s es) := by
  induction es using List.reverseRecOn with
  | nil => exact start
  | append_singleton es e ih =>
    rw [run_snoc, observe_snoc]
    exact step _ _ e ih

/-- The same rule for a plain state invariant. -/
theorem run_invariant (next : σ → ε → σ) (I : σ → Prop) {s : σ} (start : I s)
    (step : ∀ s e, I s → I (next s e)) (es : List ε) : I (run next s es) := by
  induction es using List.reverseRecOn with
  | nil => exact start
  | append_singleton es e ih =>
    rw [run_snoc]
    exact step _ e ih

theorem exists_event_snoc {P : List ε → ε → Prop} {es : List ε} {e : ε} :
    (∃ pre f post, es ++ [e] = pre ++ f :: post ∧ P pre f) ↔
      (∃ pre f post, es = pre ++ f :: post ∧ P pre f) ∨ P es e := by
  constructor
  · rintro ⟨pre, f, post, hes, h⟩
    rcases List.eq_nil_or_concat post with rfl | ⟨post, last, rfl⟩
    · obtain ⟨rfl, heq⟩ := List.append_inj' hes rfl
      cases heq
      exact .inr h
    · left
      rw [List.concat_eq_append, ← List.cons_append, ← List.append_assoc] at hes
      obtain ⟨rfl, -⟩ := List.append_inj' hes rfl
      exact ⟨pre, f, post, rfl, h⟩
  · rintro (⟨pre, f, post, rfl, h⟩ | h)
    · exact ⟨pre, f, post ++ [e], by simp, h⟩
    · exact ⟨es, e, [], rfl, h⟩

/-- The rule of a flag that is never taken back: it is up when an event came that raises it. -/
theorem run_flag (next : σ → ε → σ) (I flag : σ → Prop) (raises : σ → ε → Prop) {s : σ}
    (invariant : ∀ es, I (run next s es))
    (step : ∀ s e, I s → (flag (next s e) ↔ flag s ∨ raises s e)) (start : ¬ flag s)
    (es : List ε) : flag (run next s es) ↔
      ∃ pre e post, es = pre ++ e :: post ∧ raises (run next s pre) e := by
  induction es using List.reverseRecOn with
  | nil => simpa using start
  | append_singleton es e ih =>
    rw [run_snoc, step _ e (invariant es), ih]
    exact (exists_event_snoc (P := fun pre e => raises (run next s pre) e)).symm

/-- The rule of progress: a rank that every working event lowers, and no other event moves,
is down to zero after as many working events. The shortest such prefix is meant. -/
theorem run_reaches (next : σ → ε → σ) (rank : σ → ℕ) (works : ε → Bool)
    (lower : ∀ s e, works e = true → 0 < rank s → rank (next s e) < rank s)
    (keep : ∀ s e, works e = false → rank (next s e) = rank s) {s : σ} {es : List ε}
    (h : rank s ≤ es.countP works) :
    ∃ p q, es = p ++ q ∧ rank (run next s p) = 0 ∧
      ∀ pre e post, p = pre ++ e :: post →
        0 < rank (run next s pre) ∧ rank (run next s pre) ≤ rank s := by
  induction es generalizing s with
  | nil => exact ⟨[], [], rfl, Nat.le_zero.mp h, by simp⟩
  | cons e es ih =>
    rcases Nat.eq_zero_or_pos (rank s) with hz | hpos
    · exact ⟨[], e :: es, rfl, hz, by simp⟩
    · have hle : rank (next s e) ≤ rank s ∧ rank (next s e) ≤ es.countP works := by
        rw [List.countP_cons] at h
        cases hw : works e with
        | true =>
          have := lower s e hw hpos
          rw [if_pos hw] at h
          omega
        | false =>
          rw [keep s e hw]
          simpa [hw] using h
      obtain ⟨p, q, rfl, hzero, hbefore⟩ := ih hle.2
      refine ⟨e :: p, q, rfl, hzero, ?_⟩
      intro pre f post hp
      cases pre with
      | nil => exact ⟨hpos, Nat.le_refl _⟩
      | cons g pre =>
        obtain ⟨rfl, hrest⟩ := List.cons_eq_cons.mp (hp.trans (List.cons_append ..))
        obtain ⟨h₀, h₁⟩ := hbefore pre f post hrest
        exact ⟨h₀, Nat.le_trans h₁ hle.1⟩

/-- A machine seen through `f`: what `f` shows of a run is a run of the machine it shows. -/
theorem run_project {τ : Type*} {next : σ → ε → σ} {shown : τ → ε → τ} (f : σ → τ)
    (h : ∀ s e, f (next s e) = shown (f s) e) (s : σ) (es : List ε) :
    f (run next s es) = run shown (f s) es := by
  induction es using List.reverseRecOn with
  | nil => rfl
  | append_singleton es e ih => rw [run_snoc, run_snoc, h, ih]

theorem observe_map {γ : Type*} (next : σ → ε → σ) (out : σ → ε → List β) (f : β → γ) (s : σ)
    (es : List ε) :
    (observe next out s es).map f = observe next (fun s e => (out s e).map f) s es := by
  induction es generalizing s with
  | nil => rfl
  | cons e es ih => simp [observe, ih]

theorem observe_filter (next : σ → ε → σ) (out : σ → ε → List β) (p : β → Bool) (s : σ)
    (es : List ε) :
    (observe next out s es).filter p = observe next (fun s e => (out s e).filter p) s es := by
  induction es generalizing s with
  | nil => rfl
  | cons e es ih => simp [observe, ih]

/-- Conservation: what flows in is what has flowed out, in order, and what is pending. -/
theorem observe_balance (next : σ → ε → σ) (inflow outflow : σ → ε → List β)
    (pending : σ → List β) (I : σ → Prop) {s : σ} (start : I s)
    (keep : ∀ s e, I s → I (next s e))
    (balance : ∀ s e, I s → pending s ++ inflow s e = outflow s e ++ pending (next s e))
    (es : List ε) :
    pending s ++ observe next inflow s es =
      observe next outflow s es ++ pending (run next s es) := by
  induction es generalizing s with
  | nil => simp [observe]
  | cons e es ih =>
    simp only [observe, run, List.foldl_cons]
    rw [← List.append_assoc, balance s e start, List.append_assoc, ih (keep s e start),
      List.append_assoc]
    rfl

/-- Refinement: if every step of a machine is a few steps of the machine that `f` shows,
then what `f` shows of a run is a run of that machine. -/
theorem run_refine {τ δ : Type*} {next : σ → ε → σ} {step : τ → δ → τ} (f : σ → τ)
    (shown : σ → ε → List δ) (h : ∀ s e, f (next s e) = run step (f s) (shown s e)) (s : σ)
    (es : List ε) : f (run next s es) = run step (f s) (observe next shown s es) := by
  induction es using List.reverseRecOn with
  | nil => rfl
  | append_singleton es e ih => rw [run_snoc, observe_snoc, run_append, h, ih]

/-- What is recorded of the shown machine can be read off the machine above it. -/
theorem observe_refine {τ δ : Type*} {next : σ → ε → σ} {step : τ → δ → τ} {f : σ → τ}
    {shown : σ → ε → List δ} {out : σ → ε → List β} {out' : τ → δ → List β}
    (h : ∀ s e, f (next s e) = run step (f s) (shown s e))
    (ho : ∀ s e, out s e = observe step out' (f s) (shown s e)) (s : σ) (es : List ε) :
    observe next out s es = observe step out' (f s) (observe next shown s es) := by
  induction es using List.reverseRecOn with
  | nil => rfl
  | append_singleton es e ih =>
    rw [observe_snoc, observe_snoc, observe_append, ih, ← run_refine f shown h, ho]

theorem observe_sublist {next : σ → ε → σ} {out out' : σ → ε → List β}
    (h : ∀ s e, (out s e).Sublist (out' s e)) (s : σ) (es : List ε) :
    (observe next out s es).Sublist (observe next out' s es) := by
  induction es generalizing s with
  | nil => exact List.Sublist.refl []
  | cons e es ih => exact (h s e).append (ih _)

/-- A record with at most one entry a step is cut where the run is cut. -/
theorem observe_split {next : σ → ε → σ} {out : σ → ε → List β}
    (h : ∀ s e, (out s e).length ≤ 1) {s : σ} {es : List ε} {xs ys : List β}
    (hs : observe next out s es = xs ++ ys) :
    ∃ p q, es = p ++ q ∧ observe next out s p = xs ∧ observe next out (run next s p) q = ys := by
  induction es generalizing s xs with
  | nil =>
    obtain ⟨rfl, rfl⟩ := List.append_eq_nil_iff.mp hs.symm
    exact ⟨[], [], rfl, rfl, rfl⟩
  | cons e es ih =>
    cases xs with
    | nil => exact ⟨[], e :: es, rfl, rfl, hs⟩
    | cons x xs =>
      have hone := h s e
      rw [observe] at hs
      rcases hout : out s e with _ | ⟨b, _ | ⟨c, bs⟩⟩
      · rw [hout, List.nil_append] at hs
        obtain ⟨p, q, rfl, hp, hq⟩ := ih hs
        exact ⟨e :: p, q, rfl, by rw [observe, hout, hp, List.nil_append], hq⟩
      · rw [hout, List.singleton_append, List.cons_append] at hs
        obtain ⟨hb, hrest⟩ := List.cons_eq_cons.mp hs
        obtain ⟨p, q, rfl, hp, hq⟩ := ih hrest
        exact ⟨e :: p, q, rfl, by rw [observe, hout, hp, hb, List.singleton_append], hq⟩
      · rw [hout] at hone
        simp at hone

/-- Two records that split a third at every step split it over the run. -/
theorem observe_length_add (next : σ → ε → σ) {out out₁ out₂ : σ → ε → List β}
    (h : ∀ s e, (out s e).length = (out₁ s e).length + (out₂ s e).length) (s : σ) (es : List ε) :
    (observe next out s es).length =
      (observe next out₁ s es).length + (observe next out₂ s es).length := by
  induction es generalizing s with
  | nil => rfl
  | cons e es ih =>
    have := ih (next s e)
    simp only [observe, List.length_append, h s e]
    omega

/-- The backlog rule. Work that starts at zero is, at any time, at most what has been
demanded over some last stretch of the run less what was served in it. -/
theorem run_backlog (next : σ → ε → σ) (work : σ → ℕ) (serves : ε → Bool)
    (demand : σ → ε → List β) (k : ℕ)
    (serve : ∀ s e, serves e = true → work (next s e) ≤ work s - 1)
    (load : ∀ s e, serves e = false → work (next s e) ≤ work s + k * (demand s e).length)
    {s : σ} (start : work s = 0) (es : List ε) :
    ∃ pre mid, es = pre ++ mid ∧ work (run next s es) + mid.countP serves ≤
      k * (observe next demand (run next s pre) mid).length := by
  induction es using List.reverseRecOn with
  | nil => exact ⟨[], [], rfl, by simp [start]⟩
  | append_singleton es e ih =>
    obtain ⟨pre, mid, rfl, hle⟩ := ih
    -- an idle server starts the stretch anew, a busy one prolongs it
    have prolong : work (next (run next s (pre ++ mid)) e) + (mid ++ [e]).countP serves ≤
        k * (observe next demand (run next s pre) (mid ++ [e])).length →
        ∃ pre' mid', pre ++ mid ++ [e] = pre' ++ mid' ∧
          work (run next s (pre ++ mid ++ [e])) + mid'.countP serves ≤
            k * (observe next demand (run next s pre') mid').length := fun h =>
      ⟨pre, mid ++ [e], by simp, by rwa [run_snoc]⟩
    have hdemand : k * (observe next demand (run next s pre) (mid ++ [e])).length =
        k * (observe next demand (run next s pre) mid).length +
          k * (demand (run next s (pre ++ mid)) e).length := by
      rw [observe_snoc, List.length_append, Nat.mul_add, run_append]
    cases hs : serves e with
    | false =>
      have := load (run next s (pre ++ mid)) e hs
      apply prolong
      rw [hdemand, List.countP_append, List.countP_singleton, hs]
      simp only [Bool.false_eq_true, if_false]
      omega
    | true =>
      have hserve := serve (run next s (pre ++ mid)) e hs
      rcases Nat.eq_zero_or_pos (work (run next s (pre ++ mid))) with hidle | hbusy
      · exact ⟨pre ++ mid ++ [e], [], by simp, by rw [run_snoc]; simp; omega⟩
      · apply prolong
        rw [hdemand, List.countP_append, List.countP_singleton, hs]
        simp only [if_true]
        omega

def worked (works : σ → ε → Bool) (s : σ) (e : ε) : List Unit := if works s e then [()] else []

/-- The rule of draining: while an invariant holds and the events keep to their promise, every
working step lowers a rank and no other raises it. -/
theorem run_drains (next : σ → ε → σ) (I : σ → Prop) (promised : ε → Prop) (rank : σ → ℕ)
    (works : σ → ε → Bool) (keep : ∀ s e, promised e → I s → I (next s e))
    (lower : ∀ s e, promised e → I s → works s e = true → rank (next s e) ≤ rank s - 1)
    (hold : ∀ s e, promised e → I s → works s e = false → rank (next s e) ≤ rank s) {s : σ}
    (start : I s) {es : List ε} (h : ∀ e ∈ es, promised e) :
    I (run next s es) ∧
      rank (run next s es) ≤ rank s - (observe next (worked works) s es).length := by
  induction es generalizing s with
  | nil => exact ⟨start, Nat.le_refl _⟩
  | cons e es ih =>
    have he := h e List.mem_cons_self
    obtain ⟨hI, hrank⟩ := ih (keep s e he start) fun e' he' => h e' (List.mem_cons_of_mem e he')
    refine ⟨hI, Nat.le_trans hrank ?_⟩
    rw [observe, List.length_append, worked]
    cases hw : works s e with
    | true =>
      have := lower s e he start hw
      rw [if_pos rfl, List.length_singleton]
      omega
    | false =>
      have := hold s e he start hw
      rw [if_neg Bool.false_ne_true, List.length_nil]
      omega

/-- A machine whose step may fail, with one output per event. -/
def runE (step : σ → ε → Except φ (σ × ω)) : σ → List ε → Except φ (σ × List ω)
  | s, [] => .ok (s, [])
  | s, e :: es => do
    let (s, o) ← step s e
    let (s, os) ← runE step s es
    return (s, o :: os)

theorem runE_cons_ok {step : σ → ε → Except φ (σ × ω)} {s s' s'' : σ} {e : ε} {es : List ε}
    {o : ω} {os : List ω} (he : step s e = .ok (s', o)) (hes : runE step s' es = .ok (s'', os)) :
    runE step s (e :: es) = .ok (s'', o :: os) := by
  simp [runE, he, hes, bind, Except.bind, pure, Except.pure]

theorem runE_append (step : σ → ε → Except φ (σ × ω)) (s : σ) (es fs : List ε) :
    runE step s (es ++ fs) = do
      let (s', os) ← runE step s es
      let (s'', os') ← runE step s' fs
      return (s'', os ++ os') := by
  induction es generalizing s with
  | nil =>
    simp only [List.nil_append, runE, bind, Except.bind, pure, Except.pure]
    cases runE step s fs <;> rfl
  | cons e es ih =>
    simp only [List.cons_append, runE, bind, Except.bind, pure, Except.pure] at ih ⊢
    cases step s e with
    | error f => rfl
    | ok p =>
      simp only [ih]
      cases runE step p.1 es with
      | error f => rfl
      | ok q =>
        simp only
        cases runE step q.1 fs <;> rfl

theorem runE_snoc (step : σ → ε → Except φ (σ × ω)) (s : σ) (es : List ε) (e : ε) :
    runE step s (es ++ [e]) = do
      let (s', os) ← runE step s es
      let (s'', o) ← step s' e
      return (s'', os ++ [o]) := by
  rw [runE_append]
  simp only [runE, bind, Except.bind, pure, Except.pure]
  cases runE step s es with
  | error f => rfl
  | ok p =>
    simp only
    cases step p.1 e <;> rfl

theorem runE_map {δ : Type*} (step : σ → ε → Except φ (σ × ω)) (f : δ → ε) (s : σ) (ds : List δ) :
    runE step s (ds.map f) = runE (fun s d => step s (f d)) s ds := by
  induction ds generalizing s with
  | nil => rfl
  | cons d ds ih => simp only [List.map_cons, runE, ih]

/-- The induction rule of failing machines: a relation between the state, the events and
the outputs so far that one step keeps also shows that no step fails. -/
theorem runE_rule (step : σ → ε → Except φ (σ × ω)) (R : σ → List ε → List ω → Prop) {s : σ}
    (start : R s [] [])
    (keep : ∀ s es os e, R s es os → ∃ s' o, step s e = .ok (s', o) ∧ R s' (es ++ [e]) (os ++ [o]))
    (es : List ε) : ∃ s' os, runE step s es = .ok (s', os) ∧ R s' es os := by
  have aux : ∀ (es pre : List ε) (opre : List ω) (s : σ), R s pre opre →
      ∃ s' os, runE step s es = .ok (s', os) ∧ R s' (pre ++ es) (opre ++ os) := by
    intro es
    induction es with
    | nil => intro pre opre s h; exact ⟨s, [], rfl, by simpa using h⟩
    | cons e es ih =>
      intro pre opre s h
      obtain ⟨s₁, o, he, h₁⟩ := keep s pre opre e h
      obtain ⟨s₂, os, hes, h₂⟩ := ih (pre ++ [e]) (opre ++ [o]) s₁ h₁
      exact ⟨s₂, o :: os, runE_cons_ok he hes, by simpa using h₂⟩
  simpa using aux es [] [] s start

/-- The rule of a machine that may be stopped: what the events so far decide to stop it does so,
and the relation holds as long as nothing has. -/
theorem runE_stops (step : σ → ε → Except φ (σ × ω)) (R : σ → List ε → Prop)
    (stops : List ε → ε → Prop) (f : φ) {s : σ} (start : R s [])
    (go : ∀ s pre e, R s pre → ¬ stops pre e → ∃ s' o, step s e = .ok (s', o) ∧ R s' (pre ++ [e]))
    (stop : ∀ s pre e, R s pre → stops pre e → step s e = .error f) (es : List ε) :
    ((∃ pre e post, es = pre ++ e :: post ∧ stops pre e) ∧ runE step s es = .error f) ∨
      (¬(∃ pre e post, es = pre ++ e :: post ∧ stops pre e) ∧
        ∃ s' os, runE step s es = .ok (s', os) ∧ R s' es) := by
  induction es using List.reverseRecOn with
  | nil => exact .inr ⟨by simp, s, [], rfl, start⟩
  | append_singleton es e ih =>
    rw [exists_event_snoc, runE_snoc]
    rcases ih with ⟨hstopped, hrun⟩ | ⟨hgoing, s', os, hrun, hs⟩
    · left
      exact ⟨.inl hstopped, by rw [hrun]; rfl⟩
    · rw [hrun]
      by_cases he : stops es e
      · left
        refine ⟨.inr he, ?_⟩
        simp only [bind, Except.bind, stop s' es e hs he]
      · right
        obtain ⟨s'', o, hstep, hs'⟩ := go s' es e hs he
        refine ⟨not_or.mpr ⟨hgoing, he⟩, s'', os ++ [o], ?_, hs'⟩
        simp only [bind, Except.bind, hstep, pure, Except.pure]

end EventRuns
