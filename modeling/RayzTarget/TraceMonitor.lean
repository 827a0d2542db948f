import Mathlib.Data.List.Induction

/-! Monitors: partial automata that read a trace. A trace is well formed for a monitor when it
reads the whole of it; what it must never see is where its step is undefined. -/
namespace TraceMonitor

variable {π ω : Type*} (step : π → ω → Option π)

def reads (p : π) : List ω → Option π
  | [] => some p
  | e :: es => (step p e).bind fun q => reads q es

@[simp] theorem reads_nil (p : π) : reads step p [] = some p := rfl

theorem reads_append (p : π) (es fs : List ω) :
    reads step p (es ++ fs) = (reads step p es).bind fun q => reads step q fs := by
  induction es generalizing p with
  | nil => rfl
  | cons e es ih =>
    rw [List.cons_append, reads, reads, Option.bind_assoc]
    congr 1
    funext q
    exact ih q

variable {step} {p q : π} {es : List ω}

theorem reads_cons {e : ω} (h : step p e = some q) : reads step p (e :: es) = reads step q es := by
  rw [reads, h]
  rfl

theorem reads_snoc (h : reads step p es = some q) (e : ω) :
    reads step p (es ++ [e]) = step q e := by
  simp [reads_append, h, reads]

/-- Two monitors that have read the same trace stand in every relation that one entry keeps. -/
theorem reads_together {π' : Type*} {step' : π' → ω → Option π'} (R : π → π' → Prop)
    (keep : ∀ p p' e q q', R p p' → step p e = some q → step' p' e = some q' → R q q')
    {p' q' : π'} (h : reads step p es = some q) (h' : reads step' p' es = some q') (hR : R p p') :
    R q q' := by
  induction es generalizing p p' with
  | nil =>
    cases h
    cases h'
    exact hR
  | cons e es ih =>
    obtain ⟨r, hr, h⟩ := Option.bind_eq_some_iff.mp h
    obtain ⟨r', hr', h'⟩ := Option.bind_eq_some_iff.mp h'
    exact ih h h' (keep _ _ e _ _ hR hr hr')

/-- A trace judged well formed was so at every cut. -/
theorem reads_prefix {fs : List ω} (h : reads step p (es ++ fs) = some q) :
    ∃ r, reads step p es = some r ∧ reads step r fs = some q :=
  Option.bind_eq_some_iff.mp ((reads_append step p es fs).symm.trans h)

/-! A trace may also be judged entry by entry, each by what stands before it. -/

/-- Every entry is justified by what stands before it. -/
def Justified (P : List ω → ω → Prop) (es : List ω) : Prop :=
  ∀ pre e post, es = pre ++ e :: post → P pre e

variable {P : List ω → ω → Prop}

theorem justified_nil : Justified P [] := by
  intro pre e post h
  cases pre <;> cases h

theorem Justified.snoc {e : ω} (h : Justified P es) (he : P es e) : Justified P (es ++ [e]) := by
  intro pre f post heq
  rcases List.eq_nil_or_concat post with rfl | ⟨rest, g, rfl⟩
  · obtain ⟨rfl, hf⟩ := List.append_inj' heq rfl
    cases hf
    exact he
  · rw [List.concat_eq_append, ← List.cons_append, ← List.append_assoc] at heq
    exact h pre f rest (List.append_inj' heq rfl).1

theorem Justified.append {fs : List ω} (h : Justified P es)
    (hfs : ∀ pre, ∀ f ∈ fs, P (es ++ pre) f) : Justified P (es ++ fs) := by
  induction fs using List.reverseRecOn with
  | nil => rwa [List.append_nil]
  | append_singleton fs f ih =>
    rw [← List.append_assoc]
    apply Justified.snoc
    · exact ih fun pre g hg => hfs pre g (List.mem_append_left _ hg)
    · exact hfs fs f (List.mem_append_right _ List.mem_cons_self)

end TraceMonitor
