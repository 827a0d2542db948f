import Mathlib.Algebra.Order.Field.Basic
import Mathlib.Algebra.Order.Archimedean.Basic
import Mathlib.Analysis.Convex.Basic
import Mathlib.Tactic.Linarith
import Mathlib.Tactic.Ring

/-! Exponential smoothing over an ordered field, and two such stages in cascade:
the second smooths the output of the first. Bounds on the inputs carry over to both
stages; from any start the cascade forgets its past at a rate uniform in the inputs. -/
namespace TwoStageFilter

variable {K : Type*} [Field K]

def smooth (w u x y : K) : K := x * w + y * u

theorem smooth_neg (w u x y : K) : smooth w u (-x) (-y) = -smooth w u x y := by
  unfold smooth
  ring

theorem foldl_smooth_replicate {w u : K} (h : w + u = 1) (n : ℕ) (x y : K) :
    (List.replicate n y).foldl (smooth w u) x = smooth (w ^ n) (1 - w ^ n) x y := by
  induction n generalizing x with
  | zero => simp [smooth]
  | succ n ih =>
    rw [List.replicate_succ, List.foldl_cons, ih, show u = 1 - w by rw [← h, add_sub_cancel_left]]
    unfold smooth
    ring

/-- Two smoothers fed the same inputs keep the sign of their difference, shrunk by the old
weight. -/
theorem foldl_smooth_sub (w u x x' : K) (ys : List K) :
    ys.foldl (smooth w u) x - ys.foldl (smooth w u) x' = (x - x') * w ^ ys.length := by
  induction ys generalizing x x' with
  | nil => simp
  | cons y ys ih =>
    rw [List.foldl_cons, List.foldl_cons, ih, List.length_cons]
    unfold smooth
    ring

@[ext] structure Cascade (K : Type*) where
  level : K
  threshold : K

def Cascade.step (w s : K) (f : Cascade K) (y : K) : Cascade K :=
  let level := smooth w (1 - w) f.level y
  ⟨level, smooth s (1 - s) f.threshold level⟩

def Cascade.run (w s : K) (f : Cascade K) (ys : List K) : Cascade K := ys.foldl (Cascade.step w s) f

theorem Cascade.run_append (w s : K) (f : Cascade K) (ys zs : List K) :
    f.run w s (ys ++ zs) = (f.run w s ys).run w s zs := List.foldl_append

def Cascade.neg (f : Cascade K) : Cascade K := ⟨-f.level, -f.threshold⟩

theorem Cascade.run_neg (w s : K) (f : Cascade K) (ys : List K) :
    f.neg.run w s (ys.map (-·)) = (f.run w s ys).neg := by
  induction ys generalizing f with
  | nil => rfl
  | cons y ys ih =>
    rw [List.map_cons]
    refine Eq.trans (congrArg (fun g => Cascade.run w s g (ys.map (-·))) ?_) (ih (f.step w s y))
    simp only [Cascade.step, Cascade.neg, smooth_neg]

variable [LinearOrder K]

/-- A convex set of levels that holds the start and the inputs holds the smoothed value. -/
theorem smooth_mem {w u x y : K} {C : Set K} (hC : Convex K C) (hw : 0 ≤ w) (hu : 0 ≤ u)
    (h : w + u = 1) (hx : x ∈ C) (hy : y ∈ C) : smooth w u x y ∈ C := by
  have hmem := hC hx hy hw hu h
  rw [smul_eq_mul, smul_eq_mul, mul_comm w, mul_comm u] at hmem
  exact hmem

theorem foldl_smooth_mem {w u x : K} {C : Set K} (hC : Convex K C) (hw : 0 ≤ w) (hu : 0 ≤ u)
    (h : w + u = 1) (hx : x ∈ C) {ys : List K} (hy : ∀ y ∈ ys, y ∈ C) :
    ys.foldl (smooth w u) x ∈ C := by
  induction ys generalizing x with
  | nil => exact hx
  | cons y ys ih =>
    have hxy : smooth w u x y ∈ C := smooth_mem hC hw hu h hx (hy y List.mem_cons_self)
    exact ih hxy fun z hz => hy z (List.mem_cons_of_mem y hz)

variable [IsStrictOrderedRing K]

theorem smooth_le {w u x y b : K} (hw : 0 ≤ w) (hu : 0 ≤ u) (h : w + u = 1)
    (hx : x ≤ b) (hy : y ≤ b) : smooth w u x y ≤ b := by
  have h₁ := mul_le_mul_of_nonneg_right hx hw
  have h₂ := mul_le_mul_of_nonneg_right hy hu
  have hb : b * w + b * u = b := by rw [← mul_add, h, mul_one]
  unfold smooth
  linarith

/-- The old value keeps a strict bound as long as it has any weight. -/
theorem smooth_lt {w u x y b : K} (hw : 0 < w) (hu : 0 ≤ u) (h : w + u = 1)
    (hx : x < b) (hy : y ≤ b) : smooth w u x y < b := by
  have h₁ := mul_lt_mul_of_pos_right hx hw
  have h₂ := mul_le_mul_of_nonneg_right hy hu
  have hb : b * w + b * u = b := by rw [← mul_add, h, mul_one]
  unfold smooth
  linarith

theorem smooth_lt_of_lt {w u x y b : K} (hw : 0 ≤ w) (hu : 0 ≤ u) (h : w + u = 1)
    (hx : x < b) (hy : y < b) : smooth w u x y < b :=
  (smooth_le hw hu h (le_max_left x y) (le_max_right x y)).trans_lt (max_lt hx hy)

section Bounds

variable {w s b : K} (hw : 0 < w) (hw₁ : w ≤ 1) (hs : 0 ≤ s) (hs₁ : s ≤ 1)
include hw hw₁ hs hs₁

theorem Cascade.run_le {f : Cascade K} (hl : f.level ≤ b) (ht : f.threshold ≤ b) {ys : List K}
    (hy : ∀ y ∈ ys, y ≤ b) : (f.run w s ys).level ≤ b ∧ (f.run w s ys).threshold ≤ b := by
  induction ys generalizing f with
  | nil => exact ⟨hl, ht⟩
  | cons y ys ih =>
    have hl' : (f.step w s y).level ≤ b :=
      smooth_le hw.le (sub_nonneg.mpr hw₁) (by ring) hl (hy y (by simp))
    have ht' : (f.step w s y).threshold ≤ b :=
      smooth_le hs (sub_nonneg.mpr hs₁) (by ring) ht hl'
    exact ih hl' ht' fun z hz => hy z (by simp [hz])

theorem Cascade.run_lt {f : Cascade K} (hl : f.level < b) (ht : f.threshold < b) {ys : List K}
    (hy : ∀ y ∈ ys, y ≤ b) : (f.run w s ys).level < b ∧ (f.run w s ys).threshold < b := by
  induction ys generalizing f with
  | nil => exact ⟨hl, ht⟩
  | cons y ys ih =>
    have hl' : (f.step w s y).level < b :=
      smooth_lt hw (sub_nonneg.mpr hw₁) (by ring) hl (hy y (by simp))
    have ht' : (f.step w s y).threshold < b :=
      smooth_lt_of_lt hs (sub_nonneg.mpr hs₁) (by ring) ht hl'
    exact ih hl' ht' fun z hz => hy z (by simp [hz])

theorem Cascade.le_run {f : Cascade K} (hl : b ≤ f.level) (ht : b ≤ f.threshold) {ys : List K}
    (hy : ∀ y ∈ ys, b ≤ y) : b ≤ (f.run w s ys).level ∧ b ≤ (f.run w s ys).threshold := by
  have := Cascade.run_le (f := f.neg) hw hw₁ hs hs₁ (neg_le_neg hl) (neg_le_neg ht)
    (List.forall_mem_map.mpr fun y h => neg_le_neg (hy y h))
  rw [Cascade.run_neg] at this
  exact ⟨neg_le_neg_iff.mp this.1, neg_le_neg_iff.mp this.2⟩

end Bounds

private theorem pow_mul_small [Archimedean K] {r c ε : K} (hr : 0 ≤ r) (hr₁ : r < 1)
    (hc : 0 ≤ c) (hε : 0 < ε) : ∃ k, ∀ n, k ≤ n → r ^ n * c ≤ ε := by
  obtain ⟨k, hk⟩ := exists_pow_lt_of_lt_one (div_pos hε (by linarith : 0 < c + 1)) hr₁
  refine ⟨k, fun n hn => ?_⟩
  have hle : r ^ n ≤ r ^ k := pow_le_pow_of_le_one hr hr₁.le hn
  have hlt : r ^ k * (c + 1) < ε := (lt_div_iff₀ (by linarith)).mp hk
  calc r ^ n * c ≤ r ^ k * c := mul_le_mul_of_nonneg_right hle hc
    _ ≤ r ^ k * (c + 1) := mul_le_mul_of_nonneg_left (by linarith) (pow_nonneg hr k)
    _ ≤ ε := hlt.le

section Decay

variable {w s b : K}

/-- The first stage approaches the bound of its inputs geometrically from above. -/
theorem Cascade.level_decay (hw : 0 ≤ w) (hw₁ : w ≤ 1) {f : Cascade K} {c : K} (hc : 0 ≤ c)
    (hl : f.level ≤ b + c) {ys : List K} (hy : ∀ y ∈ ys, y ≤ b) :
    (f.run w s ys).level ≤ b + w ^ ys.length * c := by
  induction ys generalizing f c with
  | nil => simpa [Cascade.run] using hl
  | cons y ys ih =>
    have h₁ := mul_le_mul_of_nonneg_right hl hw
    have h₂ := mul_le_mul_of_nonneg_right (hy y (by simp)) (sub_nonneg.mpr hw₁)
    have hl' : (f.step w s y).level ≤ b + w * c := by
      simp only [Cascade.step, smooth]
      linarith
    have := ih (mul_nonneg hw hc) hl' fun z hz => hy z (by simp [hz])
    rw [List.length_cons, pow_succ, mul_assoc]
    exact this

/-- Once the first stage is below a bound, the second approaches that bound geometrically. -/
theorem Cascade.threshold_decay (hw : 0 ≤ w) (hw₁ : w ≤ 1) (hs : 0 ≤ s) (hs₁ : s ≤ 1)
    {f : Cascade K} {c : K} (hc : 0 ≤ c) (hl : f.level ≤ b) (ht : f.threshold ≤ b + c)
    {ys : List K} (hy : ∀ y ∈ ys, y ≤ b) :
    (f.run w s ys).threshold ≤ b + s ^ ys.length * c := by
  induction ys generalizing f c with
  | nil => simpa [Cascade.run] using ht
  | cons y ys ih =>
    have hl' : (f.step w s y).level ≤ b :=
      smooth_le hw (sub_nonneg.mpr hw₁) (by ring) hl (hy y (by simp))
    have h₁ := mul_le_mul_of_nonneg_right ht hs
    have h₂ := mul_le_mul_of_nonneg_right hl' (sub_nonneg.mpr hs₁)
    have ht' : (f.step w s y).threshold ≤ b + s * c := by
      simp only [Cascade.step, smooth] at h₂ ⊢
      linarith
    have := ih (mul_nonneg hs hc) hl' ht' fun z hz => hy z (by simp [hz])
    rw [List.length_cons, pow_succ, mul_assoc]
    exact this

variable [Archimedean K] (hw : 0 < w) (hw₁ : w < 1) (hs : 0 < s) (hs₁ : s < 1)
include hw hw₁ hs hs₁

/-- After enough inputs below `b`, however they are arranged, both stages are near `b` or below. -/
theorem Cascade.settles (f : Cascade K) {ε : K} (hε : 0 < ε) :
    ∃ k, ∀ ys : List K, k ≤ ys.length → (∀ y ∈ ys, y ≤ b) →
      (f.run w s ys).level ≤ b + ε ∧ (f.run w s ys).threshold ≤ b + ε := by
  obtain ⟨c, hc, hlc, htc⟩ : ∃ c, 0 ≤ c ∧ f.level ≤ b + c ∧ f.threshold ≤ b + c := by
    refine ⟨max 0 (max (f.level - b) (f.threshold - b)), le_max_left _ _, ?_, ?_⟩
    · linarith [le_max_right 0 (max (f.level - b) (f.threshold - b)),
        le_max_left (f.level - b) (f.threshold - b)]
    · linarith [le_max_right 0 (max (f.level - b) (f.threshold - b)),
        le_max_right (f.level - b) (f.threshold - b)]
  obtain ⟨k₁, h₁⟩ := pow_mul_small hw.le hw₁ hc (half_pos hε)
  obtain ⟨k₂, h₂⟩ := pow_mul_small hs.le hs₁ hc (half_pos hε)
  refine ⟨k₁ + k₂, fun ys hlen hy => ?_⟩
  have hsplit := List.take_append_drop k₁ ys
  have hpre : ∀ y ∈ ys.take k₁, y ≤ b := fun y h => hy y (List.mem_of_mem_take h)
  have hpost : ∀ y ∈ ys.drop k₁, y ≤ b + ε / 2 :=
    fun y h => (hy y (List.mem_of_mem_drop h)).trans (by linarith)
  have hl := Cascade.level_decay (s := s) hw.le hw₁.le hc hlc hpre
  have ht := (Cascade.run_le (b := b + c) hw hw₁.le hs.le hs₁.le hlc htc
    fun y h => (hpre y h).trans (by linarith)).2
  have hl' := hl.trans (add_le_add_right (h₁ _ (by rw [List.length_take]; omega)) b)
  have ht' := Cascade.threshold_decay hw.le hw₁.le hs.le hs₁.le hc hl'
    (ht.trans (by linarith)) hpost
  have hlast := h₂ (ys.drop k₁).length (by rw [List.length_drop]; omega)
  have hlev := (Cascade.level_decay (s := s) hw.le hw₁.le hε.le (hl'.trans (by linarith))
    (b := b) fun y h => hy y (List.mem_of_mem_drop (i := k₁) h))
  have hone : w ^ (ys.drop k₁).length * ε ≤ ε :=
    mul_le_of_le_one_left hε.le (pow_le_one₀ hw.le hw₁.le)
  rw [← hsplit, Cascade.run_append]
  exact ⟨by linarith, by linarith⟩

/-- One low input among the last `n` pulls the cascade strictly below the high level, and
the inputs after it never lift it back. How long to wait depends on the start only. -/
theorem Cascade.dips_below (f : Cascade K) {l h : K} (hlh : l < h) (n : ℕ) :
    ∃ k, ∀ ys : List K, k ≤ ys.length → (∀ y ∈ ys, y ≤ h) → l ∈ ys.drop (ys.length - n) →
      (f.run w s ys).threshold < h := by
  have hgap : 0 < (1 - s) * (1 - w) * (h - l) := by
    refine mul_pos (mul_pos ?_ ?_) ?_ <;> linarith
  obtain ⟨k, hk⟩ := Cascade.settles (b := h) hw hw₁ hs hs₁ f (half_pos hgap)
  refine ⟨k + n, fun ys hlen hy hmem => ?_⟩
  obtain ⟨mid, post, hmp⟩ := List.append_of_mem hmem
  have hys : ys = (ys.take (ys.length - n) ++ mid) ++ l :: post := by
    rw [List.append_assoc, ← hmp, List.take_append_drop]
  have hpre : ∀ y ∈ ys.take (ys.length - n) ++ mid, y ≤ h := fun y hy' =>
    hy y (by rw [hys]; exact List.mem_append_left _ hy')
  have hpost : ∀ y ∈ post, y ≤ h := fun y hy' =>
    hy y (by rw [hys]; exact List.mem_append_right _ (List.mem_cons_of_mem _ hy'))
  obtain ⟨hlev, hthr⟩ := hk _ (by rw [List.length_append, List.length_take]; omega) hpre
  rw [hys, Cascade.run_append]
  generalize f.run w s (ys.take (ys.length - n) ++ mid) = g at hlev hthr
  set ε := (1 - s) * (1 - w) * (h - l) / 2 with hε
  have hεpos : 0 < ε := half_pos hgap
  have hdip : (g.step w s l).level ≤ h + ε - (1 - w) * (h - l) := by
    have h₁ := mul_le_mul_of_nonneg_right hlev hw.le
    have h₂ := mul_le_of_le_one_right hεpos.le hw₁.le
    simp only [Cascade.step, smooth]
    linarith
  have hlow : 2 * ε = (1 - s) * ((1 - w) * (h - l)) := by rw [hε]; ring
  have hdiff : 0 < (1 - w) * (h - l) := mul_pos (by linarith) (by linarith)
  have hεlt : ε < (1 - w) * (h - l) := by
    have := mul_lt_of_lt_one_left hdiff (by linarith : 1 - s < 1)
    linarith
  have hthr' : (g.step w s l).threshold < h := by
    have h₁ := mul_le_mul_of_nonneg_right hthr hs.le
    have h₂ := mul_le_mul_of_nonneg_right hdip (by linarith : 0 ≤ 1 - s)
    have h₃ : (h + ε - (1 - w) * (h - l)) * (1 - s) = h * (1 - s) + ε * (1 - s) - 2 * ε := by
      rw [hlow]; ring
    change smooth s (1 - s) g.threshold (g.step w s l).level < h
    unfold smooth
    linarith
  exact (Cascade.run_lt hw hw₁.le hs.le hs₁.le (by linarith) hthr' hpost).2

/-- The mirror image: one high input among the last `n` keeps the cascade strictly above the low
level. -/
theorem Cascade.rises_above (f : Cascade K) {l h : K} (hlh : l < h) (n : ℕ) :
    ∃ k, ∀ ys : List K, k ≤ ys.length → (∀ y ∈ ys, l ≤ y) → h ∈ ys.drop (ys.length - n) →
      l < (f.run w s ys).threshold := by
  obtain ⟨k, hk⟩ := Cascade.dips_below hw hw₁ hs hs₁ f.neg (neg_lt_neg hlh) n
  refine ⟨k, fun ys hlen hy hmem => ?_⟩
  have := hk (ys.map (-·)) (by simpa using hlen)
    (List.forall_mem_map.mpr fun y h => neg_le_neg (hy y h)) (by
    rw [List.length_map, ← List.map_drop]
    exact List.mem_map_of_mem hmem)
  rw [Cascade.run_neg] at this
  exact neg_lt_neg_iff.mp this

end Decay

end TwoStageFilter
