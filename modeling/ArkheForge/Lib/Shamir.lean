/-
  Shamir's scheme over any field.

  A secret is the constant term of a polynomial given by the list of its higher
  coefficients, and a share is its value at a non-zero point (`evalWithConst`, in
  Horner form). Two facts about it are all a dealer and a combiner need. More values
  than there are higher coefficients give the secret back, as a sum of values times
  basis weights (`secret_eq_sum`). As many values as higher coefficients fit every
  secret, by exactly one list of coefficients each (`existsUnique_coeffs`).
-/
import Mathlib.LinearAlgebra.Lagrange

namespace Shamir

open Polynomial

variable {F : Type} [Field F]

/-! ## Polynomials by their coefficients -/

/-- The polynomial with the given coefficients, constant term first. -/
noncomputable def polyOf : List F → F[X]
  | [] => 0
  | c :: cs => C c + X * polyOf cs

/-- Horner evaluation of the higher coefficients and a constant term. -/
def evalWithConst (constTerm : F) (coeffs : List F) (x : F) : F :=
  coeffs.foldr (fun c acc => acc * x + c) 0 * x + constTerm

theorem eval_polyOf (coeffs : List F) (x : F) :
    (polyOf coeffs).eval x = coeffs.foldr (fun c acc => acc * x + c) 0 := by
  induction coeffs with
  | nil => simp [polyOf]
  | cons c cs ih =>
      simp only [polyOf, eval_add, eval_C, eval_mul, eval_X, ih, List.foldr_cons]
      ring

theorem evalWithConst_eq_eval (constTerm : F) (coeffs : List F) (x : F) :
    evalWithConst constTerm coeffs x = (polyOf (constTerm :: coeffs)).eval x := by
  rw [eval_polyOf]
  rfl

theorem eval_polyOf_zero (constTerm : F) (coeffs : List F) :
    (polyOf (constTerm :: coeffs)).eval 0 = constTerm := by
  simp [polyOf]

theorem coeff_polyOf (coeffs : List F) (i : ℕ) : (polyOf coeffs).coeff i = coeffs.getD i 0 := by
  induction coeffs generalizing i with
  | nil => simp [polyOf]
  | cons c cs ih =>
      cases i with
      | zero => simp [polyOf]
      | succ i => simp [polyOf, ih]

theorem degree_polyOf_lt (coeffs : List F) : (polyOf coeffs).degree < coeffs.length := by
  refine (degree_lt_iff_coeff_zero _ _).mpr ?_
  intro i hi
  rw [coeff_polyOf, List.getD_eq_getElem?_getD, List.getElem?_eq_none hi]
  rfl

/-- The coefficients are read off the polynomial. -/
theorem polyOf_injective {cs ds : List F} (hlength : cs.length = ds.length)
    (h : polyOf cs = polyOf ds) : cs = ds := by
  refine List.ext_getElem hlength ?_
  intro i hi hi'
  have hcoeff : cs.getD i 0 = ds.getD i 0 := by rw [← coeff_polyOf, h, coeff_polyOf]
  simpa [List.getD_eq_getElem?_getD, hi, hi'] using hcoeff

/-- Every polynomial of degree below `k` has a list of `k` coefficients. -/
theorem exists_polyOf {p : F[X]} {k : ℕ} (hp : p.degree < k) :
    ∃ cs : List F, cs.length = k ∧ polyOf cs = p := by
  refine ⟨(List.range k).map p.coeff, by simp, ?_⟩
  ext i
  rw [coeff_polyOf]
  by_cases hi : i < k
  · simp [List.getD_eq_getElem?_getD, hi]
  · have hzero : p.coeff i = 0 := (degree_lt_iff_coeff_zero _ _).mp hp i (not_lt.mp hi)
    simp [List.getD_eq_getElem?_getD, hi, hzero]

/-! ## Combining shares -/

variable {ι : Type} [DecidableEq ι] {s : Finset ι} {x : ι → F}

/-- The weight of the share at `x i`: its basis polynomial at zero. -/
def weight (s : Finset ι) (x : ι → F) (i : ι) : F :=
  (∏ j ∈ s.erase i, x j) * (∏ j ∈ s.erase i, (x j - x i))⁻¹

theorem eval_basis_zero (s : Finset ι) (x : ι → F) (i : ι) :
    (Lagrange.basis s x i).eval 0 = weight s x i := by
  unfold Lagrange.basis Lagrange.basisDivisor weight
  rw [eval_prod, ← Finset.prod_inv_distrib, ← Finset.prod_mul_distrib]
  refine Finset.prod_congr rfl ?_
  intro j _
  have hflip : (x i - x j)⁻¹ = -(x j - x i)⁻¹ := by rw [← inv_neg, neg_sub]
  simp only [eval_mul, eval_C, eval_sub, eval_X, hflip]
  ring

/-- The shares at more distinct points than there are higher coefficients give the secret. -/
theorem secret_eq_sum (hx : Set.InjOn x s) (secret : F) {coeffs : List F}
    (hcount : coeffs.length < s.card) :
    ∑ i ∈ s, evalWithConst secret coeffs (x i) * weight s x i = secret := by
  have hdegree : (polyOf (secret :: coeffs)).degree < s.card := by
    refine (degree_polyOf_lt (secret :: coeffs)).trans_le ?_
    rw [List.length_cons]
    exact_mod_cast hcount
  have hpoly := Lagrange.eq_interpolate hx hdegree
  have heval := congrArg (eval 0) hpoly
  rw [eval_polyOf_zero, Lagrange.interpolate_apply, eval_finsetSum] at heval
  refine Eq.trans (Finset.sum_congr rfl ?_) heval.symm
  intro i _
  rw [eval_mul, eval_C, eval_basis_zero, evalWithConst_eq_eval]

/-- No share at a non-zero point is without weight. -/
theorem weight_ne_zero (hx : Set.InjOn x s) (hne : ∀ j ∈ s, x j ≠ 0) {i : ι} (hi : i ∈ s) :
    weight s x i ≠ 0 := by
  unfold weight
  refine mul_ne_zero ?_ (inv_ne_zero ?_)
  · exact Finset.prod_ne_zero_iff.mpr fun j hj => hne j (Finset.mem_of_mem_erase hj)
  · refine Finset.prod_ne_zero_iff.mpr ?_
    intro j hj
    obtain ⟨hji, hj⟩ := Finset.mem_erase.mp hj
    exact sub_ne_zero.mpr fun heq => hji (hx hj hi heq)

/-- With the other shares given, one value of a share gives the secret that is wanted. -/
theorem existsUnique_value (hx : Set.InjOn x s) (hne : ∀ j ∈ s, x j ≠ 0) {i : ι} (hi : i ∈ s)
    (rest wanted : F) : ∃! v, v * weight s x i + rest = wanted := by
  have hweight := weight_ne_zero hx hne hi
  refine ⟨(wanted - rest) / weight s x i, ?_, ?_⟩
  · simp only
    rw [div_mul_cancel₀ _ hweight, sub_add_cancel]
  · intro v hv
    rw [eq_div_iff hweight]
    exact eq_sub_of_add_eq hv

/-! ## What shares reveal -/

/-- Shares at as many distinct non-zero points as there are higher coefficients fit any
    secret, by one list of coefficients. -/
theorem existsUnique_coeffs (hx : Set.InjOn x s) (hne : ∀ i ∈ s, x i ≠ 0) (secret : F)
    (values : ι → F) :
    ∃! coeffs : List F, coeffs.length = s.card ∧
      ∀ i ∈ s, evalWithConst secret coeffs (x i) = values i := by
  -- the higher coefficients are the polynomial through the values less the secret, over the point
  have hiff : ∀ coeffs : List F, ∀ i ∈ s,
      evalWithConst secret coeffs (x i) = values i ↔
        (polyOf coeffs).eval (x i) = (values i - secret) / x i := by
    intro coeffs i hi
    rw [eval_polyOf, eq_div_iff (hne i hi), eq_sub_iff_add_eq]
    rfl
  obtain ⟨coeffs, hlength, hpoly⟩ := exists_polyOf
    (Lagrange.degree_interpolate_lt (fun i => (values i - secret) / x i) hx)
  refine ⟨coeffs, ⟨hlength, ?_⟩, ?_⟩
  · intro i hi
    rw [hiff coeffs i hi, hpoly, Lagrange.eval_interpolate_at_node _ hx hi]
  · intro other hother
    obtain ⟨hlength', hvalues⟩ := hother
    refine polyOf_injective (hlength'.trans hlength.symm) ?_
    rw [hpoly]
    refine Lagrange.eq_interpolate_of_eval_eq _ hx ?_ ?_
    · rw [← hlength']
      exact degree_polyOf_lt other
    · intro i hi
      exact (hiff other i hi).mp (hvalues i hi)

end Shamir
