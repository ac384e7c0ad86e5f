/-
  The Fisher-Yates shuffle with its draws given.

  From the last slot of an array down to the second, the slot is swapped with one drawn
  from the slots up to it. `Draws i` is the product of the ranges of these draws and
  `arrange` the pass. The result is a permutation of the array, and each permutation of
  an array without duplicates comes from exactly one vector of draws
  (`existsUnique_arrange`): the last slot tells the first draw, and the rest is a
  shorter shuffle.
-/
import Mathlib.Data.Fintype.BigOperators
import Mathlib.Data.Nat.Factorial.Basic
import Mathlib.Logic.ExistsUnique
import Mathlib.SetTheory.Cardinal.Finite

namespace FisherYates

/-- Draws for the slots `i`, …, `1`, each among the slots up to its own. -/
def Draws : ℕ → Type
  | 0 => Unit
  | i + 1 => Fin (i + 2) × Draws i

theorem card_draws (i : ℕ) : Nat.card (Draws i) = (i + 1).factorial := by
  induction i with
  | zero =>
      change Nat.card Unit = 1
      exact Nat.card_unique
  | succ i ih =>
      have hproduct : Nat.card (Draws (i + 1)) = Nat.card (Fin (i + 2)) * Nat.card (Draws i) :=
        Nat.card_prod _ _
      rw [hproduct, Nat.card_fin, ih]
      rfl

variable {α : Type} {i j k : ℕ} {xs ys : Array α}

/-! ## Swaps -/

theorem getElem?_swapIfInBounds (hi : i < xs.size) (hj : j < xs.size) (k : ℕ) :
    (xs.swapIfInBounds i j)[k]? = if j = k then xs[i]? else if i = k then xs[j]? else xs[k]? := by
  rw [Array.swapIfInBounds_def, dif_pos hi, dif_pos hj, Array.getElem?_swap]
  split
  · exact (Array.getElem?_eq_getElem hi).symm
  · split
    · exact (Array.getElem?_eq_getElem hj).symm
    · rfl

theorem swapIfInBounds_perm (i j : ℕ) (xs : Array α) : (xs.swapIfInBounds i j).Perm xs := by
  rw [Array.swapIfInBounds_def]
  split
  · split
    · exact Array.swap_perm _ _
    · exact Array.Perm.rfl
  · exact Array.Perm.rfl

/-! ## The pass -/

/-- The swaps of the slots `i`, …, `1`, in this order. -/
def arrange : (i : ℕ) → Draws i → Array α → Array α
  | 0, _, xs => xs
  | i + 1, (j, rest), xs => arrange i rest (xs.swapIfInBounds (i + 1) j)

theorem arrange_perm (d : Draws i) (xs : Array α) : (arrange i d xs).Perm xs := by
  induction i generalizing xs with
  | zero => exact Array.Perm.rfl
  | succ i ih =>
      obtain ⟨j, rest⟩ := d
      exact (ih rest _).trans (swapIfInBounds_perm (i + 1) j xs)

/-- The slots above stay as they are. -/
theorem getElem?_arrange_of_lt (d : Draws i) (hi : i < xs.size) (hk : i < k) :
    (arrange i d xs)[k]? = xs[k]? := by
  induction i generalizing xs with
  | zero => rfl
  | succ i ih =>
      obtain ⟨j, rest⟩ := d
      have hj : j.val < xs.size := by
        have := j.isLt
        omega
      have hkept : (arrange i rest (xs.swapIfInBounds (i + 1) j))[k]? =
          (xs.swapIfInBounds (i + 1) j)[k]? := ih rest (by simp; omega) (by omega)
      refine hkept.trans ?_
      rw [getElem?_swapIfInBounds hi hj, if_neg (by omega), if_neg (by omega)]

/-- The slot of the first draw holds the element drawn. -/
theorem getElem?_arrange_top (j : Fin (i + 2)) (rest : Draws i) (hi : i + 1 < xs.size) :
    (arrange (i + 1) (j, rest) xs)[i + 1]? = xs[j.val]? := by
  have hj : j.val < xs.size := by
    have := j.isLt
    omega
  have hkept : (arrange i rest (xs.swapIfInBounds (i + 1) j))[i + 1]? =
      (xs.swapIfInBounds (i + 1) j)[i + 1]? :=
    getElem?_arrange_of_lt rest (by simp; omega) (by omega)
  refine hkept.trans ?_
  rw [getElem?_swapIfInBounds hi hj]
  split
  · next heq => rw [heq]
  · exact if_pos rfl

/-- A pass over positions tells the pass over the elements at them. -/
theorem getElem?_arrange_of_positions (d : Draws i) (xs : Array α) {positions : Array ℕ}
    {zs : Array α} (hi : i < zs.size) (hsize : positions.size = zs.size)
    (hread : ∀ k : ℕ, zs[k]? = positions[k]?.bind fun n => xs[n]?) (k : ℕ) :
    (arrange i d zs)[k]? = (arrange i d positions)[k]?.bind fun n => xs[n]? := by
  induction i generalizing positions zs with
  | zero => exact hread k
  | succ i ih =>
      obtain ⟨j, rest⟩ := d
      have hj : j.val < zs.size := by
        have := j.isLt
        omega
      refine ih rest (by simp; omega) (by simp [hsize]) ?_
      intro k
      rw [getElem?_swapIfInBounds hi hj,
        getElem?_swapIfInBounds (by omega : i + 1 < positions.size) (by omega)]
      split
      · exact hread _
      · split
        · exact hread _
        · exact hread _

/-- What is moved does not depend on the elements. -/
theorem getElem?_arrange (d : Draws i) (hi : i < xs.size) (k : ℕ) :
    (arrange i d xs)[k]? = (arrange i d (Array.range xs.size))[k]?.bind fun n => xs[n]? := by
  refine getElem?_arrange_of_positions d xs hi (by simp) ?_ k
  intro k
  by_cases hk : k < xs.size
  · simp [hk]
  · simp [hk]

/-! ## Every order from one vector -/

theorem getElem?_inj (hdistinct : xs.toList.Nodup) (hj : j < xs.size)
    (heq : xs[j]? = xs[k]?) : j = k := by
  have hjlist : j < xs.toList.length := by simpa using hj
  rw [← Array.getElem?_toList, ← Array.getElem?_toList] at heq
  exact (List.getElem?_inj hjlist hdistinct).mp heq

/-- What a permutation that keeps every slot above `i` has in slot `i` comes from a slot
up to `i`. -/
theorem exists_source (hdistinct : xs.toList.Nodup) (hi : i < xs.size)
    (hperm : ys.Perm xs) (hkept : ∀ k : ℕ, i < k → ys[k]? = xs[k]?) :
    ∃ j, j ≤ i ∧ ys[i]? = xs[j]? := by
  have hdistinctResult : ys.toList.Nodup :=
    (List.Perm.nodup_iff (Array.perm_iff_toList_perm.mp hperm)).mpr hdistinct
  have hiResult : i < ys.size := by
    rw [hperm.size_eq]
    exact hi
  have hmem : ys[i] ∈ xs := hperm.mem_iff.mp (Array.getElem_mem hiResult)
  obtain ⟨j, hj, hjeq⟩ := Array.getElem_of_mem hmem
  have hsource : ys[i]? = xs[j]? := by
    rw [Array.getElem?_eq_getElem hiResult, Array.getElem?_eq_getElem hj, hjeq]
  refine ⟨j, ?_, hsource⟩
  -- a slot above `i` still holds its element, which would then stand in two slots
  by_contra habove
  have hsame : ys[i]? = ys[j]? := by rw [hsource, hkept j (by omega)]
  have := getElem?_inj hdistinctResult hiResult hsame
  omega

/-- Once slot `i + 1` holds its element, only the slots up to `i` are left to the pass. -/
theorem kept_swap (hi : i + 1 < xs.size) (hji : j ≤ i + 1) (hsource : ys[i + 1]? = xs[j]?)
    (hkept : ∀ k : ℕ, i + 1 < k → ys[k]? = xs[k]?) (hk : i < k) :
    ys[k]? = (xs.swapIfInBounds (i + 1) j)[k]? := by
  rw [getElem?_swapIfInBounds hi (by omega)]
  by_cases htop : i + 1 = k
  · subst htop
    split
    · next heq => rw [hsource, heq]
    · rw [if_pos rfl, hsource]
  · rw [if_neg (by omega), if_neg htop, hkept k (by omega)]

/-- Without duplicates a permutation that keeps every slot above `i` is the pass of
exactly one vector. -/
theorem existsUnique_arrange (hdistinct : xs.toList.Nodup) (hi : i < xs.size)
    (hperm : ys.Perm xs) (hkept : ∀ k : ℕ, i < k → ys[k]? = xs[k]?) :
    ∃! d : Draws i, arrange i d xs = ys := by
  obtain ⟨j, hji, hsource⟩ := exists_source hdistinct hi hperm hkept
  induction i generalizing xs j with
  | zero =>
      have hsame : xs = ys := by
        refine Array.ext_getElem? fun k => ?_
        rcases Nat.eq_zero_or_pos k with rfl | hk
        · rw [hsource, Nat.le_zero.mp hji]
        · exact (hkept k hk).symm
      exact ⟨(), hsame, fun _ _ => rfl⟩
  | succ i ih =>
      have hswap := swapIfInBounds_perm (i + 1) j xs
      have hdistinctSwap : (xs.swapIfInBounds (i + 1) j).toList.Nodup :=
        (List.Perm.nodup_iff (Array.perm_iff_toList_perm.mp hswap)).mpr hdistinct
      have hiSwap : i < (xs.swapIfInBounds (i + 1) j).size := by
        rw [hswap.size_eq]
        omega
      have hkeptSwap : ∀ k : ℕ, i < k → ys[k]? = (xs.swapIfInBounds (i + 1) j)[k]? :=
        fun k hk => kept_swap hi hji hsource hkept hk
      have hpermSwap := hperm.trans hswap.symm
      obtain ⟨j', hj', hsource'⟩ := exists_source hdistinctSwap hiSwap hpermSwap hkeptSwap
      obtain ⟨rest, hrest, hunique⟩ :=
        ih hdistinctSwap hiSwap hpermSwap hkeptSwap j' hj' hsource'
      refine ⟨(⟨j, by omega⟩, rest), hrest, ?_⟩
      rintro ⟨⟨top, hbound⟩, others⟩ hothers
      -- the slot `i + 1` of the result tells the first draw
      have htop : xs[top]? = xs[j]? := by
        rw [← getElem?_arrange_top ⟨top, hbound⟩ others hi, hothers, hsource]
      have hlt : top < xs.size := by omega
      obtain rfl : top = j := getElem?_inj hdistinct hlt htop
      rw [hunique others hothers]

end FisherYates
