/-
  Lists related entry by entry, read at an index.

  A pass over a mutable list that replaces some of its entries leaves a list related
  to the old one by `List.Forall₂`. The rules here introduce such a relation at an
  update, compose two passes, and take an entry of one list back to the other.
-/
import Mathlib.Data.List.Forall2

namespace Pointwise

variable {α : Type} {R S T : α → α → Prop} {xs ys zs : List α} {i : ℕ} {x y : α}

theorem refl (h : ∀ x, R x x) (xs : List α) : List.Forall₂ R xs xs := by
  induction xs with
  | nil => exact List.Forall₂.nil
  | cons x xs ih => exact List.Forall₂.cons (h x) ih

theorem trans (h : ∀ x y z, R x y → S y z → T x z) (hxy : List.Forall₂ R xs ys)
    (hyz : List.Forall₂ S ys zs) : List.Forall₂ T xs zs := by
  induction hxy generalizing zs with
  | nil =>
      cases hyz
      exact List.Forall₂.nil
  | cons hhead _ ih =>
      cases hyz with
      | cons hhead' htail' => exact List.Forall₂.cons (h _ _ _ hhead hhead') (ih htail')

/-- Replacing one entry by a related one. -/
theorem set (h : ∀ x, R x x) (hx : xs[i]? = some x) (hxy : R x y) :
    List.Forall₂ R xs (xs.set i y) := by
  induction xs generalizing i with
  | nil => simp at hx
  | cons a xs ih =>
      cases i with
      | zero =>
          have ha : a = x := by simpa using hx
          subst ha
          exact List.Forall₂.cons hxy (refl h xs)
      | succ i => exact List.Forall₂.cons (h a) (ih (by simpa using hx))

theorem getElem?_left (h : List.Forall₂ R xs ys) (hx : xs[i]? = some x) :
    ∃ y, ys[i]? = some y ∧ R x y := by
  induction h generalizing i with
  | nil => simp at hx
  | @cons a b xs ys hhead _ ih =>
      cases i with
      | zero =>
          have ha : a = x := by simpa using hx
          subst ha
          exact ⟨b, rfl, hhead⟩
      | succ i => exact ih (by simpa using hx)

theorem getElem?_right (h : List.Forall₂ R xs ys) (hy : ys[i]? = some y) :
    ∃ x, xs[i]? = some x ∧ R x y := getElem?_left h.flip hy

theorem getElem?_rel {β : Type} {Q : α → β → Prop} {zs : List β} {z : β}
    (h : List.Forall₂ Q xs zs) (hx : xs[i]? = some x) (hz : zs[i]? = some z) : Q x z := by
  induction h generalizing i with
  | nil => simp at hx
  | @cons a b xs zs hhead _ ih =>
      cases i with
      | zero =>
          have ha : a = x := by simpa using hx
          have hb : b = z := by simpa using hz
          subst ha hb
          exact hhead
      | succ i => exact ih (by simpa using hx) (by simpa using hz)

/-- Lists of one length, related index by index. -/
theorem of_getElem? {β : Type} {Q : α → β → Prop} {zs : List β} (hlength : xs.length = zs.length)
    (h : ∀ (i : ℕ) (x : α) (z : β), xs[i]? = some x → zs[i]? = some z → Q x z) :
    List.Forall₂ Q xs zs := by
  refine List.forall₂_iff_get.mpr ⟨hlength, ?_⟩
  intro i hx hz
  exact h i _ _ (by simp [hx]) (by simp [hz])

theorem mem_right (h : List.Forall₂ R xs ys) (hy : y ∈ ys) : ∃ x ∈ xs, R x y := by
  obtain ⟨i, hi⟩ := List.mem_iff_getElem?.mp hy
  obtain ⟨x, hx, hxy⟩ := getElem?_right h hi
  exact ⟨x, List.mem_of_getElem? hx, hxy⟩

end Pointwise
