/-
  Pairwise distinct outputs of a list of steps.

  A run of steps, each with a list of outputs: the outputs of all steps are
  pairwise distinct, or two steps collide. The rules here say which step an
  output belongs to, and when mapping the steps keeps them distinct.
-/
import Mathlib.Data.List.Nodup

namespace Distinct

variable {α β : Type}

/-- Distinctness survives a partial map that is defined and injective on the list, and
    such a map makes nothing distinct that was not. -/
theorem nodup_filterMap_iff {f : α → Option β} {l : List α} (hsome : ∀ a ∈ l, (f a).isSome)
    (hinj : ∀ a ∈ l, ∀ a' ∈ l, f a = f a' → a = a') : (l.filterMap f).Nodup ↔ l.Nodup := by
  unfold List.Nodup
  rw [List.pairwise_filterMap]
  refine List.Pairwise.iff_of_mem fun {a a'} ha ha' => ?_
  obtain ⟨b, hb⟩ := Option.isSome_iff_exists.mp (hsome a ha)
  obtain ⟨b', hb'⟩ := Option.isSome_iff_exists.mp (hsome a' ha')
  constructor
  · intro h heq
    subst heq
    exact h b hb b hb rfl
  · intro hne c hc c' hc' heq
    subst heq
    exact hne (hinj a ha a' ha' (hc.trans hc'.symm))

/-- An output belongs to one step only. -/
theorem index_eq_of_mem {f : α → List β} {l : List α} (h : (l.flatMap f).Nodup) {j k : ℕ}
    {a b : α} (hj : l[j]? = some a) (hk : l[k]? = some b) {x : β} (ha : x ∈ f a)
    (hb : x ∈ f b) : j = k := by
  have hpair := List.pairwise_iff_getElem.mp (List.nodup_flatMap.mp h).2
  obtain ⟨hjl, rfl⟩ := List.getElem?_eq_some_iff.mp hj
  obtain ⟨hkl, rfl⟩ := List.getElem?_eq_some_iff.mp hk
  by_contra hne
  rcases Nat.lt_or_gt_of_ne hne with hlt | hgt
  · exact hpair j k hjl hkl hlt ha hb
  · exact hpair k j hkl hjl hgt hb ha

end Distinct
