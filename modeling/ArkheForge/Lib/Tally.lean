/-
  Tallies of a list over a linear order.

  A tally lists each element once, with how often it occurs, the most frequent first and
  the larger first among those that occur equally often. A list has exactly one tally
  (`IsTally.unique`), which does not depend on the order of the list; sorting it, reading off
  its runs and sorting these finds it (`isTally_tally`).
-/
import Mathlib.Algebra.Ring.Nat
import Mathlib.Data.List.Sort
import Mathlib.Data.Prod.Lex

namespace Tally

variable {α : Type} [LinearOrder α] {xs ys : List α} {groups groups' : List (ℕ × α)}

/-- The list with every group written out. -/
def expand (groups : List (ℕ × α)) : List α := groups.flatMap fun g => List.replicate g.1 g.2

/-- The group comes before the other one. -/
def Before (g g' : ℕ × α) : Prop := toLex g' ≤ toLex g

instance before_decidable : DecidableRel (@Before α _) :=
  fun g g' => inferInstanceAs (Decidable (toLex g' ≤ toLex g))

instance before_total : Std.Total (@Before α _) := ⟨fun g g' => le_total (toLex g') (toLex g)⟩

instance before_trans : IsTrans (ℕ × α) Before := ⟨fun _ _ _ h h' => le_trans h' h⟩

instance before_antisymm : Std.Antisymm (@Before α _) :=
  ⟨fun _ _ h h' => toLex.injective (le_antisymm h' h)⟩

/-- The groups are those of the list, in order. -/
structure IsTally (xs : List α) (groups : List (ℕ × α)) : Prop where
  perm : (expand groups).Perm xs
  pos : ∀ g ∈ groups, 0 < g.1
  distinct : (groups.map Prod.snd).Nodup
  ordered : groups.Pairwise Before

/-! ## A list has one tally -/

theorem count_expand_of_notMem {a : α} (h : a ∉ groups.map Prod.snd) :
    (expand groups).count a = 0 := by
  refine List.count_eq_zero.mpr fun hmem => h ?_
  obtain ⟨g, hg, ha⟩ := List.mem_flatMap.mp hmem
  exact List.mem_map.mpr ⟨g, hg, (List.eq_of_mem_replicate ha).symm⟩

theorem count_expand_of_mem (hdistinct : (groups.map Prod.snd).Nodup) {n : ℕ} {a : α}
    (h : (n, a) ∈ groups) : (expand groups).count a = n := by
  induction groups with
  | nil => cases h
  | cons g groups ih =>
      have hsplit : (expand (g :: groups)).count a =
          (List.replicate g.1 g.2).count a + (expand groups).count a := List.count_append ..
      rw [List.map_cons, List.nodup_cons] at hdistinct
      rw [hsplit]
      rcases List.mem_cons.mp h with rfl | hrest
      · rw [List.count_replicate_self, count_expand_of_notMem hdistinct.1, Nat.add_zero]
      · have hne : g.2 ≠ a := by
          rintro rfl
          exact hdistinct.1 (List.mem_map.mpr ⟨(n, g.2), hrest, rfl⟩)
        rw [ih hdistinct.2 hrest, List.count_replicate, if_neg (by simpa using hne), Nat.zero_add]

/-- The groups of a tally are the elements with their counts. -/
theorem IsTally.mem_iff (h : IsTally xs groups) {n : ℕ} {a : α} :
    (n, a) ∈ groups ↔ 0 < n ∧ xs.count a = n := by
  have hcount := h.perm.count_eq a
  constructor
  · intro hmem
    exact ⟨h.pos _ hmem, hcount ▸ count_expand_of_mem h.distinct hmem⟩
  · rintro ⟨hpos, hn⟩
    have hin : a ∈ expand groups := List.count_pos_iff.mp (by omega)
    obtain ⟨⟨m, b⟩, hg, hb⟩ := List.mem_flatMap.mp hin
    obtain rfl : a = b := List.eq_of_mem_replicate hb
    have hm := count_expand_of_mem h.distinct hg
    have heq : m = n := by omega
    exact heq ▸ hg

/-- A group of two or more is a repetition. -/
theorem IsTally.not_nodup (h : IsTally xs groups) {n : ℕ} {a : α} (ha : (n, a) ∈ groups)
    (hn : 2 ≤ n) : ¬xs.Nodup := by
  intro hnodup
  have hone := List.nodup_iff_count_le_one.mp hnodup a
  rw [(h.mem_iff.mp ha).2] at hone
  omega

theorem IsTally.nodup (h : IsTally xs groups) : groups.Nodup := h.distinct.of_map _

/-- A list has one tally, and the order of the list does not matter. -/
theorem IsTally.unique (h : IsTally xs groups) (h' : IsTally ys groups') (hperm : xs.Perm ys) :
    groups = groups' := by
  have hmem : groups.Perm groups' := by
    refine (List.perm_ext_iff_of_nodup h.nodup h'.nodup).mpr ?_
    rintro ⟨n, a⟩
    rw [h.mem_iff, h'.mem_iff, hperm.count_eq]
  exact hmem.eq_of_pairwise' h.ordered h'.ordered

/-! ## Runs -/

/-- The runs of a list that goes on after `count` occurrences of `a`. -/
def runsFrom (a : α) (count : ℕ) : List α → List (ℕ × α)
  | [] => [(count, a)]
  | b :: rest => if b = a then runsFrom a (count + 1) rest else (count, a) :: runsFrom b 1 rest

/-- The runs of equal elements, with their lengths. -/
def runs : List α → List (ℕ × α)
  | [] => []
  | a :: rest => runsFrom a 1 rest

theorem expand_runsFrom (a : α) (count : ℕ) (rest : List α) :
    expand (runsFrom a count rest) = List.replicate count a ++ rest := by
  induction rest generalizing a count with
  | nil => rfl
  | cons b rest ih =>
      unfold runsFrom
      split
      · next heq =>
          subst heq
          rw [ih, List.replicate_succ', List.append_assoc]
          rfl
      · show List.replicate count a ++ expand (runsFrom b 1 rest) = _
        rw [ih]
        rfl

theorem expand_runs (xs : List α) : expand (runs xs) = xs := by
  cases xs with
  | nil => rfl
  | cons a rest => exact expand_runsFrom a 1 rest

theorem runsFrom_pos {a : α} {count : ℕ} (hcount : 0 < count) (rest : List α) :
    ∀ g ∈ runsFrom a count rest, 0 < g.1 := by
  induction rest generalizing a count with
  | nil =>
      intro g hg
      rw [List.mem_singleton.mp hg]
      exact hcount
  | cons b rest ih =>
      unfold runsFrom
      split
      · exact ih (Nat.succ_pos count)
      · intro g hg
        rcases List.mem_cons.mp hg with rfl | hg
        · exact hcount
        · exact ih Nat.zero_lt_one g hg

theorem runs_pos (xs : List α) : ∀ g ∈ runs xs, 0 < g.1 := by
  cases xs with
  | nil =>
      intro g hg
      cases hg
  | cons a rest => exact runsFrom_pos Nat.zero_lt_one rest

/-- The elements of the runs are those of the list. -/
theorem mem_of_mem_runsFrom {a : α} {count : ℕ} {rest : List α} :
    ∀ b ∈ (runsFrom a count rest).map Prod.snd, b = a ∨ b ∈ rest := by
  induction rest generalizing a count with
  | nil =>
      intro b hb
      exact .inl (List.mem_singleton.mp hb)
  | cons c rest ih =>
      intro b hb
      unfold runsFrom at hb
      split at hb
      · rcases ih b hb with hba | hbrest
        · exact .inl hba
        · exact .inr (List.mem_cons_of_mem c hbrest)
      · rcases List.mem_cons.mp hb with hba | hb
        · exact .inl hba
        · rcases ih b hb with rfl | hbrest
          · exact .inr List.mem_cons_self
          · exact .inr (List.mem_cons_of_mem c hbrest)

/-- In a descending list no element has two runs. -/
theorem runsFrom_distinct {a : α} {count : ℕ} {rest : List α}
    (h : (a :: rest).Pairwise (· ≥ ·)) : ((runsFrom a count rest).map Prod.snd).Nodup := by
  induction rest generalizing a count with
  | nil => exact List.nodup_singleton a
  | cons b rest ih =>
      obtain ⟨habove, hrest⟩ := List.pairwise_cons.mp h
      unfold runsFrom
      split
      · next heq =>
          subst heq
          exact ih hrest
      · next hne =>
          refine List.nodup_cons.mpr ⟨fun hmem => hne ?_, ih hrest⟩
          have hba : b ≤ a := habove b List.mem_cons_self
          rcases mem_of_mem_runsFrom a hmem with rfl | ha
          · rfl
          · exact le_antisymm hba ((List.pairwise_cons.mp hrest).1 a ha)

theorem runs_distinct (h : xs.Pairwise (· ≥ ·)) : ((runs xs).map Prod.snd).Nodup := by
  cases xs with
  | nil => exact List.nodup_nil
  | cons a rest => exact runsFrom_distinct h

/-! ## The tally -/

/-- The list in descending order. -/
def descending (xs : List α) : List α := xs.insertionSort (· ≥ ·)

theorem descending_perm (xs : List α) : (descending xs).Perm xs := List.perm_insertionSort _ xs

theorem descending_pairwise (xs : List α) : (descending xs).Pairwise (· ≥ ·) :=
  List.pairwise_insertionSort _ xs

/-- A descending list is the descending order of its permutations. -/
theorem descending_eq (hys : ys.Pairwise (· ≥ ·)) (hperm : ys.Perm xs) : descending xs = ys :=
  ((descending_perm xs).trans hperm.symm).eq_of_pairwise' (descending_pairwise xs) hys

/-- The runs of the list in descending order, sorted. -/
def tally (xs : List α) : List (ℕ × α) := (runs (descending xs)).insertionSort Before

theorem isTally_tally (xs : List α) : IsTally xs (tally xs) := by
  have hsort : (tally xs).Perm (runs (descending xs)) := List.perm_insertionSort _ _
  refine ⟨?_, ?_, ?_, List.pairwise_insertionSort _ _⟩
  · have hexpand : (expand (tally xs)).Perm (expand (runs (descending xs))) :=
      hsort.flatMap_right _
    rw [expand_runs] at hexpand
    exact hexpand.trans (descending_perm xs)
  · intro g hg
    exact runs_pos _ g (hsort.mem_iff.mp hg)
  · exact (List.Perm.nodup_iff (hsort.map _)).mpr (runs_distinct (descending_pairwise xs))

theorem tally_eq (h : IsTally xs groups) : tally xs = groups :=
  (isTally_tally xs).unique h (List.Perm.refl xs)

theorem before_iff {g g' : ℕ × α} : Before g g' ↔ g'.1 < g.1 ∨ g'.1 = g.1 ∧ g'.2 ≤ g.2 :=
  Prod.Lex.le_iff

omit [LinearOrder α] in
theorem expand_singles (xs : List α) : expand (xs.map fun a => (1, a)) = xs := by
  induction xs with
  | nil => rfl
  | cons a xs ih => exact congrArg (a :: ·) ih

/-- Without repetition every group is a single element. -/
theorem isTally_singles (hys : ys.Pairwise (· > ·)) (hperm : ys.Perm xs) :
    IsTally xs (ys.map fun a => (1, a)) where
  perm := by rwa [expand_singles]
  pos := by
    intro g hg
    obtain ⟨a, -, rfl⟩ := List.mem_map.mp hg
    exact Nat.zero_lt_one
  distinct := by
    rw [List.map_map]
    exact (List.map_id ys).symm ▸ hys.imp fun h => ne_of_gt h
  ordered := by
    refine List.pairwise_map.mpr (hys.imp ?_)
    intro a b hgt
    exact before_iff.mpr (.inr ⟨rfl, le_of_lt hgt⟩)

/-- The sizes of the groups add up to the length. -/
theorem IsTally.sum_eq (h : IsTally xs groups) : (groups.map Prod.fst).sum = xs.length := by
  rw [← h.perm.length_eq, expand, List.length_flatMap]
  exact congrArg List.sum (List.map_congr_left fun g _ => (List.length_replicate).symm)

end Tally
