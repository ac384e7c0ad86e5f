/-
  Tables that are only added to.

  A write gives a key a value if the key has none, and changes nothing otherwise. After a run of
  writes a key has the first value the run gave it (`lookup_foldl_add`), and the keys are
  those the run names (`keys_foldl_add`).
-/
import Mathlib.Data.Finmap

namespace FirstWrite

/-- A finite table. -/
abbrev Table (κ σ : Type) : Type := Finmap fun _ : κ => σ

variable {κ σ : Type} [DecidableEq κ]

/-- Give a key a value if it has none. -/
def add (k : κ) (v : σ) (t : Table κ σ) : Table κ σ :=
  if (t.lookup k).isSome then t else t.insert k v

theorem lookup_add (k k' : κ) (v : σ) (t : Table κ σ) :
    (add k' v t).lookup k = (t.lookup k).or (if k = k' then some v else none) := by
  unfold add
  by_cases hkey : k = k'
  · subst hkey
    rw [if_pos rfl]
    cases hk : t.lookup k with
    | none => simp [Finmap.lookup_insert]
    | some old => simp [hk]
  · rw [if_neg hkey, Option.or_none]
    split
    · rfl
    · rw [Finmap.lookup_insert_of_ne t hkey]

theorem keys_add (k : κ) (v : σ) (t : Table κ σ) : (add k v t).keys = insert k t.keys := by
  ext k'
  rw [Finmap.mem_keys, ← Finmap.lookup_isSome, lookup_add, Finset.mem_insert, Finmap.mem_keys,
    ← Finmap.lookup_isSome, Option.isSome_or, Bool.or_eq_true]
  by_cases hkey : k' = k
  · simp [hkey]
  · simp [hkey]

/-- A key has the value it had, or else the first one it was given. -/
theorem lookup_foldl_add [BEq κ] [LawfulBEq κ] (k : κ) (writes : List (κ × σ)) (t : Table κ σ) :
    (writes.foldl (fun t w => add w.1 w.2 t) t).lookup k = (t.lookup k).or (writes.lookup k) := by
  induction writes generalizing t with
  | nil => simp
  | cons w later ih =>
      rw [List.foldl_cons, ih, lookup_add, Option.or_assoc, List.lookup_cons]
      by_cases hkey : k = w.1
      · simp [hkey]
      · have hne : (k == w.1) = false := beq_false_of_ne hkey
        simp [hkey, hne]

theorem keys_foldl_add (writes : List (κ × σ)) (t : Table κ σ) :
    (writes.foldl (fun t w => add w.1 w.2 t) t).keys =
      t.keys ∪ (writes.map Prod.fst).toFinset := by
  induction writes generalizing t with
  | nil => simp
  | cons w later ih =>
      rw [List.foldl_cons, ih, keys_add, List.map_cons, List.toFinset_cons, Finset.insert_union,
        Finset.union_insert]

end FirstWrite
