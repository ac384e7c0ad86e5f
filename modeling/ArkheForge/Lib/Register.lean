/-
  Registers kept as a list of cells.

  A cell is a key with a value. A write goes to the first cell of its key, or to a new
  cell at the end if the key has none; a read takes the first cell. Where a key has two
  cells, the second is never written again: it keeps the value it was laid out with
  (`Shadowed`). So the cells that hold any other value are counted by their keys
  (`count_eq_card`), and after a run of writes that count is the number of keys whose last
  write was that value (`count_foldl_write`).
-/
import Mathlib.Data.Fintype.Card
import Mathlib.Data.List.Nodup

namespace Register

variable {κ σ : Type} [DecidableEq κ]

/-- Write the first cell of a key, or a new one. -/
def write (k : κ) (s : σ) : List (κ × σ) → List (κ × σ)
  | [] => [(k, s)]
  | (k', s') :: rest => if k' = k then (k', s) :: rest else (k', s') :: write k s rest

/-- Read the first cell of a key. -/
def read (k : κ) : List (κ × σ) → Option σ
  | [] => none
  | (k', s) :: rest => if k' = k then some s else read k rest

/-- The value a run of writes gave a key last. -/
def latest (k : κ) : List (κ × σ) → Option σ
  | [] => none
  | (k', s) :: later => (latest k later).or (if k' = k then some s else none)

/-- Behind the first cell of a key there are only cells with the idle value. -/
def Shadowed (idle : σ) (cells : List (κ × σ)) : Prop :=
  cells.Pairwise fun c c' => c.1 = c'.1 → c'.2 = idle

/-! ## Reads after writes -/

theorem read_write (k k' : κ) (s : σ) (cells : List (κ × σ)) :
    read k (write k' s cells) = if k' = k then some s else read k cells := by
  induction cells with
  | nil => simp only [write, read]
  | cons c rest ih =>
      obtain ⟨key, value⟩ := c
      unfold write
      by_cases hkey : key = k'
      · rw [if_pos hkey]
        subst hkey
        simp only [read]
        split <;> rfl
      · rw [if_neg hkey]
        simp only [read, ih]
        split
        · next heq =>
            have hne : k' ≠ k := fun h => hkey (heq.trans h.symm)
            rw [if_neg hne]
        · rfl

theorem read_foldl_write (k : κ) (writes : List (κ × σ)) (cells : List (κ × σ)) :
    read k (writes.foldl (fun cells w => write w.1 w.2 cells) cells) =
      (latest k writes).or (read k cells) := by
  induction writes generalizing cells with
  | nil => rfl
  | cons w later ih =>
      rw [List.foldl_cons, ih, read_write]
      simp only [latest, Option.or_assoc]
      split
      · rfl
      · rfl

theorem latest_append (k : κ) (writes later : List (κ × σ)) :
    latest k (writes ++ later) = (latest k later).or (latest k writes) := by
  induction writes with
  | nil => simp [latest]
  | cons w writes ih => simp only [List.cons_append, latest, ih, Option.or_assoc]

theorem latest_isSome {k : κ} {writes : List (κ × σ)} :
    (latest k writes).isSome ↔ k ∈ writes.map Prod.fst := by
  induction writes with
  | nil => simp [latest]
  | cons w later ih =>
      rw [latest, Option.isSome_or, Bool.or_eq_true, ih, List.map_cons, List.mem_cons]
      by_cases hkey : w.1 = k
      · simp [hkey]
      · simp [hkey, Ne.symm hkey]

theorem latest_eq_none {k : κ} {writes : List (κ × σ)} :
    latest k writes = none ↔ k ∉ writes.map Prod.fst := by
  rw [← latest_isSome, Option.not_isSome_iff_eq_none]

/-! ## Shadowed cells -/

theorem mem_write {k : κ} {s : σ} {cells : List (κ × σ)} {c : κ × σ}
    (h : c ∈ write k s cells) : c ∈ cells ∨ c.1 = k := by
  induction cells with
  | nil =>
      rw [write, List.mem_singleton] at h
      exact .inr (h ▸ rfl)
  | cons c' rest ih =>
      obtain ⟨key, value⟩ := c'
      unfold write at h
      by_cases hkey : key = k
      · rw [if_pos hkey, List.mem_cons] at h
        rcases h with rfl | h
        · exact .inr hkey
        · exact .inl (List.mem_cons_of_mem _ h)
      · rw [if_neg hkey, List.mem_cons] at h
        rcases h with rfl | h
        · exact .inl List.mem_cons_self
        · exact (ih h).imp_left (List.mem_cons_of_mem _)

theorem Shadowed.write {idle : σ} {cells : List (κ × σ)} (h : Shadowed idle cells) (k : κ) (s : σ) :
    Shadowed idle (write k s cells) := by
  induction cells with
  | nil => exact List.pairwise_singleton _ _
  | cons c rest ih =>
      obtain ⟨key, value⟩ := c
      obtain ⟨hhead, hrest⟩ := List.pairwise_cons.mp h
      unfold Register.write
      by_cases hkey : key = k
      · rw [if_pos hkey]
        exact List.pairwise_cons.mpr ⟨hhead, hrest⟩
      · rw [if_neg hkey]
        refine List.pairwise_cons.mpr ⟨fun c hc heq => ?_, ih hrest⟩
        rcases mem_write hc with hold | hnew
        · exact hhead c hold heq
        · exact absurd (heq.trans hnew) hkey

theorem Shadowed.foldl_write {idle : σ} {cells : List (κ × σ)} (h : Shadowed idle cells)
    (writes : List (κ × σ)) :
    Shadowed idle (writes.foldl (fun cells w => Register.write w.1 w.2 cells) cells) := by
  induction writes generalizing cells with
  | nil => exact h
  | cons w later ih => exact ih (h.write w.1 w.2)

omit [DecidableEq κ] in
/-- Cells laid out with the idle value, a key as often as one likes. -/
theorem shadowed_map (idle : σ) (keys : List κ) : Shadowed idle (keys.map fun k => (k, idle)) := by
  refine List.pairwise_map.mpr ?_
  induction keys with
  | nil => exact List.Pairwise.nil
  | cons k keys ih => exact List.pairwise_cons.mpr ⟨fun _ _ _ => rfl, ih⟩

theorem read_map (idle : σ) (keys : List κ) (k : κ) :
    read k (keys.map fun k => (k, idle)) = if k ∈ keys then some idle else none := by
  induction keys with
  | nil => rfl
  | cons k' keys ih =>
      simp only [List.map_cons, read, ih, List.mem_cons]
      by_cases hkey : k' = k
      · simp [hkey]
      · simp [hkey, Ne.symm hkey]

theorem read_eq_idle {idle : σ} {k : κ} {rest : List (κ × σ)} (h : ∀ c ∈ rest, k = c.1 → c.2 = idle)
    {s : σ} (hread : read k rest = some s) : s = idle := by
  induction rest with
  | nil => nomatch hread
  | cons c rest ih =>
      unfold read at hread
      by_cases hkey : c.1 = k
      · rw [if_pos hkey] at hread
        rw [← Option.some.inj hread]
        exact h c List.mem_cons_self hkey.symm
      · rw [if_neg hkey] at hread
        exact ih (fun c' hc' => h c' (List.mem_cons_of_mem _ hc')) hread

/-! ## Counting -/

section

variable [Fintype κ] [DecidableEq σ]

/-- The keys that read a value. -/
def readers (s : σ) (cells : List (κ × σ)) : Finset κ :=
  Finset.univ.filter fun k => read k cells = some s

/-- The keys a run of writes gave a value last. -/
def lastly (s : σ) (writes : List (κ × σ)) : Finset κ :=
  Finset.univ.filter fun k => latest k writes = some s

theorem mem_readers {s : σ} {cells : List (κ × σ)} {k : κ} :
    k ∈ readers s cells ↔ read k cells = some s := by
  simp [readers]

theorem mem_lastly {s : σ} {writes : List (κ × σ)} {k : κ} :
    k ∈ lastly s writes ↔ latest k writes = some s := by
  simp [lastly]

/-- The cells with a value are as many as the keys that read it. -/
theorem count_eq_card {idle s : σ} (hs : s ≠ idle) {cells : List (κ × σ)}
    (h : Shadowed idle cells) : cells.countP (fun c => c.2 = s) = (readers s cells).card := by
  induction cells with
  | nil => simp [readers, read]
  | cons c rest ih =>
      obtain ⟨k, value⟩ := c
      obtain ⟨hhead, hrest⟩ := List.pairwise_cons.mp h
      -- the key of the head is not counted again further down
      have hnew : k ∉ readers s rest := by
        intro hmem
        rw [mem_readers] at hmem
        exact hs (read_eq_idle hhead hmem)
      rw [List.countP_cons, ih hrest]
      by_cases hvalue : value = s
      · have hinsert : readers s ((k, value) :: rest) = insert k (readers s rest) := by
          ext k'
          rw [Finset.mem_insert, mem_readers, mem_readers, read]
          by_cases hkey : k = k'
          · simp [hkey, hvalue]
          · simp [hkey, Ne.symm hkey]
        rw [hinsert, Finset.card_insert_of_notMem hnew]
        simp [hvalue]
      · have hsame : readers s ((k, value) :: rest) = readers s rest := by
          ext k'
          rw [mem_readers] at hnew
          rw [mem_readers, mem_readers, read]
          by_cases hkey : k = k'
          · subst hkey
            simp [hvalue, hnew]
          · rw [if_neg hkey]
        rw [hsame]
        simp [hvalue]

/-- After a run of writes the cells with a value are as many as the keys that were given it
    last. -/
theorem count_foldl_write {idle s : σ} (hs : s ≠ idle) (keys : List κ) (writes : List (κ × σ)) :
    (writes.foldl (fun cells w => write w.1 w.2 cells)
      (keys.map fun k => (k, idle))).countP (fun c => c.2 = s) = (lastly s writes).card := by
  rw [count_eq_card hs ((shadowed_map idle keys).foldl_write writes)]
  refine congrArg Finset.card (Finset.ext fun k => ?_)
  rw [mem_readers, mem_lastly, read_foldl_write, read_map]
  cases latest k writes with
  | none =>
      simp only [Option.none_or]
      split
      · simp [Ne.symm hs]
      · rfl
  | some value => rfl

/-- No more keys are given a value last than writes give it. -/
theorem card_lastly_le (s : σ) (writes : List (κ × σ)) :
    (lastly s writes).card ≤ writes.countP (fun w => w.2 = s) := by
  induction writes with
  | nil => simp [lastly, latest]
  | cons w later ih =>
      have hsub : lastly s (w :: later) ⊆
          if w.2 = s then insert w.1 (lastly s later) else lastly s later := by
        intro k hk
        rw [mem_lastly, latest] at hk
        cases hlater : latest k later with
        | some value =>
            rw [hlater, Option.some_or] at hk
            have hmem : k ∈ lastly s later := mem_lastly.mpr (hlater.trans hk)
            split
            · exact Finset.mem_insert_of_mem hmem
            · exact hmem
        | none =>
            rw [hlater, Option.none_or] at hk
            by_cases hkey : w.1 = k
            · rw [if_pos hkey, Option.some.injEq] at hk
              rw [if_pos hk, hkey]
              exact Finset.mem_insert_self _ _
            · rw [if_neg hkey] at hk
              nomatch hk
      refine (Finset.card_le_card hsub).trans ?_
      rw [List.countP_cons]
      split
      · next hvalue =>
          refine (Finset.card_insert_le _ _).trans ?_
          simpa [hvalue] using ih
      · next hvalue => simpa [hvalue] using ih

/-- With each key written once, every write is the last of its key. -/
theorem card_lastly {s : σ} {writes : List (κ × σ)} (h : (writes.map Prod.fst).Nodup) :
    (lastly s writes).card = writes.countP (fun w => w.2 = s) := by
  induction writes with
  | nil => simp [lastly, latest]
  | cons w later ih =>
      obtain ⟨hfresh, hlater⟩ := List.nodup_cons.mp h
      have hnone : latest w.1 later = none := latest_eq_none.mpr hfresh
      have hnew : w.1 ∉ lastly s later := by
        rw [mem_lastly, hnone]
        exact fun hcontra => nomatch hcontra
      have hset : lastly s (w :: later) =
          if w.2 = s then insert w.1 (lastly s later) else lastly s later := by
        ext k
        by_cases hkey : w.1 = k
        · subst hkey
          rw [mem_lastly, latest, hnone, Option.none_or, if_pos rfl, Option.some.injEq]
          split
          · next hvalue => simp [hvalue]
          · next hvalue => simp [hvalue, hnew]
        · rw [mem_lastly, latest, if_neg hkey, Option.or_none, ← mem_lastly]
          split
          · simp [Ne.symm hkey]
          · rfl
      rw [hset, List.countP_cons, ← ih hlater]
      split
      · next hvalue => simp [Finset.card_insert_of_notMem hnew, hvalue]
      · next hvalue => simp [hvalue]

/-- The keys of a run that is continued: those the continuation gave the value last, and of
    the keys it leaves alone those that had it. -/
theorem card_lastly_append (s : σ) (writes later : List (κ × σ)) :
    (lastly s (writes ++ later)).card = (lastly s later).card +
      ((lastly s writes).filter fun k => k ∉ later.map Prod.fst).card := by
  rw [← Finset.card_union_of_disjoint]
  · refine congrArg Finset.card (Finset.ext fun k => ?_)
    rw [Finset.mem_union, Finset.mem_filter, mem_lastly, mem_lastly, mem_lastly, latest_append,
      ← latest_eq_none]
    cases latest k later with
    | none => simp
    | some value => simp
  · refine Finset.disjoint_left.mpr fun k hk hrest => ?_
    rw [mem_lastly] at hk
    rw [Finset.mem_filter, ← latest_eq_none, hk] at hrest
    exact absurd hrest.2 (by simp)

end

end Register
