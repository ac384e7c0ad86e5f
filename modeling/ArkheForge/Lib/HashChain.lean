/-
  Hash chains: lists of blocks each of which names the digest of the one before.

  `Linked link genesis blocks` says that the first block names `genesis`, that each
  later one names its predecessor's digest, and that every digest is the one `link`
  computes. A chain commits to its history: two chains of one length with one tip are
  the same chain, as long as `link` does not collide on their blocks (`eq_of_tip`).
  The argument runs backwards from the tip, so nothing is asked of the digests of
  inputs that stand in neither chain.
-/
import Mathlib.Data.List.Induction

namespace HashChain

/-- One block: what it carries, the digest it names and its own. -/
structure Block (α δ : Type) where
  payload : α
  prev : δ
  digest : δ

variable {α δ : Type} {link : δ → α → δ} {genesis : δ} {b c : Block α δ} {bs cs : List (Block α δ)}

variable (link) in
/-- The chain condition, from the digest the first block has to name. -/
def Linked : δ → List (Block α δ) → Prop
  | _, [] => True
  | expected, b :: rest =>
    b.prev = expected ∧ b.digest = link b.prev b.payload ∧ Linked b.digest rest

/-- The digest the next block has to name. -/
def tip (genesis : δ) (bs : List (Block α δ)) : δ :=
  match bs.getLast? with
  | some b => b.digest
  | none => genesis

@[simp] theorem tip_nil : tip genesis ([] : List (Block α δ)) = genesis := rfl

@[simp] theorem tip_concat : tip genesis (bs ++ [b]) = b.digest := by
  unfold tip
  rw [List.getLast?_concat]

theorem tip_cons : tip genesis (b :: bs) = tip b.digest bs := by
  unfold tip
  rw [List.getLast?_cons]
  cases bs.getLast? with
  | none => rfl
  | some last => rfl

/-- A chain grows at its tip. -/
theorem linked_concat :
    Linked link genesis (bs ++ [b]) ↔
      Linked link genesis bs ∧ b.prev = tip genesis bs ∧ b.digest = link b.prev b.payload := by
  induction bs generalizing genesis with
  | nil =>
      show b.prev = genesis ∧ b.digest = link b.prev b.payload ∧ True ↔ True ∧ _
      rw [and_true, true_and]
      rfl
  | cons a bs ih =>
      rw [tip_cons]
      show a.prev = genesis ∧ a.digest = link a.prev a.payload ∧ Linked link a.digest (bs ++ [b]) ↔
        (a.prev = genesis ∧ a.digest = link a.prev a.payload ∧ Linked link a.digest bs) ∧ _
      rw [ih, and_assoc, and_assoc]

variable (link) in
/-- `link` tells the blocks of two lists apart. -/
def Separates (bs cs : List (Block α δ)) : Prop :=
  ∀ b ∈ bs, ∀ c ∈ cs, link b.prev b.payload = link c.prev c.payload →
    b.prev = c.prev ∧ b.payload = c.payload

/-- Two chains of one length with one tip are the same. -/
theorem eq_of_tip {genesis' : δ} (hbs : Linked link genesis bs) (hcs : Linked link genesis' cs)
    (hseparates : Separates link bs cs) (hlength : bs.length = cs.length)
    (htip : bs ≠ [] → tip genesis bs = tip genesis' cs) : bs = cs := by
  induction bs using List.reverseRecOn generalizing cs with
  | nil =>
      have hzero : cs.length = 0 := hlength.symm
      rw [List.length_eq_zero_iff.mp hzero]
  | append_singleton bs b ih =>
      have hne : cs ≠ [] := by
        intro hnil
        rw [hnil, List.length_append, List.length_singleton] at hlength
        simp at hlength
      obtain ⟨cs, c, rfl⟩ := List.eq_nil_or_concat cs |>.resolve_left hne
      rw [List.concat_eq_append] at hcs hseparates hlength htip ⊢
      obtain ⟨hbs, hprev, hdigest⟩ := linked_concat.mp hbs
      obtain ⟨hcs, hprev', hdigest'⟩ := linked_concat.mp hcs
      have hsame : b.digest = c.digest := by
        have h := htip (by simp)
        rwa [tip_concat, tip_concat] at h
      rw [hdigest, hdigest'] at hsame
      obtain ⟨hback, hpayload⟩ := hseparates b (by simp) c (by simp) hsame
      have hblock : b = c := by
        have hdigests : b.digest = c.digest := by rw [hdigest, hdigest', hsame]
        cases b
        cases c
        simp_all
      have hrest : bs = cs := by
        refine ih hbs hcs ?_ ?_ ?_
        · intro x hx y hy
          exact hseparates x (List.mem_append_left _ hx) y (List.mem_append_left _ hy)
        · rw [List.length_append, List.length_append] at hlength
          simpa using hlength
        · intro _
          rw [← hprev, ← hprev', hback]
      rw [hrest, hblock]

end HashChain
