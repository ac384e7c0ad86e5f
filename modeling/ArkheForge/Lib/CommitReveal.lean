/-
  Commit and reveal.

  A party publishes the digest of a seed, reveals the seed later, and anyone recomputes
  what follows from it. `Scheme.Accepts` is the check. A party that passes it twice under one
  commitment revealed the same seed and the same outcome, or two preimages that collide
  (`accepts_unique`).
-/
import Mathlib.Logic.Function.Basic

namespace CommitReveal

variable {μ δ σ ω : Type} {hash : μ → δ}

/-- Two distinct messages with one digest. -/
def Collide (hash : μ → δ) (m m' : μ) : Prop := m ≠ m' ∧ hash m = hash m'

theorem eq_or_collide {m m' : μ} (h : hash m = hash m') : m = m' ∨ Collide hash m m' := by
  by_cases heq : m = m'
  · exact .inl heq
  · exact .inr ⟨heq, h⟩

/-- Behind tags neither of which begins the other, no two messages are the same. -/
theorem tagged_ne {α : Type} {tag tag' : List α} (h : ¬ tag <+: tag') (h' : ¬ tag' <+: tag)
    (m m' : List α) : tag ++ m ≠ tag' ++ m' := by
  intro heq
  have hprefix' : tag' <+: tag ++ m := heq ▸ List.prefix_append tag' m'
  rcases List.prefix_or_prefix_of_prefix (List.prefix_append tag m) hprefix' with hle | hle
  · exact h hle
  · exact h' hle

/-- What a commitment to a seed is over, and what follows from the seed. -/
structure Scheme (μ σ ω : Type) where
  preimage : σ → μ
  preimage_injective : Function.Injective preimage
  outcome : σ → ω → Prop
  outcome_unique : ∀ s o o', outcome s o → outcome s o' → o = o'

namespace Scheme

variable (S : Scheme μ σ ω) (hash) {s s' : σ} {o o' : ω} {c : δ}

/-- The commitment to a seed. -/
def commit (s : σ) : δ := hash (S.preimage s)

/-- A revealed seed and outcome pass under a commitment. -/
def Accepts (c : δ) (s : σ) (o : ω) : Prop := S.commit hash s = c ∧ S.outcome s o

variable {S hash}

/-- A commitment binds. -/
theorem accepts_unique (h : S.Accepts hash c s o) (h' : S.Accepts hash c s' o') :
    s = s' ∧ o = o' ∨ Collide hash (S.preimage s) (S.preimage s') := by
  have hdigest : hash (S.preimage s) = hash (S.preimage s') := h.1.trans h'.1.symm
  rcases eq_or_collide hdigest with heq | hcollide
  · obtain rfl := S.preimage_injective heq
    exact .inl ⟨rfl, S.outcome_unique s o o' h.2 h'.2⟩
  · exact .inr hcollide

end Scheme

end CommitReveal
