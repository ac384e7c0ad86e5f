/-
  State machines given by `Init /\ [][Next]_vars`, and refinement between them.

  A behaviour is followed for a number of steps, each a step of the machine or a stutter.
  `Reachable.invariant` is the rule for what holds in every reachable state, and
  `Simulation.behaviour` the one for refinement: where each step of the lower machine is
  matched by a step or a stutter of the upper one, every behaviour of the lower has a
  behaviour of the upper beside it. The relation between the two is indexed by the
  steps taken, so that an upper machine with ceilings can be followed up to them.
-/
import Mathlib.Data.Nat.Notation

/-- Where it starts, and its steps. -/
structure Machine (σ : Type) where
  init : σ → Prop
  next : σ → σ → Prop

namespace Machine

variable {σ τ : Type}

/-- A step or a stutter: `[Next]_vars`. -/
def Square (m : Machine σ) (s s' : σ) : Prop := m.next s s' ∨ s' = s

/-- The states that steps lead to. -/
inductive Reachable (m : Machine σ) : σ → Prop
  | init {s : σ} : m.init s → Reachable m s
  | next {s s' : σ} : Reachable m s → m.next s s' → Reachable m s'

/-- What holds at the start and is kept by every step holds in every reachable state. -/
theorem Reachable.invariant {m : Machine σ} {Inv : σ → Prop} (hinit : ∀ s, m.init s → Inv s)
    (hstep : ∀ s s', m.next s s' → Inv s → Inv s') {s : σ} (h : m.Reachable s) : Inv s := by
  induction h with
  | init hs => exact hinit _ hs
  | next _ hnext ih => exact hstep _ _ hnext ih

/-- The first `n` steps of a behaviour. -/
structure Behaviour (m : Machine σ) (n : ℕ) (states : ℕ → σ) : Prop where
  starts : m.init (states 0)
  steps : ∀ i < n, m.Square (states i) (states (i + 1))

/-- A behaviour of a machine is one of every machine with more steps. -/
theorem Behaviour.mono {m m' : Machine σ} (hinit : ∀ s, m.init s → m'.init s)
    (hnext : ∀ s s', m.next s s' → m'.next s s') {n : ℕ} {states : ℕ → σ}
    (h : m.Behaviour n states) : m'.Behaviour n states :=
  ⟨hinit _ h.starts, fun i hi => (h.steps i hi).imp_left (hnext _ _)⟩

/-- A forward simulation, followed for `n` steps from two starts that match. -/
structure Simulation (lower : Machine σ) (upper : Machine τ) (n : ℕ)
    (R : ℕ → σ → τ → Prop) : Prop where
  step : ∀ k < n, ∀ s s' t, R k s t → lower.next s s' → ∃ t', upper.Square t t' ∧ R (k + 1) s' t'
  stutter : ∀ k < n, ∀ s t, R k s t → R (k + 1) s t

/-- **Refinement.** Every behaviour of the lower machine has one of the upper machine beside
    it, state by state. -/
theorem Simulation.behaviour {lower : Machine σ} {upper : Machine τ} {n : ℕ}
    {R : ℕ → σ → τ → Prop} (h : Simulation lower upper n R) {states : ℕ → σ}
    (hstates : lower.Behaviour n states) {t : τ} (hinit : upper.init t)
    (hstart : R 0 (states 0) t) :
    ∃ above : ℕ → τ, above 0 = t ∧ upper.Behaviour n above ∧ ∀ i ≤ n, R i (states i) (above i) := by
  have hupto : ∀ k ≤ n, ∃ above : ℕ → τ, above 0 = t ∧
      (∀ i < k, upper.Square (above i) (above (i + 1))) ∧ ∀ i ≤ k, R i (states i) (above i) := by
    intro k
    induction k with
    | zero =>
        intro _
        refine ⟨fun _ => t, rfl, ?_, ?_⟩
        · intro i hi
          exact absurd hi (Nat.not_lt_zero i)
        · intro i hi
          obtain rfl := Nat.le_zero.mp hi
          exact hstart
    | succ k ih =>
        intro hk
        obtain ⟨above, hzero, hsteps, hR⟩ := ih (Nat.le_of_succ_le hk)
        have hlast := hR k (Nat.le_refl k)
        obtain ⟨t', hsquare, hR'⟩ :
            ∃ t', upper.Square (above k) t' ∧ R (k + 1) (states (k + 1)) t' := by
          rcases hstates.steps k hk with hnext | hstutter
          · exact h.step k hk _ _ _ hlast hnext
          · rw [hstutter]
            exact ⟨above k, .inr rfl, h.stutter k hk _ _ hlast⟩
        refine ⟨fun i => if i ≤ k then above i else t', ?_, ?_, ?_⟩
        · simp only [if_pos (Nat.zero_le k)]
          exact hzero
        · intro i hi
          rcases Nat.lt_succ_iff_lt_or_eq.mp hi with hlt | rfl
          · simp only [if_pos (Nat.le_of_lt hlt), if_pos (Nat.succ_le_of_lt hlt)]
            exact hsteps i hlt
          · simp only [if_pos (Nat.le_refl i), if_neg (Nat.not_succ_le_self i)]
            exact hsquare
        · intro i hi
          rcases Nat.le_succ_iff.mp hi with hle | rfl
          · simp only [if_pos hle]
            exact hR i hle
          · simp only [if_neg (Nat.not_succ_le_self k)]
            exact hR'
  obtain ⟨above, hzero, hsteps, hR⟩ := hupto n (Nat.le_refl n)
  refine ⟨above, hzero, ⟨?_, hsteps⟩, hR⟩
  rw [hzero]
  exact hinit

end Machine
