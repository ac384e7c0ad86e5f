/-
  Paths of a relation, counted by their steps.

  `Bounded R live cap`: no path of `R` that ends at a live vertex is longer than
  `cap`, and none comes back to where it started. `Bounded.add_iff` says exactly
  when that survives a new live vertex with outgoing edges: the new vertex may be
  the end of old paths (an edge may point at it before it exists), so paths into
  it and paths out of it join up.
-/
import Mathlib.Data.Nat.Notation

/-- A path of `k` steps. -/
inductive StepPath {α : Type} (R : α → α → Prop) : ℕ → α → α → Prop
  | nil (x : α) : StepPath R 0 x x
  | cons {x y z : α} {k : ℕ} : R x y → StepPath R k y z → StepPath R (k + 1) x z

namespace StepPath

variable {α : Type} {R R' : α → α → Prop} {E : α → Prop} {live live' : α → Prop}
  {cap k j : ℕ} {n x y z : α}

theorem append (h : StepPath R k x y) (h' : StepPath R j y z) : StepPath R (k + j) x z := by
  induction h with
  | nil x => simpa using h'
  | cons hedge _ ih =>
      have hpath := cons hedge (ih h')
      rwa [Nat.add_right_comm] at hpath

theorem mono (hR : ∀ x y, R x y → R' x y) (h : StepPath R k x y) : StepPath R' k x y := by
  induction h with
  | nil x => exact nil x
  | cons hedge _ ih => exact cons (hR _ _ hedge) ih

/-- Where every new edge leaves `n` and no target leads back to it, a path uses at most
    one new edge. -/
theorem cases_of_add (hR : ∀ x y, R' x y → R x y ∨ x = n ∧ E y)
    (hback : ∀ t, E t → ∀ k, ¬ StepPath R k t n) (h : StepPath R' k x y) :
    StepPath R k x y ∨
      ∃ a b t, k = a + 1 + b ∧ StepPath R a x n ∧ E t ∧ StepPath R b t y := by
  induction h with
  | nil x => exact .inl (nil x)
  | @cons x y z k hedge _ ih =>
      rcases hR x y hedge with hold | ⟨rfl, hnew⟩
      · rcases ih with hpath | ⟨a, b, t, hk, hin, ht, hout⟩
        · exact .inl (cons hold hpath)
        · exact .inr ⟨a + 1, b, t, by omega, cons hold hin, ht, hout⟩
      · rcases ih with hpath | ⟨a, b, t, hk, hin, ht, hout⟩
        · exact .inr ⟨0, k, y, by omega, nil x, hnew, hpath⟩
        · exact absurd hin (hback y hnew a)

/-- No path into a live vertex is longer than `cap`, and there is no cycle. -/
structure Bounded (R : α → α → Prop) (live : α → Prop) (cap : ℕ) : Prop where
  short : ∀ k x y, StepPath R k x y → live y → k ≤ cap
  acyclic : ∀ k x, 0 < k → ¬ StepPath R k x x

/-- What a new vertex `n` with the edges `E` may be: no target leads back to it, paths
    into it are short enough, and so are the paths that now run through it. -/
structure Addable (R : α → α → Prop) (live : α → Prop) (cap : ℕ) (n : α) (E : α → Prop) :
    Prop where
  open_ended : ∀ t, E t → ∀ k, ¬ StepPath R k t n
  short_in : ∀ a x, StepPath R a x n → a ≤ cap
  short_through : ∀ a x, StepPath R a x n → ∀ t, E t → ∀ b y, StepPath R b t y → live y →
    a + 1 + b ≤ cap

theorem eq_of_no_edges (hR : ∀ x y, ¬ R x y) (h : StepPath R k x y) : k = 0 ∧ x = y := by
  cases h with
  | nil x => exact ⟨rfl, rfl⟩
  | cons hedge _ => exact absurd hedge (hR _ _)

theorem bounded_of_no_edges (hR : ∀ x y, ¬ R x y) : Bounded R live cap := by
  refine ⟨?_, ?_⟩
  · intro k x y hpath _
    have := (eq_of_no_edges hR hpath).1
    omega
  · intro k x hk hpath
    have := (eq_of_no_edges hR hpath).1
    omega

theorem eq_of_no_edge_into (hn : ∀ x, ¬ R x n) (h : StepPath R k x n) : k = 0 ∧ x = n := by
  induction h with
  | nil x => exact ⟨rfl, rfl⟩
  | cons hedge _ ih =>
      obtain ⟨-, rfl⟩ := ih hn
      exact absurd hedge (hn _)

/-- A vertex that nothing points at yet may have targets that are not too far up. -/
theorem addable_of_no_edge_into (hn : ∀ x, ¬ R x n) (hE : ¬ E n)
    (hbelow : ∀ t, E t → ∀ b y, StepPath R b t y → b < cap) : Addable R live cap n E := by
  refine ⟨?_, ?_, ?_⟩
  · intro t ht k hpath
    rw [(eq_of_no_edge_into hn hpath).2] at ht
    exact hE ht
  · intro a x hpath
    have := (eq_of_no_edge_into hn hpath).1
    omega
  · intro a x hin t ht b y hout _
    have := (eq_of_no_edge_into hn hin).1
    have := hbelow t ht b y hout
    omega

/-- **Adding a vertex keeps a relation bounded exactly when it is addable.** -/
theorem Bounded.add_iff (hR : ∀ x y, R' x y ↔ R x y ∨ x = n ∧ E y)
    (hlive : ∀ y, live' y ↔ live y ∨ y = n) (hbounded : Bounded R live cap) :
    Bounded R' live' cap ↔ Addable R live cap n E := by
  have hold : ∀ x y, R x y → R' x y := fun x y h => (hR x y).mpr (.inl h)
  constructor
  · intro h
    refine ⟨?_, ?_, ?_⟩
    · intro t ht k hpath
      have hcycle := cons ((hR n t).mpr (.inr ⟨rfl, ht⟩)) (hpath.mono hold)
      exact h.acyclic (k + 1) n (by omega) hcycle
    · intro a x hpath
      exact h.short a x n (hpath.mono hold) ((hlive n).mpr (.inr rfl))
    · intro a x hin t ht b y hout hy
      have hthrough := (hin.mono hold).append
        (cons ((hR n t).mpr (.inr ⟨rfl, ht⟩)) (hout.mono hold))
      have hle := h.short _ x y hthrough ((hlive y).mpr (.inl hy))
      omega
  · intro h
    have hsplit := fun {k x y} => cases_of_add (k := k) (x := x) (y := y)
      (fun x y => (hR x y).mp) h.open_ended
    refine ⟨?_, ?_⟩
    · intro k x y hpath hy
      rcases hsplit hpath with hpath | ⟨a, b, t, hk, hin, ht, hout⟩
      · rcases (hlive y).mp hy with hy | rfl
        · exact hbounded.short k x y hpath hy
        · exact h.short_in k x hpath
      · rcases (hlive y).mp hy with hy | rfl
        · have hle := h.short_through a x hin t ht b y hout hy
          omega
        · exact absurd hout (h.open_ended t ht b)
    · intro k x hk hpath
      rcases hsplit hpath with hpath | ⟨a, b, t, _, hin, ht, hout⟩
      · exact hbounded.acyclic k x hk hpath
      · exact h.open_ended t ht (b + a) (hout.append hin)

/-! ## Ranked relations -/

/-- `rank` drops by one along every edge. -/
def Ranked (R : α → α → Prop) (rank : α → ℕ) : Prop := ∀ x y, R x y → rank x = rank y + 1

theorem Ranked.rank_eq {rank : α → ℕ} (hR : Ranked R rank) (h : StepPath R k x y) :
    rank x = rank y + k := by
  induction h with
  | nil x => rfl
  | cons hedge _ ih =>
      have hdrop := hR _ _ hedge
      omega

theorem Ranked.acyclic {rank : α → ℕ} (hR : Ranked R rank) (hk : 0 < k) : ¬ StepPath R k x x := by
  intro hcycle
  have hlength := hR.rank_eq hcycle
  omega

/-- Where every live vertex of positive rank has an edge to a live one, a live vertex reaches
    one of rank zero, in as many steps as its rank. -/
theorem Ranked.reaches {rank : α → ℕ} (hR : Ranked R rank)
    (hnext : ∀ x, live x → 0 < rank x → ∃ y, R x y ∧ live y) :
    ∀ (k : ℕ) (x : α), live x → rank x = k → ∃ y, StepPath R k x y ∧ live y ∧ rank y = 0
  | 0, x, hx, hrank => ⟨x, nil x, hx, hrank⟩
  | k + 1, x, hx, hrank => by
      obtain ⟨y, hedge, hy⟩ := hnext x hx (by omega)
      have hdrop := hR x y hedge
      obtain ⟨z, hpath, hz, hzero⟩ := hR.reaches hnext k y hy (by omega)
      exact ⟨z, cons hedge hpath, hz, hzero⟩

end StepPath
