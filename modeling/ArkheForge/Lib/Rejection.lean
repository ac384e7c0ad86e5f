/-
  Rejection sampling.

  A sampler draws words from a source until one is accepted. `accept` gives the value of
  a word, or nothing where it is rejected: `draw` is the loop, with a bound on the words
  it may read, and `Even` says that each value of a set comes from equally many words.

  The last part is the method that multiplies: a word below `N` gives the high part of
  its product with `n`, and is rejected where the low part is below `N % n`. Each value
  below `n` then comes from exactly `N / n` words.
-/
import Mathlib.Algebra.Order.Floor.Div
import Mathlib.Data.Set.Card
import Mathlib.Order.Interval.Finset.Nat

namespace Rejection

variable {σ ω β γ : Type}

/-! ## Drawing until a word is accepted -/

/-- Draw words with `next` until one is accepted, `fuel` of them at most. -/
def draw (next : σ → ω × σ) (accept : ω → Option β) : ℕ → σ → Option β × σ
  | 0, s => (none, s)
  | fuel + 1, s =>
    match accept (next s).1 with
    | some b => (some b, (next s).2)
    | none => draw next accept fuel (next s).2

/-- The source after `k` words. -/
def skip (next : σ → ω × σ) (k : ℕ) (s : σ) : σ := (fun s => (next s).2)^[k] s

/-- The `k`-th word of the source. -/
def wordAt (next : σ → ω × σ) (k : ℕ) (s : σ) : ω := (next (skip next k s)).1

variable {next : σ → ω × σ} {accept : ω → Option β}

/-- A drawn value is that of an accepted word. -/
theorem accept_of_draw {fuel : ℕ} {s : σ} {b : β} (h : (draw next accept fuel s).1 = some b) :
    ∃ w, accept w = some b := by
  induction fuel generalizing s with
  | zero => cases h
  | succ fuel ih =>
      unfold draw at h
      cases hword : accept (next s).1 with
      | some b' =>
          rw [hword] at h
          exact ⟨(next s).1, hword.trans h⟩
      | none =>
          rw [hword] at h
          exact ih h

/-- The first accepted word decides, as soon as the fuel reaches it. -/
theorem draw_of_first {k : ℕ} {s : σ} {b : β} (hrejected : ∀ j < k, accept (wordAt next j s) = none)
    (haccepted : accept (wordAt next k s) = some b) {fuel : ℕ} (hfuel : k < fuel) :
    draw next accept fuel s = (some b, skip next (k + 1) s) := by
  induction k generalizing s fuel with
  | zero =>
      obtain ⟨fuel, rfl⟩ := Nat.exists_eq_succ_of_ne_zero (by omega : fuel ≠ 0)
      have hword : accept (next s).1 = some b := haccepted
      unfold draw
      rw [hword]
      rfl
  | succ k ih =>
      obtain ⟨fuel, rfl⟩ := Nat.exists_eq_succ_of_ne_zero (by omega : fuel ≠ 0)
      have hword : accept (next s).1 = none := hrejected 0 (by omega)
      unfold draw
      rw [hword]
      exact ih (fun j hj => hrejected (j + 1) (by omega)) haccepted (by omega)

/-- `w` is the first accepted word, within the fuel, and `s'` the source behind it. -/
def First (next : σ → ω × σ) (accept : ω → Option β) (fuel : ℕ) (s : σ) (w : ω) (s' : σ) : Prop :=
  ∃ k < fuel, (∀ j < k, accept (wordAt next j s) = none) ∧ wordAt next k s = w ∧
    s' = skip next (k + 1) s

/-- A draw returns exactly on a first accepted word. -/
theorem draw_eq_some {fuel : ℕ} {s s' : σ} {b : β} :
    draw next accept fuel s = (some b, s') ↔
      ∃ w, First next accept fuel s w s' ∧ accept w = some b := by
  constructor
  · intro h
    induction fuel generalizing s with
    | zero => cases h
    | succ fuel ih =>
        unfold draw at h
        cases hword : accept (next s).1 with
        | some b' =>
            rw [hword] at h
            obtain ⟨hvalue, rfl⟩ := Prod.mk.inj h
            obtain rfl := Option.some.inj hvalue
            exact ⟨(next s).1, ⟨0, by omega, fun j hj => absurd hj (by omega), rfl, rfl⟩, hword⟩
        | none =>
            rw [hword] at h
            obtain ⟨w, ⟨k, hk, hrejected, hw, hskip⟩, haccepted⟩ := ih h
            refine ⟨w, ⟨k + 1, by omega, ?_, hw, hskip⟩, haccepted⟩
            intro j hj
            cases j with
            | zero => exact hword
            | succ j => exact hrejected j (by omega)
  · rintro ⟨w, ⟨k, hk, hrejected, rfl, rfl⟩, haccepted⟩
    exact draw_of_first hrejected haccepted hk

/-- More fuel changes no draw that returned. -/
theorem draw_of_more {fuel fuel' : ℕ} (hfuel : fuel ≤ fuel') {s s' : σ} {b : β}
    (h : draw next accept fuel s = (some b, s')) : draw next accept fuel' s = (some b, s') := by
  induction fuel generalizing s fuel' with
  | zero => cases h
  | succ fuel ih =>
      obtain ⟨fuel', rfl⟩ := Nat.exists_eq_succ_of_ne_zero (by omega : fuel' ≠ 0)
      unfold draw at h ⊢
      cases hword : accept (next s).1 with
      | some b' =>
          rw [hword] at h
          exact h
      | none =>
          rw [hword] at h
          exact ih (by omega) h

/-- Mapping the values changes no draw. -/
theorem draw_map (next : σ → ω × σ) (accept : ω → Option β) (g : β → γ) (fuel : ℕ) (s : σ) :
    draw next (fun w => (accept w).map g) fuel s =
      ((draw next accept fuel s).1.map g, (draw next accept fuel s).2) := by
  induction fuel generalizing s with
  | zero => rfl
  | succ fuel ih =>
      simp only [draw]
      cases accept (next s).1 with
      | some b => rfl
      | none => exact ih (next s).2

/-! ## Evenness -/

/-- Each value that satisfies `S` comes from `count` words, and no other value from any. -/
structure Even (accept : ω → Option β) (S : β → Prop) (count : ℕ) : Prop where
  inside : ∀ b, S b → {w | accept w = some b}.ncard = count
  outside : ∀ b, ¬ S b → ∀ w, accept w ≠ some b

/-- Renaming the values keeps a sampler even. -/
theorem Even.map {S : β → Prop} {count : ℕ} (h : Even accept S count) {g : β → γ} {T : γ → Prop}
    (hg : ∀ c, T c ↔ ∃ b, S b ∧ g b = c) (hinj : ∀ b b', S b → S b' → g b = g b' → b = b') :
    Even (fun w => (accept w).map g) T count := by
  constructor
  · intro c hc
    obtain ⟨b, hb, rfl⟩ := (hg c).mp hc
    have hsame : {w | (accept w).map g = some (g b)} = {w | accept w = some b} := by
      ext w
      constructor
      · intro hw
        obtain ⟨b', hb', heq⟩ := Option.map_eq_some_iff.mp hw
        have hS : S b' := by
          by_contra hnot
          exact h.outside b' hnot w hb'
        exact hb'.trans (congrArg some (hinj b' b hS hb heq))
      · intro hw
        exact Option.map_eq_some_iff.mpr ⟨b, hw, rfl⟩
    rw [hsame]
    exact h.inside b hb
  · intro c hc w hw
    obtain ⟨b, hb, rfl⟩ := Option.map_eq_some_iff.mp hw
    refine hc ((hg _).mpr ⟨b, ?_, rfl⟩)
    by_contra hnot
    exact h.outside b hnot w hb

/-- Two independent words, one sampler for each. -/
theorem Even.pair {ω' : Type} {accept' : ω' → Option γ} {S : β → Prop} {T : γ → Prop} {m n : ℕ}
    (h : Even accept S m) (h' : Even accept' T n) :
    Even (fun w : ω × ω' => (accept w.1).bind fun b => (accept' w.2).map fun c => (b, c))
      (fun p => S p.1 ∧ T p.2) (m * n) := by
  have hsome : ∀ (w : ω × ω') (p : β × γ),
      ((accept w.1).bind fun b => (accept' w.2).map fun c => (b, c)) = some p ↔
        accept w.1 = some p.1 ∧ accept' w.2 = some p.2 := by
    rintro w ⟨b, c⟩
    simp only [Option.bind_eq_some_iff, Option.map_eq_some_iff, Prod.mk.injEq]
    constructor
    · rintro ⟨b', hb, c', hc, rfl, rfl⟩
      exact ⟨hb, hc⟩
    · rintro ⟨hb, hc⟩
      exact ⟨b, hb, c, hc, rfl, rfl⟩
  constructor
  · rintro ⟨b, c⟩ ⟨hb, hc⟩
    have hset : {w : ω × ω' | ((accept w.1).bind fun b => (accept' w.2).map fun c => (b, c)) =
        some (b, c)} = {w | accept w = some b} ×ˢ {w | accept' w = some c} := by
      ext w
      exact hsome w (b, c)
    rw [hset, Set.ncard_prod, h.inside b hb, h'.inside c hc]
  · rintro ⟨b, c⟩ hout w hw
    obtain ⟨hb, hc⟩ := (hsome w (b, c)).mp hw
    refine hout ⟨?_, ?_⟩
    · by_contra hnot
      exact h.outside b hnot _ hb
    · by_contra hnot
      exact h'.outside c hnot _ hc

/-! ## The high part of a product -/

/-- The word `x` below `N`, for a value below `n`. -/
def highPart (N n x : ℕ) : Option ℕ := if x * n % N < N % n then none else some (x * n / N)

/-- As many multiples of `n` as blocks of it lie in an interval of whole blocks. -/
theorem ncard_multiples {n : ℕ} (hn : 0 < n) (a q : ℕ) :
    {x | a ≤ x * n ∧ x * n < a + q * n}.ncard = q := by
  have hceil : ∀ b x, b ≤ x * n ↔ b ⌈/⌉ n ≤ x := by
    intro b x
    rw [ceilDiv_le_iff_le_mul hn, Nat.mul_comm]
  have hblocks : (a + q * n) ⌈/⌉ n = a ⌈/⌉ n + q := by
    rw [Nat.ceilDiv_eq_add_pred_div, Nat.ceilDiv_eq_add_pred_div]
    have hsum : a + q * n + n - 1 = a + n - 1 + q * n := by omega
    rw [hsum, Nat.add_mul_div_right _ _ hn]
  have hset : {x | a ≤ x * n ∧ x * n < a + q * n} = Finset.Ico (a ⌈/⌉ n) (a ⌈/⌉ n + q) := by
    ext x
    rw [Finset.coe_Ico, Set.mem_Ico, Set.mem_ofPred_eq, hceil, ← hblocks, ← not_le, hceil, not_le]
  rw [hset, Set.ncard_coe_finset, Nat.card_Ico]
  omega

theorem highPart_eq_some {N n x r : ℕ} (hN : 0 < N) :
    highPart N n x = some r ↔ r * N + N % n ≤ x * n ∧ x * n < r * N + N := by
  have hsplit := Nat.div_add_mod (x * n) N
  have hlow := Nat.mod_lt (x * n) hN
  unfold highPart
  constructor
  · intro h
    split at h
    · cases h
    · obtain rfl := Option.some.inj h
      rw [Nat.mul_comm _ N]
      omega
  · rintro ⟨hle, hlt⟩
    have hdiv : x * n / N = r := by
      refine Nat.div_eq_of_lt_le ?_ ?_
      · omega
      · rw [Nat.succ_mul]
        exact hlt
    rw [hdiv] at hsplit ⊢
    rw [Nat.mul_comm] at hsplit
    rw [if_neg (by omega)]

/-- **The multiplying method is even.** Of the words below `N`, each value below `n` gets
    `N / n`. -/
theorem ncard_highPart {N n r : ℕ} (hn : 0 < n) (hN : 0 < N) (hr : r < n) :
    {x | x < N ∧ highPart N n x = some r}.ncard = N / n := by
  have hblocks : r * N + N = r * N + N % n + N / n * n := by
    have := Nat.div_add_mod' N n
    omega
  have hset : {x | x < N ∧ highPart N n x = some r} =
      {x | r * N + N % n ≤ x * n ∧ x * n < r * N + N % n + N / n * n} := by
    ext x
    rw [Set.mem_ofPred_eq, Set.mem_ofPred_eq, highPart_eq_some hN, ← hblocks]
    constructor
    · exact And.right
    · intro h
      refine ⟨?_, h⟩
      have hbound : r * N + N ≤ N * n := by
        rw [← Nat.succ_mul, Nat.mul_comm N n]
        exact Nat.mul_le_mul_right N hr
      exact Nat.lt_of_mul_lt_mul_right (h.2.trans_le hbound)
  rw [hset, ncard_multiples hn]

theorem highPart_lt {N n x r : ℕ} (hx : x < N) (h : highPart N n x = some r) : r < n := by
  have hN : 0 < N := by omega
  obtain ⟨hle, -⟩ := (highPart_eq_some hN).mp h
  have hn : 0 < n := by
    by_contra hzero
    obtain rfl : n = 0 := by omega
    simp at hle
    omega
  have hprod : x * n < N * n := Nat.mul_lt_mul_of_pos_right hx hn
  by_contra hge
  have : n * N ≤ r * N := Nat.mul_le_mul_right N (by omega)
  rw [Nat.mul_comm N n] at hprod
  omega

end Rejection
