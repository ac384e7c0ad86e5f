/-
  The Fisher-Yates shuffle (`arkhe-rand/src/shuffle.rs`).

  The loop swaps each slot, from the last down to the second, with one drawn from the
  slots up to it. `Drawn` reads the draws of a run off the source as one vector, and a
  run that returns leaves the pass of that vector (`shuffleLoop_eq_ok`).
-/
import ArkheForge.Lib.FisherYates
import ArkheForge.Rand.Uniform

namespace ArkheForge.Rand

open Fallible FisherYates Rejection
open scoped Nat

variable {width : PointerWidth} {T : Type}

/-! ## Slices -/

/-- A slice. Its length is a `usize`. -/
structure Slice (width : PointerWidth) (T : Type) where
  items : Array T
  fits : items.size < 2 ^ width.bits

namespace Slice

theorem arrange_fits {items : Array T} (h : items.size < 2 ^ width.bits) (i : ℕ) (d : Draws i) :
    (arrange i d items).size < 2 ^ width.bits := by
  rw [(arrange_perm d items).size_eq]
  exact h

theorem swap_fits {items : Array T} (h : items.size < 2 ^ width.bits) (i j : ℕ) :
    (items.swapIfInBounds i j).size < 2 ^ width.bits := by
  rw [(swapIfInBounds_perm i j items).size_eq]
  exact h

/-- The slice after a swap. -/
def swapped (slice : Slice width T) (i j : ℕ) : Slice width T :=
  ⟨slice.items.swapIfInBounds i j, swap_fits slice.fits i j⟩

/-- The slice after a pass. -/
def arranged (slice : Slice width T) (i : ℕ) (d : Draws i) : Slice width T :=
  ⟨arrange i d slice.items, arrange_fits slice.fits i d⟩

end Slice

/-! ## The source functions -/

/-- The two receivers of a shuffle. -/
structure Shuffling (width : PointerWidth) (T : Type) where
  rng : RngSource
  slice : Slice width T

namespace Shuffling

/-- `[T]::swap`. -/
def swap (i j : ℕ) : Fallible (Shuffling width T) Stop Unit := do
  let s ← get
  if i < s.slice.items.size ∧ j < s.slice.items.size then
    set { s with slice := s.slice.swapped i j }
  else throw .indexOutOfBounds

/-- A call that takes the source. -/
def onRng {α : Type} (m : Fallible RngSource Stop α) : Fallible (Shuffling width T) Stop α :=
  zoom Shuffling.rng (fun rng s => { s with rng := rng }) id m

end Shuffling

section

variable (build : Build) (fuel : ℕ)

/-- The draw of a slot up to `i`. -/
def drawSlot (width : PointerWidth) (i : ℕ) : Fallible RngSource Stop (RandInt.usize width).Value :=
  (RandInt.usize width).genRangeInclusive build fuel 0 (BitVec.ofNat _ i)

/-- The loop of `shuffle` from the slot `i` on. -/
def shuffleLoop : ℕ → Fallible (Shuffling width T) Stop Unit
  | 0 => pure ()
  | i + 1 => do
    let j ← Shuffling.onRng (drawSlot build fuel width (i + 1))
    Shuffling.swap (i + 1) j.toNat
    shuffleLoop i

/-- `shuffle`. -/
def shuffle : Fallible (Shuffling width T) Stop Unit := do
  let len := (← get).slice.items.size
  if len < 2 then pure () else shuffleLoop build fuel (len - 1)

/-- The draws for the slots `i`, …, `1`, made one after the other from `rng` and ending
    with the source `rng'`, give the vector. -/
def Drawn (width : PointerWidth) : (i : ℕ) → RngSource → Draws i → RngSource → Prop
  | 0, rng, _, rng' => rng' = rng
  | i + 1, rng, (j, rest), rng' =>
    ∃ value mid, (drawSlot build fuel width (i + 1)).exec rng = (.ok value, mid) ∧
      value.toNat = j ∧ Drawn width i mid rest rng'

end

/-! ## One round -/

section

variable (build : Build) (fuel : ℕ)

/-- A drawn slot is in range, and a draw that does not return ran out of fuel. -/
theorem exec_drawSlot {i : ℕ} (hi : i < 2 ^ width.bits) (rng : RngSource) :
    (∃ value mid, (drawSlot build fuel width i).exec rng = (.ok value, mid) ∧
      value.toNat ≤ i) ∨
    ∃ mid, (drawSlot build fuel width i).exec rng = (.error .outOfFuel, mid) := by
  have htop : (BitVec.ofNat (RandInt.usize width).bits i).toNat = i := Nat.mod_eq_of_lt hi
  have hle : (0 : (RandInt.usize width).Value) ≤ BitVec.ofNat _ i := by
    rw [BitVec.le_def]
    exact Nat.zero_le _
  have heven := RandInt.sampledEvenly build (.usize width) hle
  cases hdraw : (drawSlot build fuel width i).exec rng with
  | mk result mid =>
      have hresult : ((drawSlot build fuel width i).exec rng).1 = result := by rw [hdraw]
      cases result with
      | ok value =>
          have hrange := (heven.in_range fuel rng value hresult).2
          rw [BitVec.le_def, htop] at hrange
          exact .inl ⟨value, mid, rfl, hrange⟩
      | error stopped =>
          obtain rfl := heven.never_panics fuel rng stopped hresult
          exact .inr ⟨mid, rfl⟩

/-- A draw returns at once where the next word is accepted. -/
theorem exec_drawSlot_of_accepted {i : ℕ} (hi : i < 2 ^ width.bits) (rng : RngSource)
    (haccepted : (highPart (2 ^ 64) (i + 1) (nextWord 64 rng).1.toNat).isSome = true) :
    ∃ value, (drawSlot build fuel width i).exec rng = (.ok value, (nextWord 64 rng).2) ∧
      value.toNat ≤ i := by
  have htop : (BitVec.ofNat (RandInt.usize width).bits i).toNat = i := Nat.mod_eq_of_lt hi
  have hzero : (0 : (RandInt.usize width).Value).toNat = 0 := Nat.zero_mod _
  have hle : (0 : (RandInt.usize width).Value) ≤ BitVec.ofNat _ i := by
    rw [BitVec.le_def]
    exact Nat.zero_le _
  obtain ⟨r, hr⟩ := Option.isSome_iff_exists.mp haccepted
  have hsome : (RandInt.usize width).rangeValue 0
      ((BitVec.ofNat (RandInt.usize width).bits i).toNat - (0 : (RandInt.usize width).Value).toNat + 1)
      (wordAt (nextWord 64) 0 rng) = some (0 + BitVec.ofNat _ r) := by
    rw [htop, hzero, Nat.sub_zero]
    exact congrArg (Option.map _) hr
  have hdraw := draw_of_first (fun j hj => absurd hj (Nat.not_lt_zero j)) hsome (Nat.succ_pos fuel)
  have hexec : (drawSlot build fuel width i).exec rng =
      (.ok (0 + BitVec.ofNat _ r), (nextWord 64 rng).2) := by
    unfold drawSlot
    rw [RandInt.exec_genRangeInclusive build fuel (.usize width) hle rng, outcome_eq_ok]
    exact hdraw
  rcases exec_drawSlot build fuel hi rng with ⟨value, mid, hexec', hvalue⟩ | ⟨mid, hexec'⟩
  · obtain ⟨hsame, -⟩ := Prod.mk.inj (hexec'.symm.trans hexec)
    exact ⟨_, hexec, Except.ok.inj hsame ▸ hvalue⟩
  · cases hexec'.symm.trans hexec

variable {build fuel} {rng mid : RngSource} {slice : Slice width T} {i : ℕ}

/-- A round whose draw returns goes on with the slots swapped. -/
theorem exec_shuffleLoop_ok {value : (RandInt.usize width).Value}
    (hi : i + 1 < slice.items.size)
    (hdraw : (drawSlot build fuel width (i + 1)).exec rng = (.ok value, mid))
    (hvalue : value.toNat ≤ i + 1) :
    (shuffleLoop build fuel (i + 1)).exec ⟨rng, slice⟩ =
      (shuffleLoop build fuel i).exec ⟨mid, slice.swapped (i + 1) value.toNat⟩ := by
  have hbound : i + 1 < slice.items.size ∧ value.toNat < slice.items.size := ⟨hi, by omega⟩
  have hfirst : (Shuffling.onRng (drawSlot build fuel width (i + 1))).exec
      (⟨rng, slice⟩ : Shuffling width T) = (.ok value, ⟨mid, slice⟩) := by
    unfold Shuffling.onRng
    rw [exec_zoom, hdraw]
    rfl
  have hswap : (Shuffling.swap (i + 1) value.toNat).exec (⟨mid, slice⟩ : Shuffling width T) =
      (.ok (), ⟨mid, slice.swapped (i + 1) value.toNat⟩) := by
    unfold Shuffling.swap
    rw [exec_bind, exec_get]
    show (if _ then _ else _ : Fallible (Shuffling width T) Stop Unit).exec _ = _
    rw [if_pos hbound]
    rfl
  rw [shuffleLoop, exec_bind_ok hfirst, exec_bind_ok hswap]

/-- A round whose draw does not return leaves the slice as it is. -/
theorem exec_shuffleLoop_error {stopped : Stop}
    (hdraw : (drawSlot build fuel width (i + 1)).exec rng = (.error stopped, mid)) :
    (shuffleLoop build fuel (i + 1)).exec ⟨rng, slice⟩ = (.error stopped, ⟨mid, slice⟩) := by
  have hfirst : (Shuffling.onRng (drawSlot build fuel width (i + 1))).exec
      (⟨rng, slice⟩ : Shuffling width T) = (.error stopped, ⟨mid, slice⟩) := by
    unfold Shuffling.onRng
    rw [exec_zoom, hdraw]
    rfl
  rw [shuffleLoop, exec_bind_error hfirst]

/-- More fuel changes no draw that returned. -/
theorem exec_drawSlot_of_more {fuel fuel' : ℕ} (hfuel : fuel ≤ fuel') {i : ℕ} {rng mid : RngSource}
    {value : (RandInt.usize width).Value}
    (h : (drawSlot build fuel width i).exec rng = (.ok value, mid)) :
    (drawSlot build fuel' width i).exec rng = (.ok value, mid) := by
  have hle : (0 : (RandInt.usize width).Value) ≤ BitVec.ofNat _ i := by
    rw [BitVec.le_def]
    exact Nat.zero_le _
  exact RandInt.genRangeInclusive_of_more build (.usize width) hfuel hle h

/-- The vector drawn from a source, and the source behind it, are the same with any fuel. -/
theorem Drawn.unique {fuel fuel' : ℕ} {i : ℕ} {rng rng₁ rng₂ : RngSource} {d d' : Draws i}
    (h : Drawn build fuel width i rng d rng₁) (h' : Drawn build fuel' width i rng d' rng₂) :
    d = d' ∧ rng₁ = rng₂ := by
  induction i generalizing rng with
  | zero => exact ⟨rfl, h.trans h'.symm⟩
  | succ i ih =>
      obtain ⟨j, rest⟩ := d
      obtain ⟨j', rest'⟩ := d'
      obtain ⟨value, mid, hdraw, hvalue, hrest⟩ := h
      obtain ⟨value', mid', hdraw', hvalue', hrest'⟩ := h'
      have hmore := exec_drawSlot_of_more (le_max_left fuel fuel') hdraw
      have hmore' := exec_drawSlot_of_more (le_max_right fuel fuel') hdraw'
      obtain ⟨hsame, rfl⟩ := Prod.mk.inj (hmore.symm.trans hmore')
      obtain rfl := Except.ok.inj hsame
      obtain ⟨rfl, hrng⟩ := ih hrest hrest'
      exact ⟨Prod.ext (Fin.ext (hvalue.symm.trans hvalue')) rfl, hrng⟩

theorem size_swapped (slice : Slice width T) (i j : ℕ) :
    (slice.swapped i j).items.size = slice.items.size :=
  (swapIfInBounds_perm i j slice.items).size_eq

/-! ## The loop -/

variable (build fuel rng slice)

/-- However it ends, the loop has only permuted the slice, and it does not panic. -/
theorem shuffleLoop_permutes (hi : i ≤ slice.items.size - 1) :
    ((shuffleLoop build fuel i).exec ⟨rng, slice⟩).2.slice.items.Perm slice.items ∧
      (((shuffleLoop build fuel i).exec ⟨rng, slice⟩).1 = .ok () ∨
        ((shuffleLoop build fuel i).exec ⟨rng, slice⟩).1 = .error .outOfFuel) := by
  induction i generalizing rng slice with
  | zero => exact ⟨Array.Perm.rfl, .inl rfl⟩
  | succ i ih =>
      have hslot : i + 1 < slice.items.size := by omega
      rcases exec_drawSlot build fuel (hslot.trans slice.fits) rng with
        ⟨value, mid, hdraw, hvalue⟩ | ⟨mid, hdraw⟩
      · rw [exec_shuffleLoop_ok hslot hdraw hvalue]
        have hrest := ih mid (slice.swapped (i + 1) value.toNat) (by rw [size_swapped]; omega)
        exact ⟨hrest.1.trans (swapIfInBounds_perm _ _ _), hrest.2⟩
      · rw [exec_shuffleLoop_error hdraw]
        exact ⟨Array.Perm.rfl, .inr rfl⟩

/-- The loop returns where the first words are accepted, one for each slot. -/
theorem shuffleLoop_returns (hi : i ≤ slice.items.size - 1)
    (haccepted : ∀ k < i,
      (highPart (2 ^ 64) (i + 1 - k) (wordAt (nextWord 64) k rng).toNat).isSome = true) :
    ((shuffleLoop build fuel i).exec ⟨rng, slice⟩).1 = .ok () := by
  induction i generalizing rng slice with
  | zero => rfl
  | succ i ih =>
      have hslot : i + 1 < slice.items.size := by omega
      obtain ⟨value, hdraw, hvalue⟩ := exec_drawSlot_of_accepted build fuel
        (hslot.trans slice.fits) rng (haccepted 0 (Nat.succ_pos i))
      rw [exec_shuffleLoop_ok hslot hdraw hvalue]
      refine ih _ _ (by rw [size_swapped]; omega) fun k hk => ?_
      have hnext := haccepted (k + 1) (Nat.succ_lt_succ hk)
      rw [show i + 1 + 1 - (k + 1) = i + 1 - k by omega] at hnext
      exact hnext

/-- The loop returns exactly on the vectors it draws, and leaves their pass. -/
theorem shuffleLoop_eq_ok (hi : i ≤ slice.items.size - 1) (s' : Shuffling width T) :
    (shuffleLoop build fuel i).exec ⟨rng, slice⟩ = (.ok (), s') ↔
      ∃ d, Drawn build fuel width i rng d s'.rng ∧ s'.slice = slice.arranged i d := by
  induction i generalizing rng slice with
  | zero =>
      constructor
      · intro h
        obtain rfl : (⟨rng, slice⟩ : Shuffling width T) = s' := congrArg Prod.snd h
        exact ⟨(), rfl, rfl⟩
      · rintro ⟨d, hrng, hslice⟩
        obtain ⟨rng', slice'⟩ := s'
        obtain rfl : rng' = rng := hrng
        obtain rfl : slice' = slice := hslice
        rfl
  | succ i ih =>
      have hslot : i + 1 < slice.items.size := by omega
      rcases exec_drawSlot build fuel (hslot.trans slice.fits) rng with
        ⟨value, mid, hdraw, hvalue⟩ | ⟨mid, hdraw⟩
      · rw [exec_shuffleLoop_ok hslot hdraw hvalue, ih mid _ (by rw [size_swapped]; omega)]
        constructor
        · rintro ⟨rest, hdrawn, hslice⟩
          exact ⟨(⟨value.toNat, by omega⟩, rest), ⟨value, mid, hdraw, rfl, hdrawn⟩, hslice⟩
        · rintro ⟨⟨j, rest⟩, ⟨value', mid', hdraw', hj, hdrawn⟩, hslice⟩
          rw [hdraw] at hdraw'
          obtain ⟨hvalues, rfl⟩ := Prod.mk.inj hdraw'
          obtain rfl := Except.ok.inj hvalues
          refine ⟨rest, hdrawn, hslice.trans ?_⟩
          rw [hj]
          rfl
      · rw [exec_shuffleLoop_error hdraw]
        constructor
        · intro h
          cases h
        · rintro ⟨⟨j, rest⟩, ⟨value', mid', hdraw', -, -⟩, -⟩
          rw [hdraw] at hdraw'
          cases hdraw'

end

/-! ## Shuffles -/

/-- The order a vector of draws leaves `n` positions in. -/
def orderOf (n : ℕ) (d : Draws (n - 1)) : { order : Array ℕ // order.Perm (Array.range n) } :=
  ⟨arrange (n - 1) d (Array.range n), arrange_perm d (Array.range n)⟩

theorem orderOf_bijective (n : ℕ) : Function.Bijective (orderOf n) := by
  rw [Function.bijective_iff_existsUnique]
  rintro ⟨order, horder⟩
  have hunique : ∃! d : Draws (n - 1), arrange (n - 1) d (Array.range n) = order := by
    rcases Nat.eq_zero_or_pos n with rfl | hn
    · refine ⟨(), ?_, fun _ _ => rfl⟩
      exact (Array.eq_empty_of_size_eq_zero horder.size_eq).symm
    · have hdistinct : (Array.range n).toList.Nodup := by
        rw [Array.toList_range]
        exact List.nodup_range
      have hsize : (Array.range n).size = n := Array.size_range
      refine existsUnique_arrange hdistinct (by omega) horder ?_
      intro k hk
      rw [Array.getElem?_eq_none (by rw [horder.size_eq]; omega),
        Array.getElem?_eq_none (by omega)]
  simpa [orderOf, Subtype.ext_iff] using hunique

section

variable (build : Build) (fuel : ℕ) (rng : RngSource) (slice : Slice width T)

theorem exec_shuffle :
    (shuffle build fuel).exec (⟨rng, slice⟩ : Shuffling width T) =
      (shuffleLoop build fuel (slice.items.size - 1)).exec ⟨rng, slice⟩ := by
  unfold shuffle
  rw [exec_bind, exec_get]
  show (if slice.items.size < 2 then _ else _ : Fallible (Shuffling width T) Stop Unit).exec _ = _
  split
  · next hsmall =>
      have hzero : slice.items.size - 1 = 0 := by omega
      rw [hzero]
      rfl
  · rfl

/-- A pass moves the elements as it moves their positions. -/
theorem arranged_getElem? (d : Draws (slice.items.size - 1)) (k : ℕ) :
    (slice.arranged (slice.items.size - 1) d).items[k]? =
      (orderOf slice.items.size d).val[k]?.bind fun n => slice.items[n]? := by
  rcases Nat.eq_zero_or_pos slice.items.size with hempty | hpos
  · have hnone : ∀ n : ℕ, slice.items[n]? = none := fun n =>
      Array.getElem?_eq_none (by omega)
    have hsize : (slice.arranged (slice.items.size - 1) d).items.size = 0 :=
      (arrange_perm d slice.items).size_eq.trans hempty
    rw [Array.getElem?_eq_none (by omega)]
    cases (orderOf slice.items.size d).val[k]? with
    | none => rfl
    | some n => exact (hnone n).symm
  · exact getElem?_arrange d (by omega) k

theorem card_drawVectors (n : ℕ) : Nat.card (Draws (n - 1)) = n ! := by
  rw [card_draws]
  rcases Nat.eq_zero_or_pos n with rfl | hpos
  · rfl
  · rw [Nat.sub_add_cancel hpos]

/-- **A shuffle is a uniform permutation.** For every slice and source, in both builds: the
    slice a call leaves is a permutation of the one it got, the call does not panic, and it
    returns exactly on the vectors drawn, leaving the pass of the vector. That pass moves
    positions, each order of them comes from exactly one vector, and there are `n!`
    vectors. -/
theorem shuffle_uniform :
    (((shuffle build fuel).exec ⟨rng, slice⟩).2.slice.items.Perm slice.items ∧
      (((shuffle build fuel).exec ⟨rng, slice⟩).1 = .ok () ∨
        ((shuffle build fuel).exec ⟨rng, slice⟩).1 = .error .outOfFuel) ∧
      ∀ s', (shuffle build fuel).exec ⟨rng, slice⟩ = (.ok (), s') ↔
        ∃ d, Drawn build fuel width (slice.items.size - 1) rng d s'.rng ∧
          s'.slice = slice.arranged (slice.items.size - 1) d) ∧
    (∀ (d : Draws (slice.items.size - 1)) (k : ℕ),
      (slice.arranged (slice.items.size - 1) d).items[k]? =
        (orderOf slice.items.size d).val[k]?.bind fun n => slice.items[n]?) ∧
    Function.Bijective (orderOf slice.items.size) ∧
    Nat.card (Draws (slice.items.size - 1)) = slice.items.size ! := by
  refine ⟨?_, arranged_getElem? slice, orderOf_bijective _, card_drawVectors _⟩
  rw [exec_shuffle]
  obtain ⟨hperm, hends⟩ := shuffleLoop_permutes build fuel rng slice le_rfl
  exact ⟨hperm, hends, shuffleLoop_eq_ok build fuel rng slice le_rfl⟩

end

end ArkheForge.Rand
