/-
  The samples are even, and the two ways to write a range agree.

  Of the `2^W` words one round of Lemire's sampler accepts `2^W / n` for each result below
  `n` and none for another. So `gen_range_inclusive` draws each value of its range from
  equally many words, with no panic in either build, and returns as soon as a word is
  accepted (`SampledEvenly`). `gen_range` over `a..b` is `gen_range_inclusive` over
  `a..=b-1`, and `usize` is sampled as `u64` at every pointer width
  (`half_open_is_inclusive`): the same draws from the same words.
-/
import ArkheForge.Rand.Xof

namespace ArkheForge.Rand

open Fallible Rejection

/-! ## Counting words -/

section

variable {W : ℕ} (build : Build)

/-- Words are counted as the numbers below `2^W`. -/
theorem ncard_words (P : ℕ → Prop) :
    {x : BitVec W | P x.toNat}.ncard = {x | x < 2 ^ W ∧ P x}.ncard := by
  have himage : BitVec.toNat '' {x : BitVec W | P x.toNat} = {x | x < 2 ^ W ∧ P x} := by
    ext x
    constructor
    · rintro ⟨word, hword, rfl⟩
      exact ⟨word.isLt, hword⟩
    · rintro ⟨hlt, hx⟩
      have hvalue : (BitVec.ofNat W x).toNat = x := by
        rw [BitVec.toNat_ofNat, Nat.mod_eq_of_lt hlt]
      refine ⟨BitVec.ofNat W x, ?_, hvalue⟩
      show P (BitVec.ofNat W x).toNat
      rw [hvalue]
      exact hx
  rw [← himage, Set.ncard_image_of_injective _ BitVec.toNat_injective]

theorem even_highPart {size : ℕ} (hsize : 0 < size) :
    Even (fun x : BitVec W => highPart (2 ^ W) size x.toNat) (· < size) (2 ^ W / size) where
  inside r hr := by
    rw [ncard_words fun x => highPart (2 ^ W) size x = some r]
    exact ncard_highPart hsize (Nat.two_pow_pos W) hr
  outside r hr x hx := hr (highPart_lt x.isLt hx)

theorem even_boundedValue {size : ℕ} (hsize : 0 < size) (hle : size ≤ 2 ^ W) :
    Even (boundedValue (W := W) size) (fun r => r.toNat < size) (2 ^ W / size) := by
  refine (even_highPart hsize).map ?_ ?_
  · intro r
    constructor
    · intro hr
      refine ⟨r.toNat, hr, ?_⟩
      simp
    · rintro ⟨value, hvalue, rfl⟩
      rw [BitVec.toNat_ofNat, Nat.mod_eq_of_lt (hvalue.trans_le hle)]
      exact hvalue
  · intro value value' hvalue hvalue' heq
    have hnat := congrArg BitVec.toNat heq
    rw [BitVec.toNat_ofNat, BitVec.toNat_ofNat, Nat.mod_eq_of_lt (hvalue.trans_le hle),
      Nat.mod_eq_of_lt (hvalue'.trans_le hle)] at hnat
    exact hnat

/-- One round over words of `W` bits: it never panics, rejects by the plain test, and gives
    each result below the bound for equally many words. -/
def RoundIsEven (W : ℕ) : Prop :=
  ∀ (build : Build) (n : BitVec W), n ≠ 0 →
    (∀ r, {x | lemireRound build n x = .ok (some r)}.ncard =
      if r < n then 2 ^ W / n.toNat else 0) ∧
    (∀ x, lemireRound build n x = .ok none ↔
      x.toNat * n.toNat % 2 ^ W < 2 ^ W % n.toNat) ∧
    ∀ x, ∃ value, lemireRound build n x = .ok value

theorem roundIsEven (W : ℕ) : RoundIsEven W := by
  intro build n h
  have hpos : 0 < n.toNat := Nat.pos_of_ne_zero fun hzero => h (BitVec.eq_of_toNat_eq hzero)
  have heven := even_boundedValue hpos n.isLt.le
  refine ⟨?_, ?_, ?_⟩
  · intro r
    have hset : {x | lemireRound build n x = .ok (some r)} =
        {x | boundedValue n.toNat x = some r} := by
      ext x
      rw [Set.mem_ofPred_eq, Set.mem_ofPred_eq, lemireRound_eq build h]
      exact ⟨Except.ok.inj, congrArg Except.ok⟩
    rw [hset]
    by_cases hr : r < n
    · rw [if_pos hr]
      exact heven.inside r hr
    · have hempty : {x | boundedValue n.toNat x = some r} = ∅ :=
        Set.eq_empty_of_forall_notMem fun x hx => heven.outside r hr x hx
      rw [if_neg hr, hempty, Set.ncard_empty]
  · intro x
    rw [lemireRound_eq build h]
    unfold boundedValue highPart
    by_cases hrejected : x.toNat * n.toNat % 2 ^ W < 2 ^ W % n.toNat
    · simp [hrejected]
    · simp [hrejected]
  · intro x
    exact ⟨_, lemireRound_eq build h x⟩

end

namespace RandInt

/-! ## Even ranges -/

section

variable {ty : RandInt} {start stop : ty.Value}

/-- A value of the range, as a number. -/
theorem toNat_add_ofNat {size r : ℕ} (hfits : start.toNat + size ≤ 2 ^ ty.bits) (hr : r < size) :
    (start + BitVec.ofNat ty.bits r).toNat = start.toNat + r := by
  rw [BitVec.toNat_add, BitVec.toNat_ofNat, Nat.mod_eq_of_lt (a := r) (by omega),
    Nat.mod_eq_of_lt (by omega)]

theorem even_rangeValue {size : ℕ} (hsize : 0 < size)
    (hfits : start.toNat + size ≤ 2 ^ ty.bits) :
    Even (ty.rangeValue start size) (fun v => start ≤ v ∧ v.toNat < start.toNat + size)
      (2 ^ ty.word / size) := by
  refine (even_highPart hsize).map ?_ ?_
  · intro v
    constructor
    · rintro ⟨hle, hlt⟩
      have hle : start.toNat ≤ v.toNat := hle
      have hr : v.toNat - start.toNat < size := by omega
      refine ⟨v.toNat - start.toNat, hr, BitVec.eq_of_toNat_eq ?_⟩
      rw [toNat_add_ofNat hfits hr]
      omega
    · rintro ⟨r, hr, rfl⟩
      rw [BitVec.le_def, toNat_add_ofNat hfits hr]
      omega
  · intro r r' hr hr' heq
    have hnat := congrArg BitVec.toNat heq
    rw [toNat_add_ofNat hfits hr, toNat_add_ofNat hfits hr'] at hnat
    omega

end

/-- `gen_range_inclusive` over `start..=stop` draws words until `accept` gives a value: a
    value of the range, each for `count` words. No run panics, and a run returns once a word
    is accepted. -/
structure SampledEvenly (build : Build) (ty : RandInt) (start stop : ty.Value)
    (accept : BitVec ty.word → Option ty.Value) (count : ℕ) : Prop where
  draws : ∀ fuel rng, (ty.genRangeInclusive build fuel start stop).exec rng =
    outcome (draw (nextWord ty.word) accept (fuel + 1) rng)
  even : Even accept (fun v => start ≤ v ∧ v ≤ stop) count
  count_pos : 0 < count
  in_range : ∀ fuel rng v,
    ((ty.genRangeInclusive build fuel start stop).exec rng).1 = .ok v → start ≤ v ∧ v ≤ stop
  never_panics : ∀ fuel rng stopped,
    ((ty.genRangeInclusive build fuel start stop).exec rng).1 = .error stopped →
      stopped = .outOfFuel
  returns : ∀ k rng v, (∀ j < k, accept (wordAt (nextWord ty.word) j rng) = none) →
    accept (wordAt (nextWord ty.word) k rng) = some v → ∀ fuel, k ≤ fuel →
      (ty.genRangeInclusive build fuel start stop).exec rng =
        (.ok v, skip (nextWord ty.word) (k + 1) rng)

theorem outcome_ok {α : Type} {drawn : Option α × RngSource} {a : α}
    (h : (outcome drawn).1 = .ok a) : drawn.1 = some a := by
  rcases drawn with ⟨none | b, rng⟩
  · cases h
  · exact congrArg some (Except.ok.inj h)

theorem outcome_error {α : Type} {drawn : Option α × RngSource} {stopped : Stop}
    (h : (outcome drawn).1 = .error stopped) : stopped = .outOfFuel := by
  rcases drawn with ⟨none | b, rng⟩
  · exact (Except.error.inj h).symm
  · cases h

/-- The values of `start..=stop`. -/
theorem even_inclusive {ty : RandInt} {start stop : ty.Value} (h : start ≤ stop) :
    Even (ty.rangeValue start (stop.toNat - start.toNat + 1))
      (fun v => start ≤ v ∧ v ≤ stop) (2 ^ ty.word / (stop.toNat - start.toNat + 1)) := by
  have hle : start.toNat ≤ stop.toNat := h
  have hbound := stop.isLt
  have hvalues := even_rangeValue (Nat.succ_pos (stop.toNat - start.toNat))
    (by omega : start.toNat + (stop.toNat - start.toNat + 1) ≤ 2 ^ ty.bits)
  constructor
  · rintro v ⟨hstart, hstop⟩
    have hstop : v.toNat ≤ stop.toNat := hstop
    exact hvalues.inside v ⟨hstart, by omega⟩
  · intro v hv
    refine hvalues.outside v fun hvalue => hv ⟨hvalue.1, ?_⟩
    have := hvalue.2
    show v.toNat ≤ stop.toNat
    omega

theorem sampledEvenly (build : Build) (ty : RandInt) {start stop : ty.Value} (h : start ≤ stop) :
    SampledEvenly build ty start stop (ty.rangeValue start (stop.toNat - start.toNat + 1))
      (2 ^ ty.word / (stop.toNat - start.toNat + 1)) := by
  have hle : start.toNat ≤ stop.toNat := h
  have hstop := stop.isLt
  have hdraws := fun fuel rng => ty.exec_genRangeInclusive build fuel h rng
  have heven := even_inclusive h
  refine ⟨hdraws, heven, ?_, ?_, ?_, ?_⟩
  · have hbits := ty.two_pow_bits_le
    exact Nat.div_pos (by omega) (Nat.succ_pos _)
  · intro fuel rng v hv
    rw [hdraws] at hv
    obtain ⟨x, hx⟩ := accept_of_draw (outcome_ok hv)
    by_contra hout
    exact heven.outside v hout x hx
  · intro fuel rng stopped hstopped
    rw [hdraws] at hstopped
    exact outcome_error hstopped
  · intro k rng v hrejected haccepted fuel hfuel
    rw [hdraws, draw_of_first hrejected haccepted (by omega)]
    rfl

end RandInt

/-- **Lemire sampling is exactly uniform.** One round of `lemire_u32` and of `lemire_u64`
    is even, for every bound; and `gen_range_inclusive` samples every range of every type
    evenly, each of its values from `2^w` by its size words. -/
theorem lemire_uniform :
    RoundIsEven 32 ∧ RoundIsEven 64 ∧
    ∀ (build : Build) (ty : RandInt) (start stop : ty.Value), start ≤ stop →
      ∃ accept, RandInt.SampledEvenly build ty start stop accept
        (2 ^ ty.word / (stop.toNat - start.toNat + 1)) :=
  ⟨roundIsEven 32, roundIsEven 64, fun build ty _ _ h => ⟨_, RandInt.sampledEvenly build ty h⟩⟩

/-- All bytes, and a die. -/
theorem lemire_uniform_bytes :
    (∃ accept, RandInt.SampledEvenly .debug .u8 0 255 accept (2 ^ 24)) ∧
      ∃ accept, RandInt.SampledEvenly .debug .u8 1 6 accept 715827882 :=
  ⟨lemire_uniform.2.2 .debug .u8 0 255 (by decide), lemire_uniform.2.2 .debug .u8 1 6 (by decide)⟩

/-! ## Half-open and inclusive ranges -/

namespace RandInt

section

variable {ty : RandInt} {start stop : ty.Value}

/-- The values of a range that fits, as numbers. -/
theorem rangeValue_toNat {size : ℕ} (hfits : start.toNat + size ≤ 2 ^ ty.bits)
    (x : BitVec ty.word) :
    (ty.rangeValue start size x).map BitVec.toNat =
      (highPart (2 ^ ty.word) size x.toNat).map (start.toNat + ·) := by
  unfold rangeValue
  cases hvalue : highPart (2 ^ ty.word) size x.toNat with
  | none => rfl
  | some r => exact congrArg some (toNat_add_ofNat hfits (highPart_lt x.isLt hvalue))

/-- The outcome of a call, its value as a number. -/
def numeric {w : ℕ} (result : Except Stop (BitVec w) × RngSource) : Except Stop ℕ × RngSource :=
  (result.1.map BitVec.toNat, result.2)

theorem numeric_outcome {w : ℕ} (drawn : Option (BitVec w) × RngSource) :
    numeric (outcome drawn) = outcome (drawn.1.map BitVec.toNat, drawn.2) := by
  rcases drawn with ⟨none | v, rng⟩
  · rfl
  · rfl

theorem numeric_draw {size : ℕ} (hfits : start.toNat + size ≤ 2 ^ ty.bits) (fuel : ℕ)
    (rng : RngSource) :
    numeric (outcome (draw (nextWord ty.word) (ty.rangeValue start size) fuel rng)) =
      outcome (draw (nextWord ty.word)
        (fun x => (highPart (2 ^ ty.word) size x.toNat).map (start.toNat + ·)) fuel rng) := by
  rw [numeric_outcome, ← draw_map]
  congr 2
  funext x
  exact rangeValue_toNat hfits x

end

/-- A `usize` as a `u64`. -/
def widen {width : PointerWidth} (a : (usize width).Value) : u64.Value := a.setWidth u64.bits

section

variable (build : Build) (fuel : ℕ) {width : PointerWidth} {a b : (usize width).Value}
  (rng : RngSource)

theorem widen_toNat (a : (usize width).Value) : (widen a).toNat = a.toNat :=
  BitVec.toNat_setWidth_of_le width.bits_le

theorem widen_fits {size : ℕ} (hfits : a.toNat + size ≤ 2 ^ (usize width).bits) :
    (widen a).toNat + size ≤ 2 ^ u64.bits := by
  have hbits : 2 ^ (usize width).bits ≤ 2 ^ u64.bits :=
    Nat.pow_le_pow_right Nat.two_pos width.bits_le
  rw [widen_toNat]
  exact hfits.trans hbits

/-- The draws of a range of `usize` are those of the range of `u64`. -/
theorem numeric_draw_usize {size : ℕ} (hfits : a.toNat + size ≤ 2 ^ (usize width).bits) :
    numeric (outcome (draw (nextWord (usize width).word) ((usize width).rangeValue a size) fuel rng)) =
      numeric (outcome (draw (nextWord u64.word) (u64.rangeValue (widen a) size) fuel rng)) := by
  rw [numeric_draw hfits, numeric_draw (widen_fits hfits), widen_toNat]
  rfl

theorem widen_le : widen a ≤ widen b ↔ a ≤ b := by
  rw [BitVec.le_def, BitVec.le_def, widen_toNat, widen_toNat]

/-- An empty range is refused in a debug build; a release build gives its start. -/
theorem exec_genRange_empty {ty : RandInt} {start stop : ty.Value} (h : stop ≤ start) :
    (ty.genRange build fuel start stop).exec rng =
      (match build with
        | .debug => .error (.assertion "gen_range: empty range")
        | .release => .ok start, rng) := by
  have hassert : decide (start < stop) = false := decide_eq_false (BitVec.not_lt.mpr h)
  unfold genRange
  rw [hassert, if_pos h]
  cases build with
  | debug => rfl
  | release => rfl

theorem genRange_usize (a b : (usize width).Value) :
    numeric (((usize width).genRange build fuel a b).exec rng) =
      numeric ((u64.genRange build fuel (widen a) (widen b)).exec rng) := by
  by_cases h : b ≤ a
  · rw [exec_genRange_empty build fuel rng h, exec_genRange_empty build fuel rng (widen_le.mpr h)]
    cases build with
    | debug => rfl
    | release =>
        show ((.ok a.toNat, rng) : Except Stop ℕ × RngSource) = (.ok (widen a).toNat, rng)
        rw [widen_toNat]
  · have hlt : a < b := BitVec.not_le.mp h
    have hnat : a.toNat < b.toNat := hlt
    have hwide : widen a < widen b := BitVec.not_le.mp fun hle => h (widen_le.mp hle)
    have hb := b.isLt
    rw [exec_genRange build fuel _ hlt, exec_genRange build fuel _ hwide, widen_toNat, widen_toNat]
    exact numeric_draw_usize (fuel + 1) rng (by omega)

theorem genRangeInclusive_usize (h : a ≤ b) :
    numeric (((usize width).genRangeInclusive build fuel a b).exec rng) =
      numeric ((u64.genRangeInclusive build fuel (widen a) (widen b)).exec rng) := by
  have hle : a.toNat ≤ b.toNat := h
  have hb := b.isLt
  rw [exec_genRangeInclusive build fuel _ h,
    exec_genRangeInclusive build fuel _ (widen_le.mpr h), widen_toNat, widen_toNat]
  exact numeric_draw_usize (fuel + 1) rng (by omega)

end

/-- A half-open range without its end. -/
theorem toNat_pred {ty : RandInt} {a b : ty.Value} (h : a < b) :
    (b - 1).toNat = b.toNat - 1 := by
  have hlt : a.toNat < b.toNat := h
  have hb := b.isLt
  have hone : (1 : ty.Value).toNat = 1 :=
    Nat.mod_eq_of_lt (Nat.one_lt_two_pow ty.bits_pos.ne')
  have hle : (1 : ty.Value) ≤ b := by
    rw [BitVec.le_def, hone]
    omega
  rw [BitVec.toNat_sub_of_le hle, hone]

end RandInt

/-- **The two ways to write a range agree.** For every type, range `a..b` that is not empty
    and source, in both builds: `gen_range` over `a..b` and `gen_range_inclusive` over
    `a..=b-1` have the same outcome, which is no panic, and leave the same source; and the
    functions of `usize` have the numeric outcome of those of `u64` and leave the same
    source. -/
theorem half_open_is_inclusive (build : Build) (fuel : ℕ) (rng : RngSource) :
    (∀ (ty : RandInt) (a b : ty.Value), a < b →
      (ty.genRange build fuel a b).exec rng =
        (ty.genRangeInclusive build fuel a (b - 1)).exec rng ∧
      ∀ stopped, ((ty.genRange build fuel a b).exec rng).1 = .error stopped →
        stopped = .outOfFuel) ∧
    ∀ (width : PointerWidth) (a b : (RandInt.usize width).Value),
      RandInt.numeric (((RandInt.usize width).genRange build fuel a b).exec rng) =
        RandInt.numeric
          ((RandInt.u64.genRange build fuel (RandInt.widen a) (RandInt.widen b)).exec rng) ∧
      (a ≤ b → RandInt.numeric (((RandInt.usize width).genRangeInclusive build fuel a b).exec rng) =
        RandInt.numeric
          ((RandInt.u64.genRangeInclusive build fuel (RandInt.widen a) (RandInt.widen b)).exec rng)) := by
  constructor
  · intro ty a b h
    have hlt : a.toNat < b.toNat := h
    have hpred := RandInt.toNat_pred h
    have hle : a ≤ b - 1 := by
      rw [BitVec.le_def, hpred]
      omega
    have hsize : (b - 1).toNat - a.toNat + 1 = b.toNat - a.toNat := by
      rw [hpred]
      omega
    have hrange := ty.exec_genRange build fuel h rng
    constructor
    · rw [hrange, ty.exec_genRangeInclusive build fuel hle, hsize]
    · intro stopped hstopped
      rw [hrange] at hstopped
      exact RandInt.outcome_error hstopped
  · intro width a b
    exact ⟨RandInt.genRange_usize build fuel rng a b,
      RandInt.genRangeInclusive_usize build fuel rng⟩

theorem pointerBits_pos : 0 < 32 := by decide

theorem pointerBits_le : 32 ≤ 64 := by decide

/-- The pointer width of a 32-bit target. -/
def pointer32 : PointerWidth := ⟨32, pointerBits_pos, pointerBits_le⟩

section

attribute [local instance] oneBlockXof

/-- The source of the seed of zeros. -/
def zeroSource : RngSource := RngSource.fromSeed (.replicate 32 0)

/-- Its first word. -/
theorem zeroSource_word : wordAt (nextWord 64) 0 zeroSource = 0x9df25ba97736f36b#64 := by
  unfold zeroSource
  rw [wordAt_fromSeed 64 0 (.replicate 32 0) (by decide : (0 + 1) * (64 / 8) ≤ 1 * xofBlockLen)]
  decide +kernel

/-- Indices of a deck on a 32-bit target, drawn from `0..52`, from `0..=51` and as `u64`: the
    first word of the source is accepted. -/
theorem half_open_is_inclusive_deck :
    let usize := RandInt.usize pointer32
    let deck : usize.Value := BitVec.ofNat usize.bits 52
    (usize.genRange .release 8 0 deck).exec zeroSource =
        (.ok 32, (nextWord 64 zeroSource).2) ∧
      (usize.genRange .release 8 0 deck).exec zeroSource =
        (usize.genRangeInclusive .release 8 0 (deck - 1)).exec zeroSource ∧
      RandInt.numeric ((usize.genRangeInclusive .release 8 0 deck).exec zeroSource) =
        RandInt.numeric ((RandInt.u64.genRangeInclusive .release 8
          (@RandInt.widen pointer32 0)
          (@RandInt.widen pointer32 deck)).exec zeroSource) := by
  intro usize deck
  have hlt : (0 : usize.Value) < deck := by decide
  have haccepted : usize.rangeValue 0 (deck.toNat - (0 : usize.Value).toNat)
      (wordAt (nextWord usize.word) 0 zeroSource) = some 32 :=
    (congrArg (usize.rangeValue 0 _) zeroSource_word).trans (by decide)
  have hdraw := draw_of_first (fun j hj => absurd hj (Nat.not_lt_zero j)) haccepted
    (by decide : 0 < 8 + 1)
  have hall := half_open_is_inclusive .release 8 zeroSource
  refine ⟨?_, (hall.1 usize 0 deck hlt).1, (hall.2 pointer32 0 deck).2 (BitVec.le_of_lt hlt)⟩
  rw [usize.exec_genRange .release 8 hlt, outcome_eq_ok]
  exact hdraw

end

end ArkheForge.Rand
