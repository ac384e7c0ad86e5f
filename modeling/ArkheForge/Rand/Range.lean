/-
  Ranges of integers (`arkhe-rand/src/range.rs`): Lemire's sampler over the words of a
  source, and `gen_range` and `gen_range_inclusive` for the five integer types.

  A word is a little-endian integer read with `fill_bytes`. The loop of the sampler reads
  words until one is accepted, and on a stream without an accepted word it reads for ever,
  so it takes fuel, the number of words it may reject. Arithmetic is checked as the build
  has it: a debug build panics where a release build wraps.

  Both entry points come down to drawing from `rangeValue`, which makes a value of the
  range out of one word (`exec_genRange`, `exec_genRangeInclusive`); no run panics.
-/
import ArkheForge.Lib.Fallible
import ArkheForge.Lib.Rejection
import ArkheForge.Rand.Source
import Mathlib.Data.BitVec

namespace ArkheForge.Rand

open BigEndian Fallible Rejection

/-! ## Checked arithmetic -/

/-- The profile a crate is built with: whether overflow is checked and debug assertions
    are compiled in. -/
inductive Build
  | debug
  | release
  deriving DecidableEq, Repr

/-- Why a call does not return: a panic, or no fuel left. -/
inductive Stop
  | overflow
  | divisionByZero
  | assertion (message : String)
  | indexOutOfBounds
  | outOfFuel
  deriving DecidableEq, Repr

namespace Build

variable {w : ℕ}

/-- The result of an operation that fits or not. -/
def checked (build : Build) (fits : Bool) (result : BitVec w) : Except Stop (BitVec w) :=
  if build = .debug ∧ fits = false then .error .overflow else .ok result

/-- `a + b`. -/
def add (build : Build) (a b : BitVec w) : Except Stop (BitVec w) :=
  build.checked (a.toNat + b.toNat < 2 ^ w) (a + b)

/-- `a - b`. -/
def sub (build : Build) (a b : BitVec w) : Except Stop (BitVec w) :=
  build.checked (b.toNat ≤ a.toNat) (a - b)

/-- `a * b`. -/
def mul (build : Build) (a b : BitVec w) : Except Stop (BitVec w) :=
  build.checked (a.toNat * b.toNat < 2 ^ w) (a * b)

/-- `a % b`. -/
def rem (a b : BitVec w) : Except Stop (BitVec w) :=
  if b = 0 then .error .divisionByZero else .ok (a % b)

/-- `debug_assert!`. -/
def debugAssert (build : Build) (condition : Bool) (message : String) : Except Stop Unit :=
  if build = .debug ∧ condition = false then .error (.assertion message) else .ok ()

theorem add_of_fits (build : Build) {a b : BitVec w} (h : a.toNat + b.toNat < 2 ^ w) :
    build.add a b = .ok (a + b) := by
  simp [add, checked, h]

theorem sub_of_le (build : Build) {a b : BitVec w} (h : b ≤ a) :
    build.sub a b = .ok (a - b) := by
  have hle : b.toNat ≤ a.toNat := h
  simp [sub, checked, hle]

theorem mul_of_fits (build : Build) {a b : BitVec w} (h : a.toNat * b.toNat < 2 ^ w) :
    build.mul a b = .ok (a * b) := by
  simp [mul, checked, h]

theorem rem_of_ne_zero {a b : BitVec w} (h : b ≠ 0) : rem a b = .ok (a % b) := if_neg h

theorem debugAssert_true (build : Build) (message : String) :
    build.debugAssert true message = .ok () := by
  simp [debugAssert]

end Build

/-! ## Words of a source -/

/-- `from_le_bytes`, as a number. -/
def fromLe (bytes : Bytes) : ℕ := fromBe bytes.reverse

/-- The next word of `W` bits, and the source behind it. -/
def nextWord (W : ℕ) (rng : RngSource) : BitVec W × RngSource :=
  (BitVec.ofNat W (fromLe (rng.fillBytes (W / 8)).1), (rng.fillBytes (W / 8)).2)

theorem skip_nextWord_unread (W k : ℕ) (rng : RngSource) :
    (skip (nextWord W) k rng).unread = rng.unread.drop (k * (W / 8)) := by
  induction k with
  | zero => simp [skip]
  | succ k ih =>
      have hstep : skip (nextWord W) (k + 1) rng = (nextWord W (skip (nextWord W) k rng)).2 :=
        Function.iterate_succ_apply' _ k rng
      rw [hstep]
      show ((skip (nextWord W) k rng).fillBytes (W / 8)).2.unread = _
      rw [(RngSource.fillBytes_spec _ _).2, ih, Stream'.drop_drop, Nat.succ_mul]

/-- The words of a source are its unread bytes, taken a word at a time. -/
theorem wordAt_nextWord (W k : ℕ) (rng : RngSource) :
    wordAt (nextWord W) k rng =
      BitVec.ofNat W (fromLe ((rng.unread.drop (k * (W / 8))).take (W / 8))) := by
  show BitVec.ofNat W (fromLe ((skip (nextWord W) k rng).fillBytes (W / 8)).1) = _
  rw [(RngSource.fillBytes_spec _ _).1, skip_nextWord_unread]

/-- `fill_bytes` of a buffer of one word, read with `from_le_bytes`. -/
def readWord (W : ℕ) : Fallible RngSource Stop (BitVec W) := do
  let rng ← get
  set (nextWord W rng).2
  pure (nextWord W rng).1

@[simp] theorem exec_readWord (W : ℕ) (rng : RngSource) :
    (readWord W).exec rng = (.ok (nextWord W rng).1, (nextWord W rng).2) := rfl

/-! ## The source functions -/

section

variable (build : Build)

/-- The body of the loop of `lemire_u32` and `lemire_u64` on the word `x`: the value it
    returns, or nothing where it goes on with the next word. -/
def lemireRound {W : ℕ} (n x : BitVec W) : Except Stop (Option (BitVec W)) := do
  let m ← build.mul (x.setWidth (2 * W)) (n.setWidth (2 * W))
  let l := m.setWidth W
  let high := (m >>> W).setWidth W
  if l < n then
    let t ← Build.rem (-n) n
    if l < t then pure none else pure (some high)
  else pure (some high)

/-- The loop. -/
def lemireLoop {W : ℕ} (n : BitVec W) : ℕ → Fallible RngSource Stop (BitVec W)
  | 0 => throw .outOfFuel
  | fuel + 1 => do
    let x ← readWord W
    match ← ofExcept (lemireRound build n x) with
    | some r => pure r
    | none => lemireLoop n fuel

variable (fuel : ℕ)

/-- Lemire's sampler over words of `W` bits; zero stands for the full range. -/
def lemire {W : ℕ} (n : BitVec W) : Fallible RngSource Stop (BitVec W) :=
  if n = 0 then readWord W else lemireLoop build n (fuel + 1)

/-- `lemire_u32`. -/
def lemireU32 (n : BitVec 32) : Fallible RngSource Stop (BitVec 32) := lemire build fuel n

/-- `lemire_u64`. -/
def lemireU64 (n : BitVec 64) : Fallible RngSource Stop (BitVec 64) := lemire build fuel n

end

/-- A pointer width. No target has a wider one. -/
structure PointerWidth where
  bits : ℕ
  bits_pos : 0 < bits
  bits_le : bits ≤ 64

/-- The types that implement `RandInt`. -/
inductive RandInt
  | u8
  | u16
  | u32
  | u64
  | usize (width : PointerWidth)

namespace RandInt

/-- The width of the type. -/
def bits : RandInt → ℕ
  | u8 => 8
  | u16 => 16
  | u32 => 32
  | u64 => 64
  | usize width => width.bits

/-- The width of the words it is sampled from, on every target. -/
def word : RandInt → ℕ
  | u8 | u16 | u32 => 32
  | u64 | usize _ => 64

/-- A value of the type. -/
abbrev Value (ty : RandInt) : Type := BitVec ty.bits

variable (build : Build) (fuel : ℕ)

/-- The sampler of the type: `lemire_u32` for the three small ones, else `lemire_u64`. -/
def sampler : (ty : RandInt) → BitVec ty.word → Fallible RngSource Stop (BitVec ty.word)
  | u8 => lemireU32 build fuel
  | u16 => lemireU32 build fuel
  | u32 => lemireU32 build fuel
  | u64 => lemireU64 build fuel
  | usize _ => lemireU64 build fuel

/-- `RandInt::lemire_bounded`. -/
def lemireBounded (ty : RandInt) (rangeSize : ty.Value) : Fallible RngSource Stop ty.Value := do
  let r ← ty.sampler build fuel (rangeSize.setWidth ty.word)
  pure (r.setWidth ty.bits)

/-- The size of `low..=high` in twice the bits of a word. -/
def span (ty : RandInt) (low high : ty.Value) : Except Stop (BitVec (2 * ty.word)) := do
  let difference ← build.sub (high.setWidth (2 * ty.word)) (low.setWidth (2 * ty.word))
  build.add difference 1

/-- `RandInt::lemire_inclusive`. -/
def lemireInclusive (ty : RandInt) (low high : ty.Value) : Fallible RngSource Stop ty.Value := do
  let span ← ofExcept (ty.span build low high)
  let n := if span = BitVec.ofNat _ (2 ^ ty.word) then 0 else span.setWidth ty.word
  let r ← ty.sampler build fuel n
  pure (low + r.setWidth ty.bits)

/-- `gen_range` over `start..stop`. -/
def genRange (ty : RandInt) (start stop : ty.Value) : Fallible RngSource Stop ty.Value := do
  ofExcept (build.debugAssert (start < stop) "gen_range: empty range")
  if stop ≤ start then pure start
  else
    let size ← ofExcept (build.sub stop start)
    let r ← ty.lemireBounded build fuel size
    ofExcept (build.add start r)

/-- `gen_range_inclusive` over `start..=stop`. -/
def genRangeInclusive (ty : RandInt) (start stop : ty.Value) : Fallible RngSource Stop ty.Value := do
  ofExcept (build.debugAssert (start ≤ stop) "gen_range_inclusive: inverted range")
  ty.lemireInclusive build fuel start stop

end RandInt

/-! ## What the sampler draws -/

/-- How a draw ends as a call: out of fuel where no word was accepted. -/
def outcome {α : Type} (drawn : Option α × RngSource) : Except Stop α × RngSource :=
  (match drawn.1 with
    | some a => .ok a
    | none => .error .outOfFuel, drawn.2)

theorem outcome_eq_ok {α : Type} {drawn : Option α × RngSource} {a : α} {rng : RngSource} :
    outcome drawn = (.ok a, rng) ↔ drawn = (some a, rng) := by
  obtain ⟨value, mid⟩ := drawn
  cases value with
  | none => simp [outcome]
  | some b => simp [outcome]

section

variable {W : ℕ} (build : Build)

/-- The value of a word below a bound: the high part of their product. -/
def boundedValue (size : ℕ) (x : BitVec W) : Option (BitVec W) :=
  (highPart (2 ^ W) size x.toNat).map (BitVec.ofNat W)

/-- How many values a bound stands for. -/
def sizeOf (n : BitVec W) : ℕ := if n = 0 then 2 ^ W else n.toNat

theorem sizeOf_of_toNat {size : ℕ} {n : BitVec W} (hn : n.toNat = size) (hpos : 0 < size) :
    sizeOf n = size := by
  have hne : n ≠ 0 := by
    intro hzero
    rw [hzero] at hn
    have : (0 : BitVec W).toNat = 0 := rfl
    omega
  unfold sizeOf
  rw [if_neg hne, hn]

theorem mul_lt_doubled (x n : BitVec W) : x.toNat * n.toNat < 2 ^ (2 * W) := by
  have hx : x.toNat * n.toNat ≤ 2 ^ W * n.toNat := Nat.mul_le_mul_right _ x.isLt.le
  have hn : 2 ^ W * n.toNat < 2 ^ W * 2 ^ W := Nat.mul_lt_mul_of_pos_left n.isLt (Nat.two_pow_pos W)
  rw [Nat.two_mul, Nat.pow_add]
  omega

/-- Doubling the width loses nothing. -/
theorem setWidth_doubled (x : BitVec W) : (x.setWidth (2 * W)).toNat = x.toNat :=
  BitVec.toNat_setWidth_of_le (by omega)

theorem product_eq (x n : BitVec W) :
    (x.setWidth (2 * W) * n.setWidth (2 * W)).toNat = x.toNat * n.toNat := by
  rw [BitVec.toNat_mul, setWidth_doubled, setWidth_doubled, Nat.mod_eq_of_lt (mul_lt_doubled x n)]

/-- The threshold of the loop. -/
theorem neg_umod_toNat {n : BitVec W} (h : n ≠ 0) : (-n % n).toNat = 2 ^ W % n.toNat := by
  have hpos : 0 < n.toNat := Nat.pos_of_ne_zero fun hzero => h (BitVec.eq_of_toNat_eq hzero)
  have hlt := n.isLt
  have hsub : 2 ^ W - n.toNat < 2 ^ W := by omega
  rw [BitVec.toNat_umod, BitVec.toNat_neg, Nat.mod_eq_of_lt hsub]
  exact (Nat.mod_eq_sub_mod hlt.le).symm

/-- One round accepts as the plain test does: the threshold is below the bound, so a low half
    that is not is above the threshold. -/
theorem lemireRound_eq {n : BitVec W} (h : n ≠ 0) (x : BitVec W) :
    lemireRound build n x = .ok (boundedValue n.toNat x) := by
  have hfits : (x.setWidth (2 * W)).toNat * (n.setWidth (2 * W)).toNat < 2 ^ (2 * W) := by
    rw [setWidth_doubled, setWidth_doubled]
    exact mul_lt_doubled x n
  have hlow : ((x.setWidth (2 * W) * n.setWidth (2 * W)).setWidth W).toNat =
      x.toNat * n.toNat % 2 ^ W := by
    rw [BitVec.toNat_setWidth, product_eq]
  have hhigh : ((x.setWidth (2 * W) * n.setWidth (2 * W)) >>> W).setWidth W =
      BitVec.ofNat W (x.toNat * n.toNat / 2 ^ W) := by
    apply BitVec.eq_of_toNat_eq
    rw [BitVec.toNat_setWidth, BitVec.toNat_ushiftRight, product_eq, Nat.shiftRight_eq_div_pow,
      BitVec.toNat_ofNat]
  have hpos : 0 < n.toNat := Nat.pos_of_ne_zero fun hzero => h (BitVec.eq_of_toNat_eq hzero)
  have hthreshold : 2 ^ W % n.toNat < n.toNat := Nat.mod_lt _ hpos
  unfold lemireRound boundedValue highPart
  rw [build.mul_of_fits hfits, Build.rem_of_ne_zero h]
  simp only [bind, Except.bind, BitVec.lt_def, hlow, hhigh, neg_umod_toNat h]
  by_cases hbelow : x.toNat * n.toNat % 2 ^ W < n.toNat
  · rw [if_pos hbelow]
    by_cases hrejected : x.toNat * n.toNat % 2 ^ W < 2 ^ W % n.toNat
    · rw [if_pos hrejected, if_pos hrejected]
      rfl
    · rw [if_neg hrejected, if_neg hrejected]
      rfl
  · rw [if_neg hbelow, if_neg (by omega)]
    rfl

theorem exec_lemireLoop {n : BitVec W} (h : n ≠ 0) (fuel : ℕ) (rng : RngSource) :
    (lemireLoop build n fuel).exec rng =
      outcome (draw (nextWord W) (boundedValue n.toNat) fuel rng) := by
  induction fuel generalizing rng with
  | zero => rfl
  | succ fuel ih =>
      unfold lemireLoop draw
      simp only [exec_bind, exec_readWord, lemireRound_eq build h, exec_ofExcept]
      cases boundedValue n.toNat (nextWord W rng).1 with
      | some r => rfl
      | none => exact ih (nextWord W rng).2

/-- The full range takes the word as it is. -/
theorem boundedValue_full (x : BitVec W) : boundedValue (2 ^ W) x = some x := by
  have hvalue : highPart (2 ^ W) (2 ^ W) x.toNat = some x.toNat := by
    unfold highPart
    rw [Nat.mul_mod_left, Nat.mod_self, if_neg (Nat.lt_irrefl 0),
      Nat.mul_div_cancel _ (Nat.two_pow_pos W)]
  unfold boundedValue
  rw [hvalue]
  simp

theorem exec_lemire (fuel : ℕ) (n : BitVec W) (rng : RngSource) :
    (lemire build fuel n).exec rng =
      outcome (draw (nextWord W) (boundedValue (sizeOf n)) (fuel + 1) rng) := by
  unfold lemire sizeOf
  by_cases h : n = 0
  · rw [if_pos h, if_pos h, exec_readWord]
    unfold draw
    rw [boundedValue_full]
    rfl
  · rw [if_neg h, if_neg h]
    exact exec_lemireLoop build h (fuel + 1) rng

end

/-! ## What the two entry points draw -/

namespace RandInt

variable (build : Build) (fuel : ℕ) (ty : RandInt)

theorem bits_le_word : ty.bits ≤ ty.word := by
  cases ty with
  | usize width => exact width.bits_le
  | u8 => decide
  | u16 => decide
  | u32 => decide
  | u64 => decide

theorem bits_pos : 0 < ty.bits := by
  cases ty with
  | usize width => exact width.bits_pos
  | u8 => decide
  | u16 => decide
  | u32 => decide
  | u64 => decide

theorem word_pos : 0 < ty.word := ty.bits_pos.trans_le ty.bits_le_word

theorem two_pow_bits_le : 2 ^ ty.bits ≤ 2 ^ ty.word :=
  Nat.pow_le_pow_right Nat.two_pos ty.bits_le_word

theorem two_pow_word_lt : 2 ^ ty.word < 2 ^ (2 * ty.word) := by
  have hpos := ty.word_pos
  exact Nat.pow_lt_pow_right (by omega) (by omega)

theorem exec_sampler (n : BitVec ty.word) (rng : RngSource) :
    (ty.sampler build fuel n).exec rng =
      outcome (draw (nextWord ty.word) (boundedValue (sizeOf n)) (fuel + 1) rng) := by
  cases ty with
  | u8 => exact exec_lemire build fuel n rng
  | u16 => exact exec_lemire build fuel n rng
  | u32 => exact exec_lemire build fuel n rng
  | u64 => exact exec_lemire build fuel n rng
  | usize width => exact exec_lemire build fuel n rng

/-- The value a word gives in the range of `size` values from `start`. -/
def rangeValue (start : ty.Value) (size : ℕ) (x : BitVec ty.word) : Option ty.Value :=
  (highPart (2 ^ ty.word) size x.toNat).map fun r => start + BitVec.ofNat ty.bits r

/-- A sample, taken to the width of the type and added to `start`. -/
theorem boundedValue_map (start : ty.Value) (size : ℕ) :
    (fun x => (boundedValue size x).map fun r : BitVec ty.word => start + r.setWidth ty.bits) =
      ty.rangeValue start size := by
  funext x
  unfold boundedValue rangeValue
  rw [Option.map_map]
  congr 1
  funext r
  show start + (BitVec.ofNat ty.word r).setWidth ty.bits = start + BitVec.ofNat ty.bits r
  rw [BitVec.setWidth_ofNat_of_le ty.bits_le_word]

/-- A statement on the value of a draw. -/
theorem exec_outcome_bind {α β : Type} {m : Fallible RngSource Stop α}
    {drawn : Option α × RngSource} {rng : RngSource} (h : m.exec rng = outcome drawn) {g : α → β}
    {k : α → Fallible RngSource Stop β}
    (hk : ∀ a, drawn.1 = some a → (k a).exec drawn.2 = (.ok (g a), drawn.2)) :
    (m >>= k).exec rng = outcome (drawn.1.map g, drawn.2) := by
  rw [exec_bind, h]
  rcases drawn with ⟨none | a, rng'⟩
  · rfl
  · exact hk a rfl

/-- How many values `start..=stop` has. -/
theorem span_eq {low high : ty.Value} (h : low ≤ high) :
    ∃ span, ty.span build low high = .ok span ∧ span.toNat = high.toNat - low.toNat + 1 := by
  have hwide : ty.bits ≤ 2 * ty.word := by
    have := ty.bits_le_word
    omega
  have hle : low.setWidth (2 * ty.word) ≤ high.setWidth (2 * ty.word) := by
    rw [BitVec.le_def, BitVec.toNat_setWidth_of_le hwide, BitVec.toNat_setWidth_of_le hwide]
    exact h
  have hdifference : (high.setWidth (2 * ty.word) - low.setWidth (2 * ty.word)).toNat =
      high.toNat - low.toNat := by
    rw [BitVec.toNat_sub_of_le hle, BitVec.toNat_setWidth_of_le hwide,
      BitVec.toNat_setWidth_of_le hwide]
  have hone : (1 : BitVec (2 * ty.word)).toNat = 1 := by
    have hbase : 1 < 2 ^ (2 * ty.word) := (Nat.one_le_two_pow).trans_lt ty.two_pow_word_lt
    exact Nat.mod_eq_of_lt hbase
  have hsmall : high.toNat - low.toNat + 1 < 2 ^ (2 * ty.word) := by
    have hhigh := high.isLt
    have hbits := ty.two_pow_bits_le
    have hword := ty.two_pow_word_lt
    omega
  have hfits : (high.setWidth (2 * ty.word) - low.setWidth (2 * ty.word)).toNat +
      (1 : BitVec (2 * ty.word)).toNat < 2 ^ (2 * ty.word) := by
    rw [hdifference, hone]
    exact hsmall
  refine ⟨high.setWidth (2 * ty.word) - low.setWidth (2 * ty.word) + 1, ?_, ?_⟩
  · unfold span
    rw [build.sub_of_le hle]
    exact build.add_of_fits hfits
  · rw [BitVec.toNat_add, Nat.mod_eq_of_lt hfits, hdifference, hone]

/-- The bound handed to the sampler stands for the size of the range, the full width being
    handed over as zero. -/
theorem sizeOf_span {span : BitVec (2 * ty.word)} (hpos : 0 < span.toNat)
    (hle : span.toNat ≤ 2 ^ ty.word) :
    sizeOf (if span = BitVec.ofNat _ (2 ^ ty.word) then (0 : BitVec ty.word)
      else span.setWidth ty.word) = span.toNat := by
  have hfull : (BitVec.ofNat (2 * ty.word) (2 ^ ty.word)).toNat = 2 ^ ty.word :=
    Nat.mod_eq_of_lt ty.two_pow_word_lt
  by_cases h : span = BitVec.ofNat _ (2 ^ ty.word)
  · rw [if_pos h, h, hfull]
    exact if_pos rfl
  · have hlt : span.toNat < 2 ^ ty.word := by
      refine lt_of_le_of_ne hle fun heq => h (BitVec.eq_of_toNat_eq ?_)
      rw [heq, hfull]
    rw [if_neg h]
    refine sizeOf_of_toNat ?_ hpos
    rw [BitVec.toNat_setWidth, Nat.mod_eq_of_lt hlt]

/-- `gen_range_inclusive` draws from the values of `start..=stop`. -/
theorem exec_genRangeInclusive {start stop : ty.Value} (h : start ≤ stop) (rng : RngSource) :
    (ty.genRangeInclusive build fuel start stop).exec rng =
      outcome (draw (nextWord ty.word)
        (ty.rangeValue start (stop.toNat - start.toNat + 1)) (fuel + 1) rng) := by
  obtain ⟨span, hspan, hsize⟩ := ty.span_eq build h
  have hle : span.toNat ≤ 2 ^ ty.word := by
    have hstop := stop.isLt
    have hbits := ty.two_pow_bits_le
    omega
  have hassert : decide (start ≤ stop) = true := decide_eq_true h
  unfold genRangeInclusive lemireInclusive
  rw [hassert, build.debugAssert_true, hspan]
  refine (exec_outcome_bind (ty.exec_sampler build fuel _ rng)
    (g := fun r => start + r.setWidth ty.bits) fun _ _ => rfl).trans ?_
  rw [← draw_map, ty.sizeOf_span (by omega) hle, hsize, ty.boundedValue_map]

/-- The size of a non-empty half-open range, as the sampler gets it. -/
theorem sizeOf_sub {start stop : ty.Value} (h : start < stop) :
    sizeOf ((stop - start).setWidth ty.word) = stop.toNat - start.toNat := by
  have hlt : start.toNat < stop.toNat := h
  refine sizeOf_of_toNat ?_ (by omega)
  rw [BitVec.toNat_setWidth_of_le ty.bits_le_word, BitVec.toNat_sub_of_le (BitVec.le_of_lt h)]

/-- What is drawn below the size stays below `stop` when `start` is added. -/
theorem add_drawn {start stop : ty.Value} (h : start < stop) {rng : RngSource}
    {r : BitVec ty.word}
    (hr : (draw (nextWord ty.word) (boundedValue (stop.toNat - start.toNat)) (fuel + 1) rng).1 =
      some r) :
    build.add start (r.setWidth ty.bits) = .ok (start + r.setWidth ty.bits) := by
  have hlt : start.toNat < stop.toNat := h
  have hstop := stop.isLt
  have hbits := ty.two_pow_bits_le
  obtain ⟨x, hx⟩ := accept_of_draw hr
  obtain ⟨value, hvalue, rfl⟩ := Option.map_eq_some_iff.mp hx
  have hbelow := highPart_lt x.isLt hvalue
  have hnarrow : ((BitVec.ofNat ty.word value).setWidth ty.bits).toNat = value := by
    rw [BitVec.setWidth_ofNat_of_le ty.bits_le_word, BitVec.toNat_ofNat]
    exact Nat.mod_eq_of_lt (by omega)
  refine build.add_of_fits ?_
  rw [hnarrow]
  omega

/-- `gen_range` draws from the values of `start..stop`. -/
theorem exec_genRange {start stop : ty.Value} (h : start < stop) (rng : RngSource) :
    (ty.genRange build fuel start stop).exec rng =
      outcome (draw (nextWord ty.word)
        (ty.rangeValue start (stop.toNat - start.toNat)) (fuel + 1) rng) := by
  have hassert : decide (start < stop) = true := decide_eq_true h
  have hnonempty : ¬ stop ≤ start := BitVec.not_le.mpr h
  have hsize := ty.sizeOf_sub h
  unfold genRange lemireBounded
  rw [hassert, build.debugAssert_true, if_neg hnonempty, build.sub_of_le (BitVec.le_of_lt h)]
  show ((ty.sampler build fuel ((stop - start).setWidth ty.word) >>= fun r =>
    pure (r.setWidth ty.bits)) >>= fun r => ofExcept (build.add start r)).exec rng = _
  rw [bind_assoc]
  refine (exec_outcome_bind (ty.exec_sampler build fuel _ rng)
    (g := fun r => start + r.setWidth ty.bits) ?_).trans ?_
  · intro r hr
    rw [hsize] at hr
    show (ofExcept (build.add start (r.setWidth ty.bits)) :
      Fallible RngSource Stop ty.Value).exec _ = _
    rw [ty.add_drawn build fuel h hr]
    rfl
  · rw [← draw_map, hsize, ty.boundedValue_map]

/-- More fuel changes no call that returned. -/
theorem genRangeInclusive_of_more {fuel fuel' : ℕ} (hfuel : fuel ≤ fuel') {start stop : ty.Value}
    (h : start ≤ stop) {rng mid : RngSource} {value : ty.Value}
    (hdraw : (ty.genRangeInclusive build fuel start stop).exec rng = (.ok value, mid)) :
    (ty.genRangeInclusive build fuel' start stop).exec rng = (.ok value, mid) := by
  rw [ty.exec_genRangeInclusive build fuel h] at hdraw
  rw [ty.exec_genRangeInclusive build fuel' h]
  rw [outcome_eq_ok] at hdraw ⊢
  exact draw_of_more (Nat.succ_le_succ hfuel) hdraw

end RandInt

end ArkheForge.Rand
