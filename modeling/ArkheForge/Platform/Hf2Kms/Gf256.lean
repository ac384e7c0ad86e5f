/-
  The arithmetic of `GF(2^8)` in `hf2_kms/threshold.rs`, and that it is a field.

  `gf_mul` is a loop over machine bytes and `gf_inv` a loop of multiplications. Every
  byte is made from 1 by doubling and by adding (`byte_induction`), and the loop of
  `gf_mul` is additive in both arguments and commutes with doubling, which gives the
  laws of a commutative ring. In it every element is its own 256th power and only 0
  and 1 are their own squares, so `a ^ 255 = 1` for `a ≠ 0`, and `gf_inv` computes
  `a ^ 254`.
-/
import Mathlib.Algebra.Field.Basic
import Mathlib.Tactic.LinearCombination
import Mathlib.Tactic.Ring

namespace ArkheForge.Platform

/-! ## The source functions -/

/-- `GF_REDUCER`. -/
def gfReducer : UInt16 := 0x11B

/-- `gf_add`. -/
def gfAdd (a b : UInt8) : UInt8 := a ^^^ b

/-- What a round of `gf_mul` does to `a`. -/
def gfDouble (a : UInt8) : UInt8 :=
  let hiBit := a &&& 0x80
  let a := a <<< 1
  if hiBit ≠ 0 then a ^^^ (gfReducer &&& 0xFF).toUInt8 else a

/-- The loop of `gf_mul`, for a number of rounds. -/
def gfMulLoop : ℕ → UInt8 → UInt8 → UInt16 → UInt16
  | 0, _, _, r => r
  | rounds + 1, a, b, r =>
    if a ≠ 0 ∧ b ≠ 0 then
      gfMulLoop rounds (gfDouble a) (b >>> 1) (if b &&& 1 = 1 then r ^^^ a.toUInt16 else r)
    else r

/-- `gf_mul`: eight rounds, since none is left after them (`gfMulLoop_done`). -/
def gfMul (a b : UInt8) : UInt8 := (gfMulLoop 8 a b 0).toUInt8

/-- The loop of `gf_inv`, for a number of rounds. -/
def gfInvLoop : ℕ → UInt8 → UInt8 → UInt8 → UInt8
  | 0, result, _, _ => result
  | rounds + 1, result, base, exp =>
    if exp > 0 then
      gfInvLoop rounds (if exp &&& 1 = 1 then gfMul result base else result) (gfMul base base)
        (exp >>> 1)
    else result

/-- `gf_inv`: eight rounds, since none is left after them (`gfInvLoop_done`). -/
def gfInv (a : UInt8) : UInt8 := if a = 0 then 0 else gfInvLoop 8 1 a 254

/-! ## The loops end -/

theorem toNat_shiftRight_one (b : UInt8) : (b >>> 1).toNat = b.toNat / 2 := by
  rw [UInt8.toNat_shiftRight]
  exact Nat.shiftRight_one _

theorem eq_zero_of_toNat_lt_one {b : UInt8} (h : b.toNat < 2 ^ 0) : b = 0 := by
  refine UInt8.toNat_inj.mp ?_
  show b.toNat = 0
  omega

/-- After as many rounds as `b` has bits the loop of `gf_mul` is over. -/
theorem gfMulLoop_done {rounds : ℕ} {a b : UInt8} {r : UInt16} (h : b.toNat < 2 ^ rounds)
    (more : ℕ) : gfMulLoop (rounds + more) a b r = gfMulLoop rounds a b r := by
  induction rounds generalizing a b r with
  | zero =>
      rw [eq_zero_of_toNat_lt_one h]
      cases more with
      | zero => rfl
      | succ more =>
          rw [Nat.zero_add]
          exact if_neg fun hne => hne.2 rfl
  | succ rounds ih =>
      have hhalf : (b >>> 1).toNat < 2 ^ rounds := by
        rw [toNat_shiftRight_one]
        rw [Nat.pow_succ] at h
        omega
      rw [Nat.succ_add]
      unfold gfMulLoop
      rw [ih hhalf]

/-- After as many rounds as the exponent has bits the loop of `gf_inv` is over. -/
theorem gfInvLoop_done {rounds : ℕ} {result base exp : UInt8} (h : exp.toNat < 2 ^ rounds)
    (more : ℕ) : gfInvLoop (rounds + more) result base exp = gfInvLoop rounds result base exp := by
  induction rounds generalizing result base exp with
  | zero =>
      rw [eq_zero_of_toNat_lt_one h]
      cases more with
      | zero => rfl
      | succ more =>
          rw [Nat.zero_add]
          exact if_neg (by decide)
  | succ rounds ih =>
      have hhalf : (exp >>> 1).toNat < 2 ^ rounds := by
        rw [toNat_shiftRight_one]
        rw [Nat.pow_succ] at h
        omega
      rw [Nat.succ_add]
      unfold gfInvLoop
      rw [ih hhalf]

/-! ## Doubling -/

theorem xor_xor_xor_comm (a b c d : UInt8) : a ^^^ b ^^^ (c ^^^ d) = a ^^^ c ^^^ (b ^^^ d) := by
  ac_rfl

theorem xor_and (a b m : UInt8) : (a ^^^ b) &&& m = a &&& m ^^^ (b &&& m) := by
  refine UInt8.toBitVec_inj.mp (BitVec.eq_of_getLsbD_eq ?_)
  intro i _
  simp only [UInt8.toBitVec_and, UInt8.toBitVec_xor, BitVec.getLsbD_and, BitVec.getLsbD_xor]
  exact Bool.and_xor_distrib_right _ _ _

/-- A fact about bytes is a fact about the numbers below 256. -/
theorem byte_forall {P : UInt8 → Prop} (h : ∀ n < 256, P (UInt8.ofNat n)) : ∀ b, P b := by
  intro b
  have hb := h b.toNat b.toNat_lt
  rwa [UInt8.ofNat_toNat] at hb

/-- The bytes with one bit set. -/
def bits : List UInt8 := [1, 2, 4, 8, 16, 32, 64, 128]

theorem and_bit : ∀ b : UInt8, ∀ m ∈ bits, b &&& m = 0 ∨ b &&& m = m :=
  byte_forall (by decide +kernel)

theorem sum_bits : ∀ b : UInt8, bits.foldr (fun m acc => (b &&& m) ^^^ acc) 0 = b :=
  byte_forall (by decide +kernel)

@[simp] theorem gfDouble_zero : gfDouble 0 = 0 := by decide

theorem gfDouble_xor (a b : UInt8) : gfDouble (a ^^^ b) = gfDouble a ^^^ gfDouble b := by
  have hmask : ∀ c : UInt8, gfDouble c = c <<< 1 ^^^ if c &&& 0x80 = 0 then 0 else 0x1B := by
    intro c
    unfold gfDouble
    by_cases hc : c &&& 0x80 = 0
    · simp [hc]
    · simp only [hc, ne_eq, not_false_eq_true, if_true, if_false]
      rfl
  have hmem : (0x80 : UInt8) ∈ bits := by decide
  rw [hmask, hmask, hmask, UInt8.shiftLeft_xor, xor_and, xor_xor_xor_comm]
  congr 1
  rcases and_bit a _ hmem with ha | ha
  · rcases and_bit b _ hmem with hb | hb
    · simp [ha, hb]
    · simp [ha, hb]
  · rcases and_bit b _ hmem with hb | hb
    · simp [ha, hb]
    · simp [ha, hb]

theorem bits_eq : bits = (List.range 8).map fun i => gfDouble^[i] 1 := by decide

/-- Every byte is made from 1 by doubling and adding. -/
theorem byte_induction {P : UInt8 → Prop} (one : P 1) (double : ∀ a, P a → P (gfDouble a))
    (add : ∀ a b, P a → P b → P (a ^^^ b)) (b : UInt8) : P b := by
  have hiterate : ∀ i, P (gfDouble^[i] 1) := by
    intro i
    induction i with
    | zero => exact one
    | succ i ih =>
        rw [Function.iterate_succ_apply']
        exact double _ ih
  have hbits : ∀ m ∈ bits, P m := by
    rw [bits_eq]
    exact List.forall_mem_map.mpr fun i _ => hiterate i
  have hzero : P 0 := by
    have h := add 1 1 one one
    rwa [UInt8.xor_self] at h
  have hfold : ∀ ms : List UInt8, (∀ m ∈ ms, m ∈ bits) →
      P (ms.foldr (fun m acc => (b &&& m) ^^^ acc) 0) := by
    intro ms hms
    induction ms with
    | nil => exact hzero
    | cons m ms ih =>
        have hm := hms m (by simp)
        rw [List.foldr_cons]
        refine add _ _ ?_ (ih fun m' hm' => hms m' (List.mem_cons_of_mem m hm'))
        rcases and_bit b m hm with h | h
        · rw [h]
          exact hzero
        · rw [h]
          exact hbits m hm
  rw [← sum_bits b]
  exact hfold bits fun m hm => hm

/-! ## Multiplication as a sum -/

/-- What the rounds of `gf_mul` add up: the doublings of `a` at the bits of `b`. -/
def doublings : ℕ → UInt8 → UInt8 → UInt8
  | 0, _, _ => 0
  | rounds + 1, a, b =>
    (if b &&& 1 = 1 then a else 0) ^^^ doublings rounds (gfDouble a) (b >>> 1)

theorem doublings_succ (rounds : ℕ) (a b : UInt8) :
    doublings (rounds + 1) a b =
      (if b &&& 1 = 1 then a else 0) ^^^ doublings rounds (gfDouble a) (b >>> 1) := rfl

theorem doublings_zero_left (rounds : ℕ) (b : UInt8) : doublings rounds 0 b = 0 := by
  induction rounds generalizing b with
  | zero => rfl
  | succ rounds ih =>
      rw [doublings_succ, gfDouble_zero, ih, ite_self, UInt8.xor_self]

theorem doublings_zero_right (rounds : ℕ) (a : UInt8) : doublings rounds a 0 = 0 := by
  induction rounds generalizing a with
  | zero => rfl
  | succ rounds ih =>
      have hhalf : (0 : UInt8) >>> 1 = 0 := rfl
      rw [doublings_succ, hhalf, ih, if_neg (by decide), UInt8.xor_self]

/-- The loop of `gf_mul` adds the doublings to its accumulator. -/
theorem gfMulLoop_eq (rounds : ℕ) (a b : UInt8) (r : UInt16) :
    (gfMulLoop rounds a b r).toUInt8 = r.toUInt8 ^^^ doublings rounds a b := by
  induction rounds generalizing a b r with
  | zero => exact UInt8.xor_zero.symm
  | succ rounds ih =>
      unfold gfMulLoop
      split
      case isTrue hne =>
        rw [ih, doublings_succ]
        split
        · rw [UInt16.toUInt8_xor, UInt8.toUInt8_toUInt16, UInt8.xor_assoc]
        · rw [UInt8.zero_xor]
      case isFalse hzero =>
        by_cases ha : a = 0
        · rw [ha, doublings_zero_left, UInt8.xor_zero]
        · have hb : b = 0 := not_not.mp fun hb => hzero ⟨ha, hb⟩
          rw [hb, doublings_zero_right, UInt8.xor_zero]

theorem gfMul_eq (a b : UInt8) : gfMul a b = doublings 8 a b := by
  unfold gfMul
  rw [gfMulLoop_eq]
  exact UInt8.zero_xor

theorem doublings_xor_left (rounds : ℕ) (a a' b : UInt8) :
    doublings rounds (a ^^^ a') b = doublings rounds a b ^^^ doublings rounds a' b := by
  induction rounds generalizing a a' b with
  | zero => exact UInt8.xor_self.symm
  | succ rounds ih =>
      rw [doublings_succ, doublings_succ, doublings_succ, gfDouble_xor, ih, xor_xor_xor_comm]
      congr 1
      split
      · rfl
      · rfl

theorem doublings_xor_right (rounds : ℕ) (a b b' : UInt8) :
    doublings rounds a (b ^^^ b') = doublings rounds a b ^^^ doublings rounds a b' := by
  induction rounds generalizing a b b' with
  | zero => exact UInt8.xor_self.symm
  | succ rounds ih =>
      have hmem : (1 : UInt8) ∈ bits := by decide
      rw [doublings_succ, doublings_succ, doublings_succ, UInt8.shiftRight_xor, ih, xor_and,
        xor_xor_xor_comm]
      congr 1
      rcases and_bit b _ hmem with hb | hb
      · rcases and_bit b' _ hmem with hb' | hb'
        · simp [hb, hb']
        · simp [hb, hb']
      · rcases and_bit b' _ hmem with hb' | hb'
        · simp [hb, hb']
        · simp [hb, hb']

theorem doublings_double_left (rounds : ℕ) (a b : UInt8) :
    doublings rounds (gfDouble a) b = gfDouble (doublings rounds a b) := by
  induction rounds generalizing a b with
  | zero => exact gfDouble_zero.symm
  | succ rounds ih =>
      rw [doublings_succ, doublings_succ, gfDouble_xor, ih]
      congr 1
      split
      · rfl
      · rfl

theorem gfMul_xor_left (a a' b : UInt8) : gfMul (a ^^^ a') b = gfMul a b ^^^ gfMul a' b := by
  rw [gfMul_eq, gfMul_eq, gfMul_eq, doublings_xor_left]

theorem gfMul_xor_right (a b b' : UInt8) : gfMul a (b ^^^ b') = gfMul a b ^^^ gfMul a b' := by
  rw [gfMul_eq, gfMul_eq, gfMul_eq, doublings_xor_right]

theorem gfMul_double_left (a b : UInt8) : gfMul (gfDouble a) b = gfDouble (gfMul a b) := by
  rw [gfMul_eq, gfMul_eq, doublings_double_left]

theorem gfMul_one_left : ∀ b : UInt8, gfMul 1 b = b := byte_forall (by decide +kernel)

theorem gfMul_one_right (a : UInt8) : gfMul a 1 = a := by
  have hhalf : (1 : UInt8) >>> 1 = 0 := rfl
  rw [gfMul_eq, doublings_succ, hhalf, doublings_zero_right, if_pos (by decide), UInt8.xor_zero]

theorem gfMul_double_right (a b : UInt8) : gfMul a (gfDouble b) = gfDouble (gfMul a b) := by
  induction a using byte_induction with
  | one => rw [gfMul_one_left, gfMul_one_left]
  | double a ih => rw [gfMul_double_left, gfMul_double_left, ih]
  | add a a' ih ih' => rw [gfMul_xor_left, gfMul_xor_left, gfDouble_xor, ih, ih']

theorem gfMul_comm (a b : UInt8) : gfMul a b = gfMul b a := by
  induction a using byte_induction with
  | one => rw [gfMul_one_left, gfMul_one_right]
  | double a ih => rw [gfMul_double_left, gfMul_double_right, ih]
  | add a a' ih ih' => rw [gfMul_xor_left, gfMul_xor_right, ih, ih']

theorem gfMul_assoc (a b c : UInt8) : gfMul (gfMul a b) c = gfMul a (gfMul b c) := by
  induction a using byte_induction with
  | one => rw [gfMul_one_left, gfMul_one_left]
  | double a ih => rw [gfMul_double_left, gfMul_double_left, gfMul_double_left, ih]
  | add a a' ih ih' => rw [gfMul_xor_left, gfMul_xor_left, gfMul_xor_left, ih, ih']

/-! ## The field -/

/-- A byte as an element of the field. -/
@[ext] structure GF256 where
  byte : UInt8
  deriving DecidableEq, Repr

namespace GF256

instance : Zero GF256 := ⟨⟨0⟩⟩

instance : One GF256 := ⟨⟨1⟩⟩

instance : Add GF256 := ⟨fun a b => ⟨gfAdd a.byte b.byte⟩⟩

instance : Mul GF256 := ⟨fun a b => ⟨gfMul a.byte b.byte⟩⟩

instance : Neg GF256 := ⟨fun a => a⟩

instance : Inv GF256 := ⟨fun a => ⟨gfInv a.byte⟩⟩

@[simp] theorem mk_add (a b : UInt8) : (⟨gfAdd a b⟩ : GF256) = ⟨a⟩ + ⟨b⟩ := rfl

@[simp] theorem mk_mul (a b : UInt8) : (⟨gfMul a b⟩ : GF256) = ⟨a⟩ * ⟨b⟩ := rfl

@[simp] theorem mk_inv (a : UInt8) : (⟨gfInv a⟩ : GF256) = (⟨a⟩ : GF256)⁻¹ := rfl

instance : CommRing GF256 where
  add_assoc a b c := GF256.ext (UInt8.xor_assoc _ _ _)
  zero_add a := GF256.ext UInt8.zero_xor
  add_zero a := GF256.ext UInt8.xor_zero
  add_comm a b := GF256.ext (UInt8.xor_comm _ _)
  neg_add_cancel a := GF256.ext UInt8.xor_self
  mul_assoc a b c := GF256.ext (gfMul_assoc _ _ _)
  one_mul a := GF256.ext (gfMul_one_left _)
  mul_one a := GF256.ext (gfMul_one_right _)
  mul_comm a b := GF256.ext (gfMul_comm _ _)
  left_distrib a b c := GF256.ext (gfMul_xor_right _ _ _)
  right_distrib a b c := GF256.ext (gfMul_xor_left _ _ _)
  zero_mul a := GF256.ext (by
    show gfMul 0 a.byte = 0
    rw [gfMul_eq, doublings_zero_left])
  mul_zero a := GF256.ext (by
    show gfMul a.byte 0 = 0
    rw [gfMul_eq, doublings_zero_right])
  nsmul := nsmulRec
  zsmul := zsmulRec

theorem add_self (a : GF256) : a + a = 0 := GF256.ext UInt8.xor_self

/-! ### Powers -/

theorem add_pow_two_pow (a b : GF256) (k : ℕ) : (a + b) ^ 2 ^ k = a ^ 2 ^ k + b ^ 2 ^ k := by
  induction k with
  | zero => simp
  | succ k ih =>
      rw [Nat.pow_succ, pow_mul, pow_mul, pow_mul, ih]
      have hcross := add_self (a ^ 2 ^ k * b ^ 2 ^ k)
      linear_combination hcross

/-- Doubling is multiplication by the byte 2. -/
theorem mk_double (a : UInt8) : (⟨gfDouble a⟩ : GF256) = ⟨2⟩ * ⟨a⟩ := by
  have htwo : gfDouble 1 = 2 := by decide
  have h := gfMul_double_left 1 a
  rw [gfMul_one_left, htwo] at h
  rw [← h]
  rfl

theorem pow_card (a : GF256) : a ^ 2 ^ 8 = a := by
  obtain ⟨a⟩ := a
  induction a using byte_induction with
  | one => exact one_pow _
  | double a ih =>
      have htwo : (⟨2⟩ : GF256) ^ 2 ^ 8 = ⟨2⟩ := by decide +kernel
      rw [mk_double, mul_pow, ih, htwo]
  | add a b ih ih' =>
      show (⟨a⟩ + ⟨b⟩ : GF256) ^ 2 ^ 8 = ⟨a⟩ + ⟨b⟩
      rw [add_pow_two_pow, ih, ih']

theorem eq_zero_or_one_of_sq {a : GF256} (h : a * a = a) : a = 0 ∨ a = 1 := by
  have hbytes : ∀ b : UInt8, gfMul b b = b → b = 0 ∨ b = 1 := byte_forall (by decide +kernel)
  rcases hbytes a.byte (congrArg byte h) with hzero | hone
  · exact .inl (GF256.ext hzero)
  · exact .inr (GF256.ext hone)

/-- The order of every non-zero element divides 255. -/
theorem pow_255 {a : GF256} (ha : a ≠ 0) : a ^ 255 = 1 := by
  have hcard := pow_card a
  have hidempotent : a ^ 255 * a ^ 255 = a ^ 255 := by
    have hexp : 255 + 255 = 2 ^ 8 + 254 := by decide
    calc a ^ 255 * a ^ 255 = a ^ (255 + 255) := (pow_add a 255 255).symm
      _ = a ^ (2 ^ 8 + 254) := by rw [hexp]
      _ = a ^ 2 ^ 8 * a ^ 254 := pow_add a (2 ^ 8) 254
      _ = a * a ^ 254 := by rw [hcard]
      _ = a ^ 255 := (pow_succ' a 254).symm
  rcases eq_zero_or_one_of_sq hidempotent with hzero | hone
  · exfalso
    refine ha ?_
    calc a = a ^ 2 ^ 8 := hcard.symm
      _ = a ^ 255 * a := pow_succ a 255
      _ = 0 := by rw [hzero, zero_mul]
  · exact hone

theorem and_one_iff (b : UInt8) : b &&& 1 = 1 ↔ b.toNat % 2 = 1 := by
  rw [← UInt8.toNat_inj, UInt8.toNat_and, ← Nat.and_one_is_mod]
  rfl

/-- The loop of `gf_inv` multiplies its result by a power of its base. -/
theorem gfInvLoop_eq {rounds : ℕ} {result base exp : UInt8} (h : exp.toNat < 2 ^ rounds) :
    (⟨gfInvLoop rounds result base exp⟩ : GF256) = ⟨result⟩ * ⟨base⟩ ^ exp.toNat := by
  induction rounds generalizing result base exp with
  | zero =>
      rw [eq_zero_of_toNat_lt_one h]
      show (⟨result⟩ : GF256) = ⟨result⟩ * ⟨base⟩ ^ 0
      rw [pow_zero, mul_one]
  | succ rounds ih =>
      have hhalf : (exp >>> 1).toNat < 2 ^ rounds := by
        rw [toNat_shiftRight_one]
        rw [Nat.pow_succ] at h
        omega
      have hsquare : (⟨gfMul base base⟩ : GF256) ^ (exp.toNat / 2) =
          ⟨base⟩ ^ (2 * (exp.toNat / 2)) := by rw [mk_mul, pow_mul, sq]
      have hsplit := Nat.div_add_mod exp.toNat 2
      unfold gfInvLoop
      split
      case isTrue _ =>
        rw [ih hhalf, toNat_shiftRight_one, hsquare]
        split
        case isTrue hodd =>
          rw [(and_one_iff exp).mp hodd] at hsplit
          rw [mk_mul, mul_assoc, ← pow_succ', hsplit]
        case isFalse heven =>
          have hmod : exp.toNat % 2 = 0 := by
            have hne := mt (and_one_iff exp).mpr heven
            omega
          rw [hmod, Nat.add_zero] at hsplit
          rw [hsplit]
      case isFalse hexp =>
        have hzero : exp = 0 := by
          refine UInt8.toNat_inj.mp ?_
          have hle := mt UInt8.lt_iff_toNat_lt.mpr hexp
          simpa using hle
        rw [hzero]
        show (⟨result⟩ : GF256) = ⟨result⟩ * ⟨base⟩ ^ 0
        rw [pow_zero, mul_one]

theorem inv_eq_pow {a : GF256} (ha : a ≠ 0) : a⁻¹ = a ^ 254 := by
  have hbyte : a.byte ≠ 0 := fun h => ha (GF256.ext h)
  show (⟨gfInv a.byte⟩ : GF256) = a ^ 254
  unfold gfInv
  rw [if_neg hbyte, gfInvLoop_eq (by decide)]
  exact one_mul _

instance : Field GF256 where
  exists_pair_ne := ⟨0, 1, by decide⟩
  mul_inv_cancel a ha := by
    rw [inv_eq_pow ha, ← pow_succ']
    exact pow_255 ha
  inv_zero := rfl
  nnqsmul := _
  qsmul := _

/-- Subtraction is addition. -/
theorem sub_eq_add (a b : GF256) : a - b = a + b := by
  rw [sub_eq_add_neg]
  rfl

end GF256

end ArkheForge.Platform
