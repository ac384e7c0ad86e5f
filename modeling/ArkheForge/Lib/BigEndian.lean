/-
  Fixed-width big-endian natural numbers over bytes.

  `toBe w n` writes the low `8 * w` bits of `n` as `w` bytes, most significant
  first; `fromBe` reads any byte list back. They are inverse to each other on
  `n < 256 ^ w` and on the lists of length `w`, so a fixed-width field is an
  injective encoding and can be cut off the front of a longer byte list.
-/
import Mathlib.Data.List.Induction
import Mathlib.Tactic.Ring

namespace BigEndian

/-- A byte string. -/
abbrev Bytes := List UInt8

/-- `n` as `w` bytes, most significant first. -/
def toBe : ℕ → ℕ → Bytes
  | 0, _ => []
  | w + 1, n => toBe w (n / 256) ++ [UInt8.ofNat n]

/-- The number a byte list spells, most significant byte first. -/
def fromBe (bs : Bytes) : ℕ := bs.foldl (fun acc b => acc * 256 + b.toNat) 0

@[simp] theorem toBe_length (w n : ℕ) : (toBe w n).length = w := by
  induction w generalizing n with
  | zero => rfl
  | succ w ih => simp [toBe, ih]

@[simp] theorem fromBe_nil : fromBe [] = 0 := rfl

@[simp] theorem fromBe_concat (bs : Bytes) (b : UInt8) :
    fromBe (bs ++ [b]) = fromBe bs * 256 + b.toNat := by
  simp [fromBe]

/-! ## The two directions are inverse -/

theorem fromBe_toBe {w n : ℕ} (h : n < 256 ^ w) : fromBe (toBe w n) = n := by
  induction w generalizing n with
  | zero =>
      have : n = 0 := by simpa using h
      simp [toBe, this]
  | succ w ih =>
      have hdiv : n / 256 < 256 ^ w := by
        rw [Nat.pow_succ] at h
        exact Nat.div_lt_of_lt_mul (by rwa [Nat.mul_comm])
      rw [toBe, fromBe_concat, ih hdiv, UInt8.toNat_ofNat']
      omega

theorem toBe_fromBe (bs : Bytes) : toBe bs.length (fromBe bs) = bs := by
  induction bs using List.reverseRecOn with
  | nil => rfl
  | append_singleton bs b ih =>
      have hb : b.toNat < 256 := b.toNat_lt
      have hdiv : (fromBe bs * 256 + b.toNat) / 256 = fromBe bs := by omega
      have hlow : UInt8.ofNat (fromBe bs * 256 + b.toNat) = b := by
        apply UInt8.toNat_inj.mp
        rw [UInt8.toNat_ofNat']
        omega
      simp only [List.length_append, List.length_singleton, toBe, fromBe_concat, hdiv, hlow, ih]

theorem toBe_fromBe_of_length {w : ℕ} {bs : Bytes} (h : bs.length = w) :
    toBe w (fromBe bs) = bs := by
  subst h
  exact toBe_fromBe bs

theorem toBe_injective {w m n : ℕ} (hm : m < 256 ^ w) (hn : n < 256 ^ w)
    (h : toBe w m = toBe w n) : m = n := by
  rw [← fromBe_toBe hm, ← fromBe_toBe hn, h]

/-- Two byte strings that begin with fields of one width agree exactly when the
    fields and the rests do. -/
theorem toBe_append_inj {w m n : ℕ} {s t : Bytes} (hm : m < 256 ^ w) (hn : n < 256 ^ w) :
    toBe w m ++ s = toBe w n ++ t ↔ m = n ∧ s = t := by
  refine ⟨fun h => ?_, fun ⟨h₁, h₂⟩ => by rw [h₁, h₂]⟩
  obtain ⟨hfield, hrest⟩ := List.append_inj h (by simp)
  exact ⟨toBe_injective hm hn hfield, hrest⟩

/-- A fixed-width array in front of a byte string ends where its width says. -/
theorem toList_append_inj {n : ℕ} {v v' : Vector UInt8 n} {s t : Bytes} :
    v.toList ++ s = v'.toList ++ t ↔ v = v' ∧ s = t := by
  constructor
  · intro h
    obtain ⟨hv, hst⟩ := List.append_inj h (by simp)
    exact ⟨Vector.toList_inj.mp hv, hst⟩
  · intro h
    rw [h.1, h.2]

end BigEndian
