/-
  What `t - 1` shares say about a secret: nothing.

  Fix the indices and the bytes of `t - 1` shares and any candidate secret. The random
  buffer is read in slices, one for each byte of the secret, and each slice is
  determined by the byte and its shares (`existsUnique_slice`), so exactly one buffer
  makes `split_secret` emit those shares (`existsUnique_buffer`).
-/
import ArkheForge.Platform.Hf2Kms.Threshold
import Mathlib.Data.Set.Card

namespace ArkheForge.Platform

open BigEndian

/-- The first byte takes the first slice of the buffer. -/
theorem shareBytes_cons (secretByte : UInt8) (secret : Bytes) (t : ℕ) (randomCoeffs : Bytes)
    (shareIdx : UInt8) :
    shareBytes (secretByte :: secret) t randomCoeffs shareIdx =
      gfPolyEvalWithConst secretByte (randomCoeffs.take (t - 1)) shareIdx ::
        shareBytes secret t (randomCoeffs.drop (t - 1)) shareIdx := by
  refine List.ext_getElem (by simp [shareBytes]) ?_
  intro i hi hi'
  cases i with
  | zero => simp [shareBytes]
  | succ i =>
      have hoffset : (t - 1) + i * (t - 1) = (i + 1) * (t - 1) := by rw [Nat.succ_mul, Nat.add_comm]
      simp [shareBytes, List.drop_drop, hoffset, Nat.add_comm 1 i]

/-- One slice of the buffer fits one byte of the secret and its shares. -/
theorem existsUnique_slice {points : Finset UInt8} (hne : ∀ i ∈ points, i ≠ 0)
    (secretByte : UInt8) (values : UInt8 → UInt8) :
    ∃! coeffs : Bytes, coeffs.length = points.card ∧
      ∀ i ∈ points, gfPolyEvalWithConst secretByte coeffs i = values i := by
  have hinj : Set.InjOn GF256.mk (points : Set UInt8) := fun _ _ _ _ h => congrArg GF256.byte h
  have hne' : ∀ i ∈ points, (⟨i⟩ : GF256) ≠ 0 := by
    intro i hi hzero
    exact hne i hi (congrArg GF256.byte hzero)
  have hfield := Shamir.existsUnique_coeffs hinj hne' ⟨secretByte⟩ fun i => ⟨values i⟩
  obtain ⟨cs, ⟨hlength, hvalues⟩, hunique⟩ := hfield
  have hmk : (cs.map GF256.byte).map GF256.mk = cs := by
    rw [List.map_map]
    exact List.map_id cs
  refine ⟨cs.map GF256.byte, ⟨by rw [List.length_map, hlength], ?_⟩, ?_⟩
  · intro i hi
    refine congrArg GF256.byte (?_ : (⟨gfPolyEvalWithConst _ _ _⟩ : GF256) = ⟨values i⟩)
    rw [gfPolyEvalWithConst_eq, hmk]
    exact hvalues i hi
  · intro other hother
    have hsame := hunique (other.map GF256.mk) ⟨by rw [List.length_map, hother.1], by
      intro i hi
      rw [← gfPolyEvalWithConst_eq, hother.2 i hi]⟩
    rw [← hsame, List.map_map]
    exact (List.map_id other).symm

/-- One buffer fits a secret and its shares. -/
theorem existsUnique_buffer {points : Finset UInt8} (hne : ∀ i ∈ points, i ≠ 0) {t : ℕ}
    (hcard : points.card = t - 1) (secret : Bytes) {assigned : UInt8 → Bytes}
    (hassigned : ∀ i ∈ points, (assigned i).length = secret.length) :
    ∃! coeffs : Bytes, coeffs.length = secret.length * (t - 1) ∧
      ∀ i ∈ points, shareBytes secret t coeffs i = assigned i := by
  induction secret generalizing assigned with
  | nil =>
      refine ⟨[], ⟨by simp, ?_⟩, ?_⟩
      · intro i hi
        exact (List.length_eq_zero_iff.mp (hassigned i hi)).symm
      · intro other hother
        refine List.length_eq_zero_iff.mp ?_
        rw [hother.1, List.length_nil, Nat.zero_mul]
  | cons secretByte secret ih =>
      obtain ⟨slice, ⟨hslice, hheads⟩, huniqueHead⟩ :=
        existsUnique_slice hne secretByte fun i => (assigned i).headD 0
      have htails : ∀ i ∈ points, (assigned i).tail.length = secret.length := by
        intro i hi
        rw [List.length_tail, hassigned i hi, List.length_cons, Nat.add_sub_cancel]
      obtain ⟨rest, ⟨hrest, htail⟩, huniqueTail⟩ := ih htails
      have hcons : ∀ i ∈ points, assigned i = (assigned i).headD 0 :: (assigned i).tail := by
        intro i hi
        have hlength := hassigned i hi
        cases hshare : assigned i with
        | nil =>
            rw [hshare] at hlength
            simp at hlength
        | cons b bs => rfl
      rw [hcard] at hslice huniqueHead
      refine ⟨slice ++ rest, ⟨?_, ?_⟩, ?_⟩
      · rw [List.length_append, hslice, hrest, List.length_cons, Nat.succ_mul, Nat.add_comm]
      · intro i hi
        rw [shareBytes_cons, List.take_left' hslice, List.drop_left' hslice, hheads i hi,
          htail i hi]
        exact (hcons i hi).symm
      · intro other hother
        obtain ⟨hlength, hshares⟩ := hother
        rw [List.length_cons, Nat.succ_mul] at hlength
        have hboth : ∀ i ∈ points,
            gfPolyEvalWithConst secretByte (other.take (t - 1)) i = (assigned i).headD 0 ∧
              shareBytes secret t (other.drop (t - 1)) i = (assigned i).tail := by
          intro i hi
          have hshare := hshares i hi
          rw [shareBytes_cons, hcons i hi] at hshare
          exact List.cons.inj hshare
        have htake := huniqueHead (other.take (t - 1)) ⟨by rw [List.length_take]; omega,
          fun i hi => (hboth i hi).1⟩
        have hdrop := huniqueTail (other.drop (t - 1)) ⟨by rw [List.length_drop]; omega,
          fun i hi => (hboth i hi).2⟩
        rw [← List.take_append_drop (t - 1) other, htake, hdrop]

/-- The buffer makes `split_secret` emit the assigned shares for the secret. -/
def Consistent (config : ThresholdConfig) (points : Finset UInt8) (assigned : UInt8 → Bytes)
    (secret randomCoeffs : Bytes) : Prop :=
  randomCoeffs.length = secret.length * (config.t.toNat - 1) ∧
    ∃ shares, splitSecret (fun _ => .ok randomCoeffs) secret config = .ok shares ∧
      ∀ i ∈ points, ⟨i, assigned i⟩ ∈ shares

theorem consistent_iff {config : ThresholdConfig} (hvalid : config.isValid = true)
    {points : Finset UInt8} (hpoints : ∀ i ∈ points, 1 ≤ i.toNat ∧ i.toNat ≤ config.n.toNat)
    {assigned : UInt8 → Bytes} {secret randomCoeffs : Bytes} :
    Consistent config points assigned secret randomCoeffs ↔
      randomCoeffs.length = secret.length * (config.t.toNat - 1) ∧
        ∀ i ∈ points, shareBytes secret config.t.toNat randomCoeffs i = assigned i := by
  have hsplit : splitSecret (fun _ => .ok randomCoeffs) secret config =
      .ok (emitShares secret config randomCoeffs) := splitSecret_ok hvalid fun _ => rfl
  unfold Consistent
  rw [hsplit]
  refine and_congr_right fun _ => ?_
  constructor
  · intro h i hi
    obtain ⟨shares, hshares, hmem⟩ := h
    obtain rfl := Except.ok.inj hshares
    exact (mem_emitShares.mp (hmem i hi)).2.2.symm
  · intro h
    refine ⟨_, rfl, ?_⟩
    intro i hi
    exact mem_emitShares.mpr ⟨(hpoints i hi).1, (hpoints i hi).2, (h i hi).symm⟩

/-- For `t - 1` shares and every secret of their length there is exactly one buffer that
    emits them, so any two secrets have equally many. -/
theorem threshold_secrecy {config : ThresholdConfig} (hvalid : config.isValid = true)
    {points : Finset UInt8} (hcard : points.card = config.t.toNat - 1)
    (hpoints : ∀ i ∈ points, 1 ≤ i.toNat ∧ i.toNat ≤ config.n.toNat) {len : ℕ}
    {assigned : UInt8 → Bytes} (hassigned : ∀ i ∈ points, (assigned i).length = len) :
    (∀ secret : Bytes, secret.length = len →
      ∃! randomCoeffs, Consistent config points assigned secret randomCoeffs) ∧
      ∀ secret secret' : Bytes, secret.length = len → secret'.length = len →
        {randomCoeffs | Consistent config points assigned secret randomCoeffs}.ncard =
          {randomCoeffs | Consistent config points assigned secret' randomCoeffs}.ncard := by
  have hne : ∀ i ∈ points, i ≠ 0 := by
    intro i hi hzero
    have hpos := (hpoints i hi).1
    rw [hzero] at hpos
    exact absurd hpos (by decide)
  have hone : ∀ secret : Bytes, secret.length = len →
      ∃! randomCoeffs, Consistent config points assigned secret randomCoeffs := by
    intro secret hlen
    have hlengths : ∀ i ∈ points, (assigned i).length = secret.length := by
      intro i hi
      rw [hassigned i hi, hlen]
    simp only [consistent_iff hvalid hpoints]
    exact existsUnique_buffer hne hcard secret hlengths
  have hncard : ∀ secret : Bytes, secret.length = len →
      {randomCoeffs | Consistent config points assigned secret randomCoeffs}.ncard = 1 := by
    intro secret hlen
    obtain ⟨randomCoeffs, hconsistent, hunique⟩ := hone secret hlen
    refine Set.ncard_eq_one.mpr ⟨randomCoeffs, Set.eq_singleton_iff_unique_mem.mpr ?_⟩
    exact ⟨hconsistent, hunique⟩
  refine ⟨hone, ?_⟩
  intro secret secret' hlen hlen'
  rw [hncard secret hlen, hncard secret' hlen']

/-- Shares 2 and 5 of a split in which three of five are needed fit any two bytes. -/
theorem threshold_secrecy_three_of_five :
    ∃! randomCoeffs, Consistent threeOfFive {2, 5} (fun i => [i, 0x77]) [0x2A, 0xC7]
      randomCoeffs := by
  have hcard : ({2, 5} : Finset UInt8).card = threeOfFive.t.toNat - 1 := by decide
  have hpoints : ∀ i ∈ ({2, 5} : Finset UInt8),
      1 ≤ i.toNat ∧ i.toNat ≤ threeOfFive.n.toNat := by
    intro i hi
    obtain rfl | rfl : i = 2 ∨ i = 5 := by simpa using hi
    · exact ⟨by decide, by decide⟩
    · exact ⟨by decide, by decide⟩
  have hassigned : ∀ i ∈ ({2, 5} : Finset UInt8), (([i, 0x77] : Bytes)).length = 2 :=
    fun _ _ => rfl
  exact (threshold_secrecy (by decide) hcard hpoints hassigned).1 [0x2A, 0xC7] rfl

end ArkheForge.Platform
