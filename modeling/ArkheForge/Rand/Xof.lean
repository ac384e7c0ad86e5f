/-
  The stream of a seed, by BLAKE3.

  Deriving a key from a seed hashes a context of 17 bytes and a material of 32: each fits
  one block, so every block of the output is one compression. The first bytes of a stream
  can then be computed (`take_streamOf`).
-/
import ArkheForge.Core.Blake3
import ArkheForge.Rand.Range

namespace ArkheForge.Rand

open ArkheForge.Core BigEndian Rejection

/-- The key of a context. -/
def contextKey (context : String) : List ℕ :=
  OneBlock.toWords 8 (OneBlock.hash OneBlock.iv 32 context.toUTF8.data.toList)

/-- A byte of the output for a material of one block. -/
def outputByte (key : List ℕ) (material : Bytes) (i : ℕ) : UInt8 :=
  (OneBlock.output key 64 material (i / xofBlockLen)).getD (i % xofBlockLen) 0

/-- `blake3`: the output of a key derived from material of one block. -/
abbrev oneBlockXof : DeriveKeyXof where
  deriveKeyXof context material := outputByte (contextKey context) material

/-- The first blocks of the stream of a seed. -/
def firstBlocks (seed : Seed) (count : ℕ) : Bytes :=
  (List.range count).flatMap (OneBlock.output (contextKey kdfContext) 64 seed.toList)

theorem length_block (seed : Seed) (counter : ℕ) :
    (OneBlock.output (contextKey kdfContext) 64 seed.toList counter).length = xofBlockLen :=
  OneBlock.length_output (OneBlock.length_toWords 8 _) 64 seed.toList counter

section

attribute [local instance] oneBlockXof

attribute [local irreducible] OneBlock.output

theorem get_streamOf (seed : Seed) (i : ℕ) :
    (RngSource.streamOf seed).get i = outputByte (contextKey kdfContext) seed.toList i := rfl

/-- A block of the stream. -/
theorem take_drop_streamOf (seed : Seed) (counter : ℕ) :
    ((RngSource.streamOf seed).drop (counter * xofBlockLen)).take xofBlockLen =
      OneBlock.output (contextKey kdfContext) 64 seed.toList counter := by
  have hlength := length_block seed counter
  refine List.ext_getElem ((Stream'.length_take _ _).trans hlength.symm) fun i hi hi' => ?_
  have hlt : i < xofBlockLen := hlength ▸ hi'
  have hblock : (counter * xofBlockLen + i) / xofBlockLen = counter := by
    unfold xofBlockLen at hlt ⊢
    omega
  have hbyte : (counter * xofBlockLen + i) % xofBlockLen = i := by
    unfold xofBlockLen at hlt ⊢
    omega
  apply Option.some.inj
  rw [← List.getElem?_eq_getElem, Stream'.getElem?_take hlt, Stream'.get_drop, get_streamOf,
    outputByte, hblock, hbyte, List.getD_eq_getElem?_getD, List.getElem?_eq_getElem hi',
    Option.getD_some]

theorem take_streamOf_blocks (seed : Seed) (count : ℕ) :
    (RngSource.streamOf seed).take (count * xofBlockLen) = firstBlocks seed count := by
  induction count with
  | zero => rfl
  | succ count ih =>
      unfold firstBlocks at ih ⊢
      rw [Nat.succ_mul, Stream'.take_add, ih, take_drop_streamOf, List.range_succ,
        List.flatMap_append]
      simp

/-- The first bytes of the stream of a seed are those of its first blocks. -/
theorem take_streamOf (seed : Seed) {count n : ℕ} (hn : n ≤ count * xofBlockLen) :
    (RngSource.streamOf seed).take n = (firstBlocks seed count).take n := by
  rw [← take_streamOf_blocks, Stream'.take_take, Nat.min_eq_right hn]

/-- The first words of a fresh source are read off the first blocks. -/
theorem wordAt_fromSeed (W k : ℕ) (seed : Seed) {count : ℕ}
    (hk : (k + 1) * (W / 8) ≤ count * xofBlockLen) :
    wordAt (nextWord W) k (RngSource.fromSeed seed) =
      BitVec.ofNat W (fromLe (((firstBlocks seed count).drop (k * (W / 8))).take (W / 8))) := by
  have hsum : k * (W / 8) + W / 8 = (k + 1) * (W / 8) := (Nat.succ_mul k (W / 8)).symm
  have htaken := take_streamOf seed (hsum.trans_le hk)
  rw [Stream'.take_add] at htaken
  have hword := congrArg (List.drop (k * (W / 8))) htaken
  rw [List.drop_left' (Stream'.length_take _ _), List.drop_take, Nat.add_sub_cancel_left] at hword
  rw [wordAt_nextWord, RngSource.fromSeed_unread, hword]

end

end ArkheForge.Rand
