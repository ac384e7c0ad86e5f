/-
  BLAKE3 on inputs of one block, and of one chunk.

  Deriving an entity id hashes a 21-byte context, a 32-byte seed and a 28-byte
  preimage: each fits one 64-byte block, so each hash is a single compression. A
  journal entry hashes 80 bytes, two blocks of one chunk. Words are `ℕ` below
  `2 ^ 32`. An input longer than a chunk is outside these definitions.
-/
import ArkheForge.Core.Primitives

namespace ArkheForge.Core

open BigEndian

namespace OneBlock

/-! ## The compression function -/

def iv : List ℕ :=
  [0x6A09E667, 0xBB67AE85, 0x3C6EF372, 0xA54FF53A, 0x510E527F, 0x9B05688C, 0x1F83D9AB, 0x5BE0CD19]

def permutation : List ℕ := [2, 6, 3, 10, 7, 0, 4, 13, 1, 11, 12, 5, 9, 14, 15, 8]

def add32 (a b : ℕ) : ℕ := (a + b) % 2 ^ 32

def rotr (x n : ℕ) : ℕ := x / 2 ^ n + x % 2 ^ n * 2 ^ (32 - n)

/-- The quarter round on the words `a b c d` of the state. -/
def quarter (a b c d : ℕ) (v : List ℕ) (x y : ℕ) : List ℕ :=
  let a₁ := add32 (add32 (v.getD a 0) (v.getD b 0)) x
  let d₁ := rotr (v.getD d 0 ^^^ a₁) 16
  let c₁ := add32 (v.getD c 0) d₁
  let b₁ := rotr (v.getD b 0 ^^^ c₁) 12
  let a₂ := add32 (add32 a₁ b₁) y
  let d₂ := rotr (d₁ ^^^ a₂) 8
  let c₂ := add32 c₁ d₂
  let b₂ := rotr (b₁ ^^^ c₂) 7
  (((v.set a a₂).set b b₂).set c c₂).set d d₂

/-- Columns, then diagonals. -/
def round (v m : List ℕ) : List ℕ :=
  [(0, 4, 8, 12), (1, 5, 9, 13), (2, 6, 10, 14), (3, 7, 11, 15),
    (0, 5, 10, 15), (1, 6, 11, 12), (2, 7, 8, 13), (3, 4, 9, 14)].zipIdx.foldl
    (fun v (q, i) =>
      quarter q.1 q.2.1 q.2.2.1 q.2.2.2 v (m.getD (2 * i) 0) (m.getD (2 * i + 1) 0)) v

/-- `n` rounds, the message words permuted after each. -/
def rounds : ℕ → List ℕ → List ℕ → List ℕ
  | 0, v, _ => v
  | n + 1, v, m => rounds n (round v m) (permutation.map fun i => m.getD i 0)

/-- The little-endian words of a byte string, `n` of them. -/
def toWords : ℕ → Bytes → List ℕ
  | 0, _ => []
  | n + 1, bs =>
    ((bs.getD 0 0).toNat + (bs.getD 1 0).toNat * 2 ^ 8 + (bs.getD 2 0).toNat * 2 ^ 16 +
      (bs.getD 3 0).toNat * 2 ^ 24) :: toWords n (bs.drop 4)

/-- The four little-endian bytes of a word. -/
def ofWord (w : ℕ) : Bytes :=
  [UInt8.ofNat w, UInt8.ofNat (w / 2 ^ 8), UInt8.ofNat (w / 2 ^ 16), UInt8.ofNat (w / 2 ^ 24)]

/-- The hash of a one-block input: the only block is the first, the last and the root. -/
def hash (key : List ℕ) (flags : ℕ) (input : Bytes) : Bytes :=
  let v := rounds 7 (key ++ iv.take 4 ++ [0, 0, input.length, flags + 11]) (toWords 16 input)
  (List.zipWith (· ^^^ ·) (v.take 8) (v.drop 8)).flatMap ofWord

/-- One block of the extended output of a one-block input. -/
def output (key : List ℕ) (flags : ℕ) (input : Bytes) (counter : ℕ) : Bytes :=
  let v := rounds 7 (key ++ iv.take 4 ++
    [counter % 2 ^ 32, counter / 2 ^ 32 % 2 ^ 32, input.length, flags + 11]) (toWords 16 input)
  (List.zipWith (· ^^^ ·) (v.take 8) (v.drop 8) ++ List.zipWith (· ^^^ ·) (v.drop 8) key).flatMap
    ofWord

theorem length_quarter (a b c d : ℕ) (v : List ℕ) (x y : ℕ) :
    (quarter a b c d v x y).length = v.length := by
  simp [quarter]

theorem length_round (v m : List ℕ) : (round v m).length = v.length := by
  simp [round, length_quarter]

theorem length_rounds (n : ℕ) (v m : List ℕ) : (rounds n v m).length = v.length := by
  induction n generalizing v m with
  | zero => rfl
  | succ n ih => exact (ih _ _).trans (length_round v m)

theorem length_toWords (n : ℕ) (bs : Bytes) : (toWords n bs).length = n := by
  induction n generalizing bs with
  | zero => rfl
  | succ n ih => exact congrArg Nat.succ (ih _)

theorem length_flatMap_ofWord (words : List ℕ) :
    (words.flatMap ofWord).length = 4 * words.length := by
  induction words with
  | nil => rfl
  | cons w words ih =>
      rw [List.flatMap_cons, List.length_append, ih, List.length_cons]
      show 4 + _ = _
      omega

/-- A block of output has 64 bytes. -/
theorem length_output {key : List ℕ} (hkey : key.length = 8) (flags : ℕ) (input : Bytes)
    (counter : ℕ) : (output key flags input counter).length = 64 := by
  unfold output
  rw [length_flatMap_ofWord]
  simp [length_rounds, hkey, iv]

end OneBlock

/-- `blake3`: flags 16, 32 and 64 are keyed hashing, a key context and key material. -/
abbrev oneBlockBlake3 : Blake3 where
  deriveKey context material :=
    OneBlock.hash (OneBlock.toWords 8 (OneBlock.hash OneBlock.iv 32 context.toUTF8.data.toList))
      64 material
  keyedHash key input := OneBlock.hash (OneBlock.toWords 8 key) 16 input

namespace OneChunk

/-- One compression, to a chaining value. -/
def compress (cv : List ℕ) (flags : ℕ) (block : Bytes) : List ℕ :=
  let v := OneBlock.rounds 7 (cv ++ OneBlock.iv.take 4 ++ [0, 0, block.length, flags])
    (OneBlock.toWords 16 block)
  List.zipWith (· ^^^ ·) (v.take 8) (v.drop 8)

/-- The blocks of an input that fits `n + 1` of them. -/
def blocks : ℕ → Bytes → List Bytes
  | 0, input => [input]
  | n + 1, input => if input.length ≤ 64 then [input] else input.take 64 :: blocks n (input.drop 64)

/-- The blocks of a chunk in order; flag 2 marks the last and 8 the root. -/
def chain (cv : List ℕ) (flags start : ℕ) : List Bytes → List ℕ
  | [] => cv
  | [block] => compress cv (flags + start + 10) block
  | block :: rest => chain (compress cv (flags + start) block) flags 0 rest

/-- The hash of a one-chunk input; flag 1 marks the first block. -/
def hash (key : List ℕ) (flags : ℕ) (input : Bytes) : Bytes :=
  (chain key flags 1 (blocks 15 input)).flatMap OneBlock.ofWord

end OneChunk

/-- `blake3` on inputs of one chunk. -/
abbrev oneChunkBlake3 : Blake3 where
  deriveKey context material :=
    OneChunk.hash (OneBlock.toWords 8 (OneChunk.hash OneBlock.iv 32 context.toUTF8.data.toList))
      64 material
  keyedHash key input := OneChunk.hash (OneBlock.toWords 8 key) 16 input

/-- The same with the hash that takes no key. -/
abbrev oneChunkBlake3Hash : Blake3Hash where
  toBlake3 := oneChunkBlake3
  hash input := OneChunk.hash OneBlock.iv 0 input

end ArkheForge.Core
