/-
  Serializers with their inverse.

  A `Codec` writes a value as bytes and reads one off the front of any byte
  string; that reading undoes writing is a field. Codecs for records are built from
  those of their fields (`pair`, `via`), so the law never has to be proved again.
  The basic formats are those of a compact binary serializer: LEB128 variable
  length integers, length-prefixed byte strings, tags of one byte.
-/
import ArkheForge.Lib.BigEndian

open BigEndian

/-- A serializer, with the parser that undoes it in front of anything. -/
structure Codec (α : Type) where
  encode : α → Bytes
  decode : Bytes → Option (α × Bytes)
  decode_encode : ∀ a rest, decode (encode a ++ rest) = some (a, rest)

namespace Codec

variable {α β : Type}

/-! ## Combinators -/

/-- Two values, one behind the other. -/
def pair (c : Codec α) (d : Codec β) : Codec (α × β) where
  encode p := c.encode p.1 ++ d.encode p.2
  decode bs := (c.decode bs).bind fun (a, bs) => (d.decode bs).map fun (b, bs) => ((a, b), bs)
  decode_encode p rest := by
    rw [List.append_assoc, c.decode_encode]
    simp [d.decode_encode]

/-- A type read and written through another one; `f` may turn a value down. -/
def via (c : Codec α) (f : α → Option β) (g : β → α) (h : ∀ b, f (g b) = some b) : Codec β where
  encode b := c.encode (g b)
  decode bs := (c.decode bs).bind fun (a, bs) => (f a).map fun b => (b, bs)
  decode_encode b rest := by
    rw [c.decode_encode]
    simp [h]

/-- One byte as it is. -/
def byte : Codec UInt8 where
  encode b := [b]
  decode
    | [] => none
    | b :: bs => some (b, bs)
  decode_encode _ _ := rfl

/-- Nothing, or a value behind a tag. -/
def option (c : Codec α) : Codec (Option α) where
  encode
    | none => [0]
    | some a => 1 :: c.encode a
  decode
    | 0 :: bs => some (none, bs)
    | 1 :: bs => (c.decode bs).map fun (a, bs) => (some a, bs)
    | _ => none
  decode_encode a rest := by
    cases a with
    | none => rfl
    | some a => simp [c.decode_encode]

/-- A field of `n` bytes. -/
def fixed (n : ℕ) : Codec (Vector UInt8 n) where
  encode v := v.toList
  decode bs :=
    if h : (bs.take n).length = n then some (⟨(bs.take n).toArray, by simpa using h⟩, bs.drop n)
    else none
  decode_encode v rest := by
    have htake : (v.toList ++ rest).take n = v.toList := List.take_left' (by simp)
    have hdrop : (v.toList ++ rest).drop n = rest := List.drop_left' (by simp)
    simp only [htake, hdrop, Vector.length_toList, dite_true]
    refine congrArg some (Prod.ext (Vector.toArray_inj.mp ?_) rfl)
    simp [Vector.toList]

/-- Read a `β` and make an `α` of it. -/
def read (c : Codec β) (f : β → α) (bs : Bytes) : Option (α × Bytes) :=
  (c.decode bs).map fun (b, bs) => (f b, bs)

@[simp] theorem read_encode (c : Codec β) (f : β → α) (b : β) (rest : Bytes) :
    c.read f (c.encode b ++ rest) = some (f b, rest) := by
  simp [read, c.decode_encode]

/-- A sum type: the tag of the variant, then what the variant carries. -/
def variants (tag : α → UInt8) (put : α → Bytes) (get : UInt8 → Bytes → Option (α × Bytes))
    (h : ∀ a rest, get (tag a) (put a ++ rest) = some (a, rest)) : Codec α where
  encode a := tag a :: put a
  decode
    | [] => none
    | t :: bs => get t bs
  decode_encode a rest := h a rest

/-- A finite type, written as a tag. -/
def enum (tag : α → UInt8) (untag : UInt8 → Option α) (h : ∀ a, untag (tag a) = some a) :
    Codec α :=
  byte.via untag tag h

/-! ## Variable-length integers -/

/-- `n` in groups of seven bits, lowest first, in at most `k` bytes. -/
def putVarint : ℕ → ℕ → Bytes
  | 0, _ => []
  | k + 1, n =>
    if n < 128 then [UInt8.ofNat n] else UInt8.ofNat (n % 128 + 128) :: putVarint k (n / 128)

/-- The number written in the next bytes, `k` of them at most. -/
def getVarint : ℕ → Bytes → Option (ℕ × Bytes)
  | 0, _ => none
  | _ + 1, [] => none
  | k + 1, b :: bs =>
    if b.toNat < 128 then some (b.toNat, bs)
    else (getVarint k bs).map fun (n, bs) => (n * 128 + (b.toNat - 128), bs)

theorem getVarint_putVarint {k n : ℕ} (h : n < 128 ^ (k + 1)) (rest : Bytes) :
    getVarint (k + 1) (putVarint (k + 1) n ++ rest) = some (n, rest) := by
  induction k generalizing n with
  | zero =>
      have hn : n < 128 := by simpa using h
      have hb : (UInt8.ofNat n).toNat = n := by
        rw [UInt8.toNat_ofNat']
        omega
      simp [putVarint, getVarint, hn, hb]
  | succ k ih =>
      rw [putVarint]
      split
      · next hn =>
        have hb : (UInt8.ofNat n).toNat = n := by
          rw [UInt8.toNat_ofNat']
          omega
        simp [getVarint, hn, hb]
      · next hn =>
        have hb : (UInt8.ofNat (n % 128 + 128)).toNat = n % 128 + 128 := by
          rw [UInt8.toNat_ofNat']
          omega
        have hdiv : n / 128 < 128 ^ (k + 1) := by
          rw [Nat.pow_succ] at h
          exact Nat.div_lt_of_lt_mul (by rwa [Nat.mul_comm])
        rw [List.cons_append, getVarint, hb, if_neg (by omega), ih hdiv]
        simp only [Option.map_some, Option.some.injEq, Prod.mk.injEq, and_true]
        omega

/-- The integers below `bound`, in at most `k + 1` groups. -/
def varint (k bound : ℕ) (h : bound ≤ 128 ^ (k + 1)) : Codec (Fin bound) where
  encode n := putVarint (k + 1) n
  decode bs := (getVarint (k + 1) bs).bind fun (n, bs) =>
    if hn : n < bound then some (⟨n, hn⟩, bs) else none
  decode_encode n rest := by
    rw [getVarint_putVarint (lt_of_lt_of_le n.isLt h)]
    simp

def u16 : Codec UInt16 :=
  (varint 2 UInt16.size (by decide)).via (fun n => some (UInt16.ofFin n)) UInt16.toFin
    fun _ => rfl

def u32 : Codec UInt32 :=
  (varint 4 UInt32.size (by decide)).via (fun n => some (UInt32.ofFin n)) UInt32.toFin
    fun _ => rfl

def u64 : Codec UInt64 :=
  (varint 9 UInt64.size (by decide)).via (fun n => some (UInt64.ofFin n)) UInt64.toFin
    fun _ => rfl

/-! ## Byte strings and texts -/

/-- Byte strings shorter than `2 ^ 64`, behind their length. -/
def bytes : Codec { bs : Bytes // bs.length < UInt64.size } where
  encode bs := u64.encode (UInt64.ofNat bs.1.length) ++ bs.1
  decode bs := (u64.decode bs).bind fun (n, bs) =>
    if h : n.toNat ≤ bs.length then
      some (⟨bs.take n.toNat, by
        rw [List.length_take]
        exact lt_of_le_of_lt (min_le_left _ _) n.toNat_lt⟩, bs.drop n.toNat)
    else none
  decode_encode bs rest := by
    obtain ⟨bs, hbs⟩ := bs
    have hlen : (UInt64.ofNat bs.length).toNat = bs.length := by
      rw [UInt64.toNat_ofNat']
      exact Nat.mod_eq_of_lt hbs
    rw [List.append_assoc, u64.decode_encode]
    simp [hlen]

/-- UTF-8 texts of at most `cap` bytes, behind their length. -/
def text (cap : ℕ) (hcap : cap < UInt64.size) : Codec { s : String // s.utf8ByteSize ≤ cap } :=
  bytes.via
    (fun bs => (String.fromUTF8? ⟨bs.1.toArray⟩).bind fun s =>
      if h : s.utf8ByteSize ≤ cap then some ⟨s, h⟩ else none)
    (fun s => ⟨s.1.toByteArray.data.toList, lt_of_le_of_lt s.2 hcap⟩)
    (fun s => by
      obtain ⟨s, hs⟩ := s
      simp only [Array.toArray_toList, String.fromUTF8?, s.isValidUTF8, dite_true,
        String.fromUTF8, Option.bind_some]
      exact dif_pos hs)

/-! ## Sequences -/

/-- `n` values off the front. -/
def decodeMany (c : Codec α) : ℕ → Bytes → Option (List α × Bytes)
  | 0, bs => some ([], bs)
  | n + 1, bs => (c.decode bs).bind fun (a, bs) =>
    (decodeMany c n bs).map fun (as, bs) => (a :: as, bs)

theorem decodeMany_encode (c : Codec α) (as : List α) (rest : Bytes) :
    c.decodeMany as.length (as.flatMap c.encode ++ rest) = some (as, rest) := by
  induction as with
  | nil => rfl
  | cons a as ih =>
      rw [List.length_cons, List.flatMap_cons, List.append_assoc, decodeMany, c.decode_encode]
      simp [ih]

/-- Lists shorter than `2 ^ 64`, behind their length. -/
def list (c : Codec α) : Codec { as : List α // as.length < UInt64.size } where
  encode as := u64.encode (UInt64.ofNat as.1.length) ++ as.1.flatMap c.encode
  decode bs := (u64.decode bs).bind fun (n, bs) =>
    (c.decodeMany n.toNat bs).bind fun (as, bs) =>
      if h : as.length < UInt64.size then some (⟨as, h⟩, bs) else none
  decode_encode as rest := by
    obtain ⟨as, has⟩ := as
    have hlen : (UInt64.ofNat as.length).toNat = as.length := by
      rw [UInt64.toNat_ofNat']
      exact Nat.mod_eq_of_lt has
    rw [List.append_assoc, u64.decode_encode]
    simp only [Option.bind_some, hlen, decodeMany_encode, has, dite_true]

end Codec
