/-
  The export stream's wire format and error surface (`wal_export/mod.rs`), and
  the part of `std::io` the sink and the reader are written against.

  A `Write` instance is any writer: `writeAll` may fail after taking an arbitrary
  prefix of what it was given and `flush` may fail after a complete write. The
  laws say no more than `std::io::Write` documents: bytes are appended in order,
  a successful `write_all` took them all, and `flush` writes nothing of its own.
  `contents` is the specification's view of the writer, no source function reads it.
-/
import ArkheForge.Lib.Fallible
import ArkheForge.Lib.Framing

namespace ArkheForge.Platform

open BigEndian

/-! ## `std::io` -/

/-- `std::io::ErrorKind`, as far as the export path distinguishes it. -/
inductive ErrorKind
  | unexpectedEof
  | writeZero
  | storageFull
  | other
  deriving DecidableEq, Repr

/-- `std::io::Error`. -/
structure IoError where
  kind : ErrorKind
  deriving DecidableEq, Repr

/-- `std::io::Write`. -/
class Write (W : Type) where
  writeAll : Bytes → Fallible W IoError Unit
  flush : Fallible W IoError Unit
  /-- Every byte the writer has taken so far. -/
  contents : W → Bytes
  writeAll_takes : ∀ buf w, ∃ t, t <+: buf ∧ contents ((writeAll buf).exec w).2 = contents w ++ t
  writeAll_ok : ∀ buf w w', (writeAll buf).exec w = (.ok (), w') →
    contents w' = contents w ++ buf
  flush_contents : ∀ w, contents (flush.exec w).2 = contents w

namespace Write

variable {W : Type} [Write W]

/-- The two writer calls of one flush. -/
def offer (buf : Bytes) : Fallible W IoError Unit := do
  writeAll buf
  flush

theorem contents_offer_takes (buf : Bytes) (w : W) :
    ∃ t, t <+: buf ∧ contents ((offer buf).exec w).2 = contents w ++ t := by
  obtain ⟨t, ht, hw⟩ := writeAll_takes buf w
  refine ⟨t, ht, ?_⟩
  rw [← hw, offer, Fallible.exec_bind]
  rcases Fallible.exec (writeAll buf) w with ⟨_ | _, w'⟩
  · rfl
  · exact flush_contents w'

theorem contents_offer_ok {buf : Bytes} {w w' : W} (h : (offer buf).exec w = (.ok (), w')) :
    contents w' = contents w ++ buf := by
  obtain ⟨_, w₁, hwrite, hflush⟩ := Fallible.exec_bind_eq_ok.mp h
  have htaken := flush_contents w₁
  rw [hflush] at htaken
  rw [htaken, writeAll_ok buf w w₁ hwrite]

/-- The writer in state `w`, offered `buf`, either takes and flushes all of it or
    fails having taken nothing. -/
def AllOrNothing (w : W) (buf : Bytes) : Prop :=
  ((offer buf).exec w).1 = .ok () ∨ contents ((offer buf).exec w).2 = contents w

/-- A writer on which neither operation ever fails. -/
def NeverFails (W : Type) [Write W] : Prop :=
  ∀ w : W, (∀ buf, ((writeAll buf).exec w).1 = .ok ()) ∧ (flush.exec w).1 = .ok ()

theorem NeverFails.offer_ok (hW : NeverFails W) (buf : Bytes) (w : W) :
    ((offer buf).exec w).1 = .ok () := by
  obtain ⟨w', h⟩ : ∃ w', (writeAll buf).exec w = (.ok (), w') :=
    ⟨_, Prod.ext ((hW w).1 buf) rfl⟩
  rw [offer, Fallible.exec_bind_ok h]
  exact (hW w').2

end Write

/-- `Vec<u8>` as a writer. -/
instance : Write Bytes where
  writeAll buf := modify (· ++ buf)
  flush := pure ()
  contents := id
  writeAll_takes buf _ := ⟨buf, List.prefix_rfl, rfl⟩
  writeAll_ok _ _ _ h := (congrArg Prod.snd h).symm
  flush_contents _ := rfl

theorem vec_neverFails : Write.NeverFails Bytes := fun _ => ⟨fun _ => rfl, rfl⟩

/-- `Read::read_exact` on an in-memory source: the next `n` bytes, or
    `UnexpectedEof` with the source used up. -/
def readExact (n : ℕ) : Fallible Bytes IoError Bytes := do
  let src ← get
  if src.length < n then
    set ([] : Bytes)
    throw ⟨.unexpectedEof⟩
  set (src.drop n)
  pure (src.take n)

theorem exec_readExact (n : ℕ) (src : Bytes) :
    (readExact n).exec src =
      if src.length < n then (.error ⟨.unexpectedEof⟩, []) else (.ok (src.take n), src.drop n) := by
  simp only [readExact, Fallible.exec_bind, Fallible.exec_get, Fallible.exec_ite,
    Fallible.exec_set, Fallible.exec_throw, Fallible.exec_pure]

/-! ## Wire format -/

/-- `StreamMagic`. -/
inductive StreamMagic
  | v1
  deriving DecidableEq, Repr

/-- `StreamMagic::bytes`: the ASCII tag `ARKHEXP1`. -/
def StreamMagic.bytes : StreamMagic → Bytes
  | .v1 => [0x41, 0x52, 0x4B, 0x48, 0x45, 0x58, 0x50, 0x31]

/-- `StreamMagic::recognize`. -/
def StreamMagic.recognize (bytes : Bytes) : Option StreamMagic :=
  if bytes = StreamMagic.v1.bytes then some .v1 else none

theorem StreamMagic.recognize_eq_some {bytes : Bytes} {m : StreamMagic} :
    recognize bytes = some m ↔ bytes = m.bytes := by
  cases m
  simp [recognize]

@[simp] theorem StreamMagic.bytes_length (m : StreamMagic) : m.bytes.length = 8 := by
  cases m
  rfl

/-- `MAX_RECORD_BYTES`: 16 MiB. -/
def maxRecordBytes : ℕ := 2 ^ 24

/-- The frames of a V1 stream: `u64` lengths, payloads of 1 byte to `maxRecordBytes`. -/
def frames : Framing where
  width := 8
  maxLen := maxRecordBytes
  maxLen_lt := by decide

/-- The bytes of a V1 stream carrying `ps`. -/
def exportStream (ps : List Bytes) : Bytes := StreamMagic.v1.bytes ++ frames.stream ps

/-! ## Errors -/

/-- `InvalidFramingReason`. -/
inductive InvalidFramingReason
  | lengthExceedsMax (prefixLen max : ℕ)
  | lengthZero
  | truncated
  | headerMissing
  deriving DecidableEq, Repr

/-- `WalExportError`. -/
inductive WalExportError
  | io (e : IoError)
  | invalidFraming (reason : InvalidFramingReason)
  | appendOnlyViolation (expectedSeq gotSeq : UInt64) (previousSeq : Option UInt64)
  | seqExhausted (lastSeq : UInt64)
  | unsupportedStreamVersion (magic : Bytes)
  | bufferOverflow (capacity requested currentBuffer : ℕ)
  deriving DecidableEq, Repr

end ArkheForge.Platform
