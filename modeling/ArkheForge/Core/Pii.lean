/-
  The PII wire format of `pii.rs`: DEK ids, cipher kinds, the 19 bytes of associated
  data, the per-DEK message counter, and the marker trait with its four canonical
  types.

  The shell-registered markers are in `PiiRegistry`, the rotation trigger is in `Advice`.
  Left out: the user salt and the body hash, which no modelled function reads.
-/
import ArkheForge.Core.PostcardWire

namespace ArkheForge.Core

open BigEndian

/-! ## The wire format -/

/-- `DekId`. -/
structure DekId where
  bytes : Vector UInt8 16
  deriving DecidableEq, Repr

/-- `AeadKind`. -/
inductive AeadKind
  | xChaCha20Poly1305
  | aes256Gcm
  | aes256GcmSiv
  deriving DecidableEq, Repr

/-- The discriminant of an `AeadKind`. -/
def AeadKind.toByte : AeadKind → UInt8
  | .xChaCha20Poly1305 => 0
  | .aes256Gcm => 1
  | .aes256GcmSiv => 2

theorem AeadKind.toByte_injective : Function.Injective AeadKind.toByte := by
  intro a b h
  cases a <;> cases b <;> first | rfl | exact absurd h (by decide)

/-- `compute_aad`. -/
def computeAad (dekId : DekId) (piiCode : UInt16) (aeadKind : AeadKind) : Bytes :=
  dekId.bytes.toList ++ toBe 2 piiCode.toNat ++ [aeadKind.toByte]

@[simp] theorem computeAad_length (dekId : DekId) (piiCode : UInt16) (aeadKind : AeadKind) :
    (computeAad dekId piiCode aeadKind).length = 19 := by
  simp [computeAad]

/-- The three fields can be read back off the 19 bytes. -/
theorem computeAad_inj {dekId dekId' : DekId} {piiCode piiCode' : UInt16}
    {aeadKind aeadKind' : AeadKind} :
    computeAad dekId piiCode aeadKind = computeAad dekId' piiCode' aeadKind' ↔
      dekId = dekId' ∧ piiCode = piiCode' ∧ aeadKind = aeadKind' := by
  constructor
  · intro h
    unfold computeAad at h
    rw [List.append_assoc, List.append_assoc] at h
    obtain ⟨hid, hrest⟩ := toList_append_inj.mp h
    obtain ⟨hcode, hkind⟩ := (toBe_append_inj piiCode.toNat_lt piiCode'.toNat_lt).mp hrest
    refine ⟨?_, UInt16.toNat_inj.mp hcode, AeadKind.toByte_injective (List.singleton_inj.mp hkind)⟩
    cases dekId
    cases dekId'
    exact congrArg DekId.mk hid
  · intro h
    rw [h.1, h.2.1, h.2.2]

/-! ## The message counter -/

/-- `DekMessageCounter`. -/
structure DekMessageCounter where
  dekId : DekId
  count : UInt64
  deriving DecidableEq, Repr

/-- `DekMessageCounter::new`. -/
def DekMessageCounter.new (dekId : DekId) : DekMessageCounter where
  dekId := dekId
  count := 0

/-- `DekMessageCounter::record_message`. -/
def DekMessageCounter.recordMessage (counter : DekMessageCounter) : DekMessageCounter :=
  { counter with
    count := if counter.count.toNat + 1 < UInt64.size then counter.count + 1 else counter.count }

/-! ## Markers and errors -/

/-- `PiiType`. -/
class PiiType (T : Type) where
  piiCode : UInt16

/-- `ActorHandle`. -/
structure ActorHandle where
  bytes : RawBytes
  deriving DecidableEq

/-- `EntryBody`. -/
structure EntryBody where
  bytes : RawBytes
  deriving DecidableEq

/-- `ActivityExtraBytes`. -/
structure ActivityExtraBytes where
  bytes : RawBytes
  deriving DecidableEq

/-- `AuthCredentialSecret`. -/
structure AuthCredentialSecret where
  bytes : RawBytes
  deriving DecidableEq

instance : PiiType ActorHandle := ⟨0x0001⟩

instance : PiiType EntryBody := ⟨0x0002⟩

instance : PiiType ActivityExtraBytes := ⟨0x0003⟩

instance : PiiType AuthCredentialSecret := ⟨0x0004⟩

namespace Wire

def actorHandle : Codec ActorHandle :=
  Codec.bytes.via (fun b => some ⟨b⟩) ActorHandle.bytes fun _ => rfl

def entryBody : Codec EntryBody :=
  Codec.bytes.via (fun b => some ⟨b⟩) EntryBody.bytes fun _ => rfl

def activityExtraBytes : Codec ActivityExtraBytes :=
  Codec.bytes.via (fun b => some ⟨b⟩) ActivityExtraBytes.bytes fun _ => rfl

def authCredentialSecret : Codec AuthCredentialSecret :=
  Codec.bytes.via (fun b => some ⟨b⟩) AuthCredentialSecret.bytes fun _ => rfl

end Wire

/-- `PiiError`, as far as the coordinator and the key material raise it. -/
inductive PiiError
  | tierTooLow
  | typeMismatch
  | cipherDowngrade
  | aadMismatch
  | decodeFailed
  | invalidKeyLength
  | encryptFailed
  | unsupportedAead
  | dekExhausted
  | nonceReuseRisk
  deriving DecidableEq, Repr

end ArkheForge.Core
