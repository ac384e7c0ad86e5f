/-
  The audit-receipt verifier (`verifier.rs`), in a build with `tier-2-pqc-receipts`.

  The two signature crates are parameters: a key decoder and a check each, about
  which nothing is assumed. What the module decides itself is which bytes each half
  gets to see. A hybrid envelope is joined to one signature and split again, so
  `verify_receipt_envelope_iff` has to say that the join and the split meet: an
  envelope is accepted exactly when its class's own condition holds (`Accepts`).
  Left out: the stub of the default build, which rejects every ML-DSA signature.
-/
import ArkheForge.Core.Primitives
import ArkheForge.Lib.Fallible

namespace ArkheForge.Platform

open ArkheForge.Core BigEndian Fallible

/-! ## The source functions -/

/-- `ml_dsa` at ML-DSA-65: the two decoders and the check. -/
class MlDsa65Crate where
  VerifyingKey : Type
  Signature : Type
  /-- `VerifyingKey::decode`. -/
  decodeKey : Bytes → VerifyingKey
  /-- `Signature::decode`. -/
  decodeSignature : Bytes → Option Signature
  /-- `Verifier::verify`. -/
  verify : VerifyingKey → Bytes → Signature → Bool

/-- `ED25519_PK_LEN`. -/
def ed25519PkLen : ℕ := 32

/-- `ED25519_SIG_LEN`. -/
def ed25519SigLen : ℕ := 64

/-- `MLDSA65_PK_LEN`. -/
def mldsa65PkLen : ℕ := 1952

/-- `MLDSA65_SIG_LEN`. -/
def mldsa65SigLen : ℕ := 3309

/-- `FORGE_RECEIPT_SIG_DOMAIN`. -/
def forgeReceiptSigDomain : Bytes :=
  "arkhe-forge v0.15 audit receipt attestation domain".toUTF8.data.toList

/-- `domain_separated`. -/
def domainSeparated (message : Bytes) : Bytes := forgeReceiptSigDomain ++ message

/-- `VerifyError`. -/
inductive VerifyError
  | signatureRequired
  | wrongKeyLength
  | wrongSignatureLength
  | mismatch
  | pqcUnavailable
  | envelopeIncoherent
  deriving DecidableEq, Repr

section

variable [Ed25519Dalek] [MlDsa65Crate]

/-- `verify_ed25519`. -/
def verifyEd25519 (vkBytes m sig : Bytes) : Except VerifyError Unit :=
  if vkBytes.length ≠ ed25519PkLen then .error .wrongKeyLength
  else if sig.length ≠ ed25519SigLen then .error .wrongSignatureLength
  else
    match Ed25519Dalek.fromBytes vkBytes with
    | none => .error .mismatch
    | some vk => if Ed25519Dalek.verifyStrict vk m sig then .ok () else .error .mismatch

/-- `verify_ml_dsa65`. -/
def verifyMlDsa65 (vkBytes m sig : Bytes) : Except VerifyError Unit :=
  if sig.length ≠ mldsa65SigLen then .error .wrongSignatureLength
  else if vkBytes.length ≠ mldsa65PkLen then .error .wrongKeyLength
  else
    match MlDsa65Crate.decodeSignature sig with
    | none => .error .mismatch
    | some sigObj =>
      if MlDsa65Crate.verify (MlDsa65Crate.decodeKey vkBytes) m sigObj then .ok ()
      else .error .mismatch

/-- `verify_attestation`. -/
def verifyAttestation (cls : RuntimeSignatureClass) (publicKey message sig : Bytes) :
    Except VerifyError Unit :=
  let m := domainSeparated message
  match cls with
  | .none => .error .signatureRequired
  | .ed25519 => verifyEd25519 publicKey m sig
  | .mlDsa65 => verifyMlDsa65 publicKey m sig
  | .hybrid =>
    if publicKey.length ≠ ed25519PkLen + mldsa65PkLen then .error .wrongKeyLength
    else if sig.length ≠ ed25519SigLen + mldsa65SigLen then .error .wrongSignatureLength
    else do
      let (edPk, mldsaPk) := publicKey.splitAt ed25519PkLen
      let (edSig, mldsaSig) := sig.splitAt ed25519SigLen
      verifyEd25519 edPk m edSig
      verifyMlDsa65 mldsaPk m mldsaSig

/-- `verify_receipt_envelope`. -/
def verifyReceiptEnvelope (algorithm : RuntimeSignatureClass)
    (publicKey message attestation64 : Bytes) (attestationPqc : Option Bytes) :
    Except VerifyError Unit :=
  let pqcRequired : Bool :=
    match algorithm with
    | .mlDsa65 => true
    | .hybrid => true
    | _ => false
  if attestationPqc.isSome ≠ pqcRequired then .error .envelopeIncoherent
  else
    match algorithm with
    | .none => .error .signatureRequired
    | .ed25519 => verifyAttestation .ed25519 publicKey message attestation64
    | .mlDsa65 =>
      if attestation64 ≠ [] then .error .envelopeIncoherent
      else
        match attestationPqc with
        | some pqc => verifyAttestation .mlDsa65 publicKey message pqc
        | none => .error .envelopeIncoherent
    | .hybrid =>
      match attestationPqc with
      | some pqc =>
        if attestation64.length ≠ ed25519SigLen then .error .wrongSignatureLength
        else verifyAttestation .hybrid publicKey message (attestation64 ++ pqc)
      | none => .error .envelopeIncoherent

/-! ## What each half accepts -/

/-- An Ed25519 signature of the message under the key. -/
structure Ed25519Valid (key message sig : Bytes) : Prop where
  key_length : key.length = 32
  sig_length : sig.length = 64
  verifies : ∃ vk, Ed25519Dalek.fromBytes key = some vk ∧
    Ed25519Dalek.verifyStrict vk message sig = true

/-- An ML-DSA-65 signature of the message under the key. -/
structure MlDsa65Valid (key message sig : Bytes) : Prop where
  key_length : key.length = 1952
  sig_length : sig.length = 3309
  verifies : ∃ sigObj, MlDsa65Crate.decodeSignature sig = some sigObj ∧
    MlDsa65Crate.verify (MlDsa65Crate.decodeKey key) message sigObj = true

omit [MlDsa65Crate] in
theorem verifyEd25519_iff (key m sig : Bytes) :
    verifyEd25519 key m sig = .ok () ↔ Ed25519Valid key m sig := by
  unfold verifyEd25519 ed25519PkLen ed25519SigLen
  by_cases hkey : key.length = 32
  · by_cases hsig : sig.length = 64
    · rw [if_neg (not_not.mpr hkey), if_neg (not_not.mpr hsig)]
      constructor
      · intro h
        cases hvk : Ed25519Dalek.fromBytes key with
        | none => simp [hvk] at h
        | some vk =>
            by_cases hverify : Ed25519Dalek.verifyStrict vk m sig = true
            · exact ⟨hkey, hsig, vk, hvk, hverify⟩
            · simp [hvk, hverify] at h
      · intro h
        obtain ⟨vk, hvk, hverify⟩ := h.verifies
        rw [hvk]
        exact if_pos hverify
    · rw [if_neg (not_not.mpr hkey), if_pos hsig]
      exact iff_of_false (by simp) fun h => hsig h.sig_length
  · rw [if_pos hkey]
    exact iff_of_false (by simp) fun h => hkey h.key_length

omit [Ed25519Dalek] in
theorem verifyMlDsa65_iff (key m sig : Bytes) :
    verifyMlDsa65 key m sig = .ok () ↔ MlDsa65Valid key m sig := by
  unfold verifyMlDsa65 mldsa65PkLen mldsa65SigLen
  by_cases hsig : sig.length = 3309
  · by_cases hkey : key.length = 1952
    · rw [if_neg (not_not.mpr hsig), if_neg (not_not.mpr hkey)]
      constructor
      · intro h
        cases hobj : MlDsa65Crate.decodeSignature sig with
        | none => simp [hobj] at h
        | some sigObj =>
            by_cases hverify : MlDsa65Crate.verify (MlDsa65Crate.decodeKey key) m sigObj = true
            · exact ⟨hkey, hsig, sigObj, hobj, hverify⟩
            · simp [hobj, hverify] at h
      · intro h
        obtain ⟨sigObj, hobj, hverify⟩ := h.verifies
        rw [hobj]
        exact if_pos hverify
    · rw [if_neg (not_not.mpr hsig), if_pos hkey]
      exact iff_of_false (by simp) fun h => hkey h.key_length
  · rw [if_pos hsig]
    exact iff_of_false (by simp) fun h => hsig h.sig_length

/-! ## What an envelope needs -/

/-- The condition each class puts on an envelope; both halves of a hybrid are over one message. -/
def Accepts (algorithm : RuntimeSignatureClass) (publicKey message attestation64 : Bytes)
    (attestationPqc : Option Bytes) : Prop :=
  let m := domainSeparated message
  match algorithm with
  | .none => False
  | .ed25519 => attestationPqc = none ∧ Ed25519Valid publicKey m attestation64
  | .mlDsa65 => attestation64 = [] ∧ ∃ pqc, attestationPqc = some pqc ∧ MlDsa65Valid publicKey m pqc
  | .hybrid =>
    publicKey.length = 32 + 1952 ∧ Ed25519Valid (publicKey.take 32) m attestation64 ∧
      ∃ pqc, attestationPqc = some pqc ∧ MlDsa65Valid (publicKey.drop 32) m pqc

/-- A signature joined from a 64-byte half and another is split where it was joined. -/
theorem verifyAttestation_hybrid_iff {publicKey message classical pqc : Bytes}
    (hclassical : classical.length = 64) :
    verifyAttestation .hybrid publicKey message (classical ++ pqc) = .ok () ↔
      publicKey.length = 32 + 1952 ∧
        Ed25519Valid (publicKey.take 32) (domainSeparated message) classical ∧
        MlDsa65Valid (publicKey.drop 32) (domainSeparated message) pqc := by
  have htake : (classical ++ pqc).take 64 = classical := by
    rw [← hclassical]
    exact List.take_left
  have hdrop : (classical ++ pqc).drop 64 = pqc := by
    rw [← hclassical]
    exact List.drop_left
  have hlength : (classical ++ pqc).length = 64 + pqc.length := by
    rw [List.length_append, hclassical]
  unfold verifyAttestation ed25519PkLen mldsa65PkLen ed25519SigLen mldsa65SigLen
  simp only [List.splitAt_eq, htake, hdrop]
  by_cases hkey : publicKey.length = 32 + 1952
  · by_cases hsig : (classical ++ pqc).length = 64 + 3309
    · rw [if_neg (not_not.mpr hkey), if_neg (not_not.mpr hsig), except_seq_eq_ok, verifyEd25519_iff,
        verifyMlDsa65_iff]
      exact (and_iff_right hkey).symm
    · rw [if_neg (not_not.mpr hkey), if_pos hsig]
      refine iff_of_false (by simp) ?_
      intro h
      have hpqc := h.2.2.sig_length
      omega
  · rw [if_pos hkey]
    exact iff_of_false (by simp) fun h => hkey h.1

/-- An envelope is accepted exactly when its class's own condition holds. -/
theorem verify_receipt_envelope_iff (algorithm : RuntimeSignatureClass)
    (publicKey message attestation64 : Bytes) (attestationPqc : Option Bytes) :
    verifyReceiptEnvelope algorithm publicKey message attestation64 attestationPqc = .ok () ↔
      Accepts algorithm publicKey message attestation64 attestationPqc := by
  unfold verifyReceiptEnvelope Accepts
  cases algorithm with
  | none =>
      cases attestationPqc with
      | none => simp
      | some pqc => simp
  | ed25519 =>
      cases attestationPqc with
      | none => simpa [verifyAttestation] using verifyEd25519_iff publicKey _ attestation64
      | some pqc => simp
  | mlDsa65 =>
      cases attestationPqc with
      | none => simp
      | some pqc =>
          by_cases hempty : attestation64 = []
          · simpa [hempty, verifyAttestation] using verifyMlDsa65_iff publicKey _ pqc
          · simp [hempty]
  | hybrid =>
      cases attestationPqc with
      | none => simp
      | some pqc =>
          by_cases hclassical : attestation64.length = 64
          · simpa [ed25519SigLen, hclassical] using verifyAttestation_hybrid_iff hclassical
          · refine iff_of_false (by simp [ed25519SigLen, hclassical]) ?_
            intro h
            exact hclassical h.2.1.sig_length

end

end ArkheForge.Platform
