/-
  The mock KMS (`hf2_kms/kms_backend.rs`): KEKs with a pad each, DEKs derived from a KEK
  reference and a counter, and the attestations of deleted KEKs.

  The maps are functions to `Option`. Left out: the two counts that tests observe.
-/
import ArkheForge.Core.Blake3
import ArkheForge.Platform.Crypto.Dek
import ArkheForge.Platform.Erasure.Backends

namespace ArkheForge.Platform

open ArkheForge.Core BigEndian Fallible

/-- `KekRef`. -/
structure KekRef where
  id : String
  deriving DecidableEq, Repr

/-- `KekRef::as_str`, as bytes. -/
def KekRef.asBytes (kekRef : KekRef) : Bytes := kekRef.id.toUTF8.data.toList

/-- `KmsError`. -/
inductive KmsError
  | transport (message : String)
  | auth (message : String)
  | kekNotFound (id : String)
  | unwrapFailed
  | kekDeleting (id : String)
  | quotaExceeded
  | backend (message : String)
  deriving DecidableEq, Repr

/-- `MockKek`. -/
structure MockKek where
  pad : Vector UInt8 32
  deriving DecidableEq, Repr

/-- `MockKmsBackend`. -/
structure MockKmsBackend where
  keks : KekRef → Option MockKek
  destroyed : KekRef → Option DekShredAttestation
  counter : UInt64
  rotations : List (KekRef × KekRef)
  destructionLogIndex : UInt64

theorem saturatingSucc_of_ne {n : UInt64} (h : n ≠ maxCounter) : saturatingSucc n = n + 1 := by
  have hnext := Dek.counter_add_one h
  have hbound : n.toNat + 1 < UInt64.size := by
    rw [← hnext]
    exact (n + 1).toNat_lt
  unfold saturatingSucc
  rw [if_pos hbound]

/-- `u64::to_le_bytes`. -/
def toLeBytes (n : UInt64) : Bytes := (toBe 8 n.toNat).reverse

@[simp] theorem toLeBytes_length (n : UInt64) : (toLeBytes n).length = 8 := by
  simp [toLeBytes]

theorem toLeBytes_injective : Function.Injective toLeBytes := by
  intro n n' h
  have hbe := List.reverse_injective h
  exact UInt64.toNat_inj.mp (toBe_injective n.toNat_lt n'.toNat_lt hbe)

/-- The bytes of an ASCII literal. -/
def literalBytes (s : String) : Bytes := s.toUTF8.data.toList

namespace MockKmsBackend

/-- `MockKmsBackend::new`. -/
def new : MockKmsBackend where
  keks := fun _ => none
  destroyed := fun _ => none
  counter := 0
  rotations := []
  destructionLogIndex := 0

/-- `MockKmsBackend::xor_pad`, on the 32 bytes it is called with. -/
def xorPad (dst pad : Vector UInt8 32) : Vector UInt8 32 :=
  Vector.ofFn fun i => dst[i] ^^^ pad[i]

theorem xorPad_xorPad (dst pad : Vector UInt8 32) : xorPad (xorPad dst pad) pad = dst := by
  apply Vector.ext
  intro i hi
  simp only [xorPad, Vector.getElem_ofFn, Fin.getElem_fin]
  rw [UInt8.xor_assoc, UInt8.xor_self, UInt8.xor_zero]

/-- What a DEK is derived from, behind the domain of the digest. -/
def derivation (domain : String) (kekRef : KekRef) (counter : UInt64) : Bytes :=
  literalBytes domain ++ kekRef.asBytes ++ toLeBytes counter

/-- One counter is behind each derivation. -/
theorem derivation_counter {domain : String} {kekRef kekRef' : KekRef} {n n' : UInt64}
    (h : derivation domain kekRef n = derivation domain kekRef' n') : n = n' := by
  unfold derivation at h
  exact toLeBytes_injective (List.append_inj' h (by simp)).2

section

variable [Blake3Hash]

/-- `MockKmsBackend::register_kek`. -/
def registerKek (kekRef : KekRef) (s : MockKmsBackend) : MockKmsBackend :=
  if (s.keks kekRef).isSome then s
  else
    let digest := Blake3.keyedHash
      (Blake3Hash.hash (literalBytes "arkhe-forge-mock-kms-kek-pad")) kekRef.asBytes
    { s with keks := Function.update s.keks kekRef (some ⟨digestArray digest⟩) }

/-- The DEK material of one KEK at one counter. -/
def dekMaterial (kekRef : KekRef) (counter : UInt64) : Vector UInt8 32 :=
  digestArray (Blake3Hash.hash (derivation "arkhe-forge-mock-kms-dek-material" kekRef counter))

/-- The DEK id of one KEK at one counter: 16 bytes of the digest. -/
def dekIdAt (kekRef : KekRef) (counter : UInt64) : DekId :=
  let digest := Blake3Hash.hash (derivation "arkhe-forge-mock-kms-dek-id" kekRef counter)
  ⟨Vector.ofFn fun i => digest.getD i 0⟩

/-- `MockKmsBackend::generate_dek`. -/
def generateDek (kekRef : KekRef) : Fallible MockKmsBackend KmsError (DekId × Dek) := do
  let s ← get
  if (s.keks kekRef).isNone then throw (.kekNotFound kekRef.id)
  let counter := saturatingSucc s.counter
  set { s with counter := counter }
  pure (dekIdAt kekRef counter, Dek.fromBytes (dekMaterial kekRef counter))

/-- `MockKmsBackend::wrap_dek`. -/
def wrapDek (dek : Dek) (kekRef : KekRef) : Fallible MockKmsBackend KmsError Bytes := do
  match (← get).keks kekRef with
  | none => throw (.kekNotFound kekRef.id)
  | some kek => pure (kek.pad.toList ++ (xorPad dek.material kek.pad).toList)

/-- `MockKmsBackend::unwrap_dek`. -/
def unwrapDek (wrapped : Bytes) (kekRef : KekRef) : Fallible MockKmsBackend KmsError Dek := do
  if wrapped.length ≠ 64 then throw .unwrapFailed
  match (← get).keks kekRef with
  | none => throw (.kekNotFound kekRef.id)
  | some kek =>
    if wrapped.take 32 ≠ kek.pad.toList then throw .unwrapFailed
    pure (Dek.fromUnwrapped (xorPad (digestArray (wrapped.drop 32)) kek.pad) DekConfig.default)

/-- The attestation of one deleted KEK at one log index. -/
def deletionAttestation (kekRef : KekRef) (logIndex : UInt64) : DekShredAttestation where
  attestationClass := .none
  attestationBytes := (digestArray (Blake3Hash.hash
    (derivation "arkhe-forge-mock-kms-delete-attestation" kekRef logIndex))).toList
  logIndex := some logIndex

/-- `MockKmsBackend::delete_key`. -/
def deleteKey (kekRef : KekRef) : Fallible MockKmsBackend KmsError DekShredAttestation := do
  let s ← get
  match s.destroyed kekRef with
  | some cached => pure cached
  | none =>
    if (s.keks kekRef).isNone then throw (.kekNotFound kekRef.id)
    let logIndex := s.destructionLogIndex
    let attestation := deletionAttestation kekRef logIndex
    set { s with
      destructionLogIndex := saturatingSucc logIndex
      keks := Function.update s.keks kekRef none
      destroyed := Function.update s.destroyed kekRef (some attestation) }
    pure attestation

/-- `MockKmsBackend::rotate_kek`. -/
def rotateKek (old new : KekRef) : Fallible MockKmsBackend KmsError Unit := do
  let s ← get
  if (s.keks old).isNone then throw (.kekNotFound old.id)
  if (s.keks new).isNone then throw (.kekNotFound new.id)
  set { s with rotations := s.rotations ++ [(old, new)] }

/-! ## What the calls do -/

theorem exec_generateDek (kekRef : KekRef) (s : MockKmsBackend) :
    (generateDek kekRef).exec s =
      if (s.keks kekRef).isNone then (.error (.kekNotFound kekRef.id), s)
      else
        (.ok (dekIdAt kekRef (saturatingSucc s.counter),
            Dek.fromBytes (dekMaterial kekRef (saturatingSucc s.counter))),
          { s with counter := saturatingSucc s.counter }) := by
  unfold generateDek
  simp only [exec_bind, exec_get]
  cases hkek : s.keks kekRef with
  | none => rfl
  | some kek => rfl

theorem registerKek_counter (kekRef : KekRef) (s : MockKmsBackend) :
    (registerKek kekRef s).counter = s.counter := by
  unfold registerKek
  by_cases hkek : (s.keks kekRef).isSome
  · rw [if_pos hkek]
  · rw [if_neg hkek]

/-- Deleting a KEK leaves the counter of the DEKs alone. -/
theorem exec_deleteKey_counter (kekRef : KekRef) (s : MockKmsBackend) :
    ((deleteKey kekRef).exec s).2.counter = s.counter := by
  unfold deleteKey
  simp only [exec_bind, exec_get]
  cases s.destroyed kekRef with
  | some cached => rfl
  | none =>
      cases s.keks kekRef with
      | none => rfl
      | some kek => rfl

end

theorem exec_rotateKek_counter (old new : KekRef) (s : MockKmsBackend) :
    ((rotateKek old new).exec s).2.counter = s.counter := by
  unfold rotateKek
  simp only [exec_bind, exec_get]
  cases s.keks old with
  | none => rfl
  | some oldKek =>
      cases s.keks new with
      | none => rfl
      | some newKek => rfl

theorem exec_wrapDek (dek : Dek) (kekRef : KekRef) (s : MockKmsBackend) :
    (wrapDek dek kekRef).exec s =
      match s.keks kekRef with
      | none => (.error (.kekNotFound kekRef.id), s)
      | some kek => (.ok (kek.pad.toList ++ (xorPad dek.material kek.pad).toList), s) := by
  unfold wrapDek
  simp only [exec_bind, exec_get]
  cases s.keks kekRef with
  | none => rfl
  | some kek => rfl

theorem exec_unwrapDek (wrapped : Bytes) (kekRef : KekRef) (s : MockKmsBackend) :
    (unwrapDek wrapped kekRef).exec s =
      if wrapped.length ≠ 64 then (.error .unwrapFailed, s)
      else
        match s.keks kekRef with
        | none => (.error (.kekNotFound kekRef.id), s)
        | some kek =>
          if wrapped.take 32 ≠ kek.pad.toList then (.error .unwrapFailed, s)
          else
            (.ok (Dek.fromUnwrapped (xorPad (digestArray (wrapped.drop 32)) kek.pad)
              DekConfig.default), s) := by
  unfold unwrapDek
  by_cases hlength : wrapped.length ≠ 64
  · simp only [hlength, ne_eq, not_false_eq_true, if_true, exec_bind, exec_throw]
  · simp only [hlength, if_false, exec_bind, exec_get]
    cases s.keks kekRef with
    | none => rfl
    | some kek =>
        by_cases hmarker : wrapped.take 32 ≠ kek.pad.toList
        · simp only [hmarker, ne_eq, not_false_eq_true, if_true, exec_bind, exec_throw]
        · simp only [hmarker, if_false, exec_pure]

/-- Wrapping reads the KMS. -/
theorem exec_wrapDek_kms (dek : Dek) (kekRef : KekRef) (s : MockKmsBackend) :
    ((wrapDek dek kekRef).exec s).2 = s := by
  rw [exec_wrapDek]
  cases s.keks kekRef with
  | none => rfl
  | some kek => rfl

/-- Unwrapping reads the KMS. -/
theorem exec_unwrapDek_kms (wrapped : Bytes) (kekRef : KekRef) (s : MockKmsBackend) :
    ((unwrapDek wrapped kekRef).exec s).2 = s := by
  rw [exec_unwrapDek]
  by_cases hlength : wrapped.length ≠ 64
  · rw [if_pos hlength]
  · rw [if_neg hlength]
    cases s.keks kekRef with
    | none => rfl
    | some kek =>
        show (if _ then _ else _ : Except KmsError Dek × MockKmsBackend).2 = s
        by_cases hmarker : wrapped.take 32 ≠ kek.pad.toList
        · rw [if_pos hmarker]
        · rw [if_neg hmarker]

/-- What is unwrapped is long-lived and at the start of its counter. -/
theorem exec_unwrapDek_ok {wrapped : Bytes} {kekRef : KekRef} {s s' : MockKmsBackend} {dek : Dek}
    (h : (unwrapDek wrapped kekRef).exec s = (.ok dek, s')) :
    ∃ material, dek = Dek.fromUnwrapped material DekConfig.default := by
  rw [exec_unwrapDek] at h
  split at h
  · cases h
  · split at h
    · cases h
    · split at h
      · cases h
      · exact ⟨_, (Except.ok.inj (Prod.mk.inj h).1).symm⟩

/-- A wrapped DEK comes back with its material, as long as its KEK is there. -/
theorem exec_unwrapDek_wrapDek {dek : Dek} {kekRef : KekRef} {s s' : MockKmsBackend}
    {wrapped : Bytes} (hwrap : (wrapDek dek kekRef).exec s = (.ok wrapped, s')) :
    (unwrapDek wrapped kekRef).exec s' =
      (.ok (Dek.fromUnwrapped dek.material DekConfig.default), s') := by
  rw [exec_wrapDek] at hwrap
  cases hkek : s.keks kekRef with
  | none =>
      rw [hkek] at hwrap
      cases hwrap
  | some kek =>
      rw [hkek] at hwrap
      obtain ⟨hblob, rfl⟩ := Prod.mk.inj hwrap
      obtain rfl := Except.ok.inj hblob
      have htake : (kek.pad.toList ++ (xorPad dek.material kek.pad).toList).take 32 =
          kek.pad.toList := List.take_left' (by simp)
      have hdrop : (kek.pad.toList ++ (xorPad dek.material kek.pad).toList).drop 32 =
          (xorPad dek.material kek.pad).toList := List.drop_left' (by simp)
      rw [exec_unwrapDek, if_neg (by simp), hkek]
      simp only [htake, hdrop, ne_eq, not_true_eq_false, if_false, digestArray_toList,
        xorPad_xorPad]

end MockKmsBackend

end ArkheForge.Platform
