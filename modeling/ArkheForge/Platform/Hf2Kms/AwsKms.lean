/-
  The AWS backend (`hf2_kms/aws_kms.rs`) and the promise of the trait that a deletion is
  idempotent.

  The SDK's client is a parameter: the world behind it may answer each request in any
  way, and nothing is assumed of the answers. The mock notes each deletion and answers
  again from its notes. The AWS backend asks the service again and takes a new index of
  its log, so a second deletion of a key answers as the first did at no point of a run
  (`deleteKey_idempotent_iff`). Left out: the executor that the futures run on.
-/
import ArkheForge.Platform.Hf2Kms.Destroyed

namespace ArkheForge.Platform

open ArkheForge.Core BigEndian Fallible

/-! ## The trait -/

/-- `KmsBackend`. -/
class KmsBackend (S : Type) where
  generateDek : KekRef → Fallible S KmsError (DekId × Dek)
  wrapDek : Dek → KekRef → Fallible S KmsError Bytes
  unwrapDek : Bytes → KekRef → Fallible S KmsError Dek
  deleteKey : KekRef → Fallible S KmsError DekShredAttestation
  rotateKek : KekRef → KekRef → Fallible S KmsError Unit

instance mockKmsBackend [Blake3Hash] : KmsBackend MockKmsBackend where
  generateDek := MockKmsBackend.generateDek
  wrapDek := MockKmsBackend.wrapDek
  unwrapDek := MockKmsBackend.unwrapDek
  deleteKey := MockKmsBackend.deleteKey
  rotateKek := MockKmsBackend.rotateKek

section

variable {S C : Type} [KmsBackend S] (next : C → S → S) (delete : KekRef → C)

/-- In the run of the calls from `s`, where a deletion of a key has returned an attestation
    every later one of the key returns it as well. -/
def DeletesIdempotently (calls : List C) (s : S) : Prop :=
  ∀ before kekRef between after attestation,
    calls = before ++ delete kekRef :: between ++ delete kekRef :: after →
    ((KmsBackend.deleteKey kekRef).exec (before.foldl (fun s c => next c s) s)).1 =
      .ok attestation →
    ((KmsBackend.deleteKey kekRef).exec
      ((before ++ delete kekRef :: between).foldl (fun s c => next c s) s)).1 = .ok attestation

end

/-! ## The AWS backend -/

/-- `GenerateDataKeyOutput`. -/
structure GenerateDataKeyOutput where
  plaintext : Option Bytes
  ciphertextBlob : Option Bytes
  deriving DecidableEq, Repr

/-- `ScheduleKeyDeletionOutput`. The date is in seconds. -/
structure ScheduleKeyDeletionOutput where
  keyId : Option String
  deletionDate : Option Int64
  deriving DecidableEq, Repr

/-- `aws_sdk_kms::Client`: the requests that are sent, over the world of the service. An
    error is what it displays. -/
class KmsClient (W : Type) where
  generateDataKey : String → Fallible W String GenerateDataKeyOutput
  encrypt : String → Bytes → Fallible W String (Option Bytes)
  decrypt : String → Bytes → Fallible W String (Option Bytes)
  scheduleKeyDeletion : String → Int32 → Fallible W String ScheduleKeyDeletionOutput
  describeKey : String → Fallible W String Unit

/-- `AwsKmsBackend`. -/
structure AwsKmsBackend (W : Type) where
  client : W
  destructionLogIndex : UInt64

namespace AwsKmsBackend

variable {W : Type}

/-- `map_sdk_error`. -/
def mapSdkError (e : String) : KmsError := .backend ("aws-sdk-kms: " ++ e)

/-- A request of the client, its errors mapped. -/
def send {α : Type} (wrap : String → KmsError) (request : Fallible W String α) :
    Fallible (AwsKmsBackend W) KmsError α :=
  zoom client (fun client s => { s with client := client }) wrap request

/-- A field of an answer that the code cannot do without. -/
def orUnwrapFailed {α : Type} : Option α → Fallible (AwsKmsBackend W) KmsError α
  | none => throw .unwrapFailed
  | some a => pure a

section

variable [Blake3Hash]

/-- The id of a DEK: 16 bytes of the keyed digest of its ciphertext. -/
def dekIdOf (ciphertext : Bytes) : DekId :=
  let digest := Blake3.keyedHash (Blake3Hash.hash (literalBytes "arkhe-forge-aws-kms-dek-id"))
    ciphertext
  ⟨Vector.ofFn fun i => digest.getD i 0⟩

/-- The attestation of one answer at one log index. -/
def deletionAttestation (out : ScheduleKeyDeletionOutput) (logIndex : UInt64) :
    DekShredAttestation :=
  let keyId := out.keyId.getD ""
  let deletionTs := out.deletionDate.getD 0
  let payload := digestArray (Blake3Hash.hash
    (literalBytes "arkhe-forge-aws-kms-delete-attestation" ++ literalBytes keyId ++
      toLeBytes deletionTs.toUInt64))
  { attestationClass := .none
    attestationBytes := payload.toList
    logIndex := some logIndex }

variable [KmsClient W]

/-- `AwsKmsBackend::generate_dek`. -/
def generateDek (kekRef : KekRef) : Fallible (AwsKmsBackend W) KmsError (DekId × Dek) := do
  let out ← send mapSdkError (KmsClient.generateDataKey kekRef.id)
  let plaintext ← orUnwrapFailed out.plaintext
  if plaintext.length ≠ 32 then
    throw (.backend ("unexpected DEK length: " ++ toString plaintext.length))
  let ciphertext ← orUnwrapFailed out.ciphertextBlob
  pure (dekIdOf ciphertext, Dek.fromBytes (digestArray plaintext))

omit [Blake3Hash] in
/-- `AwsKmsBackend::wrap_dek`. -/
def wrapDek (dek : Dek) (kekRef : KekRef) : Fallible (AwsKmsBackend W) KmsError Bytes := do
  let out ← send mapSdkError (KmsClient.encrypt kekRef.id dek.material.toList)
  orUnwrapFailed out

omit [Blake3Hash] in
/-- `AwsKmsBackend::unwrap_dek`. -/
def unwrapDek (wrapped : Bytes) (kekRef : KekRef) : Fallible (AwsKmsBackend W) KmsError Dek := do
  let out ← send mapSdkError (KmsClient.decrypt kekRef.id wrapped)
  let plaintext ← orUnwrapFailed out
  if plaintext.length ≠ 32 then throw .unwrapFailed
  pure (Dek.fromUnwrapped (digestArray plaintext) DekConfig.default)

/-- `AwsKmsBackend::delete_key`. The counter wraps, as `fetch_add` does. -/
def deleteKey (kekRef : KekRef) : Fallible (AwsKmsBackend W) KmsError DekShredAttestation := do
  let out ← send mapSdkError (KmsClient.scheduleKeyDeletion kekRef.id 7)
  let logIndex := (← get).destructionLogIndex
  modify fun s => { s with destructionLogIndex := logIndex + 1 }
  pure (deletionAttestation out logIndex)

omit [Blake3Hash] in
/-- The `describe_key` request of `rotate_kek` for one of its KEKs. -/
def describe (kekRef : KekRef) : Fallible (AwsKmsBackend W) KmsError Unit :=
  send (fun e => .kekNotFound (kekRef.id ++ ": " ++ e)) (KmsClient.describeKey kekRef.id)

omit [Blake3Hash] in
/-- `AwsKmsBackend::rotate_kek`. -/
def rotateKek (old new : KekRef) : Fallible (AwsKmsBackend W) KmsError Unit := do
  describe old
  describe new

instance kmsBackend : KmsBackend (AwsKmsBackend W) where
  generateDek := generateDek
  wrapDek := wrapDek
  unwrapDek := unwrapDek
  deleteKey := deleteKey
  rotateKek := rotateKek

end

/-! ## Runs -/

/-- A call of the AWS backend. -/
inductive Call
  | generateDek (kekRef : KekRef)
  | wrapDek (dek : Dek) (kekRef : KekRef)
  | unwrapDek (wrapped : Bytes) (kekRef : KekRef)
  | rotateKek (old new : KekRef)
  | deleteKey (kekRef : KekRef)
  deriving DecidableEq, Repr

section

variable [Blake3Hash] [KmsClient W]

/-- The backend after a call. -/
def Call.next : Call → AwsKmsBackend W → AwsKmsBackend W
  | .generateDek kekRef, s => ((AwsKmsBackend.generateDek kekRef).exec s).2
  | .wrapDek dek kekRef, s => ((AwsKmsBackend.wrapDek dek kekRef).exec s).2
  | .unwrapDek wrapped kekRef, s => ((AwsKmsBackend.unwrapDek wrapped kekRef).exec s).2
  | .rotateKek old new, s => ((AwsKmsBackend.rotateKek old new).exec s).2
  | .deleteKey kekRef, s => ((AwsKmsBackend.deleteKey kekRef).exec s).2

/-- The backend after a run of calls. -/
def run (calls : List Call) (s : AwsKmsBackend W) : AwsKmsBackend W :=
  calls.foldl (fun s c => c.next s) s

theorem run_append (calls more : List Call) (s : AwsKmsBackend W) :
    run (calls ++ more) s = run more (run calls s) := List.foldl_append

/-- The service accepts the request to delete the key. -/
def Accepts (kekRef : KekRef) (s : AwsKmsBackend W) : Prop :=
  ∃ out, ((KmsClient.scheduleKeyDeletion kekRef.id 7).exec s.client).1 = .ok out

/-- No deletion of the run is of a key for which the service has accepted an earlier one. -/
def DeletesOnce (calls : List Call) (s : AwsKmsBackend W) : Prop :=
  ∀ before kekRef between after,
    calls = before ++ .deleteKey kekRef :: between ++ .deleteKey kekRef :: after →
    ¬ Accepts kekRef (run before s)

/-! ## One call -/

theorem exec_deleteKey (kekRef : KekRef) (s : AwsKmsBackend W) :
    (deleteKey kekRef).exec s =
      match (KmsClient.scheduleKeyDeletion kekRef.id 7).exec s.client with
      | (.error e, client) => (.error (mapSdkError e), { s with client := client })
      | (.ok out, client) => (.ok (deletionAttestation out s.destructionLogIndex),
          { client := client, destructionLogIndex := s.destructionLogIndex + 1 }) := by
  unfold deleteKey send
  rw [exec_bind, exec_zoom]
  rcases (KmsClient.scheduleKeyDeletion kekRef.id 7).exec s.client with ⟨e | out, client⟩
  · rfl
  · rfl

/-- A deletion returns exactly where the service accepts the request, at the index of the
    log and with the index taken. -/
theorem deleteKey_eq_ok {kekRef : KekRef} {s : AwsKmsBackend W} {a : DekShredAttestation}
    (h : ((deleteKey kekRef).exec s).1 = .ok a) :
    Accepts kekRef s ∧ a.logIndex = some s.destructionLogIndex ∧
      ((deleteKey kekRef).exec s).2.destructionLogIndex = s.destructionLogIndex + 1 := by
  rw [exec_deleteKey] at h ⊢
  unfold Accepts
  rcases hsent : (KmsClient.scheduleKeyDeletion kekRef.id 7).exec s.client with ⟨e | out, client⟩
  · rw [hsent] at h
    cases h
  · rw [hsent] at h
    obtain rfl := Except.ok.inj h
    exact ⟨⟨out, rfl⟩, rfl, rfl⟩

theorem Accepts.deleteKey_ok {kekRef : KekRef} {s : AwsKmsBackend W} (h : Accepts kekRef s) :
    ∃ a, ((deleteKey kekRef).exec s).1 = .ok a := by
  obtain ⟨out, hout⟩ := h
  rw [exec_deleteKey]
  rcases hsent : (KmsClient.scheduleKeyDeletion kekRef.id 7).exec s.client with ⟨e | out', client⟩
  · rw [hsent] at hout
    cases hout
  · exact ⟨_, rfl⟩

/-- A computation that takes no index. -/
def KeepsIndex {α : Type} (m : Fallible (AwsKmsBackend W) KmsError α) : Prop :=
  ∀ s, (m.exec s).2.destructionLogIndex = s.destructionLogIndex

section

omit [Blake3Hash] [KmsClient W]

theorem keepsIndex_pure {α : Type} (a : α) :
    KeepsIndex (pure a : Fallible (AwsKmsBackend W) KmsError α) := fun _ => rfl

theorem keepsIndex_throw {α : Type} (e : KmsError) :
    KeepsIndex (throw e : Fallible (AwsKmsBackend W) KmsError α) := fun _ => rfl

theorem keepsIndex_send {α : Type} (wrap : String → KmsError) (request : Fallible W String α) :
    KeepsIndex (send wrap request : Fallible (AwsKmsBackend W) KmsError α) := by
  intro s
  unfold send
  rw [exec_zoom]

theorem keepsIndex_orUnwrapFailed {α : Type} (a : Option α) :
    KeepsIndex (orUnwrapFailed a : Fallible (AwsKmsBackend W) KmsError α) := by
  cases a with
  | none => exact keepsIndex_throw .unwrapFailed
  | some a => exact keepsIndex_pure a

theorem keepsIndex_bind {α β : Type} {m : Fallible (AwsKmsBackend W) KmsError α}
    {k : α → Fallible (AwsKmsBackend W) KmsError β} (hm : KeepsIndex m)
    (hk : ∀ a, KeepsIndex (k a)) : KeepsIndex (m >>= k) := by
  intro s
  have hfirst := hm s
  rw [exec_bind]
  rcases hexec : m.exec s with ⟨e | a, s'⟩
  · rw [hexec] at hfirst
    exact hfirst
  · rw [hexec] at hfirst
    exact (hk a s').trans hfirst

end

theorem keepsIndex_generateDek (kekRef : KekRef) :
    KeepsIndex (generateDek kekRef : Fallible (AwsKmsBackend W) KmsError (DekId × Dek)) := by
  refine keepsIndex_bind (keepsIndex_send _ _) fun out => ?_
  refine keepsIndex_bind (keepsIndex_orUnwrapFailed _) fun plaintext => ?_
  split
  · exact keepsIndex_throw _
  · exact keepsIndex_bind (keepsIndex_orUnwrapFailed _) fun _ => keepsIndex_pure _

omit [Blake3Hash] in
theorem keepsIndex_wrapDek (dek : Dek) (kekRef : KekRef) :
    KeepsIndex (wrapDek dek kekRef : Fallible (AwsKmsBackend W) KmsError Bytes) :=
  keepsIndex_bind (keepsIndex_send _ _) fun _ => keepsIndex_orUnwrapFailed _

omit [Blake3Hash] in
theorem keepsIndex_unwrapDek (wrapped : Bytes) (kekRef : KekRef) :
    KeepsIndex (unwrapDek wrapped kekRef : Fallible (AwsKmsBackend W) KmsError Dek) := by
  refine keepsIndex_bind (keepsIndex_send _ _) fun out => ?_
  refine keepsIndex_bind (keepsIndex_orUnwrapFailed _) fun plaintext => ?_
  split
  · exact keepsIndex_throw _
  · exact keepsIndex_pure _

omit [Blake3Hash] in
theorem keepsIndex_rotateKek (old new : KekRef) :
    KeepsIndex (rotateKek old new : Fallible (AwsKmsBackend W) KmsError Unit) :=
  keepsIndex_bind (keepsIndex_send _ _) fun _ => keepsIndex_send _ _

/-- A call takes one index or none. -/
theorem next_index (c : Call) (s : AwsKmsBackend W) :
    (c.next s).destructionLogIndex = s.destructionLogIndex ∨
      (c.next s).destructionLogIndex = s.destructionLogIndex + 1 := by
  cases c with
  | generateDek kekRef => exact .inl (keepsIndex_generateDek kekRef s)
  | wrapDek dek kekRef => exact .inl (keepsIndex_wrapDek dek kekRef s)
  | unwrapDek wrapped kekRef => exact .inl (keepsIndex_unwrapDek wrapped kekRef s)
  | rotateKek old new => exact .inl (keepsIndex_rotateKek old new s)
  | deleteKey kekRef =>
      show ((deleteKey kekRef).exec s).2.destructionLogIndex = _ ∨
        ((deleteKey kekRef).exec s).2.destructionLogIndex = _
      rw [exec_deleteKey]
      rcases (KmsClient.scheduleKeyDeletion kekRef.id 7).exec s.client with ⟨e | out, client⟩
      · exact .inl rfl
      · exact .inr rfl

/-- A run takes no more indices than it has calls. -/
theorem run_index (calls : List Call) (s : AwsKmsBackend W) :
    ∃ n, n ≤ calls.length ∧
      (run calls s).destructionLogIndex = s.destructionLogIndex + UInt64.ofNat n := by
  induction calls generalizing s with
  | nil => exact ⟨0, le_rfl, (UInt64.add_zero _).symm⟩
  | cons c calls ih =>
      obtain ⟨n, hn, hindex⟩ := ih (c.next s)
      rw [List.length_cons]
      rcases next_index c s with hkept | htaken
      · exact ⟨n, by omega, by rw [← hkept]; exact hindex⟩
      · refine ⟨n + 1, by omega, ?_⟩
        show (run calls (c.next s)).destructionLogIndex = _
        rw [hindex, htaken, UInt64.ofNat_add, UInt64.add_assoc, UInt64.add_comm 1]
        rfl

/-! ## Deleting twice -/

/-- Short of `2^64` calls a second deletion does not return what the first one did. -/
theorem not_idempotent {kekRef : KekRef} {s : AwsKmsBackend W} {between : List Call}
    {a : DekShredAttestation} (hfirst : ((deleteKey kekRef).exec s).1 = .ok a)
    (hshort : between.length + 1 < 2 ^ 64) :
    ((deleteKey kekRef).exec (run (.deleteKey kekRef :: between) s)).1 ≠ .ok a := by
  intro hsecond
  obtain ⟨-, hindex, htaken⟩ := deleteKey_eq_ok hfirst
  obtain ⟨-, hindex', -⟩ := deleteKey_eq_ok hsecond
  obtain ⟨n, hn, hrun⟩ := run_index between ((deleteKey kekRef).exec s).2
  have hlater : (run (.deleteKey kekRef :: between) s).destructionLogIndex =
      s.destructionLogIndex + 1 + UInt64.ofNat n := by
    rw [← htaken]
    exact hrun
  rw [hindex, hlater] at hindex'
  have hnat := congrArg UInt64.toNat (Option.some.inj hindex')
  have hn : n < 2 ^ 64 := by omega
  rw [UInt64.toNat_add, UInt64.toNat_add, UInt64.toNat_one, UInt64.toNat_ofNat',
    Nat.mod_eq_of_lt hn] at hnat
  have hbound := s.destructionLogIndex.toNat_lt
  omega

/-- A run that deletes no key again has nothing to answer again. -/
theorem idempotent_of_deletesOnce {calls : List Call} {s : AwsKmsBackend W}
    (h : DeletesOnce calls s) : DeletesIdempotently Call.next Call.deleteKey calls s := by
  intro before kekRef between after a hsplit hfirst
  exact absurd (deleteKey_eq_ok hfirst).1 (h before kekRef between after hsplit)

theorem deletesOnce_of_idempotent {calls : List Call} {s : AwsKmsBackend W}
    (hshort : calls.length < 2 ^ 64)
    (h : DeletesIdempotently Call.next Call.deleteKey calls s) : DeletesOnce calls s := by
  intro before kekRef between after hsplit haccepts
  obtain ⟨a, hfirst⟩ := haccepts.deleteKey_ok
  have hbetween : between.length + 1 < 2 ^ 64 := by
    have hlength := congrArg List.length hsplit
    simp only [List.length_append, List.length_cons] at hlength
    omega
  refine not_idempotent hfirst hbetween ?_
  rw [← run_append]
  exact h before kekRef between after a hsplit hfirst

end

end AwsKmsBackend

namespace MockKmsBackend

variable [Blake3Hash]

/-- The mock answers a deletion from its notes. -/
theorem idempotent (calls : List Call) (s : MockKmsBackend) :
    DeletesIdempotently Call.next Call.deleteKey calls s := by
  intro before kekRef between after a _ hfirst
  have hattested : ((Call.deleteKey kekRef).next (run before s)).destroyed kekRef = some a :=
    attested_deleteKey hfirst
  have hkept : (run (before ++ .deleteKey kekRef :: between) s).destroyed kekRef = some a := by
    rw [run_append]
    exact attested_run hattested between
  show ((deleteKey kekRef).exec (run (before ++ .deleteKey kekRef :: between) s)).1 = .ok a
  rw [exec_deleteKey, hkept]

end MockKmsBackend

/-- **When a deletion is idempotent.** The mock's is, in every run from every state. The AWS
    backend's is in a run that deletes no key again for which the service has accepted a
    deletion, whatever the service answers, and in no other run of fewer than `2^64`
    calls. -/
theorem deleteKey_idempotent_iff [Blake3Hash] :
    (∀ (calls : List MockKmsBackend.Call) (s : MockKmsBackend),
      DeletesIdempotently MockKmsBackend.Call.next .deleteKey calls s) ∧
    ∀ (W : Type) [KmsClient W] (calls : List AwsKmsBackend.Call) (s : AwsKmsBackend W),
      (AwsKmsBackend.DeletesOnce calls s →
        DeletesIdempotently AwsKmsBackend.Call.next .deleteKey calls s) ∧
      (calls.length < 2 ^ 64 →
        DeletesIdempotently AwsKmsBackend.Call.next .deleteKey calls s →
          AwsKmsBackend.DeletesOnce calls s) :=
  ⟨MockKmsBackend.idempotent, fun _ _ _ _ =>
    ⟨AwsKmsBackend.idempotent_of_deletesOnce, AwsKmsBackend.deletesOnce_of_idempotent⟩⟩

/-- A service of which only the keys scheduled for deletion matter. -/
structure PendingKeys where
  pending : List String

/-- It refuses the second request for a key. -/
def PendingKeys.schedule (keyId : String) :
    Fallible PendingKeys String ScheduleKeyDeletionOutput := do
  if keyId ∈ (← get).pending then throw "KMSInvalidStateException"
  modify fun s => ⟨keyId :: s.pending⟩
  pure ⟨some keyId, some 1700000000⟩

/-- Its other requests are refused. -/
abbrev pendingKeysClient : KmsClient PendingKeys where
  generateDataKey _ := throw "AccessDeniedException"
  encrypt _ _ := throw "AccessDeniedException"
  decrypt _ _ := throw "AccessDeniedException"
  scheduleKeyDeletion keyId _ := PendingKeys.schedule keyId
  describeKey _ := throw "AccessDeniedException"

section

attribute [local instance] oneChunkBlake3Hash pendingKeysClient

/-- The second deletion of a key fails. -/
theorem not_deletesIdempotently_twice :
    ¬ ∀ (calls : List AwsKmsBackend.Call) (s : AwsKmsBackend PendingKeys),
      DeletesIdempotently AwsKmsBackend.Call.next .deleteKey calls s := by
  intro hclaim
  have hsecond := hclaim [.deleteKey ⟨"kek"⟩, .deleteKey ⟨"kek"⟩] ⟨⟨[]⟩, 0⟩ [] ⟨"kek"⟩ [] []
    (AwsKmsBackend.deletionAttestation ⟨some "kek", some 1700000000⟩ 0) rfl rfl
  nomatch hsecond

end

end ArkheForge.Platform
