/-
  The two backends of an erasure (`crypto_erasure.rs`): the shredder of DEKs and the
  store of the encrypted rows, with their in-memory implementations.

  The boxes an observer holds may share what is behind them, and any call may fail for
  a reason of its own, so both traits are classes over one type, the world their calls
  are made in; a fault is part of the world. Two separate backends are the world of
  pairs. Left out: the signing shredder, which wraps the in-memory one.
-/
import ArkheForge.Core.Pii
import ArkheForge.Platform.Projection.Router
import Mathlib.Data.Finset.Erase
import Mathlib.Data.Finset.Insert

namespace ArkheForge.Platform

open ArkheForge.Core BigEndian Fallible

/-! ## Attestations -/

/-- `ProgressScope`. -/
inductive ProgressScope
  | region (label : BoundedString 64)
  | kmsIdentifier (label : BoundedString 64)
  deriving DecidableEq, Repr

/-- `DekShredAttestation`. -/
structure DekShredAttestation where
  attestationClass : RuntimeSignatureClass
  attestationBytes : Bytes
  logIndex : Option UInt64
  deriving DecidableEq, Repr

/-- `RegionProgress`. -/
structure RegionProgress where
  scope : ProgressScope
  shredTick : Tick
  attestationClass : RuntimeSignatureClass
  attestationBytes : Bytes
  deriving DecidableEq, Repr

/-- `ShredResult`. -/
structure ShredResult where
  regions : List RegionProgress
  overall : DekShredAttestation
  deriving DecidableEq, Repr

/-- `DekShredError`. -/
inductive DekShredError
  | unknownDek
  | alreadyShredded
  | backend (message : String)
  deriving DecidableEq, Repr

theorem defaultRegion_le : "default-region".utf8ByteSize ≤ 64 := by decide

/-- `default_region_scope`. -/
def defaultRegionScope : ProgressScope := .region ⟨"default-region", defaultRegion_le⟩

/-- The default body of `shred_with_regions`, from what `shred` returned. -/
def singleRegion (shredTick : Tick) (overall : DekShredAttestation) : ShredResult where
  regions := [⟨defaultRegionScope, shredTick, overall.attestationClass, overall.attestationBytes⟩]
  overall := overall

/-- `DekShredder`. -/
class DekShredder (W : Type) where
  shred : DekId → Fallible W DekShredError DekShredAttestation
  shredWithRegions : DekId → Tick → Fallible W DekShredError ShredResult :=
    fun dekId shredTick => do
      let overall ← shred dekId
      pure (singleRegion shredTick overall)

/-! ## Rows -/

/-- `UserPiiRows`. -/
structure UserPiiRows where
  rows : List UInt64
  dekId : Option DekId
  deriving DecidableEq, Repr

/-- `UserPiiRows::default`. -/
def UserPiiRows.empty : UserPiiRows where
  rows := []
  dekId := none

/-- `PiiRowStore`. -/
class PiiRowStore (W : Type) where
  rowsFor : W → UserId → UserPiiRows
  tombstone : UserId → Fallible W ProjectionError Unit
  isTombstoned : W → UserId → Bool

/-! ## The in-memory shredder -/

/-- `InMemoryDekShredder`. -/
structure InMemoryDekShredder where
  live : Finset DekId
  shredded : DekId → Option DekShredAttestation
  nextLogIndex : UInt64

/-- `u64::checked_add(1)`. -/
def checkedSucc (n : UInt64) : Option UInt64 :=
  if n.toNat + 1 < UInt64.size then some (n + 1) else none

namespace InMemoryDekShredder

/-- `InMemoryDekShredder::new`. -/
def new : InMemoryDekShredder where
  live := ∅
  shredded := fun _ => none
  nextLogIndex := 0

/-- `InMemoryDekShredder::register`. -/
def register (dekId : DekId) (s : InMemoryDekShredder) : InMemoryDekShredder :=
  { s with live := insert dekId s.live }

/-- `InMemoryDekShredder::is_shredded`. -/
def isShredded (s : InMemoryDekShredder) (dekId : DekId) : Bool := (s.shredded dekId).isSome

variable [Blake3]

/-- The attestation of one DEK at one log index. -/
def attestationAt (dekId : DekId) (logIndex : UInt64) : DekShredAttestation :=
  let key := Blake3.deriveKey "arkhe-forge-dek-shred-attestation" dekId.bytes.toList
  let digest := digestArray (Blake3.keyedHash key (toBe 8 logIndex.toNat))
  { attestationClass := .none
    attestationBytes := digest.toList
    logIndex := some logIndex }

/-- `InMemoryDekShredder::issue_attestation`. -/
def issueAttestation (dekId : DekId) :
    Fallible InMemoryDekShredder DekShredError DekShredAttestation := do
  let logIndex := (← get).nextLogIndex
  match checkedSucc logIndex with
  | none => throw (.backend "DEK shred log index overflow")
  | some next =>
    modify fun s => { s with nextLogIndex := next }
    pure (attestationAt dekId logIndex)

/-- `InMemoryDekShredder::shred`. -/
def shred (dekId : DekId) : Fallible InMemoryDekShredder DekShredError DekShredAttestation := do
  let s ← get
  match s.shredded dekId with
  | some cached => pure cached
  | none =>
    if dekId ∉ s.live then throw .unknownDek
    -- taken out before the attestation is issued: a full log loses the DEK
    modify fun s => { s with live := s.live.erase dekId }
    let attestation ← issueAttestation dekId
    modify fun s => { s with shredded := Function.update s.shredded dekId (some attestation) }
    pure attestation

instance : DekShredder InMemoryDekShredder where
  shred := shred

theorem exec_issueAttestation (dekId : DekId) (s : InMemoryDekShredder) :
    (issueAttestation dekId).exec s =
      match checkedSucc s.nextLogIndex with
      | none => (.error (.backend "DEK shred log index overflow"), s)
      | some next => (.ok (attestationAt dekId s.nextLogIndex), { s with nextLogIndex := next }) := by
  unfold issueAttestation
  simp only [exec_bind, exec_get]
  cases checkedSucc s.nextLogIndex with
  | none => rfl
  | some next => rfl

theorem exec_shred (dekId : DekId) (s : InMemoryDekShredder) :
    (shred dekId).exec s =
      match s.shredded dekId with
      | some cached => (.ok cached, s)
      | none =>
        if dekId ∉ s.live then (.error .unknownDek, s)
        else
          match checkedSucc s.nextLogIndex with
          | none =>
            (.error (.backend "DEK shred log index overflow"),
              { s with live := s.live.erase dekId })
          | some next =>
            (.ok (attestationAt dekId s.nextLogIndex),
              { live := s.live.erase dekId
                shredded := Function.update s.shredded dekId
                  (some (attestationAt dekId s.nextLogIndex))
                nextLogIndex := next }) := by
  unfold shred
  simp only [exec_bind, exec_get]
  cases s.shredded dekId with
  | some cached => rfl
  | none =>
      by_cases hlive : dekId ∈ s.live
      · simp only [hlive, not_true_eq_false, if_false, exec_bind, exec_pure, exec_modify,
          exec_issueAttestation]
        cases checkedSucc s.nextLogIndex with
        | none => rfl
        | some next => rfl
      · simp only [hlive, not_false_eq_true, if_true, exec_bind, exec_throw]

/-- One region wraps what `shred` returns. -/
theorem exec_shredWithRegions (dekId : DekId) (shredTick : Tick) (s : InMemoryDekShredder) :
    (DekShredder.shredWithRegions dekId shredTick).exec s =
      (((shred dekId).exec s).1.map (singleRegion shredTick), ((shred dekId).exec s).2) := by
  show (shred dekId >>= fun overall => pure (singleRegion shredTick overall)).exec s = _
  rw [bind_pure_comp, exec_map]

end InMemoryDekShredder

/-! ## The in-memory row store -/

/-- `InMemoryPiiRowStore`. -/
structure InMemoryPiiRowStore where
  users : UserId → Option UserPiiRows
  tombstoned : Finset UserId

namespace InMemoryPiiRowStore

/-- `InMemoryPiiRowStore::new`. -/
def new : InMemoryPiiRowStore where
  users := fun _ => none
  tombstoned := ∅

/-- `InMemoryPiiRowStore::upsert`. -/
def upsert (user : UserId) (rows : List UInt64) (dekId : DekId) (s : InMemoryPiiRowStore) :
    InMemoryPiiRowStore :=
  { s with users := Function.update s.users user (some ⟨rows, some dekId⟩) }

/-- `InMemoryPiiRowStore::rows_for`. -/
def rowsFor (s : InMemoryPiiRowStore) (user : UserId) : UserPiiRows :=
  (s.users user).getD UserPiiRows.empty

/-- `InMemoryPiiRowStore::tombstone`. -/
def tombstone (user : UserId) : Fallible InMemoryPiiRowStore ProjectionError Unit :=
  modify fun s =>
    { users := Function.update s.users user none, tombstoned := insert user s.tombstoned }

/-- `InMemoryPiiRowStore::is_tombstoned`. -/
def isTombstoned (s : InMemoryPiiRowStore) (user : UserId) : Bool := user ∈ s.tombstoned

instance : PiiRowStore InMemoryPiiRowStore where
  rowsFor := rowsFor
  tombstone := tombstone
  isTombstoned := isTombstoned

end InMemoryPiiRowStore

/-! ## Two separate backends -/

section

variable {R S : Type}

instance [PiiRowStore R] : PiiRowStore (R × S) where
  rowsFor w := PiiRowStore.rowsFor w.1
  tombstone user := zoom Prod.fst (fun rows w => (rows, w.2)) id (PiiRowStore.tombstone user)
  isTombstoned w := PiiRowStore.isTombstoned w.1

instance [DekShredder S] : DekShredder (R × S) where
  shred dekId := zoom Prod.snd (fun shredder w => (w.1, shredder)) id (DekShredder.shred dekId)
  shredWithRegions dekId shredTick :=
    zoom Prod.snd (fun shredder w => (w.1, shredder)) id
      (DekShredder.shredWithRegions dekId shredTick)

theorem exec_shredWithRegions_pair [DekShredder S] (dekId : DekId) (shredTick : Tick)
    (w : R × S) :
    (DekShredder.shredWithRegions dekId shredTick).exec w =
      (((DekShredder.shredWithRegions dekId shredTick).exec w.2).1,
        (w.1, ((DekShredder.shredWithRegions dekId shredTick).exec w.2).2)) := by
  show (zoom Prod.snd (fun shredder w => (w.1, shredder)) id
    (DekShredder.shredWithRegions dekId shredTick)).exec w = _
  rw [exec_zoom]
  rcases (DekShredder.shredWithRegions dekId shredTick).exec w.2 with ⟨e | result, shredder⟩
  · rfl
  · rfl

end

end ArkheForge.Platform
