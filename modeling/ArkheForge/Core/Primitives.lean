/-
  The storage and wire types of `arkhe-forge-core`: handles, components with their
  type codes, the six action payloads and the one event they emit (`user.rs`,
  `actor.rs`, `space.rs`, `activity.rs`, `component.rs`, `event.rs`).

  Serialization (`postcard`), the keyed hash (`blake3`) and Ed25519 (`ed25519_dalek`)
  are not part of the repository and enter as the classes `Postcard`, `Blake3` and
  `Ed25519Dalek`.
-/
import ArkheForge.Kernel.Instance

namespace ArkheForge.Core

open BigEndian

/-! ## Outside crates -/

/-- `postcard::Error`. -/
inductive PostcardError
  | serialize
  | deserialize
  deriving DecidableEq, Repr

/-- `postcard::to_stdvec` and `postcard::from_bytes` at one type. -/
class Postcard (α : Type) where
  toStdvec : α → Except PostcardError Bytes
  fromBytes : Bytes → Except PostcardError α

/-- Serializing an `α` never fails. -/
def Postcard.Total (α : Type) [Postcard α] : Prop :=
  ∀ x : α, ∃ b, Postcard.toStdvec x = .ok b

/-- What was serialized decodes to the same value. -/
def Postcard.RoundTrip (α : Type) [Postcard α] : Prop :=
  ∀ (x : α) (b : Bytes), Postcard.toStdvec x = .ok b → Postcard.fromBytes b = .ok x

/-- `blake3::derive_key` and the keyed hash. -/
class Blake3 where
  deriveKey : String → Bytes → Bytes
  keyedHash : Bytes → Bytes → Bytes

/-- `blake3::Hasher` and the hash that takes no key, besides the other two. -/
class Blake3Hash extends Blake3 where
  hash : Bytes → Bytes

/-- A digest as an array. -/
def digestArray (digest : Bytes) : Vector UInt8 32 := Vector.ofFn fun i => digest.getD i 0

theorem digestArray_toList (v : Vector UInt8 32) : digestArray v.toList = v := by
  apply Vector.ext
  intro i hi
  simp [digestArray, List.getD]

/-- `ed25519_dalek`: a key decoder and the two checks of a signature. -/
class Ed25519Dalek where
  VerifyingKey : Type
  /-- `VerifyingKey::from_bytes`. -/
  fromBytes : Bytes → Option VerifyingKey
  /-- `Verifier::verify`. -/
  verify : VerifyingKey → Bytes → Bytes → Bool
  /-- `VerifyingKey::verify_strict`. -/
  verifyStrict : VerifyingKey → Bytes → Bytes → Bool

/-! ## Traits -/

/-- `ArkheComponent`. -/
class ArkheComponent (C : Type) where
  typeCode : TypeCode
  schemaVersion : UInt16

/-- `ArkheEvent`. -/
class ArkheEvent (E : Type) where
  typeCode : TypeCode

/-- `ArkheAction`. -/
class ArkheAction (A : Type) where
  typeCode : TypeCode
  schemaVersion : UInt16
  band : UInt8
  idempotent : Bool

/-! ## Handles and bounded strings -/

/-- `bytes::Bytes`: its length is a `usize`. -/
abbrev RawBytes := { bs : Bytes // bs.length < UInt64.size }

/-- `ShellId`: 16 opaque bytes. -/
structure ShellId where
  bytes : Vector UInt8 16
  deriving DecidableEq, Repr

/-- `UserId`. -/
structure UserId where
  get : EntityId
  deriving DecidableEq, Repr

/-- `ActorId`. -/
structure ActorId where
  get : EntityId
  deriving DecidableEq, Repr

/-- `SpaceId`. -/
structure SpaceId where
  get : EntityId
  deriving DecidableEq, Repr

/-- `ActivityId`. -/
structure ActivityId where
  get : EntityId
  deriving DecidableEq, Repr

/-- `EntryId`. -/
structure EntryId where
  get : EntityId
  deriving DecidableEq, Repr

/-- `BoundedString<N>`: at most `cap` bytes of UTF-8. -/
structure BoundedString (cap : ℕ) where
  asStr : String
  asStr_le : asStr.utf8ByteSize ≤ cap
  deriving DecidableEq, Repr

/-- `BoundedStringError`. -/
inductive BoundedStringError
  | overflow (len cap : ℕ)
  deriving DecidableEq, Repr

/-- `BoundedString::new`. -/
def BoundedString.new (cap : ℕ) (s : String) : Except BoundedStringError (BoundedString cap) :=
  if h : s.utf8ByteSize ≤ cap then .ok ⟨s, h⟩ else .error (.overflow s.utf8ByteSize cap)

/-! ## User -/

/-- `AuthKind`. -/
inductive AuthKind
  | passkey
  | email
  | handle
  | address
  deriving DecidableEq, Repr

/-- `GdprStatus`. -/
inductive GdprStatus
  | active
  | erasurePending
  | erased
  deriving DecidableEq, Repr

/-- `KdfKind`. -/
inductive KdfKind
  | argon2id
  | scrypt
  deriving DecidableEq, Repr

/-- `KdfParams`. -/
structure KdfParams where
  mCost : UInt32
  tCost : UInt32
  pCost : UInt32
  deriving DecidableEq, Repr

/-- `UserProfile`. -/
structure UserProfile where
  schemaVersion : UInt16
  createdTick : Tick
  primaryAuthKind : AuthKind
  deriving DecidableEq, Repr

/-- `UserGdprState`. -/
structure UserGdprState where
  schemaVersion : UInt16
  status : GdprStatus
  deriving DecidableEq, Repr

/-- `AuthCredential`. -/
structure AuthCredential where
  schemaVersion : UInt16
  kind : AuthKind
  kdf : KdfKind
  salt : Vector UInt8 16
  credentialHash : Vector UInt8 32
  kdfParams : KdfParams
  expiresTick : Option Tick
  boundTick : Tick
  deriving DecidableEq, Repr

/-- `RegisterUser`. -/
structure RegisterUser where
  schemaVersion : UInt16
  profile : UserProfile
  credential : AuthCredential
  deriving DecidableEq, Repr

/-- `GdprEraseUser`. -/
structure GdprEraseUser where
  schemaVersion : UInt16
  user : UserId
  deriving DecidableEq, Repr

/-- `UserErasureScheduled`. -/
structure UserErasureScheduled where
  schemaVersion : UInt16
  user : UserId
  scheduledTick : Tick
  deriving DecidableEq, Repr

instance : ArkheComponent UserProfile := ⟨0x00030001, 1⟩

instance : ArkheComponent AuthCredential := ⟨0x00030002, 1⟩

instance : ArkheComponent UserGdprState := ⟨0x00030003, 1⟩

instance : ArkheEvent UserErasureScheduled := ⟨0x00030F02⟩

instance : ArkheAction RegisterUser := ⟨0x00010001, 1, 1, false⟩

instance : ArkheAction GdprEraseUser := ⟨0x00010003, 1, 1, false⟩

/-! ## Actor -/

/-- `ActorKind`. -/
inductive ActorKind
  | human
  | bot
  | system
  | anonymous
  deriving DecidableEq, Repr

/-- `ActorProfile`. -/
structure ActorProfile where
  schemaVersion : UInt16
  shellId : ShellId
  handle : BoundedString 32
  kind : ActorKind
  createdTick : Tick
  deriving DecidableEq, Repr

/-- `UserBinding`. -/
structure UserBinding where
  schemaVersion : UInt16
  userId : UserId
  deriving DecidableEq, Repr

/-- `RegisterActor`. -/
structure RegisterActor where
  schemaVersion : UInt16
  profile : ActorProfile
  user : UserId
  deriving DecidableEq, Repr

instance : ArkheComponent ActorProfile := ⟨0x00030101, 1⟩

instance : ArkheComponent UserBinding := ⟨0x00030102, 1⟩

instance : ArkheAction RegisterActor := ⟨0x00010101, 1, 1, false⟩

/-! ## Space -/

/-- `SpaceKind`. -/
inductive SpaceKind
  | flat
  | tree
  | graph
  | hashtag
  | actorFeed
  | extension (typeCode : TypeCode)
  deriving DecidableEq, Repr

/-- `Visibility`. -/
inductive Visibility
  | publicVisibility
  | restrictedByRole
  | subscribersOnly
  | privateInvite
  | encrypted
  deriving DecidableEq, Repr

/-- `SpaceConfig`. -/
structure SpaceConfig where
  schemaVersion : UInt16
  shellId : ShellId
  slug : BoundedString 32
  kind : SpaceKind
  visibility : Visibility
  creator : ActorId
  parentSpace : Option SpaceId
  createdTick : Tick
  deriving DecidableEq, Repr

/-- `ParentChainDepth`. -/
structure ParentChainDepth where
  schemaVersion : UInt16
  depth : UInt8
  deriving DecidableEq, Repr

/-- `SpaceConfigDraft`: the configuration without its creator. -/
structure SpaceConfigDraft where
  schemaVersion : UInt16
  shellId : ShellId
  slug : BoundedString 32
  kind : SpaceKind
  visibility : Visibility
  parentSpace : Option SpaceId
  createdTick : Tick
  deriving DecidableEq, Repr

/-- `SpaceConfigDraft::into_config`. -/
def SpaceConfigDraft.intoConfig (draft : SpaceConfigDraft) (creator : ActorId) : SpaceConfig where
  schemaVersion := draft.schemaVersion
  shellId := draft.shellId
  slug := draft.slug
  kind := draft.kind
  visibility := draft.visibility
  creator := creator
  parentSpace := draft.parentSpace
  createdTick := draft.createdTick

/-- `CreateSpace`. -/
structure CreateSpace where
  schemaVersion : UInt16
  config : SpaceConfigDraft
  deriving DecidableEq, Repr

instance : ArkheComponent SpaceConfig := ⟨0x00030201, 1⟩

instance : ArkheComponent ParentChainDepth := ⟨0x00030202, 1⟩

instance : ArkheAction CreateSpace := ⟨0x00010201, 1, 1, false⟩

/-! ## Activity -/

/-- `VerbCode`. -/
structure VerbCode where
  code : TypeCode
  deriving DecidableEq, Repr

/-- `TargetKind`. -/
inductive TargetKind
  | entry (id : EntryId)
  | actor (id : ActorId)
  | space (id : SpaceId)
  | activity (id : ActivityId)
  | extension (typeCode : TypeCode) (id : EntityId)
  deriving DecidableEq, Repr

/-- `ActivityStatus`. -/
inductive ActivityStatus
  | active
  | retracted (tick : Tick)
  deriving DecidableEq, Repr

/-- `ActivityRecord`. -/
structure ActivityRecord where
  schemaVersion : UInt16
  shellId : ShellId
  actor : ActorId
  verb : VerbCode
  target : TargetKind
  atTick : Tick
  status : ActivityStatus
  extraBytes : RawBytes
  deriving DecidableEq, Repr

/-- `ActivityDraft`: the activity without its acting actor. -/
structure ActivityDraft where
  schemaVersion : UInt16
  shellId : ShellId
  verb : VerbCode
  target : TargetKind
  atTick : Tick
  status : ActivityStatus
  extraBytes : RawBytes
  deriving DecidableEq, Repr

/-- `ActivityDraft::into_record`. -/
def ActivityDraft.intoRecord (draft : ActivityDraft) (actor : ActorId) : ActivityRecord where
  schemaVersion := draft.schemaVersion
  shellId := draft.shellId
  actor := actor
  verb := draft.verb
  target := draft.target
  atTick := draft.atTick
  status := draft.status
  extraBytes := draft.extraBytes

/-- `SubmitActivity`. -/
structure SubmitActivity where
  schemaVersion : UInt16
  draft : ActivityDraft
  idempotencyKey : Option (Vector UInt8 16)
  deriving DecidableEq, Repr

/-- `RetractActivity`. -/
structure RetractActivity where
  schemaVersion : UInt16
  activity : ActivityId
  deriving DecidableEq, Repr

instance : ArkheComponent ActivityRecord := ⟨0x00030401, 1⟩

instance : ArkheAction SubmitActivity := ⟨0x00010401, 1, 1, true⟩

instance : ArkheAction RetractActivity := ⟨0x00010402, 1, 1, false⟩

/-! ## Audit receipts -/

/-- `RuntimeSignatureClass`. -/
inductive RuntimeSignatureClass
  | none
  | ed25519
  | mlDsa65
  | hybrid
  deriving DecidableEq, Repr

/-! ## The serializers in use -/

/-- `postcard` at every type the six actions store or emit. -/
class CoreWire where
  userProfile : Postcard UserProfile
  authCredential : Postcard AuthCredential
  userGdprState : Postcard UserGdprState
  actorProfile : Postcard ActorProfile
  userBinding : Postcard UserBinding
  spaceConfig : Postcard SpaceConfig
  parentChainDepth : Postcard ParentChainDepth
  activityRecord : Postcard ActivityRecord
  userErasureScheduled : Postcard UserErasureScheduled

instance [wire : CoreWire] : Postcard UserProfile := wire.userProfile

instance [wire : CoreWire] : Postcard AuthCredential := wire.authCredential

instance [wire : CoreWire] : Postcard UserGdprState := wire.userGdprState

instance [wire : CoreWire] : Postcard ActorProfile := wire.actorProfile

instance [wire : CoreWire] : Postcard UserBinding := wire.userBinding

instance [wire : CoreWire] : Postcard SpaceConfig := wire.spaceConfig

instance [wire : CoreWire] : Postcard ParentChainDepth := wire.parentChainDepth

instance [wire : CoreWire] : Postcard ActivityRecord := wire.activityRecord

instance [wire : CoreWire] : Postcard UserErasureScheduled := wire.userErasureScheduled

/-- Component and event serialization succeeds. -/
structure CoreWire.Serializes [CoreWire] : Prop where
  userProfile : Postcard.Total UserProfile
  authCredential : Postcard.Total AuthCredential
  userGdprState : Postcard.Total UserGdprState
  actorProfile : Postcard.Total ActorProfile
  userBinding : Postcard.Total UserBinding
  spaceConfig : Postcard.Total SpaceConfig
  parentChainDepth : Postcard.Total ParentChainDepth
  activityRecord : Postcard.Total ActivityRecord
  userErasureScheduled : Postcard.Total UserErasureScheduled

end ArkheForge.Core
