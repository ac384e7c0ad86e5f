/-
  The postcard wire format of the stored types.

  Fields in declaration order, integers as variable-length integers (`u8` as it
  is), handles and newtypes as what they wrap, byte arrays without and strings with
  their length, an `Option` behind a tag, an enum as its variant index. The format
  is put together from `Codec`, so it serializes every value (`postcard_serializes`)
  and decodes what it wrote (`Postcard.ofCodec_roundTrip`): the hypotheses under which the
  other modules use a `CoreWire` are those of an actual serializer.
-/
import ArkheForge.Core.Primitives
import ArkheForge.Lib.Codec

namespace ArkheForge.Core

open BigEndian

namespace Wire

/-! ## Handles and enums -/

def entityId : Codec EntityId :=
  Codec.u64.via EntityId.new EntityId.get fun _ => EntityId.new_eq_some.mpr rfl

def userId : Codec UserId := entityId.via (fun id => some ⟨id⟩) UserId.get fun _ => rfl

def actorId : Codec ActorId := entityId.via (fun id => some ⟨id⟩) ActorId.get fun _ => rfl

def spaceId : Codec SpaceId := entityId.via (fun id => some ⟨id⟩) SpaceId.get fun _ => rfl

def shellId : Codec ShellId := (Codec.fixed 16).via (fun b => some ⟨b⟩) ShellId.bytes fun _ => rfl

def boundedString : Codec (BoundedString 32) :=
  (Codec.text 32 (by decide)).via (fun s => some ⟨s.1, s.2⟩) (fun s => ⟨s.asStr, s.asStr_le⟩)
    fun _ => rfl

def authKind : Codec AuthKind :=
  Codec.enum
    (fun | .passkey => 0 | .email => 1 | .handle => 2 | .address => 3)
    (fun | 0 => some .passkey | 1 => some .email | 2 => some .handle | 3 => some .address
         | _ => none)
    (by rintro (_ | _) <;> rfl)

def gdprStatus : Codec GdprStatus :=
  Codec.enum
    (fun | .active => 0 | .erasurePending => 1 | .erased => 2)
    (fun | 0 => some .active | 1 => some .erasurePending | 2 => some .erased | _ => none)
    (by rintro (_ | _) <;> rfl)

def kdfKind : Codec KdfKind :=
  Codec.enum (fun | .argon2id => 0 | .scrypt => 1)
    (fun | 0 => some .argon2id | 1 => some .scrypt | _ => none)
    (by rintro (_ | _) <;> rfl)

def actorKind : Codec ActorKind :=
  Codec.enum
    (fun | .human => 0 | .bot => 1 | .system => 2 | .anonymous => 3)
    (fun | 0 => some .human | 1 => some .bot | 2 => some .system | 3 => some .anonymous
         | _ => none)
    (by rintro (_ | _) <;> rfl)

def visibility : Codec Visibility :=
  Codec.enum
    (fun | .publicVisibility => 0 | .restrictedByRole => 1 | .subscribersOnly => 2
         | .privateInvite => 3 | .encrypted => 4)
    (fun | 0 => some .publicVisibility | 1 => some .restrictedByRole
         | 2 => some .subscribersOnly | 3 => some .privateInvite | 4 => some .encrypted
         | _ => none)
    (by rintro (_ | _) <;> rfl)

def spaceKind : Codec SpaceKind :=
  Codec.variants
    (fun | .flat => 0 | .tree => 1 | .graph => 2 | .hashtag => 3 | .actorFeed => 4
         | .extension _ => 5)
    (fun | .extension tc => Codec.u32.encode tc | _ => [])
    (fun | 0, bs => some (.flat, bs) | 1, bs => some (.tree, bs) | 2, bs => some (.graph, bs)
         | 3, bs => some (.hashtag, bs) | 4, bs => some (.actorFeed, bs)
         | 5, bs => Codec.u32.read .extension bs | _, _ => none)
    (by rintro (_ | _) rest <;> simp)

def targetKind : Codec TargetKind :=
  Codec.variants
    (fun | .entry _ => 0 | .actor _ => 1 | .space _ => 2 | .activity _ => 3 | .extension _ _ => 4)
    (fun | .entry id => entityId.encode id.get | .actor id => entityId.encode id.get
         | .space id => entityId.encode id.get | .activity id => entityId.encode id.get
         | .extension tc id => (Codec.u32.pair entityId).encode (tc, id))
    (fun | 0, bs => entityId.read (fun id => .entry ⟨id⟩) bs
         | 1, bs => entityId.read (fun id => .actor ⟨id⟩) bs
         | 2, bs => entityId.read (fun id => .space ⟨id⟩) bs
         | 3, bs => entityId.read (fun id => .activity ⟨id⟩) bs
         | 4, bs => (Codec.u32.pair entityId).read (fun (tc, id) => .extension tc id) bs
         | _, _ => none)
    (by rintro (_ | _) rest <;> simp)

def activityStatus : Codec ActivityStatus :=
  Codec.variants
    (fun | .active => 0 | .retracted _ => 1)
    (fun | .active => [] | .retracted tick => Codec.u64.encode tick)
    (fun | 0, bs => some (.active, bs) | 1, bs => Codec.u64.read .retracted bs | _, _ => none)
    (by rintro (_ | _) rest <;> simp)

/-! ## Components and the event -/

def kdfParams : Codec KdfParams :=
  (Codec.u32.pair (Codec.u32.pair Codec.u32)).via (fun (m, t, p) => some ⟨m, t, p⟩)
    (fun x => (x.mCost, x.tCost, x.pCost)) fun _ => rfl

def userProfile : Codec UserProfile :=
  (Codec.u16.pair (Codec.u64.pair authKind)).via (fun (v, t, k) => some ⟨v, t, k⟩)
    (fun x => (x.schemaVersion, x.createdTick, x.primaryAuthKind)) fun _ => rfl

def userGdprState : Codec UserGdprState :=
  (Codec.u16.pair gdprStatus).via (fun (v, s) => some ⟨v, s⟩)
    (fun x => (x.schemaVersion, x.status)) fun _ => rfl

def authCredential : Codec AuthCredential :=
  (Codec.u16.pair (authKind.pair (kdfKind.pair ((Codec.fixed 16).pair ((Codec.fixed 32).pair
    (kdfParams.pair ((Codec.option Codec.u64).pair Codec.u64))))))).via
    (fun (v, k, f, s, h, p, e, b) => some ⟨v, k, f, s, h, p, e, b⟩)
    (fun x => (x.schemaVersion, x.kind, x.kdf, x.salt, x.credentialHash, x.kdfParams,
      x.expiresTick, x.boundTick)) fun _ => rfl

def userErasureScheduled : Codec UserErasureScheduled :=
  (Codec.u16.pair (userId.pair Codec.u64)).via (fun (v, u, t) => some ⟨v, u, t⟩)
    (fun x => (x.schemaVersion, x.user, x.scheduledTick)) fun _ => rfl

def actorProfile : Codec ActorProfile :=
  (Codec.u16.pair (shellId.pair (boundedString.pair (actorKind.pair Codec.u64)))).via
    (fun (v, s, h, k, t) => some ⟨v, s, h, k, t⟩)
    (fun x => (x.schemaVersion, x.shellId, x.handle, x.kind, x.createdTick)) fun _ => rfl

def userBinding : Codec UserBinding :=
  (Codec.u16.pair userId).via (fun (v, u) => some ⟨v, u⟩)
    (fun x => (x.schemaVersion, x.userId)) fun _ => rfl

def spaceConfig : Codec SpaceConfig :=
  (Codec.u16.pair (shellId.pair (boundedString.pair (spaceKind.pair (visibility.pair
    (actorId.pair ((Codec.option spaceId).pair Codec.u64))))))).via
    (fun (v, s, g, k, i, c, p, t) => some ⟨v, s, g, k, i, c, p, t⟩)
    (fun x => (x.schemaVersion, x.shellId, x.slug, x.kind, x.visibility, x.creator,
      x.parentSpace, x.createdTick)) fun _ => rfl

def parentChainDepth : Codec ParentChainDepth :=
  (Codec.u16.pair Codec.byte).via (fun (v, d) => some ⟨v, d⟩)
    (fun x => (x.schemaVersion, x.depth)) fun _ => rfl

def activityRecord : Codec ActivityRecord :=
  (Codec.u16.pair (shellId.pair (actorId.pair (Codec.u32.pair (targetKind.pair
    (Codec.u64.pair (activityStatus.pair Codec.bytes))))))).via
    (fun (v, s, a, c, g, t, u, e) => some ⟨v, s, a, ⟨c⟩, g, t, u, e⟩)
    (fun x => (x.schemaVersion, x.shellId, x.actor, x.verb.code, x.target, x.atTick, x.status,
      x.extraBytes)) fun _ => rfl

end Wire

/-! ## The serializer -/

/-- `postcard` at a type with a codec; `from_bytes` ignores what follows the value. -/
abbrev Postcard.ofCodec {α : Type} (c : Codec α) : Postcard α where
  toStdvec x := .ok (c.encode x)
  fromBytes bs :=
    match c.decode bs with
    | some (x, _) => .ok x
    | none => .error .deserialize

/-- `postcard`. -/
abbrev postcardWire : CoreWire where
  userProfile := .ofCodec Wire.userProfile
  authCredential := .ofCodec Wire.authCredential
  userGdprState := .ofCodec Wire.userGdprState
  actorProfile := .ofCodec Wire.actorProfile
  userBinding := .ofCodec Wire.userBinding
  spaceConfig := .ofCodec Wire.spaceConfig
  parentChainDepth := .ofCodec Wire.parentChainDepth
  activityRecord := .ofCodec Wire.activityRecord
  userErasureScheduled := .ofCodec Wire.userErasureScheduled

theorem Postcard.ofCodec_total {α : Type} (c : Codec α) : @Postcard.Total α (.ofCodec c) :=
  fun x => ⟨c.encode x, rfl⟩

theorem Postcard.ofCodec_roundTrip {α : Type} (c : Codec α) :
    @Postcard.RoundTrip α (.ofCodec c) := by
  intro x b hb
  obtain rfl : c.encode x = b := by simpa [Postcard.toStdvec] using hb
  have h := c.decode_encode x []
  rw [List.append_nil] at h
  simp [Postcard.fromBytes, h]

/-- Every value serializes. -/
theorem postcard_serializes : @CoreWire.Serializes postcardWire :=
  @CoreWire.Serializes.mk postcardWire
    (Postcard.ofCodec_total Wire.userProfile)
    (Postcard.ofCodec_total Wire.authCredential)
    (Postcard.ofCodec_total Wire.userGdprState)
    (Postcard.ofCodec_total Wire.actorProfile)
    (Postcard.ofCodec_total Wire.userBinding)
    (Postcard.ofCodec_total Wire.spaceConfig)
    (Postcard.ofCodec_total Wire.parentChainDepth)
    (Postcard.ofCodec_total Wire.activityRecord)
    (Postcard.ofCodec_total Wire.userErasureScheduled)

end ArkheForge.Core
