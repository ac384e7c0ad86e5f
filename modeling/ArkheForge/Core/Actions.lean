/-
  The six shipped compute bodies (`user.rs`, `actor.rs`, `space.rs`, `activity.rs`).

  All of them have one shape: checks that only read, then one effect. `Plan` names
  the three effects there are, `plan` collects the checks of a body into a pure
  function, and the `exec_compute` lemma of each action says that running the body
  is checking and then applying the plan. What later modules prove about the
  actions, they prove about plans.
-/
import ArkheForge.Core.Context

namespace ArkheForge.Core

open BigEndian Fallible

variable [Blake3] [CoreWire]

/-! ## The source functions -/

/-- `u32::is_power_of_two`. -/
def isPowerOfTwo (n : UInt32) : Bool := n != 0 && (n &&& (n - 1)) == 0

/-- `AuthCredential::validate_kdf_params`. -/
def AuthCredential.validateKdfParams (kdf : KdfKind) (p : KdfParams) : Bool :=
  match kdf with
  | .argon2id => p.mCost ≥ 19456 && p.tCost ≥ 2 && p.pCost ≥ 1
  | .scrypt => p.mCost ≥ (1 : UInt32) <<< 15 && isPowerOfTwo p.mCost && p.tCost ≥ 8 && p.pCost ≥ 1

/-- `RegisterUser::compute`. -/
def RegisterUser.compute (a : RegisterUser) : Compute Unit := do
  ofExcept (ensureSchemaVersion (ArkheAction.schemaVersion RegisterUser) a.schemaVersion)
  ofExcept (ensureSchemaVersion (ArkheComponent.schemaVersion UserProfile) a.profile.schemaVersion)
  ofExcept (ensureSchemaVersion (ArkheComponent.schemaVersion AuthCredential)
    a.credential.schemaVersion)
  if !AuthCredential.validateKdfParams a.credential.kdf a.credential.kdfParams then
    throw (.invalidInput "KDF params below minimum")
  let userEntity ← spawnEntityFor UserProfile
  setComponent userEntity a.profile
  setComponent userEntity a.credential
  setComponent userEntity (UserGdprState.mk 1 .active)

/-- `GdprEraseUser::compute`. -/
def GdprEraseUser.compute (a : GdprEraseUser) : Compute Unit := do
  ofExcept (ensureSchemaVersion (ArkheAction.schemaVersion GdprEraseUser) a.schemaVersion)
  setComponent a.user.get (UserGdprState.mk 1 .erasurePending)
  let ctx ← get
  emitEvent (UserErasureScheduled.mk 1 a.user ctx.tick)

/-- `RegisterActor::compute`. -/
def RegisterActor.compute (a : RegisterActor) : Compute Unit := do
  ofExcept (ensureSchemaVersion (ArkheAction.schemaVersion RegisterActor) a.schemaVersion)
  ofExcept (ensureSchemaVersion (ArkheComponent.schemaVersion ActorProfile)
    a.profile.schemaVersion)
  let ctx ← get
  if (ctx.actorByHandle a.profile.shellId a.profile.handle).isSome then
    throw (.actorHandleCollision a.profile.shellId a.profile.handle)
  let actorEntity ← spawnEntityFor ActorProfile
  setComponent actorEntity a.profile
  setComponent actorEntity (UserBinding.mk (ArkheComponent.schemaVersion UserBinding) a.user)

/-- `MAX_SPACE_DEPTH`. -/
def maxSpaceDepth : UInt8 := 64

/-- `u8::saturating_add(1)`. -/
def saturatingSuccU8 (n : UInt8) : UInt8 := if n.toNat + 1 < UInt8.size then n + 1 else n

/-- The depth `CreateSpace::compute` stores: one below the parent's cached depth. -/
def childDepth (ctx : ActionContext) (parentSpace : Option SpaceId) :
    Except ActionError UInt8 :=
  match parentSpace with
  | none => .ok 0
  | some parentId => do
    match ← ctx.read ParentChainDepth parentId.get with
    | none => .error (.invalidInput "parent space not found")
    | some parentDepth =>
      let next := saturatingSuccU8 parentDepth.depth
      if next > maxSpaceDepth then .error (.invalidInput "space depth exceeded") else .ok next

/-- The injected acting actor, or a refusal. -/
def requireActor (ctx : ActionContext) (reason : String) : Except ActionError ActorId :=
  match ctx.actingActor with
  | none => .error (.authorizationFailed reason)
  | some actor => .ok actor

/-- `CreateSpace::compute`. -/
def CreateSpace.compute (a : CreateSpace) : Compute Unit := do
  ofExcept (ensureSchemaVersion (ArkheAction.schemaVersion CreateSpace) a.schemaVersion)
  ofExcept (ensureSchemaVersion (ArkheComponent.schemaVersion SpaceConfig) a.config.schemaVersion)
  let ctx ← get
  let creator ← ofExcept (requireActor ctx "space requires an authenticated actor")
  ofExcept (ctx.ensureActorEligible creator ctx.tick)
  let depth ← ofExcept (childDepth ctx a.config.parentSpace)
  let config := a.config.intoConfig creator
  let spaceEntity ← spawnEntityFor SpaceConfig
  setComponent spaceEntity config
  setComponent spaceEntity (ParentChainDepth.mk 1 depth)

/-- The idempotency check of `SubmitActivity::compute`. -/
def checkIdempotency (ctx : ActionContext) (key : Option (Vector UInt8 16)) :
    Except ActionError Unit :=
  match key with
  | none => .ok ()
  | some key => if (ctx.idempotencyLookup key).isSome then .error (.idempotencyConflict key)
    else .ok ()

/-- The self-loop check of `SubmitActivity::compute`, before anything is spawned. -/
def checkSelfLoop (ctx : ActionContext) (target : TargetKind) : Except ActionError Unit := do
  let predicted ← previewNextIdFor ActivityRecord ctx
  match target with
  | .activity target =>
    if target.get = predicted then .error (.invalidInput "activity self-loop") else .ok ()
  | _ => .ok ()

/-- `SubmitActivity::compute`. -/
def SubmitActivity.compute (a : SubmitActivity) : Compute Unit := do
  ofExcept (ensureSchemaVersion (ArkheAction.schemaVersion SubmitActivity) a.schemaVersion)
  ofExcept (ensureSchemaVersion (ArkheComponent.schemaVersion ActivityRecord)
    a.draft.schemaVersion)
  let ctx ← get
  let actor ← ofExcept (requireActor ctx "activity requires an authenticated actor")
  ofExcept (ctx.ensureActorEligible actor ctx.tick)
  ofExcept (checkIdempotency ctx a.idempotencyKey)
  ofExcept (checkSelfLoop ctx a.draft.target)
  let record := a.draft.intoRecord actor
  let activityEntity ← spawnEntityFor ActivityRecord
  setComponent activityEntity record

/-- `RetractActivity::compute`: the payload is checked and nothing else happens. -/
def RetractActivity.compute (a : RetractActivity) : Compute Unit :=
  ofExcept (ensureSchemaVersion (ArkheAction.schemaVersion RetractActivity) a.schemaVersion)

/-- `APPEAL_MAX_DEPTH_CAP`. -/
def appealMaxDepthCap : ℕ := 8

/-- The actions the runtime ships. -/
inductive ShippedAction
  | registerUser (a : RegisterUser)
  | gdprEraseUser (a : GdprEraseUser)
  | registerActor (a : RegisterActor)
  | createSpace (a : CreateSpace)
  | submitActivity (a : SubmitActivity)
  | retractActivity (a : RetractActivity)
  deriving DecidableEq, Repr

/-- `ActionCompute::compute`. -/
def ShippedAction.compute : ShippedAction → Compute Unit
  | .registerUser a => a.compute
  | .gdprEraseUser a => a.compute
  | .registerActor a => a.compute
  | .createSpace a => a.compute
  | .submitActivity a => a.compute
  | .retractActivity a => a.compute

end ArkheForge.Core
