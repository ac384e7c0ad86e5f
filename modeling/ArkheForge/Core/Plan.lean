/-
  Validate, then one effect: the shape of every shipped compute body.

  `Plan` is what a body does once its checks have passed: create one entity with
  components, mark an existing one and announce it, or nothing. `plan` gathers the
  checks of each action into a pure function of the payload and the context.
  `ShippedAction.exec_compute` is the refinement: with a serializer that does not
  fail, running a body is `perform` of its plan. An error of a check leaves the
  context as it was; an error of a plan can only be `IdExhaustion`, before an op
  is buffered.
-/
import ArkheForge.Core.Actions

namespace ArkheForge.Core

open BigEndian Fallible

/-! ## Plans -/

/-- The effect of a compute body. -/
inductive Plan
  | create (typeCode : TypeCode) (components : List (TypeCode × Bytes))
  | mark (entity : EntityId) (component : TypeCode × Bytes) (eventCode : TypeCode)
      (payload : Bytes)
  | nothing
  deriving DecidableEq, Repr

/-- The batch that creates an entity with its components. -/
def createOps (id : EntityId) (owner : Principal) (components : List (TypeCode × Bytes)) :
    List Op :=
  .spawnEntity id owner :: components.map (setOp id)

/-- The batch that marks an entity and announces it. -/
def markOps (entity : EntityId) (component : TypeCode × Bytes) (eventCode : TypeCode)
    (payload : Bytes) : List Op :=
  [setOp entity component, .emitEvent none eventCode payload]

section

variable [Blake3]

/-- Carry out a plan. -/
def Plan.apply (plan : Plan) (ctx : ActionContext) : Except ActionError Unit × ActionContext :=
  match plan with
  | .create typeCode components =>
    match checkedSucc ctx.idSeq with
    | none => (.error .idExhaustion, ctx)
    | some next =>
      match ctx.upcomingId typeCode with
      | none => (.error .idExhaustion, { ctx with idSeq := next })
      | some id =>
        (.ok (), { ctx with idSeq := next }.pushOps (createOps id ctx.principal components))
  | .mark entity component eventCode payload =>
    (.ok (), { ctx with
      eventSeq := saturatingSucc ctx.eventSeq
      events := ctx.events ++ [⟨eventCode, ctx.eventSeq, ctx.tick, payload⟩]
      ops := ctx.ops ++ markOps entity component eventCode payload })
  | .nothing => (.ok (), ctx)

/-- Carry out the plan a validation came to, if it came to one. -/
def perform (plan : Except ActionError Plan) (ctx : ActionContext) :
    Except ActionError Unit × ActionContext :=
  match plan with
  | .error e => (.error e, ctx)
  | .ok plan => plan.apply ctx

/-- A check in front of a body is a check in front of its plan. -/
theorem exec_check {α : Type} {check : Except ActionError α} {body : α → Compute Unit}
    {plan : α → Except ActionError Plan} {ctx : ActionContext}
    (h : ∀ a, check = .ok a → (body a).exec ctx = perform (plan a) ctx) :
    (ofExcept check >>= body).exec ctx = perform (check >>= plan) ctx := by
  rw [exec_bind, exec_ofExcept]
  cases check with
  | error e => rfl
  | ok a => exact h a rfl

/-- Spawning and then attaching components is creating the entity. -/
theorem exec_create (C : Type) [ArkheComponent C] {attach : EntityId → Compute Unit}
    {components : List (TypeCode × Bytes)}
    (h : ∀ id ctx, (attach id).exec ctx = (.ok (), ctx.pushOps (components.map (setOp id))))
    (ctx : ActionContext) :
    (spawnEntityFor C >>= attach).exec ctx =
      (Plan.create (ArkheComponent.typeCode C) components).apply ctx := by
  rw [exec_bind, exec_spawnEntityFor, Plan.apply]
  cases checkedSucc ctx.idSeq with
  | none => rfl
  | some next =>
      simp only
      cases ctx.upcomingId (ArkheComponent.typeCode C) with
      | none => rfl
      | some id =>
          simp only [h]
          rw [ActionContext.pushOps_pushOps]
          rfl

end

/-! ## The plans of the six actions -/

section

variable [Blake3] [CoreWire]

def RegisterUser.plan (a : RegisterUser) : Except ActionError Plan := do
  ensureSchemaVersion (ArkheAction.schemaVersion RegisterUser) a.schemaVersion
  ensureSchemaVersion (ArkheComponent.schemaVersion UserProfile) a.profile.schemaVersion
  ensureSchemaVersion (ArkheComponent.schemaVersion AuthCredential) a.credential.schemaVersion
  if AuthCredential.validateKdfParams a.credential.kdf a.credential.kdfParams then
    .ok (.create (ArkheComponent.typeCode UserProfile)
      [stored a.profile, stored a.credential, stored (UserGdprState.mk 1 .active)])
  else .error (.invalidInput "KDF params below minimum")

def GdprEraseUser.plan (a : GdprEraseUser) (ctx : ActionContext) : Except ActionError Plan := do
  ensureSchemaVersion (ArkheAction.schemaVersion GdprEraseUser) a.schemaVersion
  .ok (.mark a.user.get (stored (UserGdprState.mk 1 .erasurePending))
    (ArkheEvent.typeCode UserErasureScheduled)
    (encoded (UserErasureScheduled.mk 1 a.user ctx.tick)))

def RegisterActor.plan (a : RegisterActor) (ctx : ActionContext) : Except ActionError Plan := do
  ensureSchemaVersion (ArkheAction.schemaVersion RegisterActor) a.schemaVersion
  ensureSchemaVersion (ArkheComponent.schemaVersion ActorProfile) a.profile.schemaVersion
  if (ctx.actorByHandle a.profile.shellId a.profile.handle).isSome then
    .error (.actorHandleCollision a.profile.shellId a.profile.handle)
  else
    .ok (.create (ArkheComponent.typeCode ActorProfile)
      [stored a.profile,
        stored (UserBinding.mk (ArkheComponent.schemaVersion UserBinding) a.user)])

def CreateSpace.plan (a : CreateSpace) (ctx : ActionContext) : Except ActionError Plan := do
  ensureSchemaVersion (ArkheAction.schemaVersion CreateSpace) a.schemaVersion
  ensureSchemaVersion (ArkheComponent.schemaVersion SpaceConfig) a.config.schemaVersion
  let creator ← requireActor ctx "space requires an authenticated actor"
  ctx.ensureActorEligible creator ctx.tick
  let depth ← childDepth ctx a.config.parentSpace
  .ok (.create (ArkheComponent.typeCode SpaceConfig)
    [stored (a.config.intoConfig creator), stored (ParentChainDepth.mk 1 depth)])

def SubmitActivity.plan (a : SubmitActivity) (ctx : ActionContext) : Except ActionError Plan := do
  ensureSchemaVersion (ArkheAction.schemaVersion SubmitActivity) a.schemaVersion
  ensureSchemaVersion (ArkheComponent.schemaVersion ActivityRecord) a.draft.schemaVersion
  let actor ← requireActor ctx "activity requires an authenticated actor"
  ctx.ensureActorEligible actor ctx.tick
  checkIdempotency ctx a.idempotencyKey
  checkSelfLoop ctx a.draft.target
  .ok (.create (ArkheComponent.typeCode ActivityRecord) [stored (a.draft.intoRecord actor)])

def RetractActivity.plan (a : RetractActivity) : Except ActionError Plan := do
  ensureSchemaVersion (ArkheAction.schemaVersion RetractActivity) a.schemaVersion
  .ok .nothing

/-- What an action does in a context. -/
def ShippedAction.plan (action : ShippedAction) (ctx : ActionContext) : Except ActionError Plan :=
  match action with
  | .registerUser a => a.plan
  | .gdprEraseUser a => a.plan ctx
  | .registerActor a => a.plan ctx
  | .createSpace a => a.plan ctx
  | .submitActivity a => a.plan ctx
  | .retractActivity a => a.plan

/-! ## Running a body is performing its plan -/

section

variable (hT : CoreWire.Serializes)

include hT

theorem RegisterUser.exec_compute (a : RegisterUser) (ctx : ActionContext) :
    a.compute.exec ctx = perform a.plan ctx := by
  refine exec_check fun _ _ => exec_check fun _ _ => exec_check fun _ _ => ?_
  by_cases hkdf : AuthCredential.validateKdfParams a.credential.kdf a.credential.kdfParams
  · simp only [hkdf, Bool.not_true, if_true]
    refine exec_create UserProfile (fun id ctx => ?_) ctx
    simp only [exec_bind, exec_setComponent hT.userProfile, exec_setComponent hT.authCredential,
      exec_setComponent hT.userGdprState, ActionContext.pushOps_pushOps]
    rfl
  · simp only [hkdf]
    rfl

theorem GdprEraseUser.exec_compute (a : GdprEraseUser) (ctx : ActionContext) :
    a.compute.exec ctx = perform (a.plan ctx) ctx := by
  refine exec_check fun _ _ => ?_
  simp only [exec_bind, exec_setComponent hT.userGdprState, exec_get,
    exec_emitEvent hT.userErasureScheduled]
  simp only [perform, Plan.apply, ActionContext.pushOps, List.append_assoc]
  rfl

theorem RegisterActor.exec_compute (a : RegisterActor) (ctx : ActionContext) :
    a.compute.exec ctx = perform (a.plan ctx) ctx := by
  refine exec_check fun _ _ => exec_check fun _ _ => ?_
  rw [exec_bind, exec_get]
  by_cases hheld : (ctx.actorByHandle a.profile.shellId a.profile.handle).isSome
  · simp only [hheld, if_true, exec_bind]
    rfl
  · simp only [hheld]
    refine exec_create ActorProfile (fun id ctx => ?_) ctx
    simp only [exec_bind, exec_setComponent hT.actorProfile, exec_setComponent hT.userBinding,
      ActionContext.pushOps_pushOps]
    rfl

theorem CreateSpace.exec_compute (a : CreateSpace) (ctx : ActionContext) :
    a.compute.exec ctx = perform (a.plan ctx) ctx := by
  refine exec_check fun _ _ => exec_check fun _ _ => ?_
  rw [exec_bind, exec_get]
  refine exec_check fun creator _ => exec_check fun _ _ => exec_check fun depth _ => ?_
  refine exec_create SpaceConfig (fun id ctx => ?_) ctx
  simp only [exec_bind, exec_setComponent hT.spaceConfig, exec_setComponent hT.parentChainDepth,
    ActionContext.pushOps_pushOps]
  rfl

theorem SubmitActivity.exec_compute (a : SubmitActivity) (ctx : ActionContext) :
    a.compute.exec ctx = perform (a.plan ctx) ctx := by
  refine exec_check fun _ _ => exec_check fun _ _ => ?_
  rw [exec_bind, exec_get]
  refine exec_check fun actor _ => exec_check fun _ _ => exec_check fun _ _ =>
    exec_check fun _ _ => ?_
  refine exec_create ActivityRecord (fun id ctx => ?_) ctx
  rw [exec_setComponent hT.activityRecord]
  rfl

omit hT [CoreWire] in
theorem RetractActivity.exec_compute (a : RetractActivity) (ctx : ActionContext) :
    a.compute.exec ctx = perform a.plan ctx := by
  rw [RetractActivity.compute, exec_ofExcept, RetractActivity.plan]
  cases ensureSchemaVersion (ArkheAction.schemaVersion RetractActivity) a.schemaVersion <;> rfl

/-- **Running a shipped body is performing its plan.** -/
theorem ShippedAction.exec_compute (a : ShippedAction) (ctx : ActionContext) :
    a.compute.exec ctx = perform (a.plan ctx) ctx := by
  cases a with
  | registerUser a => exact a.exec_compute hT ctx
  | gdprEraseUser a => exact a.exec_compute hT ctx
  | registerActor a => exact a.exec_compute hT ctx
  | createSpace a => exact a.exec_compute hT ctx
  | submitActivity a => exact a.exec_compute hT ctx
  | retractActivity a => exact a.exec_compute ctx

end

/-! ## When a validation passes -/

/-- The payload of a `RegisterUser` the checks let through. -/
def RegisterUser.Valid (a : RegisterUser) : Prop :=
  a.schemaVersion = 1 ∧ a.profile.schemaVersion = 1 ∧ a.credential.schemaVersion = 1 ∧
    AuthCredential.validateKdfParams a.credential.kdf a.credential.kdfParams = true

/-- Its schema versions are the current ones. -/
def RegisterActor.Valid (a : RegisterActor) : Prop :=
  a.schemaVersion = 1 ∧ a.profile.schemaVersion = 1

/-- Its schema versions are the current ones. -/
def CreateSpace.Valid (a : CreateSpace) : Prop :=
  a.schemaVersion = 1 ∧ a.config.schemaVersion = 1

/-- Its schema versions are the current ones. -/
def SubmitActivity.Valid (a : SubmitActivity) : Prop :=
  a.schemaVersion = 1 ∧ a.draft.schemaVersion = 1

instance (a : RegisterUser) : Decidable a.Valid := inferInstanceAs (Decidable (_ ∧ _))

instance (a : RegisterActor) : Decidable a.Valid := inferInstanceAs (Decidable (_ ∧ _))

instance (a : CreateSpace) : Decidable a.Valid := inferInstanceAs (Decidable (_ ∧ _))

instance (a : SubmitActivity) : Decidable a.Valid := inferInstanceAs (Decidable (_ ∧ _))

omit [Blake3] [CoreWire]

theorem ensureSchemaVersion_eq_ok {expected got : UInt16} {u : Unit} :
    ensureSchemaVersion expected got = .ok u ↔ got = expected := by
  unfold ensureSchemaVersion
  split
  · next h => simp [h]
  · next h => simp [h]

theorem requireActor_eq_ok {ctx : ActionContext} {reason : String} {actor : ActorId} :
    requireActor ctx reason = .ok actor ↔ ctx.actingActor = some actor := by
  unfold requireActor
  cases ctx.actingActor <;> simp

theorem checkSelfLoop_eq_ok [Blake3] {ctx : ActionContext} {target : TargetKind} {u : Unit} :
    checkSelfLoop ctx target = .ok u ↔
      ∃ id, ctx.upcomingId (ArkheComponent.typeCode ActivityRecord) = some id ∧
        target ≠ .activity ⟨id⟩ := by
  unfold checkSelfLoop previewNextIdFor ActionContext.upcomingId
  cases deriveEntityId ctx.worldSeed ctx.instanceId (ArkheComponent.typeCode ActivityRecord)
      ctx.tick ctx.idSeq with
  | none => simp [except_bind_eq_ok]
  | some id =>
      cases target with
      | activity t =>
          obtain ⟨t⟩ := t
          simp [except_bind_eq_ok]
      | entry t => simp [except_bind_eq_ok]
      | actor t => simp [except_bind_eq_ok]
      | space t => simp [except_bind_eq_ok]
      | extension tc t => simp [except_bind_eq_ok]

variable [CoreWire] {ctx : ActionContext} {p : Plan}

theorem RegisterUser.plan_eq_ok {a : RegisterUser} :
    a.plan = .ok p ↔ a.Valid ∧ p = .create (ArkheComponent.typeCode UserProfile)
      [stored a.profile, stored a.credential, stored (UserGdprState.mk 1 .active)] := by
  simp only [RegisterUser.plan, except_bind_eq_ok, ensureSchemaVersion_eq_ok, RegisterUser.Valid]
  by_cases hkdf : AuthCredential.validateKdfParams a.credential.kdf a.credential.kdfParams = true
  · simp only [hkdf, if_true, Except.ok.injEq, eq_comm (a := p)]
    simp [ArkheAction.schemaVersion, ArkheComponent.schemaVersion, and_assoc]
  · simp [hkdf]

theorem GdprEraseUser.plan_eq_ok {a : GdprEraseUser} :
    a.plan ctx = .ok p ↔ a.schemaVersion = 1 ∧
      p = .mark a.user.get (stored (UserGdprState.mk 1 .erasurePending))
        (ArkheEvent.typeCode UserErasureScheduled)
        (encoded (UserErasureScheduled.mk 1 a.user ctx.tick)) := by
  simp only [GdprEraseUser.plan, except_bind_eq_ok, ensureSchemaVersion_eq_ok, Except.ok.injEq,
    eq_comm (a := p)]
  simp [ArkheAction.schemaVersion]

theorem RegisterActor.plan_eq_ok {a : RegisterActor} :
    a.plan ctx = .ok p ↔
      a.Valid ∧ ctx.actorByHandle a.profile.shellId a.profile.handle = none ∧
      p = .create (ArkheComponent.typeCode ActorProfile)
        [stored a.profile, stored (UserBinding.mk 1 a.user)] := by
  simp only [RegisterActor.plan, except_bind_eq_ok, ensureSchemaVersion_eq_ok, RegisterActor.Valid]
  cases hheld : ctx.actorByHandle a.profile.shellId a.profile.handle with
  | none =>
      simp only [Option.isSome_none, Bool.false_eq_true, if_false, Except.ok.injEq,
        eq_comm (a := p)]
      simp [ArkheAction.schemaVersion, ArkheComponent.schemaVersion, and_assoc]
  | some other => simp

theorem CreateSpace.plan_eq_ok {a : CreateSpace} :
    a.plan ctx = .ok p ↔ a.Valid ∧ ∃ creator depth, ctx.actingActor = some creator ∧
      ctx.ensureActorEligible creator ctx.tick = .ok () ∧
      childDepth ctx a.config.parentSpace = .ok depth ∧
      p = .create (ArkheComponent.typeCode SpaceConfig)
        [stored (a.config.intoConfig creator), stored (ParentChainDepth.mk 1 depth)] := by
  simp only [CreateSpace.plan, except_bind_eq_ok, ensureSchemaVersion_eq_ok, requireActor_eq_ok,
    Except.ok.injEq, eq_comm (a := p), CreateSpace.Valid]
  simp [ArkheAction.schemaVersion, ArkheComponent.schemaVersion, and_assoc, Unique.exists_iff]

theorem SubmitActivity.plan_eq_ok [Blake3] {a : SubmitActivity} :
    a.plan ctx = .ok p ↔ a.Valid ∧ ∃ actor, ctx.actingActor = some actor ∧
      ctx.ensureActorEligible actor ctx.tick = .ok () ∧
      checkIdempotency ctx a.idempotencyKey = .ok () ∧
      checkSelfLoop ctx a.draft.target = .ok () ∧
      p = .create (ArkheComponent.typeCode ActivityRecord)
        [stored (a.draft.intoRecord actor)] := by
  simp only [SubmitActivity.plan, except_bind_eq_ok, ensureSchemaVersion_eq_ok,
    requireActor_eq_ok, Except.ok.injEq, eq_comm (a := p), SubmitActivity.Valid]
  simp [ArkheAction.schemaVersion, ArkheComponent.schemaVersion, and_assoc, Unique.exists_iff]

omit [CoreWire] in
theorem RetractActivity.plan_eq_ok {a : RetractActivity} :
    a.plan = .ok p ↔ a.schemaVersion = 1 ∧ p = .nothing := by
  simp only [RetractActivity.plan, except_bind_eq_ok, ensureSchemaVersion_eq_ok, Except.ok.injEq,
    eq_comm (a := p)]
  simp [ArkheAction.schemaVersion]

end

end ArkheForge.Core
