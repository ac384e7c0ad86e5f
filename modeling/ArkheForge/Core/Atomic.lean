/-
  Compute is all-or-nothing and writes only what it created.

  `ShippedAction.batch` is the batch an action hands over in a context, or the error
  it ends with. A run that fails leaves both buffers as they were; a run that
  returns has appended its batch (`exec_compute_error`, `exec_compute_ok`). Every
  batch but the erasure's is `createOps`: one spawn, then writes to that entity.
-/
import ArkheForge.Core.Plan
import ArkheForge.Core.PostcardWire
import ArkheForge.Core.Blake3

namespace ArkheForge.Core

open BigEndian Fallible

/-- The seed of a deterministic world. -/
def zeroSeed : Vector UInt8 32 := Vector.replicate 32 0

/-! ## Batches -/

/-- The component writes of a batch, in order. -/
def writes (ops : List Op) : List (EntityId × TypeCode × Bytes) :=
  ops.filterMap fun
    | .setComponent e t b _ => some (e, t, b)
    | _ => none

/-- The writes of one component type: the entity and the bytes. -/
def writesOf (C : Type) [ArkheComponent C] (ops : List Op) : List (EntityId × Bytes) :=
  ops.filterMap fun
    | .setComponent e t b _ => if t = ArkheComponent.typeCode C then some (e, b) else none
    | _ => none

/-- Every component write targets an entity the batch spawned before it. -/
def SelfContained (ops : List Op) : Prop :=
  ∀ earlier later e t b size, ops = earlier ++ .setComponent e t b size :: later →
    e ∈ spawned earlier

@[simp] theorem spawned_createOps (id : EntityId) (owner : Principal)
    (components : List (TypeCode × Bytes)) :
    spawned (createOps id owner components) = [id] := by
  have hnone : spawned (components.map (setOp id)) = [] := by
    unfold spawned
    rw [List.filterMap_map]
    simp [Function.comp_def, setOp, Op.spawns]
  unfold createOps
  rw [spawned, List.filterMap_cons]
  simp only [Op.spawns]
  rw [← spawned, hnone]

@[simp] theorem writes_createOps (id : EntityId) (owner : Principal)
    (components : List (TypeCode × Bytes)) :
    writes (createOps id owner components) = components.map fun c => (id, c) := by
  unfold createOps writes
  rw [List.filterMap_cons, List.filterMap_map]
  simp [Function.comp_def, setOp]

theorem selfContained_createOps (id : EntityId) (owner : Principal)
    (components : List (TypeCode × Bytes)) : SelfContained (createOps id owner components) := by
  intro earlier later e t b size h
  cases earlier with
  | nil => simp [createOps] at h
  | cons op earlier =>
      rw [createOps, List.cons_append, List.cons.injEq] at h
      obtain ⟨hop, htail⟩ := h
      have hmem : Op.setComponent e t b size ∈ components.map (setOp id) := by simp [htail]
      obtain ⟨c, _, hc⟩ := List.mem_map.mp hmem
      have hslot : (setOp id c).slot = some (e, t) := congrArg Op.slot hc
      have he : id = e := (Prod.mk.inj (Option.some.inj hslot)).1
      rw [← hop, ← he]
      simp [spawned, Op.spawns]

@[simp] theorem writes_markOps (entity : EntityId) (component : TypeCode × Bytes)
    (eventCode : TypeCode) (payload : Bytes) :
    writes (markOps entity component eventCode payload) = [(entity, component)] := rfl

theorem SelfContained.mem_spawned {ops : List Op} (h : SelfContained ops)
    {w : EntityId × TypeCode × Bytes} (hw : w ∈ writes ops) : w.1 ∈ spawned ops := by
  obtain ⟨op, hop, hwrite⟩ := List.mem_filterMap.mp hw
  cases op with
  | setComponent e t b size =>
      obtain rfl : (e, t, b) = w := Option.some.inj hwrite
      obtain ⟨earlier, later, rfl⟩ := List.append_of_mem hop
      have hspawned := h earlier later e t b size rfl
      unfold spawned at hspawned ⊢
      rw [List.filterMap_append]
      exact List.mem_append_left _ hspawned
  | spawnEntity id owner => simp at hwrite
  | removeComponent e t size => simp at hwrite
  | emitEvent actor t b => simp at hwrite

section

variable [Blake3]

/-- The batch of a plan, where the id it needs can be derived. -/
def Plan.batch (ctx : ActionContext) : Plan → Except ActionError (List Op)
  | .create typeCode components =>
    match checkedSucc ctx.idSeq with
    | none => .error .idExhaustion
    | some _ =>
      match ctx.upcomingId typeCode with
      | none => .error .idExhaustion
      | some id => .ok (createOps id ctx.principal components)
  | .mark entity component eventCode payload => .ok (markOps entity component eventCode payload)
  | .nothing => .ok []

theorem Plan.create_batch_eq_ok {ctx : ActionContext} {typeCode : TypeCode}
    {components : List (TypeCode × Bytes)} {ops : List Op} :
    (Plan.create typeCode components).batch ctx = .ok ops ↔
      (checkedSucc ctx.idSeq).isSome ∧ ∃ id, ctx.upcomingId typeCode = some id ∧
        ops = createOps id ctx.principal components := by
  unfold Plan.batch
  cases checkedSucc ctx.idSeq with
  | none => simp
  | some next =>
      simp only [Option.isSome_some, true_and]
      cases ctx.upcomingId typeCode with
      | none => simp
      | some id => simp [eq_comm]

/-- Carrying out a plan ends as its batch says, and a failure buffers nothing. -/
theorem Plan.apply_error {plan : Plan} {ctx ctx' : ActionContext} {e : ActionError}
    (h : plan.apply ctx = (.error e, ctx')) :
    plan.batch ctx = .error e ∧ ctx'.ops = ctx.ops ∧ ctx'.events = ctx.events := by
  cases plan with
  | create typeCode components =>
      simp only [Plan.apply, Plan.batch] at h ⊢
      cases hnext : checkedSucc ctx.idSeq with
      | none =>
          rw [hnext] at h
          obtain ⟨rfl, rfl⟩ : ActionError.idExhaustion = e ∧ ctx = ctx' := by simpa using h
          exact ⟨rfl, rfl, rfl⟩
      | some next =>
          cases hid : ctx.upcomingId typeCode with
          | none =>
              simp only [hnext, hid, Prod.mk.injEq, Except.error.injEq] at h
              obtain ⟨rfl, rfl⟩ := h
              exact ⟨rfl, rfl, rfl⟩
          | some id => simp [hnext, hid] at h
  | mark entity component eventCode payload => simp [Plan.apply] at h
  | nothing => simp [Plan.apply] at h

theorem Plan.apply_ok {plan : Plan} {ctx ctx' : ActionContext}
    (h : plan.apply ctx = (.ok (), ctx')) :
    ∃ added, plan.batch ctx = .ok added ∧ ctx'.ops = ctx.ops ++ added := by
  cases plan with
  | create typeCode components =>
      simp only [Plan.apply, Plan.batch] at h ⊢
      cases hnext : checkedSucc ctx.idSeq with
      | none => simp [hnext] at h
      | some next =>
          cases hid : ctx.upcomingId typeCode with
          | none => simp [hnext, hid] at h
          | some id =>
              simp only [hnext, hid, Prod.mk.injEq, true_and] at h
              exact ⟨_, rfl, by rw [← h, ActionContext.pushOps]⟩
  | mark entity component eventCode payload =>
      simp only [Plan.apply, Prod.mk.injEq, true_and] at h
      exact ⟨_, rfl, by rw [← h]⟩
  | nothing =>
      simp only [Plan.apply, Prod.mk.injEq, true_and] at h
      exact ⟨[], rfl, by rw [← h, List.append_nil]⟩

end

section

variable [Blake3] [CoreWire]

/-- The batch an action hands over in a context, or its refusal. -/
def ShippedAction.batch (a : ShippedAction) (ctx : ActionContext) :
    Except ActionError (List Op) := do
  (← a.plan ctx).batch ctx

/-- A run that fails fails as its batch does and leaves both buffers as they were. -/
theorem ShippedAction.exec_compute_error (hT : CoreWire.Serializes) {a : ShippedAction}
    {ctx ctx' : ActionContext} {e : ActionError} (h : a.compute.exec ctx = (.error e, ctx')) :
    a.batch ctx = .error e ∧ ctx'.ops = ctx.ops ∧ ctx'.events = ctx.events := by
  rw [a.exec_compute hT] at h
  unfold perform at h
  unfold ShippedAction.batch
  cases hplan : a.plan ctx with
  | error e' =>
      simp only [hplan, Prod.mk.injEq, Except.error.injEq] at h
      obtain ⟨rfl, rfl⟩ := h
      exact ⟨rfl, rfl, rfl⟩
  | ok plan =>
      rw [hplan] at h
      exact Plan.apply_error h

/-- A run that returns has appended its batch. -/
theorem ShippedAction.exec_compute_ok (hT : CoreWire.Serializes) {a : ShippedAction}
    {ctx ctx' : ActionContext} (h : a.compute.exec ctx = (.ok (), ctx')) :
    ∃ added, a.batch ctx = .ok added ∧ ctx'.ops = ctx.ops ++ added := by
  rw [a.exec_compute hT] at h
  unfold perform at h
  unfold ShippedAction.batch
  cases hplan : a.plan ctx with
  | error e' => simp [hplan] at h
  | ok plan =>
      rw [hplan] at h
      exact Plan.apply_ok h

/-! ## What each action's batch is -/

variable {ctx : ActionContext} {ops : List Op}

theorem registerUser_batch_eq_ok {a : RegisterUser} :
    (ShippedAction.registerUser a).batch ctx = .ok ops ↔
      a.Valid ∧ (checkedSucc ctx.idSeq).isSome ∧
        ∃ id, ctx.upcomingId (ArkheComponent.typeCode UserProfile) = some id ∧
          ops = createOps id ctx.principal
            [stored a.profile, stored a.credential, stored (UserGdprState.mk 1 .active)] := by
  simp only [ShippedAction.batch, ShippedAction.plan, except_bind_eq_ok,
    RegisterUser.plan_eq_ok]
  constructor
  · rintro ⟨p, ⟨hvalid, rfl⟩, h⟩
    exact ⟨hvalid, Plan.create_batch_eq_ok.mp h⟩
  · rintro ⟨hvalid, h⟩
    exact ⟨_, ⟨hvalid, rfl⟩, Plan.create_batch_eq_ok.mpr h⟩

theorem gdprEraseUser_batch_eq_ok {a : GdprEraseUser} :
    (ShippedAction.gdprEraseUser a).batch ctx = .ok ops ↔
      a.schemaVersion = 1 ∧
        ops = markOps a.user.get (stored (UserGdprState.mk 1 .erasurePending))
          (ArkheEvent.typeCode UserErasureScheduled)
          (encoded (UserErasureScheduled.mk 1 a.user ctx.tick)) := by
  simp only [ShippedAction.batch, ShippedAction.plan, except_bind_eq_ok,
    GdprEraseUser.plan_eq_ok]
  constructor
  · rintro ⟨p, ⟨hvalid, rfl⟩, h⟩
    exact ⟨hvalid, (Except.ok.inj h).symm⟩
  · rintro ⟨hvalid, rfl⟩
    exact ⟨_, ⟨hvalid, rfl⟩, rfl⟩

theorem registerActor_batch_eq_ok {a : RegisterActor} :
    (ShippedAction.registerActor a).batch ctx = .ok ops ↔
      (a.Valid ∧ ctx.actorByHandle a.profile.shellId a.profile.handle = none) ∧
        (checkedSucc ctx.idSeq).isSome ∧
        ∃ id, ctx.upcomingId (ArkheComponent.typeCode ActorProfile) = some id ∧
          ops = createOps id ctx.principal
            [stored a.profile, stored (UserBinding.mk 1 a.user)] := by
  simp only [ShippedAction.batch, ShippedAction.plan, except_bind_eq_ok,
    RegisterActor.plan_eq_ok]
  constructor
  · rintro ⟨p, ⟨hvalid, hfree, rfl⟩, h⟩
    exact ⟨⟨hvalid, hfree⟩, Plan.create_batch_eq_ok.mp h⟩
  · rintro ⟨⟨hvalid, hfree⟩, h⟩
    exact ⟨_, ⟨hvalid, hfree, rfl⟩, Plan.create_batch_eq_ok.mpr h⟩

theorem createSpace_batch_eq_ok {a : CreateSpace} :
    (ShippedAction.createSpace a).batch ctx = .ok ops ↔
      a.Valid ∧ ∃ creator depth, (ctx.actingActor = some creator ∧
        ctx.ensureActorEligible creator ctx.tick = .ok () ∧
        childDepth ctx a.config.parentSpace = .ok depth) ∧
        (checkedSucc ctx.idSeq).isSome ∧
        ∃ id, ctx.upcomingId (ArkheComponent.typeCode SpaceConfig) = some id ∧
          ops = createOps id ctx.principal
            [stored (a.config.intoConfig creator), stored (ParentChainDepth.mk 1 depth)] := by
  simp only [ShippedAction.batch, ShippedAction.plan, except_bind_eq_ok,
    CreateSpace.plan_eq_ok]
  constructor
  · rintro ⟨p, ⟨hvalid, creator, depth, hactor, hgate, hdepth, rfl⟩, h⟩
    exact ⟨hvalid, creator, depth, ⟨hactor, hgate, hdepth⟩, Plan.create_batch_eq_ok.mp h⟩
  · rintro ⟨hvalid, creator, depth, ⟨hactor, hgate, hdepth⟩, h⟩
    exact ⟨_, ⟨hvalid, creator, depth, hactor, hgate, hdepth, rfl⟩,
      Plan.create_batch_eq_ok.mpr h⟩

/-- The spawn is the entity whose id the self-loop check predicted. -/
theorem submitActivity_batch_eq_ok {a : SubmitActivity} :
    (ShippedAction.submitActivity a).batch ctx = .ok ops ↔
      a.Valid ∧ ∃ actor, (ctx.actingActor = some actor ∧
        ctx.ensureActorEligible actor ctx.tick = .ok () ∧
        checkIdempotency ctx a.idempotencyKey = .ok ()) ∧
        (checkedSucc ctx.idSeq).isSome ∧
        ∃ id, ctx.upcomingId (ArkheComponent.typeCode ActivityRecord) = some id ∧
          a.draft.target ≠ .activity ⟨id⟩ ∧
          ops = createOps id ctx.principal [stored (a.draft.intoRecord actor)] := by
  simp only [ShippedAction.batch, ShippedAction.plan, except_bind_eq_ok,
    SubmitActivity.plan_eq_ok, checkSelfLoop_eq_ok]
  constructor
  · rintro ⟨p, ⟨hvalid, actor, hactor, hgate, hkey, ⟨id, hid, hloop⟩, rfl⟩, h⟩
    obtain ⟨hseq, id', hid', hops⟩ := Plan.create_batch_eq_ok.mp h
    obtain rfl : id = id' := Option.some.inj (hid.symm.trans hid')
    exact ⟨hvalid, actor, ⟨hactor, hgate, hkey⟩, hseq, id, hid, hloop, hops⟩
  · rintro ⟨hvalid, actor, ⟨hactor, hgate, hkey⟩, hseq, id, hid, hloop, hops⟩
    exact ⟨_, ⟨hvalid, actor, hactor, hgate, hkey, ⟨id, hid, hloop⟩, rfl⟩,
      Plan.create_batch_eq_ok.mpr ⟨hseq, id, hid, hops⟩⟩

theorem retractActivity_batch_eq_ok {a : RetractActivity} :
    (ShippedAction.retractActivity a).batch ctx = .ok ops ↔ a.schemaVersion = 1 ∧ ops = [] := by
  simp only [ShippedAction.batch, ShippedAction.plan, except_bind_eq_ok,
    RetractActivity.plan_eq_ok]
  constructor
  · rintro ⟨p, ⟨hvalid, rfl⟩, h⟩
    exact ⟨hvalid, (Except.ok.inj h).symm⟩
  · rintro ⟨hvalid, rfl⟩
    exact ⟨_, ⟨hvalid, rfl⟩, rfl⟩

/-! ## All or nothing -/

omit [Blake3] [CoreWire] in
theorem writesOf_eq {C : Type} [ArkheComponent C] (ops : List Op) :
    writesOf C ops = (writes ops).filterMap fun w =>
      if w.2.1 = ArkheComponent.typeCode C then some (w.1, w.2.2) else none := by
  induction ops with
  | nil => rfl
  | cons op ops ih =>
      cases op with
      | setComponent e t b size =>
          unfold writesOf writes at ih ⊢
          simp only [List.filterMap_cons, ih]
      | spawnEntity id owner => simpa [writesOf, writes] using ih
      | removeComponent e t size => simpa [writesOf, writes] using ih
      | emitEvent actor t b => simpa [writesOf, writes] using ih

/-- Each write is to an entity spawned before it, except the erasure's only write, which
    marks the user it names. -/
def ShippedAction.WritesOwn : ShippedAction → List Op → Prop
  | .gdprEraseUser a, added =>
    ∃ bytes, Postcard.toStdvec (UserGdprState.mk 1 .erasurePending) = .ok bytes ∧
      writes added = [(a.user.get, ArkheComponent.typeCode UserGdprState, bytes)]
  | _, added => SelfContained added

omit [Blake3] in
theorem ShippedAction.WritesOwn.selfContained {a : ShippedAction}
    (herase : ∀ e, a ≠ .gdprEraseUser e) (h : a.WritesOwn ops) : SelfContained ops := by
  cases a with
  | gdprEraseUser a => exact absurd rfl (herase a)
  | registerUser a => exact h
  | registerActor a => exact h
  | createSpace a => exact h
  | submitActivity a => exact h
  | retractActivity a => exact h

/-- A space is stored under the acting actor as its creator, an activity under the acting
    actor and not targeting itself; nothing else stores either. -/
def ShippedAction.Credits (ctx : ActionContext) : ShippedAction → List Op → Prop
  | .createSpace a, added =>
    ∃ creator id bytes, ctx.actingActor = some creator ∧
      Postcard.toStdvec (a.config.intoConfig creator) = .ok bytes ∧
      writesOf SpaceConfig added = [(id, bytes)] ∧ writesOf ActivityRecord added = []
  | .submitActivity a, added =>
    ∃ actor id bytes, ctx.actingActor = some actor ∧
      Postcard.toStdvec (a.draft.intoRecord actor) = .ok bytes ∧
      writesOf ActivityRecord added = [(id, bytes)] ∧ writesOf SpaceConfig added = [] ∧
      (a.draft.intoRecord actor).target ≠ .activity ⟨id⟩
  | _, added => writesOf SpaceConfig added = [] ∧ writesOf ActivityRecord added = []

/-- How a run may end: refused with both buffers as they were, or returned after appending
    a batch that writes to its own and credits the acting actor. -/
inductive ShippedAction.AllOrNothing (a : ShippedAction) (ctx : ActionContext) :
    Except ActionError Unit × ActionContext → Prop
  | refused {e : ActionError} {ctx' : ActionContext} :
      ctx'.ops = ctx.ops → ctx'.events = ctx.events → a.AllOrNothing ctx (.error e, ctx')
  | returned {ctx' : ActionContext} (added : List Op) :
      ctx'.ops = ctx.ops ++ added → a.WritesOwn added → a.Credits ctx added →
      a.AllOrNothing ctx (.ok (), ctx')

/-- The actions that refuse to run for nobody. -/
def ShippedAction.requiresActor : ShippedAction → Bool
  | .createSpace _ => true
  | .submitActivity _ => true
  | _ => false

theorem ShippedAction.batch_writesOwn (hT : CoreWire.Serializes) {a : ShippedAction}
    (h : a.batch ctx = .ok ops) : a.WritesOwn ops := by
  cases a with
  | registerUser a =>
      obtain ⟨_, _, id, _, rfl⟩ := registerUser_batch_eq_ok.mp h
      exact selfContained_createOps id _ _
  | gdprEraseUser a =>
      obtain ⟨_, rfl⟩ := gdprEraseUser_batch_eq_ok.mp h
      exact ⟨_, toStdvec_eq_encoded hT.userGdprState _, writes_markOps _ _ _ _⟩
  | registerActor a =>
      obtain ⟨_, _, id, _, rfl⟩ := registerActor_batch_eq_ok.mp h
      exact selfContained_createOps id _ _
  | createSpace a =>
      obtain ⟨_, creator, depth, _, _, id, _, rfl⟩ := createSpace_batch_eq_ok.mp h
      exact selfContained_createOps id _ _
  | submitActivity a =>
      obtain ⟨_, actor, _, _, id, _, _, rfl⟩ := submitActivity_batch_eq_ok.mp h
      exact selfContained_createOps id _ _
  | retractActivity a =>
      obtain ⟨_, rfl⟩ := retractActivity_batch_eq_ok.mp h
      intro earlier later e t b size hsplit
      simp at hsplit

theorem ShippedAction.batch_credits (hT : CoreWire.Serializes) {a : ShippedAction}
    (h : a.batch ctx = .ok ops) : a.Credits ctx ops := by
  cases a with
  | registerUser a =>
      obtain ⟨_, _, id, _, rfl⟩ := registerUser_batch_eq_ok.mp h
      constructor <;> (rw [writesOf_eq, writes_createOps]; rfl)
  | gdprEraseUser a =>
      obtain ⟨_, rfl⟩ := gdprEraseUser_batch_eq_ok.mp h
      constructor <;> (rw [writesOf_eq, writes_markOps]; rfl)
  | registerActor a =>
      obtain ⟨_, _, id, _, rfl⟩ := registerActor_batch_eq_ok.mp h
      constructor <;> (rw [writesOf_eq, writes_createOps]; rfl)
  | createSpace a =>
      obtain ⟨_, creator, depth, ⟨hactor, _, _⟩, _, id, _, rfl⟩ := createSpace_batch_eq_ok.mp h
      refine ⟨creator, id, _, hactor, toStdvec_eq_encoded hT.spaceConfig _, ?_, ?_⟩
      · rw [writesOf_eq, writes_createOps]
        rfl
      · rw [writesOf_eq, writes_createOps]
        rfl
  | submitActivity a =>
      obtain ⟨_, actor, ⟨hactor, _, _⟩, _, id, _, hloop, rfl⟩ :=
        submitActivity_batch_eq_ok.mp h
      refine ⟨actor, id, _, hactor, toStdvec_eq_encoded hT.activityRecord _, ?_, ?_, hloop⟩
      · rw [writesOf_eq, writes_createOps]
        rfl
      · rw [writesOf_eq, writes_createOps]
        rfl
  | retractActivity a =>
      obtain ⟨_, rfl⟩ := retractActivity_batch_eq_ok.mp h
      exact ⟨rfl, rfl⟩

/-- Without an acting actor those actions have no batch. -/
theorem ShippedAction.batch_of_no_actor {a : ShippedAction} (ha : a.requiresActor = true)
    (hctx : ctx.actingActor = none) : a.batch ctx ≠ .ok ops := by
  intro h
  cases a with
  | createSpace a =>
      obtain ⟨_, creator, depth, ⟨hactor, _, _⟩, _⟩ := createSpace_batch_eq_ok.mp h
      simp [hctx] at hactor
  | submitActivity a =>
      obtain ⟨_, actor, ⟨hactor, _, _⟩, _⟩ := submitActivity_batch_eq_ok.mp h
      simp [hctx] at hactor
  | registerUser a => simp [ShippedAction.requiresActor] at ha
  | gdprEraseUser a => simp [ShippedAction.requiresActor] at ha
  | registerActor a => simp [ShippedAction.requiresActor] at ha
  | retractActivity a => simp [ShippedAction.requiresActor] at ha

/-- **Compute is all-or-nothing.** A run that fails leaves the op buffer and the event
    buffer as they were. A run that returns appended a batch that writes only to what it
    spawned itself (the erasure's status write aside) and credits what it stores to the
    acting actor. Without an acting actor, `CreateSpace` and `SubmitActivity` add nothing. -/
theorem ShippedAction.compute_allOrNothing (hT : CoreWire.Serializes) (a : ShippedAction)
    (ctx : ActionContext) :
    a.AllOrNothing ctx (a.compute.exec ctx) ∧
    (a.requiresActor = true → ctx.actingActor = none →
      (a.compute.exec ctx).2.ops = ctx.ops ∧ (a.compute.exec ctx).2.events = ctx.events) := by
  constructor
  · rcases hrun : a.compute.exec ctx with ⟨e | u, ctx'⟩
    · obtain ⟨_, hops, hevents⟩ := ShippedAction.exec_compute_error hT hrun
      exact .refused hops hevents
    · obtain ⟨added, hbatch, hops⟩ := ShippedAction.exec_compute_ok hT hrun
      exact .returned added hops (ShippedAction.batch_writesOwn hT hbatch)
        (ShippedAction.batch_credits hT hbatch)
  · intro ha hctx
    rcases hrun : a.compute.exec ctx with ⟨e | u, ctx'⟩
    · exact (ShippedAction.exec_compute_error hT hrun).2
    · obtain ⟨added, hbatch, _⟩ := ShippedAction.exec_compute_ok hT hrun
      exact absurd hbatch (ShippedAction.batch_of_no_actor ha hctx)

end

/-! ## One submission -/

def someShell : ShellId := ⟨Vector.replicate 16 7⟩

def someActor : ActorId := ⟨⟨11, by decide⟩⟩

/-- An activity of `someShell` about `target`. -/
def SubmitActivity.about (target : TargetKind) : SubmitActivity where
  schemaVersion := 1
  draft :=
    { schemaVersion := 1, shellId := someShell, verb := ⟨0x00040001⟩, target := target
      atTick := 1, status := .active, extraBytes := ⟨[], by decide⟩ }
  idempotencyKey := none

/-- A context in which `someActor` acts, for the first time at tick one. -/
def firstContext : ActionContext :=
  (ActionContext.new zeroSeed firstInstance 1 .system .system).withActor (some someActor)

/-- The submission returns, and what it added is its own; without the actor it adds nothing. -/
theorem compute_allOrNothing_submitActivity :
    letI := postcardWire
    letI := oneBlockBlake3
    let a := ShippedAction.submitActivity (SubmitActivity.about (.actor someActor))
    let nobody := firstContext.withActor none
    (a.compute.exec firstContext).1 = .ok () ∧
    a.AllOrNothing firstContext (a.compute.exec firstContext) ∧
    (a.compute.exec nobody).2.ops = nobody.ops ∧
    (a.compute.exec nobody).2.events = nobody.events := by
  intro a nobody
  have hrun := @ShippedAction.compute_allOrNothing oneBlockBlake3 postcardWire
    postcard_serializes a
  exact ⟨by decide +kernel, (hrun firstContext).1, (hrun nobody).2 rfl rfl⟩

end ArkheForge.Core
