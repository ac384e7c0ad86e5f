/-
  The kernel bridge (`bridge.rs`): how the kernel runs a forge compute.

  Every action gets a context of its own: the all-zero seed, the system principal,
  no view, no index, an id sequence that starts at zero. What such a context can
  see decides what an action does in it. The gate passes, a parent is never found,
  no handle collides. `kernelComputeInner_eq` reduces a run to the action's batch,
  and `bridge_spawned` says which entity it spawns.
-/
import ArkheForge.Core.Atomic

namespace ArkheForge.Core

open BigEndian Fallible

/-! ## The bridge -/

/-- The context the bridge builds for one action. -/
def bridgeContext (instanceId : InstanceId) (now : Tick) (actor : Option EntityId) :
    ActionContext :=
  (ActionContext.new zeroSeed instanceId now .system .system).withActor
    (actor.map ActorId.mk)

section

variable [Blake3] [CoreWire]

/-- Run an action and drain its ops; a refusal leaves none. -/
def drained (action : ShippedAction) (forgeCtx : ActionContext) : List Op :=
  match action.compute.exec forgeCtx with
  | (.ok _, forgeCtx) => forgeCtx.drainOps.1
  | (.error _, _) => []

/-- `kernel_compute_inner`. -/
def kernelComputeInner (action : ShippedAction) (instanceId : InstanceId) (now : Tick)
    (actor : Option EntityId) : List Op :=
  drained action (bridgeContext instanceId now actor)

/-- From an empty buffer, what is drained is the action's batch. -/
theorem drained_eq (hT : CoreWire.Serializes) (a : ShippedAction) {ctx : ActionContext}
    (hops : ctx.ops = []) :
    drained a ctx =
      match a.batch ctx with
      | .ok ops => ops
      | .error _ => [] := by
  unfold drained
  rcases hrun : a.compute.exec ctx with ⟨e | u, ctx'⟩
  · obtain ⟨hbatch, _⟩ := ShippedAction.exec_compute_error hT hrun
    rw [hbatch]
  · obtain ⟨added, hbatch, hadded⟩ := ShippedAction.exec_compute_ok hT hrun
    rw [hops, List.nil_append] at hadded
    rw [hbatch]
    exact hadded

theorem kernelComputeInner_eq (hT : CoreWire.Serializes) (a : ShippedAction)
    (instanceId : InstanceId) (now : Tick) (actor : Option EntityId) :
    kernelComputeInner a instanceId now actor =
      match a.batch (bridgeContext instanceId now actor) with
      | .ok ops => ops
      | .error _ => [] :=
  drained_eq hT a rfl

/-- What the bridge returns is empty or the action's batch. -/
theorem kernelComputeInner_cases (hT : CoreWire.Serializes) (a : ShippedAction)
    (instanceId : InstanceId) (now : Tick) (actor : Option EntityId) :
    kernelComputeInner a instanceId now actor = [] ∨
      a.batch (bridgeContext instanceId now actor) =
        .ok (kernelComputeInner a instanceId now actor) := by
  rw [kernelComputeInner_eq hT]
  cases a.batch (bridgeContext instanceId now actor) with
  | error e => exact .inl rfl
  | ok ops => exact .inr rfl

end

/-! ## What a viewless context answers -/

section

variable (instanceId : InstanceId) (now : Tick) (actor : Option EntityId)

theorem bridgeContext_read (C : Type) [ArkheComponent C] [Postcard C] (entity : EntityId) :
    (bridgeContext instanceId now actor).read C entity = .ok none := rfl

theorem bridgeContext_stagedRead (C : Type) [ArkheComponent C] [Postcard C]
    (entity : EntityId) : (bridgeContext instanceId now actor).stagedRead C entity = .ok none :=
  rfl

theorem bridgeContext_checkIdempotency (key : Option (Vector UInt8 16)) :
    checkIdempotency (bridgeContext instanceId now actor) key = .ok () := by
  cases key <;> rfl

theorem bridgeContext_checkedSucc :
    (checkedSucc (bridgeContext instanceId now actor).idSeq).isSome = true := rfl

variable [CoreWire]

/-- Without a view the gate has no user to look up. -/
theorem bridgeContext_eligible (who : ActorId) (tick : Tick) :
    (bridgeContext instanceId now actor).ensureActorEligible who tick = .ok () := by
  unfold ActionContext.ensureActorEligible ActionContext.authenticatedActorUser
  rw [bridgeContext_stagedRead]
  rfl

/-- Without a view no parent is found. -/
theorem bridgeContext_childDepth (parentId : SpaceId) :
    childDepth (bridgeContext instanceId now actor) (some parentId) =
      .error (.invalidInput "parent space not found") := by
  unfold childDepth
  simp only [bridgeContext_read]
  rfl

end

/-! ## What a bridged action spawns -/

section

variable [Blake3] [CoreWire]

/-- The type code an action spawns under. -/
def ShippedAction.spawnCode : ShippedAction → Option TypeCode
  | .registerUser _ => some (ArkheComponent.typeCode UserProfile)
  | .registerActor _ => some (ArkheComponent.typeCode ActorProfile)
  | .createSpace _ => some (ArkheComponent.typeCode SpaceConfig)
  | .submitActivity _ => some (ArkheComponent.typeCode ActivityRecord)
  | .gdprEraseUser _ => none
  | .retractActivity _ => none

/-- The checks a spawning action has to pass in a context of the bridge. -/
def ShippedAction.Accepted (ctx : ActionContext) : ShippedAction → Prop
  | .registerUser a => a.Valid
  | .registerActor a => a.Valid
  | .createSpace a => a.Valid ∧ ctx.actingActor.isSome ∧ a.config.parentSpace = none
  | .submitActivity a =>
    a.Valid ∧ ctx.actingActor.isSome ∧ checkSelfLoop ctx a.draft.target = .ok ()
  | .gdprEraseUser a => a.schemaVersion = 1
  | .retractActivity a => a.schemaVersion = 1

instance (ctx : ActionContext) (a : ShippedAction) : Decidable (a.Accepted ctx) :=
  match a with
  | .registerUser a => inferInstanceAs (Decidable a.Valid)
  | .registerActor a => inferInstanceAs (Decidable a.Valid)
  | .createSpace a => inferInstanceAs (Decidable (a.Valid ∧ _ ∧ _))
  | .submitActivity a => inferInstanceAs (Decidable (a.Valid ∧ _ ∧ _))
  | .gdprEraseUser _ => inferInstanceAs (Decidable (_ = _))
  | .retractActivity _ => inferInstanceAs (Decidable (_ = _))

/-- A batch spawns nothing, or the one entity its action derives an id for. -/
theorem ShippedAction.batch_spawned {a : ShippedAction} {ctx : ActionContext} {ops : List Op}
    (h : a.batch ctx = .ok ops) :
    spawned ops = (a.spawnCode.bind ctx.upcomingId).toList := by
  cases a with
  | registerUser a =>
      obtain ⟨_, _, id, hid, rfl⟩ := registerUser_batch_eq_ok.mp h
      simp [ShippedAction.spawnCode, hid]
  | gdprEraseUser a =>
      obtain ⟨_, rfl⟩ := gdprEraseUser_batch_eq_ok.mp h
      rfl
  | registerActor a =>
      obtain ⟨_, _, id, hid, rfl⟩ := registerActor_batch_eq_ok.mp h
      simp [ShippedAction.spawnCode, hid]
  | createSpace a =>
      obtain ⟨_, creator, depth, _, _, id, hid, rfl⟩ := createSpace_batch_eq_ok.mp h
      simp [ShippedAction.spawnCode, hid]
  | submitActivity a =>
      obtain ⟨_, actor, _, _, id, hid, _, rfl⟩ := submitActivity_batch_eq_ok.mp h
      simp [ShippedAction.spawnCode, hid]
  | retractActivity a =>
      obtain ⟨_, rfl⟩ := retractActivity_batch_eq_ok.mp h
      rfl

/-- On the bridge an action has a batch exactly when its checks pass and its id derives. -/
theorem ShippedAction.bridge_batch_ok_iff {a : ShippedAction} {instanceId : InstanceId}
    {now : Tick} {actor : Option EntityId} :
    (∃ ops, a.batch (bridgeContext instanceId now actor) = .ok ops) ↔
      a.Accepted (bridgeContext instanceId now actor) ∧
        ∀ tc, a.spawnCode = some tc →
          ((bridgeContext instanceId now actor).upcomingId tc).isSome := by
  have hseq := bridgeContext_checkedSucc instanceId now actor
  cases a with
  | registerUser a =>
      simp only [registerUser_batch_eq_ok, hseq, true_and]
      simp [ShippedAction.Accepted, ShippedAction.spawnCode, Option.isSome_iff_exists]
  | gdprEraseUser a =>
      simp only [gdprEraseUser_batch_eq_ok]
      simp [ShippedAction.Accepted, ShippedAction.spawnCode]
  | registerActor a =>
      have hfree : (bridgeContext instanceId now actor).actorByHandle a.profile.shellId
          a.profile.handle = none := rfl
      simp only [registerActor_batch_eq_ok, hseq, hfree, true_and, and_true]
      simp [ShippedAction.Accepted, ShippedAction.spawnCode, Option.isSome_iff_exists]
  | createSpace a =>
      simp only [createSpace_batch_eq_ok, hseq, bridgeContext_eligible, true_and]
      cases hparent : a.config.parentSpace with
      | none =>
          simp only [childDepth, Except.ok.injEq, ShippedAction.Accepted,
            ShippedAction.spawnCode, hparent]
          constructor
          · rintro ⟨ops, hvalid, creator, depth, ⟨hactor, _⟩, id, hid, rfl⟩
            exact ⟨⟨hvalid, by simp [hactor], trivial⟩, by simp [hid]⟩
          · rintro ⟨⟨hvalid, hactor, _⟩, hid⟩
            obtain ⟨creator, hactor⟩ := Option.isSome_iff_exists.mp hactor
            obtain ⟨id, hid⟩ := Option.isSome_iff_exists.mp (hid _ rfl)
            exact ⟨_, hvalid, creator, 0, ⟨hactor, rfl⟩, id, hid, rfl⟩
      | some parentId => simp [ShippedAction.Accepted, hparent, bridgeContext_childDepth]
  | submitActivity a =>
      simp only [submitActivity_batch_eq_ok, hseq, bridgeContext_eligible,
        bridgeContext_checkIdempotency, true_and]
      simp only [ShippedAction.Accepted, ShippedAction.spawnCode, checkSelfLoop_eq_ok]
      constructor
      · rintro ⟨ops, hvalid, who, ⟨hactor, _⟩, id, hid, hloop, rfl⟩
        exact ⟨⟨hvalid, by simp [hactor], id, hid, hloop⟩, by simp [hid]⟩
      · rintro ⟨⟨hvalid, hactor, id, hid, hloop⟩, _⟩
        obtain ⟨who, hactor⟩ := Option.isSome_iff_exists.mp hactor
        exact ⟨_, hvalid, who, ⟨hactor, trivial⟩, id, hid, hloop, rfl⟩
  | retractActivity a =>
      simp only [retractActivity_batch_eq_ok]
      simp [ShippedAction.Accepted, ShippedAction.spawnCode]

end

end ArkheForge.Core
