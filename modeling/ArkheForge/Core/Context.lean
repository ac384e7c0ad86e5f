/-
  `derive_entity_id` (`lib.rs`) and the compute context (`context.rs`).

  A compute body is a `Compute`: it reads and writes an `ActionContext` and may
  fail with an `ActionError`, keeping what it has written. Every method has one
  lemma that says what it does to the context; the bodies are never unfolded below
  that again.
-/
import ArkheForge.Core.Primitives
import ArkheForge.Lib.Fallible

namespace ArkheForge.Core

open BigEndian Fallible

/-! ## Entity ids -/

/-- `MAX_ID_DERIVE_RETRIES`. -/
def maxIdDeriveRetries : ℕ := 16

/-- The bytes hashed for one attempt: instance, type code, tick, sequence, retry. -/
def idPreimage (instanceId : InstanceId) (typeCode : TypeCode) (tick : Tick) (seq : UInt32)
    (bump : ℕ) : Bytes :=
  toBe 8 instanceId.get.toNat ++ toBe 4 typeCode.toNat ++ toBe 8 tick.toNat ++
    toBe 4 seq.toNat ++ toBe 4 bump

/-- The first eight bytes of a digest. -/
def firstEight (digest : Bytes) : UInt64 := UInt64.ofNat (fromBe (digest.take 8))

section

variable [Blake3]

/-- The id-derivation key of a world. -/
def domainKey (worldSeed : Vector UInt8 32) : Bytes :=
  Blake3.deriveKey "arkhe-forge-entity-id" worldSeed.toList

/-- The number one attempt comes to. -/
def rawId (worldSeed : Vector UInt8 32) (input : Bytes) : UInt64 :=
  firstEight (Blake3.keyedHash (domainKey worldSeed) input)

/-- `derive_entity_id`: the first attempt that is not zero. -/
def deriveEntityId (worldSeed : Vector UInt8 32) (instanceId : InstanceId) (typeCode : TypeCode)
    (tick : Tick) (seq : UInt32) : Option EntityId :=
  (List.range maxIdDeriveRetries).findSome? fun bump =>
    EntityId.new (rawId worldSeed (idPreimage instanceId typeCode tick seq bump))

end

/-! ## Errors, events and the context -/

/-- `ActionError`. -/
inductive ActionError
  | authorizationFailed (reason : String)
  | idempotencyConflict (key : Vector UInt8 16)
  | capabilityDenied (reason : String)
  | schemaMismatch (expected got : UInt16)
  | crossShellActivity
  | gdprPolicyViolation
  | idExhaustion
  | invalidInput (reason : String)
  | userErasurePending (user : UserId) (scheduledTick : Tick)
  | userLifecycleUnresolved (user : UserId)
  | entityShellIdReassign (entity : EntityId) (oldShell newShell : ShellId)
  | actorHandleCollision (shellId : ShellId) (handle : BoundedString 32)
  deriving DecidableEq, Repr

/-- `EventRecord`. -/
structure EventRecord where
  typeCode : TypeCode
  sequence : UInt64
  tick : Tick
  payload : Bytes
  deriving DecidableEq, Repr

/-- `ActionContext`. The two indexes are what their `lookup` methods answer. -/
structure ActionContext where
  worldSeed : Vector UInt8 32
  instanceId : InstanceId
  tick : Tick
  principal : Principal
  caps : CapabilityMask
  actingActor : Option ActorId
  idSeq : UInt32
  eventSeq : UInt64
  events : List EventRecord
  ops : List Op
  view : Option InstanceView
  idempotencyIndex : Option (Vector UInt8 16 → Option (EntityId × Tick))
  actorHandleIndex : Option (ShellId → BoundedString 32 → Option ActorId)

/-- A compute body. -/
abbrev Compute (α : Type) := Fallible ActionContext ActionError α

namespace ActionContext

/-- `ActionContext::new`. -/
def new (worldSeed : Vector UInt8 32) (instanceId : InstanceId) (tick : Tick)
    (principal : Principal) (caps : CapabilityMask) : ActionContext where
  worldSeed := worldSeed
  instanceId := instanceId
  tick := tick
  principal := principal
  caps := caps
  actingActor := none
  idSeq := 0
  eventSeq := 0
  events := []
  ops := []
  view := none
  idempotencyIndex := none
  actorHandleIndex := none

/-- `ActionContext::with_actor`. -/
def withActor (ctx : ActionContext) (actor : Option ActorId) : ActionContext :=
  { ctx with actingActor := actor }

/-- `ActionContext::with_view`. -/
def withView (ctx : ActionContext) (view : InstanceView) : ActionContext :=
  { ctx with view := some view }

/-- `ActionContext::idempotency_lookup`. -/
def idempotencyLookup (ctx : ActionContext) (key : Vector UInt8 16) : Option (EntityId × Tick) :=
  ctx.idempotencyIndex.bind fun index => index key

/-- `ActionContext::actor_by_handle`. -/
def actorByHandle (ctx : ActionContext) (shell : ShellId) (handle : BoundedString 32) :
    Option ActorId :=
  ctx.actorHandleIndex.bind fun index => index shell handle

section Reads

variable {C : Type} [ArkheComponent C] [Postcard C]

/-- `ActionContext::read`. -/
def read (ctx : ActionContext) (C : Type) [ArkheComponent C] [Postcard C] (entity : EntityId) :
    Except ActionError (Option C) :=
  match ctx.view with
  | none => .ok none
  | some view =>
    match view.component entity (ArkheComponent.typeCode C) with
    | none => .ok none
    | some bytes =>
      match Postcard.fromBytes bytes with
      | .ok c => .ok (some c)
      | .error _ => .error (.invalidInput "component decode failed")

/-- The scan of `staged_read` over the ops, latest first; `none` where it runs out. -/
def stagedScan (C : Type) [ArkheComponent C] [Postcard C] (entity : EntityId) :
    List Op → Option (Except ActionError (Option C))
  | [] => none
  | .setComponent e t bytes _ :: ops =>
    if e = entity ∧ t = ArkheComponent.typeCode C then
      match Postcard.fromBytes bytes with
      | .ok c => some (.ok (some c))
      | .error _ => some (.error (.invalidInput "staged component decode failed"))
    else stagedScan C entity ops
  | .removeComponent e t _ :: ops =>
    if e = entity ∧ t = ArkheComponent.typeCode C then some (.ok none)
    else stagedScan C entity ops
  | _ :: ops => stagedScan C entity ops

/-- `ActionContext::staged_read`. -/
def stagedRead (ctx : ActionContext) (C : Type) [ArkheComponent C] [Postcard C]
    (entity : EntityId) : Except ActionError (Option C) :=
  (stagedScan C entity ctx.ops.reverse).getD (ctx.read C entity)

end Reads

section Gate

variable [Postcard UserBinding] [Postcard UserGdprState]

/-- `ActionContext::authenticated_actor_user`. -/
def authenticatedActorUser (ctx : ActionContext) (actor : ActorId) :
    Except ActionError (Option UserId) :=
  (ctx.stagedRead UserBinding actor.get).map fun binding => binding.map UserBinding.userId

/-- `ActionContext::user_gdpr_status`. -/
def userGdprStatus (ctx : ActionContext) (user : UserId) :
    Except ActionError (Option GdprStatus) :=
  (ctx.stagedRead UserGdprState user.get).map fun state => state.map UserGdprState.status

/-- `ActionContext::ensure_actor_eligible`. -/
def ensureActorEligible (ctx : ActionContext) (actor : ActorId) (scheduledTick : Tick) :
    Except ActionError Unit := do
  match ← ctx.authenticatedActorUser actor with
  | none => .ok ()
  | some user =>
    match ← ctx.userGdprStatus user with
    | some .active => .ok ()
    | some .erasurePending => .error (.userErasurePending user scheduledTick)
    | some .erased => .error (.userErasurePending user scheduledTick)
    | none => .error (.userLifecycleUnresolved user)

end Gate

end ActionContext

/-- `ensure_schema_version`. -/
def ensureSchemaVersion (expected got : UInt16) : Except ActionError Unit :=
  if got = expected then .ok () else .error (.schemaMismatch expected got)

/-! ## Methods that write the context -/

/-- `u32::checked_add(1)`. -/
def checkedSucc (n : UInt32) : Option UInt32 :=
  if n.toNat + 1 < UInt32.size then some (n + 1) else none

/-- `u64::saturating_add(1)`. -/
def saturatingSucc (n : UInt64) : UInt64 := if n.toNat + 1 < UInt64.size then n + 1 else n

section Writes

variable [Blake3]

/-- `ActionContext::next_id`. -/
def nextId (typeCode : TypeCode) : Compute EntityId := do
  let seq := (← get).idSeq
  match checkedSucc seq with
  | none => throw .idExhaustion
  | some next =>
    modify fun ctx => { ctx with idSeq := next }
    let ctx ← get
    match deriveEntityId ctx.worldSeed ctx.instanceId typeCode ctx.tick seq with
    | none => throw .idExhaustion
    | some id => pure id

/-- `ActionContext::preview_next_id_for`. -/
def previewNextIdFor (C : Type) [ArkheComponent C] (ctx : ActionContext) :
    Except ActionError EntityId :=
  match deriveEntityId ctx.worldSeed ctx.instanceId (ArkheComponent.typeCode C) ctx.tick
      ctx.idSeq with
  | none => .error .idExhaustion
  | some id => .ok id

/-- `ActionContext::spawn_entity_for`. -/
def spawnEntityFor (C : Type) [ArkheComponent C] : Compute EntityId := do
  let id ← nextId (ArkheComponent.typeCode C)
  modify fun ctx => { ctx with ops := ctx.ops ++ [.spawnEntity id ctx.principal] }
  pure id

end Writes

/-- `u64::try_from(bytes.len()).unwrap_or(u64::MAX)`. -/
def encodedSize (bytes : Bytes) : UInt64 :=
  if bytes.length < UInt64.size then UInt64.ofNat bytes.length else UInt64.ofNat (UInt64.size - 1)

/-- `ActionContext::set_component`. -/
def setComponent {C : Type} [ArkheComponent C] [Postcard C] (entity : EntityId) (component : C) :
    Compute Unit :=
  match Postcard.toStdvec component with
  | .error _ => throw (.invalidInput "component serialization failed")
  | .ok bytes =>
    modify fun ctx => { ctx with
      ops := ctx.ops ++
        [.setComponent entity (ArkheComponent.typeCode C) bytes (encodedSize bytes)] }

/-- `ActionContext::emit_event`. -/
def emitEvent {E : Type} [ArkheEvent E] [Postcard E] (event : E) : Compute Unit :=
  match Postcard.toStdvec event with
  | .error _ => throw (.invalidInput "event serialization failed")
  | .ok payload =>
    modify fun ctx => { ctx with
      eventSeq := saturatingSucc ctx.eventSeq
      events := ctx.events ++ [⟨ArkheEvent.typeCode E, ctx.eventSeq, ctx.tick, payload⟩]
      ops := ctx.ops ++ [.emitEvent none (ArkheEvent.typeCode E) payload] }

/-- `ActionContext::drain_ops`. -/
def ActionContext.drainOps (ctx : ActionContext) : List Op × ActionContext :=
  (ctx.ops, { ctx with ops := [] })

/-! ## What the methods do -/

/-- The bytes of a value whose serialization succeeds. -/
def encoded {α : Type} [Postcard α] (x : α) : Bytes :=
  match Postcard.toStdvec x with
  | .ok bytes => bytes
  | .error _ => []

theorem toStdvec_eq_encoded {α : Type} [Postcard α] (h : Postcard.Total α) (x : α) :
    Postcard.toStdvec x = .ok (encoded x) := by
  obtain ⟨b, hb⟩ := h x
  rw [encoded, hb]

/-- The context with more ops buffered. -/
def ActionContext.pushOps (ctx : ActionContext) (ops : List Op) : ActionContext :=
  { ctx with ops := ctx.ops ++ ops }

@[simp] theorem ActionContext.pushOps_pushOps (ctx : ActionContext) (ops ops' : List Op) :
    (ctx.pushOps ops).pushOps ops' = ctx.pushOps (ops ++ ops') := by
  simp [ActionContext.pushOps]

/-- The type code and the bytes under which a component is stored. -/
def stored {C : Type} [ArkheComponent C] [Postcard C] (component : C) : TypeCode × Bytes :=
  (ArkheComponent.typeCode C, encoded component)

/-- The op that stores them. -/
def setOp (entity : EntityId) (slot : TypeCode × Bytes) : Op :=
  .setComponent entity slot.1 slot.2 (encodedSize slot.2)

theorem exec_setComponent {C : Type} [ArkheComponent C] [Postcard C] (h : Postcard.Total C)
    (entity : EntityId) (component : C) (ctx : ActionContext) :
    (setComponent entity component).exec ctx =
      (.ok (), ctx.pushOps [setOp entity (stored component)]) := by
  rw [setComponent, toStdvec_eq_encoded h]
  rfl

theorem exec_emitEvent {E : Type} [ArkheEvent E] [Postcard E] (h : Postcard.Total E) (event : E)
    (ctx : ActionContext) :
    (emitEvent event).exec ctx =
      (.ok (), { ctx with
        eventSeq := saturatingSucc ctx.eventSeq
        events := ctx.events ++
          [⟨ArkheEvent.typeCode E, ctx.eventSeq, ctx.tick, encoded event⟩]
        ops := ctx.ops ++ [.emitEvent none (ArkheEvent.typeCode E) (encoded event)] }) := by
  rw [emitEvent, toStdvec_eq_encoded h]
  rfl

/-- The id `next_id` would return for `typeCode`, where it returns one. -/
def ActionContext.upcomingId [Blake3] (ctx : ActionContext) (typeCode : TypeCode) :
    Option EntityId :=
  deriveEntityId ctx.worldSeed ctx.instanceId typeCode ctx.tick ctx.idSeq

theorem exec_nextId [Blake3] (typeCode : TypeCode) (ctx : ActionContext) :
    (nextId typeCode).exec ctx =
      match checkedSucc ctx.idSeq with
      | none => (.error .idExhaustion, ctx)
      | some next =>
        match ctx.upcomingId typeCode with
        | none => (.error .idExhaustion, { ctx with idSeq := next })
        | some id => (.ok id, { ctx with idSeq := next }) := by
  simp only [nextId, exec_bind, exec_get, ActionContext.upcomingId]
  cases checkedSucc ctx.idSeq with
  | none => rfl
  | some next =>
      simp only [exec_bind, exec_modify, exec_get]
      cases deriveEntityId ctx.worldSeed ctx.instanceId typeCode ctx.tick ctx.idSeq <;> rfl

theorem exec_spawnEntityFor [Blake3] (C : Type) [ArkheComponent C] (ctx : ActionContext) :
    (spawnEntityFor C).exec ctx =
      match checkedSucc ctx.idSeq with
      | none => (.error .idExhaustion, ctx)
      | some next =>
        match ctx.upcomingId (ArkheComponent.typeCode C) with
        | none => (.error .idExhaustion, { ctx with idSeq := next })
        | some id =>
          (.ok id, { ctx with idSeq := next }.pushOps [.spawnEntity id ctx.principal]) := by
  rw [spawnEntityFor, exec_bind, exec_nextId]
  cases checkedSucc ctx.idSeq with
  | none => rfl
  | some next =>
      simp only
      cases ctx.upcomingId (ArkheComponent.typeCode C) <;> rfl

end ArkheForge.Core
