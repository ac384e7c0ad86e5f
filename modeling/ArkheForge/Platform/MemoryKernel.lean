/-
  A kernel in memory.

  The smallest kernel that keeps the promises of `LawfulKernel`: a table of
  instances, a queue of accepted submissions and the log of them. A step runs every
  queued submission that is due, each through the bridge of the action its type code
  and canonical bytes decode to. The promises can be kept, and a closed run has
  something to run on.
-/
import ArkheForge.Core.PostcardWire
import ArkheForge.Platform.Dispatcher

namespace ArkheForge.Platform

open ArkheForge.Core BigEndian Fallible

/-! ## Canonical bytes -/

namespace Wire

def registerUser : Codec RegisterUser :=
  (Codec.u16.pair (Core.Wire.userProfile.pair Core.Wire.authCredential)).via
    (fun (v, p, c) => some ⟨v, p, c⟩) (fun x => (x.schemaVersion, x.profile, x.credential))
    fun _ => rfl

def gdprEraseUser : Codec GdprEraseUser :=
  (Codec.u16.pair Core.Wire.userId).via (fun (v, u) => some ⟨v, u⟩)
    (fun x => (x.schemaVersion, x.user)) fun _ => rfl

def registerActor : Codec RegisterActor :=
  (Codec.u16.pair (Core.Wire.actorProfile.pair Core.Wire.userId)).via
    (fun (v, p, u) => some ⟨v, p, u⟩) (fun x => (x.schemaVersion, x.profile, x.user))
    fun _ => rfl

def spaceConfigDraft : Codec SpaceConfigDraft :=
  (Codec.u16.pair (Core.Wire.shellId.pair (Core.Wire.boundedString.pair
    (Core.Wire.spaceKind.pair (Core.Wire.visibility.pair
      ((Codec.option Core.Wire.spaceId).pair Codec.u64)))))).via
    (fun (v, s, g, k, i, p, t) => some ⟨v, s, g, k, i, p, t⟩)
    (fun x => (x.schemaVersion, x.shellId, x.slug, x.kind, x.visibility, x.parentSpace,
      x.createdTick)) fun _ => rfl

def createSpace : Codec CreateSpace :=
  (Codec.u16.pair spaceConfigDraft).via (fun (v, c) => some ⟨v, c⟩)
    (fun x => (x.schemaVersion, x.config)) fun _ => rfl

def activityDraft : Codec ActivityDraft :=
  (Codec.u16.pair (Core.Wire.shellId.pair (Codec.u32.pair (Core.Wire.targetKind.pair
    (Codec.u64.pair (Core.Wire.activityStatus.pair Codec.bytes)))))).via
    (fun (v, s, c, g, t, u, e) => some ⟨v, s, ⟨c⟩, g, t, u, e⟩)
    (fun x => (x.schemaVersion, x.shellId, x.verb.code, x.target, x.atTick, x.status,
      x.extraBytes)) fun _ => rfl

def submitActivity : Codec SubmitActivity :=
  (Codec.u16.pair (activityDraft.pair (Codec.option (Codec.fixed 16)))).via
    (fun (v, d, k) => some ⟨v, d, k⟩) (fun x => (x.schemaVersion, x.draft, x.idempotencyKey))
    fun _ => rfl

def retractActivity : Codec RetractActivity :=
  (Codec.u16.pair Core.Wire.entityId).via (fun (v, a) => some ⟨v, ⟨a⟩⟩)
    (fun x => (x.schemaVersion, x.activity.get)) fun _ => rfl

end Wire

/-- `canonical_bytes` of the shipped actions. -/
abbrev postcardActions : CanonicalBytes ShippedAction where
  canonicalBytes
    | .registerUser a => Wire.registerUser.encode a
    | .gdprEraseUser a => Wire.gdprEraseUser.encode a
    | .registerActor a => Wire.registerActor.encode a
    | .createSpace a => Wire.createSpace.encode a
    | .submitActivity a => Wire.submitActivity.encode a
    | .retractActivity a => Wire.retractActivity.encode a

/-- The registered action a submission decodes to. -/
def decodeAction (typeCode : TypeCode) (bytes : Bytes) : Option ShippedAction :=
  if typeCode = ArkheAction.typeCode RegisterUser then
    Wire.registerUser.read .registerUser bytes |>.map Prod.fst
  else if typeCode = ArkheAction.typeCode GdprEraseUser then
    Wire.gdprEraseUser.read .gdprEraseUser bytes |>.map Prod.fst
  else if typeCode = ArkheAction.typeCode RegisterActor then
    Wire.registerActor.read .registerActor bytes |>.map Prod.fst
  else if typeCode = ArkheAction.typeCode CreateSpace then
    Wire.createSpace.read .createSpace bytes |>.map Prod.fst
  else if typeCode = ArkheAction.typeCode SubmitActivity then
    Wire.submitActivity.read .submitActivity bytes |>.map Prod.fst
  else if typeCode = ArkheAction.typeCode RetractActivity then
    Wire.retractActivity.read .retractActivity bytes |>.map Prod.fst
  else none

theorem read_encode_self {α β : Type} (c : Codec α) (f : α → β) (x : α) :
    (c.read f (c.encode x)).map Prod.fst = some (f x) := by
  have h := c.read_encode f x []
  rw [List.append_nil] at h
  rw [h]
  rfl

theorem decodeAction_canonicalBytes (a : ShippedAction) :
    decodeAction (actionTypeCode a) (postcardActions.canonicalBytes a) = some a := by
  cases a with
  | registerUser a => exact read_encode_self Wire.registerUser _ a
  | gdprEraseUser a => exact read_encode_self Wire.gdprEraseUser _ a
  | registerActor a => exact read_encode_self Wire.registerActor _ a
  | createSpace a => exact read_encode_self Wire.createSpace _ a
  | submitActivity a => exact read_encode_self Wire.submitActivity _ a
  | retractActivity a => exact read_encode_self Wire.retractActivity _ a

/-! ## The kernel -/

/-- An accepted submission. -/
structure Submitted where
  instanceId : InstanceId
  actor : Option EntityId
  tick : Tick
  typeCode : TypeCode
  bytes : Bytes
  deriving DecidableEq, Repr

/-- Instances, what is scheduled, and the log. -/
structure MemoryKernel where
  instances : InstanceId → Option InstanceState
  scheduled : List Submitted
  wal : List Submitted

namespace MemoryKernel

/-- One live instance in a state, nothing scheduled. -/
def live (instanceId : InstanceId) (state : InstanceState) : MemoryKernel where
  instances i := if i = instanceId then some state else none
  scheduled := []
  wal := []

/-- Replace the state of one instance. -/
def put (k : MemoryKernel) (instanceId : InstanceId) (state : InstanceState) : MemoryKernel :=
  { k with instances := fun i => if i = instanceId then some state else k.instances i }

section

variable [Blake3] [CoreWire]

/-- Execute one submission. -/
def execute (k : MemoryKernel) (s : Submitted) : MemoryKernel :=
  match k.instances s.instanceId, decodeAction s.typeCode s.bytes with
  | some state, some action =>
    k.put s.instanceId (state.commit (kernelComputeInner action s.instanceId s.tick s.actor))
  | _, _ => k

/-- Accept a submission to a live instance. -/
def submit (instanceId : InstanceId) (actor : Option EntityId) (tick : Tick)
    (typeCode : TypeCode) (bytes : Bytes) : Fallible MemoryKernel ArkheError Unit := do
  let k ← get
  match k.instances instanceId with
  | none => throw .instanceNotFound
  | some _ =>
    let s : Submitted := ⟨instanceId, actor, tick, typeCode, bytes⟩
    set { k with scheduled := k.scheduled ++ [s], wal := k.wal ++ [s] }

/-- Execute what is due, in order. -/
def step (now : Tick) (k : MemoryKernel) : StepReport × MemoryKernel :=
  let due := k.scheduled.filter fun s => s.tick ≤ now
  let k' := due.foldl execute { k with scheduled := k.scheduled.filter fun s => ¬ s.tick ≤ now }
  (⟨due.length, 0, 0⟩, k')

/-- The promises, kept. -/
instance lawful : @LawfulKernel MemoryKernel _ _ postcardActions :=
  letI := postcardActions
  { instanceView := fun k i => (k.instances i).map InstanceState.view
    submit := fun i _ actor _ tick typeCode bytes => submit i actor tick typeCode bytes
    step := fun tick _ k => step tick k
    state := fun k i => k.instances i
    idle := fun k => k.scheduled = []
    view_eq := fun _ _ => rfl
    commits := by
      intro k i s principal actor caps tick a hidle hstate
      refine ⟨_, by simp only [submit, exec_bind, exec_get, hstate, exec_set]; rfl, ?_, ?_⟩
      · simp [step, hidle, execute, hstate, decodeAction_canonicalBytes, put]
      · simp [step, hidle, execute, hstate, decodeAction_canonicalBytes, put] }

end

end MemoryKernel

end ArkheForge.Platform
