/-
  The L1 pipeline (`pipeline.rs`): run a compute body, drain its events.

  An action type is known to the pipeline by its compute only. `ComputeBody` says
  what such a body can be: a sequence of reads of the context and of calls of its
  writing methods, any of whose errors it may handle. Draining the event buffer is
  the pipeline's own step. Whatever a body does, it numbers its events one after the
  other from the context's sequence and stamps them with the context's tick
  (`ComputeBody.emits`), so a call on a fresh context returns one contiguous batch
  that starts at 0 (`drained_numbered`).
-/
import ArkheForge.Core.Actions

namespace ArkheForge.Core

open BigEndian Fallible

/-! ## The source functions -/

/-- `CapabilityMask::is_empty`. -/
def capsEmpty : CapabilityMask → Bool
  | .system => false
  | .other bits => bits = 0

/-- `ensure_caps`. -/
def ensureCaps (caps : CapabilityMask) : Except ActionError Unit :=
  if capsEmpty caps then .error (.capabilityDenied "empty capability mask") else .ok ()

/-- `ActionContext::remove_component`. -/
def removeComponent (C : Type) [ArkheComponent C] (entity : EntityId) (priorSize : UInt64) :
    Compute Unit :=
  modify fun ctx => { ctx with
    ops := ctx.ops ++ [.removeComponent entity (ArkheComponent.typeCode C) priorSize] }

/-- `ActionContext::drain_events`. -/
def ActionContext.drainEvents (ctx : ActionContext) : List EventRecord × ActionContext :=
  (ctx.events, { ctx with events := [] })

/-- `process_action`, given the action's compute. -/
def processAction (compute : Compute Unit) : Compute (List EventRecord) := do
  ofExcept (ensureCaps (← get).caps)
  compute
  let (drained, ctx) := (← get).drainEvents
  set ctx
  pure drained

/-- What a compute body can be made of. `drain_events` is public too, but it is the pipeline's
    own call once the body has returned, so no body makes it. -/
inductive ComputeBody [Blake3] : {α : Type} → Compute α → Prop
  | pure {α : Type} (a : α) : ComputeBody (pure a)
  | throw {α : Type} (e : ActionError) : ComputeBody (throw e : Compute α)
  | ofExcept {α : Type} (r : Except ActionError α) : ComputeBody (ofExcept r)
  | get : ComputeBody (get : Compute ActionContext)
  | bind {α β : Type} {m : Compute α} {k : α → Compute β} :
      ComputeBody m → (∀ a, ComputeBody (k a)) → ComputeBody (m >>= k)
  | attempt {α : Type} {m : Compute α} : ComputeBody m →
      ComputeBody (attempt m : Compute (Except ActionError α))
  | nextId (typeCode : TypeCode) : ComputeBody (nextId typeCode)
  | spawnEntityFor (C : Type) [ArkheComponent C] : ComputeBody (spawnEntityFor C)
  | setComponent {C : Type} [ArkheComponent C] [Postcard C] (entity : EntityId) (component : C) :
      ComputeBody (setComponent entity component)
  | removeComponent (C : Type) [ArkheComponent C] (entity : EntityId) (priorSize : UInt64) :
      ComputeBody (removeComponent C entity priorSize)
  | emitEvent {E : Type} [ArkheEvent E] [Postcard E] (event : E) :
      ComputeBody (emitEvent event)
  | drainOps : ComputeBody (modifyGet ActionContext.drainOps : Compute (List Op))

/-- A guard that throws, and goes on otherwise. -/
theorem computeBody_guard [Blake3] {α : Type} (c : Prop) [Decidable c] (e : ActionError)
    {m : Compute α} (hm : ComputeBody m) :
    ComputeBody (if c then (throw e : Compute PUnit) >>= fun _ => m else m) := by
  split
  · exact .bind (.throw e) fun _ => hm
  · exact hm

theorem RegisterUser.compute_body [Blake3] [CoreWire] (a : RegisterUser) :
    ComputeBody a.compute := by
  unfold RegisterUser.compute
  refine .bind (.ofExcept _) fun _ => .bind (.ofExcept _) fun _ => .bind (.ofExcept _) fun _ => ?_
  refine computeBody_guard _ _ (.bind (.spawnEntityFor UserProfile) fun id => ?_)
  exact .bind (.setComponent id _) fun _ => .bind (.setComponent id _) fun _ => .setComponent id _

theorem GdprEraseUser.compute_body [Blake3] [CoreWire] (a : GdprEraseUser) :
    ComputeBody a.compute := by
  unfold GdprEraseUser.compute
  refine .bind (.ofExcept _) fun _ => .bind (.setComponent _ _) fun _ => ?_
  exact .bind .get fun _ => .emitEvent _

theorem RegisterActor.compute_body [Blake3] [CoreWire] (a : RegisterActor) :
    ComputeBody a.compute := by
  unfold RegisterActor.compute
  refine .bind (.ofExcept _) fun _ => .bind (.ofExcept _) fun _ => .bind .get fun _ => ?_
  refine computeBody_guard _ _ (.bind (.spawnEntityFor ActorProfile) fun id => ?_)
  exact .bind (.setComponent id _) fun _ => .setComponent id _

theorem CreateSpace.compute_body [Blake3] [CoreWire] (a : CreateSpace) :
    ComputeBody a.compute := by
  unfold CreateSpace.compute
  refine .bind (.ofExcept _) fun _ => .bind (.ofExcept _) fun _ => .bind .get fun _ => ?_
  refine .bind (.ofExcept _) fun _ => .bind (.ofExcept _) fun _ => .bind (.ofExcept _) fun _ => ?_
  refine .bind (.spawnEntityFor SpaceConfig) fun id => ?_
  exact .bind (.setComponent id _) fun _ => .setComponent id _

theorem SubmitActivity.compute_body [Blake3] [CoreWire] (a : SubmitActivity) :
    ComputeBody a.compute := by
  unfold SubmitActivity.compute
  refine .bind (.ofExcept _) fun _ => .bind (.ofExcept _) fun _ => .bind .get fun _ => ?_
  refine .bind (.ofExcept _) fun _ => .bind (.ofExcept _) fun _ => .bind (.ofExcept _) fun _ => ?_
  refine .bind (.ofExcept _) fun _ => .bind (.spawnEntityFor ActivityRecord) fun id => ?_
  exact .setComponent id _

/-- The shipped actions are such bodies. -/
theorem ShippedAction.compute_body [Blake3] [CoreWire] (a : ShippedAction) :
    ComputeBody a.compute := by
  cases a with
  | registerUser a => exact a.compute_body
  | gdprEraseUser a => exact a.compute_body
  | registerActor a => exact a.compute_body
  | createSpace a => exact a.compute_body
  | submitActivity a => exact a.compute_body
  | retractActivity a => exact .ofExcept _

/-! ## Numbered batches -/

/-- The records of a batch of events: one tick, consecutive sequence numbers. -/
def numbered (tick : Tick) : UInt64 → List (TypeCode × Bytes) → List EventRecord
  | _, [] => []
  | seq, (code, payload) :: rest =>
    ⟨code, seq, tick, payload⟩ :: numbered tick (saturatingSucc seq) rest

/-- The sequence number after a batch. -/
def sequenceAfter (seq : UInt64) : ℕ → UInt64
  | 0 => seq
  | count + 1 => sequenceAfter (saturatingSucc seq) count

@[simp] theorem numbered_length (tick : Tick) (seq : UInt64) (contents : List (TypeCode × Bytes)) :
    (numbered tick seq contents).length = contents.length := by
  induction contents generalizing seq with
  | nil => rfl
  | cons content rest ih => simp [numbered, ih]

theorem numbered_append (tick : Tick) (seq : UInt64) (xs ys : List (TypeCode × Bytes)) :
    numbered tick seq (xs ++ ys) =
      numbered tick seq xs ++ numbered tick (sequenceAfter seq xs.length) ys := by
  induction xs generalizing seq with
  | nil => rfl
  | cons x xs ih =>
      show _ :: numbered tick (saturatingSucc seq) (xs ++ ys) = _
      rw [ih]
      rfl

theorem sequenceAfter_add (seq : UInt64) (m n : ℕ) :
    sequenceAfter seq (m + n) = sequenceAfter (sequenceAfter seq m) n := by
  induction m generalizing seq with
  | zero => rw [Nat.zero_add]; rfl
  | succ m ih =>
      rw [Nat.succ_add]
      exact ih (saturatingSucc seq)

/-- From `ctx` to `ctx'` the events of a batch were emitted and nothing else happened to the
    event buffer. -/
def Emits (ctx ctx' : ActionContext) : Prop :=
  ∃ contents, ctx'.tick = ctx.tick ∧
    ctx'.events = ctx.events ++ numbered ctx.tick ctx.eventSeq contents ∧
    ctx'.eventSeq = sequenceAfter ctx.eventSeq contents.length

theorem Emits.of_eq {ctx ctx' : ActionContext} (htick : ctx'.tick = ctx.tick)
    (hevents : ctx'.events = ctx.events) (hseq : ctx'.eventSeq = ctx.eventSeq) :
    Emits ctx ctx' :=
  ⟨[], htick, by simpa [numbered] using hevents, hseq⟩

theorem Emits.refl (ctx : ActionContext) : Emits ctx ctx := Emits.of_eq rfl rfl rfl

theorem Emits.trans {ctx ctx' ctx'' : ActionContext} (h : Emits ctx ctx') (h' : Emits ctx' ctx'') :
    Emits ctx ctx'' := by
  obtain ⟨xs, htick, hevents, hseq⟩ := h
  obtain ⟨ys, htick', hevents', hseq'⟩ := h'
  refine ⟨xs ++ ys, htick'.trans htick, ?_, ?_⟩
  · rw [hevents', hevents, htick, hseq, numbered_append, List.append_assoc]
  · rw [hseq', hseq, List.length_append, sequenceAfter_add]

/-- A body that stops early has emitted what it emitted. -/
theorem ComputeBody.emits [Blake3] {α : Type} {m : Compute α} (h : ComputeBody m)
    (ctx : ActionContext) : Emits ctx (m.exec ctx).2 := by
  induction h generalizing ctx with
  | pure a => exact Emits.refl ctx
  | throw e => exact Emits.refl ctx
  | ofExcept r =>
      rw [exec_ofExcept]
      exact Emits.refl ctx
  | get => exact Emits.refl ctx
  | @bind α β m k hm hk ihm ihk =>
      have hfirst := ihm ctx
      rw [exec_bind]
      rcases hexec : m.exec ctx with ⟨e | a, ctx'⟩
      all_goals rw [hexec] at hfirst
      · exact hfirst
      · exact hfirst.trans (ihk a ctx')
  | attempt hm ih =>
      rw [exec_attempt]
      exact ih ctx
  | nextId typeCode =>
      rw [exec_nextId]
      cases checkedSucc ctx.idSeq with
      | none => exact Emits.refl ctx
      | some next =>
          simp only
          cases ctx.upcomingId typeCode with
          | none => exact Emits.of_eq rfl rfl rfl
          | some id => exact Emits.of_eq rfl rfl rfl
  | spawnEntityFor C =>
      rw [exec_spawnEntityFor]
      cases checkedSucc ctx.idSeq with
      | none => exact Emits.refl ctx
      | some next =>
          simp only
          cases ctx.upcomingId (ArkheComponent.typeCode C) with
          | none => exact Emits.of_eq rfl rfl rfl
          | some id => exact Emits.of_eq rfl rfl rfl
  | setComponent entity component =>
      unfold Core.setComponent
      cases Postcard.toStdvec component with
      | error e => exact Emits.refl ctx
      | ok bytes => exact Emits.of_eq rfl rfl rfl
  | removeComponent C entity priorSize => exact Emits.of_eq rfl rfl rfl
  | @emitEvent E _ _ event =>
      unfold Core.emitEvent
      cases Postcard.toStdvec event with
      | error e => exact Emits.refl ctx
      | ok payload => exact ⟨[(ArkheEvent.typeCode E, payload)], rfl, rfl, rfl⟩
  | drainOps => exact Emits.of_eq rfl rfl rfl

/-! ## What a call returns -/

/-- A context nothing has been done in. -/
structure Fresh (ctx : ActionContext) : Prop where
  idSeq : ctx.idSeq = 0
  eventSeq : ctx.eventSeq = 0
  events : ctx.events = []
  ops : ctx.ops = []

theorem fresh_new (worldSeed : Vector UInt8 32) (instanceId : InstanceId) (tick : Tick)
    (principal : Principal) (caps : CapabilityMask) :
    Fresh (ActionContext.new worldSeed instanceId tick principal caps) :=
  ⟨rfl, rfl, rfl, rfl⟩

/-- A successful call on a fresh context drains one batch, numbered from 0. -/
theorem drained_numbered [Blake3] {compute : Compute Unit} (hbody : ComputeBody compute)
    {ctx : ActionContext} (hfresh : Fresh ctx) {batch : List EventRecord}
    (hrun : ((processAction compute).exec ctx).1 = .ok batch) :
    ∃ contents, batch = numbered ctx.tick 0 contents := by
  obtain ⟨contents, htick, hevents, hseq⟩ := hbody.emits ctx
  unfold processAction at hrun
  simp only [exec_bind, exec_get, exec_ofExcept] at hrun
  cases hcaps : ensureCaps ctx.caps with
  | error e =>
      rw [hcaps] at hrun
      simp at hrun
  | ok _ =>
      rw [hcaps] at hrun
      simp only at hrun
      rcases hexec : compute.exec ctx with ⟨e | _, ctx'⟩
      all_goals rw [hexec] at hrun hevents
      · simp at hrun
      · refine ⟨contents, ?_⟩
        have hbatch : ctx'.events = batch := Except.ok.inj hrun
        rw [← hbatch, hevents, hfresh.events, hfresh.eventSeq, List.nil_append]

end ArkheForge.Core
