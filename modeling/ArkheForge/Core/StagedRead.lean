/-
  A staged read is a read after a commit.

  `staged_read` scans the op buffer from its end and falls through to the view.
  Committing goes the other way: the ops are applied from the front. `slotAfter` is
  what a list of ops leaves in one component slot; the scan computes it backwards
  (`stagedScan_slotAfter`), and so does a commit on an entity that is known by the time
  the ops reach it (`commit_slot_of_known`, `commit_slot_of_spawnedFirst`). A component
  type owns its `TYPE_CODE`: what was written under it decodes.
-/
import ArkheForge.Core.NestedSpaces
import ArkheForge.Core.Pipeline

namespace ArkheForge.Core

open BigEndian Fallible

/-! ## What ops leave in a slot -/

/-- What one op leaves in the slot `(e, t)` that held `held`. -/
def leaves (e : EntityId) (t : TypeCode) (held : Option Bytes) : Op → Option Bytes
  | .setComponent e' t' bytes _ => if e' = e ∧ t' = t then some bytes else held
  | .removeComponent e' t' _ => if e' = e ∧ t' = t then none else held
  | _ => held

/-- What a list of ops leaves in it. -/
def slotAfter (e : EntityId) (t : TypeCode) (held : Option Bytes) (ops : List Op) : Option Bytes :=
  ops.foldl (leaves e t) held

@[simp] theorem slotAfter_nil (e : EntityId) (t : TypeCode) (held : Option Bytes) :
    slotAfter e t held [] = held := rfl

@[simp] theorem slotAfter_cons (e : EntityId) (t : TypeCode) (held : Option Bytes) (op : Op)
    (ops : List Op) : slotAfter e t held (op :: ops) = slotAfter e t (leaves e t held op) ops := rfl

theorem slotAfter_append (e : EntityId) (t : TypeCode) (held : Option Bytes) (ops ops' : List Op) :
    slotAfter e t held (ops ++ ops') = slotAfter e t (slotAfter e t held ops) ops' :=
  List.foldl_append

theorem not_same_slot {e e' : EntityId} {t t' : TypeCode}
    (h : (some (e', t') : Option (EntityId × TypeCode)) ≠ some (e, t)) : ¬ (e' = e ∧ t' = t) := by
  rintro ⟨rfl, rfl⟩
  exact h rfl

theorem leaves_of_untouched {e : EntityId} {t : TypeCode} {op : Op} (h : op.slot ≠ some (e, t))
    (held : Option Bytes) : leaves e t held op = held := by
  unfold leaves
  cases op with
  | spawnEntity id owner => rfl
  | setComponent e' t' bytes size => exact if_neg (not_same_slot h)
  | removeComponent e' t' size => exact if_neg (not_same_slot h)
  | emitEvent actor code payload => rfl

theorem slotAfter_of_untouched {e : EntityId} {t : TypeCode} {ops : List Op}
    (h : ∀ op ∈ ops, op.slot ≠ some (e, t)) (held : Option Bytes) :
    slotAfter e t held ops = held := by
  induction ops with
  | nil => rfl
  | cons op ops ih =>
      rw [slotAfter_cons, leaves_of_untouched (h op (by simp))]
      exact ih fun op' hop' => h op' (by simp [hop'])

/-! ## Committing from the front -/

theorem update_slot_of_known {state : InstanceState} {e : EntityId} (h : state.known e = true)
    (t : TypeCode) (e' : EntityId) (t' : TypeCode) (b : Option Bytes) :
    (state.update e' t' b).component e t =
      if e' = e ∧ t' = t then b else state.component e t := by
  by_cases hslot : e' = e ∧ t' = t
  · obtain ⟨rfl, rfl⟩ := hslot
    rw [InstanceState.update_component_of_known h]
  · rw [if_neg hslot]
    exact InstanceState.update_component_of_ne _ fun heq => hslot ⟨heq.1.symm, heq.2.symm⟩

theorem applyOp_slot_of_known {state : InstanceState} {e : EntityId} (h : state.known e = true)
    (t : TypeCode) (op : Op) :
    (state.applyOp op).component e t = leaves e t (state.component e t) op := by
  cases op with
  | spawnEntity id owner => rfl
  | setComponent e' t' bytes size => exact update_slot_of_known h t e' t' (some bytes)
  | removeComponent e' t' size => exact update_slot_of_known h t e' t' none
  | emitEvent actor code payload => rfl

theorem applyOp_known_of_known {state : InstanceState} {e : EntityId} (h : state.known e = true)
    (op : Op) : (state.applyOp op).known e = true :=
  (InstanceState.commit_known state [op] e).mpr (.inl h)

/-- On a known entity a commit leaves what the ops leave. -/
theorem commit_slot_of_known {state : InstanceState} {e : EntityId} (h : state.known e = true)
    (t : TypeCode) (ops : List Op) :
    (state.commit ops).component e t = slotAfter e t (state.component e t) ops := by
  induction ops generalizing state with
  | nil => rfl
  | cons op ops ih =>
      rw [InstanceState.commit_cons, ih (applyOp_known_of_known h op), applyOp_slot_of_known h,
        slotAfter_cons]

/-- A spawn of `e` precedes every op on a component of `e`. -/
def SpawnedFirst (e : EntityId) (ops : List Op) : Prop :=
  ∃ earlier owner later, ops = earlier ++ .spawnEntity e owner :: later ∧
    ∀ op ∈ earlier, ∀ t, op.slot ≠ some (e, t)

/-- So does a commit on an entity that the ops spawn before they touch it. -/
theorem commit_slot_of_spawnedFirst {state : InstanceState} {e : EntityId} {ops : List Op}
    (h : SpawnedFirst e ops) (t : TypeCode) :
    (state.commit ops).component e t = slotAfter e t (state.component e t) ops := by
  obtain ⟨earlier, owner, later, rfl, huntouched⟩ := h
  have hearlier := fun op hop => huntouched op hop t
  have hspawned : ((state.commit earlier).applyOp (.spawnEntity e owner)).known e = true := by
    simp [InstanceState.applyOp]
  rw [InstanceState.commit_append, InstanceState.commit_cons, commit_slot_of_known hspawned,
    slotAfter_append, slotAfter_of_untouched hearlier, slotAfter_cons]
  show slotAfter e t ((state.commit earlier).component e t) later = _
  rw [InstanceState.commit_component_of_untouched hearlier]
  rfl

/-! ## Scanning from the end -/

section

variable {C : Type} [ArkheComponent C] [Postcard C]

/-- What `read` makes of the bytes in a slot. -/
def decodeSlot (C : Type) [Postcard C] (held : Option Bytes) : Except ActionError (Option C) :=
  match held with
  | none => .ok none
  | some bytes =>
    match Postcard.fromBytes bytes with
    | .ok c => .ok (some c)
    | .error _ => .error (.invalidInput "component decode failed")

theorem read_eq_decodeSlot {ctx : ActionContext} {view : InstanceView}
    (hview : ctx.view = some view) (e : EntityId) :
    ctx.read C e = decodeSlot C (view.component e (ArkheComponent.typeCode C)) := by
  unfold ActionContext.read
  rw [hview]
  rfl

/-- What an op writes under the type code of `C` decodes as a `C`. -/
def DecodesAs (C : Type) [ArkheComponent C] [Postcard C] (op : Op) : Prop :=
  ∀ e bytes size, op = .setComponent e (ArkheComponent.typeCode C) bytes size →
    ∃ c : C, Postcard.fromBytes bytes = .ok c

theorem stagedScan_of_untouched {op : Op} {e : EntityId}
    (h : op.slot ≠ some (e, ArkheComponent.typeCode C)) (ops : List Op) :
    ActionContext.stagedScan C e (op :: ops) = ActionContext.stagedScan C e ops := by
  cases op with
  | spawnEntity id owner => rfl
  | setComponent e' t' bytes size => exact if_neg (not_same_slot h)
  | removeComponent e' t' size => exact if_neg (not_same_slot h)
  | emitEvent actor code payload => rfl

/-- The scan stops at the last op on the slot, or falls through. -/
theorem stagedScan_slotAfter {ops : List Op} (h : ∀ op ∈ ops, DecodesAs C op) (e : EntityId)
    (held : Option Bytes) :
    (ActionContext.stagedScan C e ops.reverse).getD (decodeSlot C held) =
      decodeSlot C (slotAfter e (ArkheComponent.typeCode C) held ops) := by
  induction ops using List.reverseRecOn with
  | nil => rfl
  | append_singleton ops op ih =>
      rw [List.reverse_append, List.reverse_singleton, List.singleton_append, slotAfter_append,
        slotAfter_cons, slotAfter_nil]
      by_cases hslot : op.slot = some (e, ArkheComponent.typeCode C)
      · cases op with
        | spawnEntity id owner => simp [Op.slot] at hslot
        | emitEvent actor code payload => simp [Op.slot] at hslot
        | setComponent e' t' bytes size =>
            obtain ⟨rfl, rfl⟩ := Prod.mk.inj (Option.some.inj hslot)
            obtain ⟨c, hc⟩ := h (.setComponent e' _ bytes size) (by simp) e' bytes size rfl
            simp [ActionContext.stagedScan, leaves, decodeSlot, hc]
        | removeComponent e' t' size =>
            obtain ⟨rfl, rfl⟩ := Prod.mk.inj (Option.some.inj hslot)
            simp [ActionContext.stagedScan, leaves, decodeSlot]
      · rw [stagedScan_of_untouched hslot, leaves_of_untouched hslot]
        exact ih fun op' hop' => h op' (by simp [hop'])

end

/-! ## Bodies over a registry of component types -/

section

variable {ι : Type} {component : ι → Type} [∀ i, ArkheComponent (component i)]
  [∀ i, Postcard (component i)]

/-- What a compute body that stages ops can be made of, where the components it attaches are of
    the registered types. -/
inductive StagingBody [Blake3] (component : ι → Type) [∀ i, ArkheComponent (component i)]
    [∀ i, Postcard (component i)] : {α : Type} → Compute α → Prop
  | pure {α : Type} (a : α) : StagingBody component (pure a)
  | throw {α : Type} (e : ActionError) : StagingBody component (throw e : Compute α)
  | ofExcept {α : Type} (r : Except ActionError α) : StagingBody component (ofExcept r)
  | get : StagingBody component (get : Compute ActionContext)
  | bind {α β : Type} {m : Compute α} {k : α → Compute β} : StagingBody component m →
      (∀ a, StagingBody component (k a)) → StagingBody component (m >>= k)
  | attempt {α : Type} {m : Compute α} : StagingBody component m →
      StagingBody component (attempt m : Compute (Except ActionError α))
  | spawnEntityFor (C : Type) [ArkheComponent C] : StagingBody component (spawnEntityFor C)
  | setComponent (i : ι) (entity : EntityId) (c : component i) :
      StagingBody component (setComponent entity c)
  | removeComponent (C : Type) [ArkheComponent C] (entity : EntityId) (priorSize : UInt64) :
      StagingBody component (removeComponent C entity priorSize)
  | emitEvent {E : Type} [ArkheEvent E] [Postcard E] (event : E) :
      StagingBody component (emitEvent event)

/-- An op that attaches, if anything, the canonical bytes of a registered component. -/
def Registered (component : ι → Type) [∀ i, ArkheComponent (component i)]
    [∀ i, Postcard (component i)] (op : Op) : Prop :=
  ∀ e t bytes size, op = .setComponent e t bytes size →
    ∃ i, ∃ c : component i, t = ArkheComponent.typeCode (component i) ∧
      Postcard.toStdvec c = .ok bytes

/-- Where no two registered types share a code, what is written under one decodes as it. -/
theorem Registered.decodesAs
    (hcodes : Function.Injective fun i => ArkheComponent.typeCode (component i))
    {i : ι} (hround : Postcard.RoundTrip (component i)) {op : Op} (h : Registered component op) :
    DecodesAs (component i) op := by
  intro e bytes size hop
  obtain ⟨j, c, hcode, hbytes⟩ := h e _ bytes size hop
  obtain rfl : i = j := hcodes hcode
  exact ⟨c, hround c bytes hbytes⟩

/-- From `ctx` to `ctx'` registered ops were appended and the view stayed bound. -/
def Stages (component : ι → Type) [∀ i, ArkheComponent (component i)]
    [∀ i, Postcard (component i)] (ctx ctx' : ActionContext) : Prop :=
  ctx'.view = ctx.view ∧
    ∃ added, ctx'.ops = ctx.ops ++ added ∧ ∀ op ∈ added, Registered component op

theorem Stages.refl (ctx : ActionContext) : Stages component ctx ctx :=
  ⟨rfl, [], (List.append_nil _).symm, by simp⟩

theorem Stages.trans {ctx ctx' ctx'' : ActionContext} (h : Stages component ctx ctx')
    (h' : Stages component ctx' ctx'') : Stages component ctx ctx'' := by
  obtain ⟨hview, xs, hxs, hregistered⟩ := h
  obtain ⟨hview', ys, hys, hregistered'⟩ := h'
  refine ⟨hview'.trans hview, xs ++ ys, ?_, ?_⟩
  · rw [hys, hxs, List.append_assoc]
  · intro op hop
    rcases List.mem_append.mp hop with hx | hy
    · exact hregistered op hx
    · exact hregistered' op hy

theorem Stages.one {ctx ctx' : ActionContext} {op : Op} (hview : ctx'.view = ctx.view)
    (hops : ctx'.ops = ctx.ops ++ [op]) (hregistered : Registered component op) :
    Stages component ctx ctx' := by
  refine ⟨hview, [op], hops, ?_⟩
  intro op' hop'
  obtain rfl := List.mem_singleton.mp hop'
  exact hregistered

/-- Whatever a body does, it stages registered ops. -/
theorem StagingBody.stages [Blake3] {α : Type} {m : Compute α} (h : StagingBody component m)
    (ctx : ActionContext) : Stages component ctx (m.exec ctx).2 := by
  induction h generalizing ctx with
  | pure a => exact Stages.refl ctx
  | throw e => exact Stages.refl ctx
  | ofExcept r =>
      rw [exec_ofExcept]
      exact Stages.refl ctx
  | get => exact Stages.refl ctx
  | @bind α β m k hm hk ihm ihk =>
      have hfirst := ihm ctx
      rw [exec_bind]
      rcases hexec : m.exec ctx with ⟨e | a, ctx'⟩
      all_goals rw [hexec] at hfirst
      · exact hfirst
      · exact hfirst.trans (ihk a ctx')
  | attempt hm ih =>
      rw [exec_attempt]
      exact ih ctx
  | spawnEntityFor C =>
      rw [exec_spawnEntityFor]
      cases checkedSucc ctx.idSeq with
      | none => exact Stages.refl ctx
      | some next =>
          simp only
          cases ctx.upcomingId (ArkheComponent.typeCode C) with
          | none => exact ⟨rfl, [], (List.append_nil _).symm, by simp⟩
          | some id => exact Stages.one rfl rfl (by simp [Registered])
  | setComponent i entity c =>
      unfold Core.setComponent
      cases hbytes : Postcard.toStdvec c with
      | error e => exact Stages.refl ctx
      | ok bytes =>
          refine Stages.one rfl rfl ?_
          intro e t bytes' size hop
          injection hop with _ hcode hsame _
          exact ⟨i, c, hcode.symm, hsame ▸ hbytes⟩
  | removeComponent C entity priorSize => exact Stages.one rfl rfl (by simp [Registered])
  | @emitEvent E _ _ event =>
      unfold Core.emitEvent
      cases Postcard.toStdvec event with
      | error e => exact Stages.refl ctx
      | ok payload => exact Stages.one rfl rfl (by simp [Registered])

/-- **A staged read agrees with committing first.** For every body over a registry of component
    types with codes of their own, every state the context is bound to a view of, and every
    entity that state knows or whose spawn precedes the ops on its components: the staged read
    of a registered component is the read on a view of the state with the ops committed. -/
theorem stagedRead_eq_read_committed [Blake3]
    (hcodes : Function.Injective fun i => ArkheComponent.typeCode (component i))
    (hround : ∀ i, Postcard.RoundTrip (component i)) {α : Type} {body : Compute α}
    (hbody : StagingBody component body) (ctx : ActionContext) (hops : ctx.ops = [])
    (state : InstanceState) (hview : ctx.view = some state.view) (i : ι) (entity : EntityId)
    (hknown : state.known entity = true ∨ SpawnedFirst entity (body.exec ctx).2.ops) :
    (body.exec ctx).2.stagedRead (component i) entity =
      ((body.exec ctx).2.withView (state.commit (body.exec ctx).2.ops).view).read
        (component i) entity := by
  obtain ⟨hview', added, hadded, hregistered⟩ := hbody.stages ctx
  generalize (body.exec ctx).2 = after at hview' hadded hknown ⊢
  rw [hops, List.nil_append] at hadded
  rw [hview] at hview'
  have hdecodes : ∀ op ∈ after.ops, DecodesAs (component i) op := by
    intro op hop
    rw [hadded] at hop
    exact (hregistered op hop).decodesAs hcodes (hround i)
  have hcommit : (state.commit after.ops).component entity
      (ArkheComponent.typeCode (component i)) =
      slotAfter entity (ArkheComponent.typeCode (component i))
        (state.component entity (ArkheComponent.typeCode (component i))) after.ops := by
    rcases hknown with hknown | hspawned
    · exact commit_slot_of_known hknown _ _
    · exact commit_slot_of_spawnedFirst hspawned _
  have hcommitted : (after.withView (state.commit after.ops).view).view =
      some (state.commit after.ops).view := rfl
  unfold ActionContext.stagedRead
  rw [read_eq_decodeSlot hview', read_eq_decodeSlot hcommitted]
  show _ = decodeSlot (component i) ((state.commit after.ops).component entity _)
  rw [hcommit]
  exact stagedScan_slotAfter hdecodes entity _

end

/-! ## A new entity whose depth is set twice -/

section

variable [Blake3] [CoreWire]

/-- Spawn, attach a depth, detach it, attach another. -/
def respacing : Compute Unit :=
  spawnEntityFor SpaceConfig >>= fun id =>
    setComponent id (ParentChainDepth.mk 1 3) >>= fun _ =>
      removeComponent ParentChainDepth id 2 >>= fun _ =>
        setComponent id (ParentChainDepth.mk 1 4)

theorem respacing_body : StagingBody (fun _ : Unit => ParentChainDepth) respacing :=
  .bind (.spawnEntityFor SpaceConfig) fun id => .bind (.setComponent () id _) fun _ =>
    .bind (.removeComponent ParentChainDepth id 2) fun _ => .setComponent () id _

/-- Its context: a fresh one on a view of the empty instance. -/
def respacingContext : ActionContext := viewBoundContext InstanceState.empty firstInstance 1 none

end

theorem stagedRead_eq_read_committed_respacing :
    letI := postcardWire
    letI := oneBlockBlake3
    let after := (respacing.exec respacingContext).2
    after.stagedRead ParentChainDepth rootSpace.get = .ok (some ⟨1, 4⟩) ∧
      after.stagedRead ParentChainDepth rootSpace.get =
        (after.withView (InstanceState.empty.commit after.ops).view).read ParentChainDepth
          rootSpace.get := by
  have hround := fun _ : Unit => Postcard.ofCodec_roundTrip Wire.parentChainDepth
  let _ := postcardWire
  let _ := oneBlockBlake3
  have hspawned : SpawnedFirst rootSpace.get (respacing.exec respacingContext).2.ops :=
    ⟨[], .system, (respacing.exec respacingContext).2.ops.drop 1, by decide +kernel, by simp⟩
  have hvalue : (respacing.exec respacingContext).2.stagedRead ParentChainDepth rootSpace.get =
      .ok (some ⟨1, 4⟩) := by decide +kernel
  have hcommitted := stagedRead_eq_read_committed (fun _ _ _ => rfl) hround respacing_body
    respacingContext rfl InstanceState.empty rfl () rootSpace.get (.inr hspawned)
  generalize (respacing.exec respacingContext).2 = after at hvalue hcommitted ⊢
  exact ⟨hvalue, hcommitted⟩

end ArkheForge.Core
