/-
  `CreateSpace` under a parent, on the bridge and with a view.

  `compute` takes the parent's depth from the attached view. The bridge attaches
  none, so there the parent is "not found", the run is refused and the refusal
  becomes the empty batch: an action dispatched through the service never creates a
  nested space. The same compute bound to a view of the same state creates it one
  below its parent (`viewBound_createSpace`). The two agree on no input
  (`CreateSpace.bridge_never_nests`).
-/
import ArkheForge.Core.Bridge

namespace ArkheForge.Core

open BigEndian Fallible

/-- The context of the bridge, bound to a view of a state. -/
def viewBoundContext (state : InstanceState) (instanceId : InstanceId) (now : Tick)
    (actor : Option EntityId) : ActionContext :=
  (bridgeContext instanceId now actor).withView state.view

section

variable [Blake3] [CoreWire]

/-- The batch of a nested space: the spawn, the configuration, the depth below the parent. -/
def CreateSpace.nestedOps (a : CreateSpace) (id : EntityId) (creator : ActorId)
    (parentDepth : ParentChainDepth) : List Op :=
  createOps id .system [stored (a.config.intoConfig creator),
    stored (ParentChainDepth.mk 1 (parentDepth.depth + 1))]

variable {state : InstanceState} {a : CreateSpace} {instanceId : InstanceId} {now : Tick}
  {actor : ActorId} {parent : SpaceId} {parentDepth : ParentChainDepth} {bytes : Bytes}

omit [Blake3] [CoreWire] in
theorem saturatingSuccU8_of_lt {n : UInt8} (h : n < maxSpaceDepth) :
    saturatingSuccU8 n = n + 1 ∧ ¬ saturatingSuccU8 n > maxSpaceDepth := by
  have hn : n.toNat < 64 := by simpa [maxSpaceDepth] using UInt8.lt_iff_toNat_lt.mp h
  have hsucc : (n + 1).toNat = n.toNat + 1 := by
    rw [UInt8.toNat_add]
    have hone : (1 : UInt8).toNat = 1 := rfl
    omega
  have hsat : saturatingSuccU8 n = n + 1 := by
    unfold saturatingSuccU8
    rw [if_pos (by have hsize : UInt8.size = 256 := rfl; omega)]
  refine ⟨hsat, ?_⟩
  rw [hsat, gt_iff_lt, UInt8.lt_iff_toNat_lt, hsucc]
  have hcap : maxSpaceDepth.toNat = 64 := rfl
  omega

omit [Blake3] in
/-- With a view the parent's depth is found. -/
theorem viewBoundContext_childDepth
    (hstored : state.component parent.get (ArkheComponent.typeCode ParentChainDepth) = some bytes)
    (hdecode : Postcard.fromBytes bytes = .ok parentDepth)
    (hdepth : parentDepth.depth < maxSpaceDepth) (who : Option EntityId) :
    childDepth (viewBoundContext state instanceId now who) (some parent) =
      .ok (parentDepth.depth + 1) := by
  obtain ⟨hsat, hcap⟩ := saturatingSuccU8_of_lt hdepth
  have hread : (viewBoundContext state instanceId now who).read ParentChainDepth parent.get =
      .ok (some parentDepth) := by
    have hview : (viewBoundContext state instanceId now who).view = some state.view := rfl
    unfold ActionContext.read
    rw [hview]
    simp only [InstanceState.view, hstored, hdecode]
  unfold childDepth
  simp only [hread, bind, Except.bind]
  rw [if_neg hcap, hsat]

/-- Bound to a view, the compute creates the space below its parent. -/
theorem viewBound_createSpace (hT : CoreWire.Serializes) (hvalid : a.Valid)
    (hparent : a.config.parentSpace = some parent)
    (hstored : state.component parent.get (ArkheComponent.typeCode ParentChainDepth) = some bytes)
    (hdecode : Postcard.fromBytes bytes = .ok parentDepth)
    (hdepth : parentDepth.depth < maxSpaceDepth)
    (heligible : (viewBoundContext state instanceId now (some actor.get)).ensureActorEligible
      actor now = .ok ())
    {id : EntityId}
    (hid : (viewBoundContext state instanceId now (some actor.get)).upcomingId
      (ArkheComponent.typeCode SpaceConfig) = some id) :
    drained (.createSpace a) (viewBoundContext state instanceId now (some actor.get)) =
      a.nestedOps id actor parentDepth := by
  have hbatch : (ShippedAction.createSpace a).batch
      (viewBoundContext state instanceId now (some actor.get)) =
      .ok (a.nestedOps id actor parentDepth) := by
    refine createSpace_batch_eq_ok.mpr ⟨hvalid, actor, parentDepth.depth + 1,
      ⟨rfl, heligible, ?_⟩, rfl, id, hid, rfl⟩
    rw [hparent]
    exact viewBoundContext_childDepth hstored hdecode hdepth _
  rw [drained_eq hT _ rfl, hbatch]

/-- On the bridge, a space under a parent is refused. -/
theorem bridge_nested_createSpace (hT : CoreWire.Serializes)
    (hparent : a.config.parentSpace = some parent) (who : Option EntityId) :
    kernelComputeInner (.createSpace a) instanceId now who = [] := by
  rcases kernelComputeInner_cases hT (.createSpace a) instanceId now who with hnil | hbatch
  · exact hnil
  · obtain ⟨_, creator, depth, ⟨_, _, hdepth⟩, _⟩ := createSpace_batch_eq_ok.mp hbatch
    rw [hparent, bridgeContext_childDepth] at hdepth
    simp at hdepth

/-- **The bridge creates no nested space.** For every state, eligible actor, valid payload
    and parent stored below the depth cap: the bridge returns no op, the view-bound compute
    returns the nested space wherever its id derives, and so the two never agree on it. -/
theorem CreateSpace.bridge_never_nests (hT : CoreWire.Serializes) (state : InstanceState)
    (a : CreateSpace) (instanceId : InstanceId) (now : Tick) (actor : ActorId)
    (parent : SpaceId) (parentDepth : ParentChainDepth) (bytes : Bytes) (hvalid : a.Valid)
    (hparent : a.config.parentSpace = some parent)
    (hstored : state.component parent.get (ArkheComponent.typeCode ParentChainDepth) = some bytes)
    (hdecode : Postcard.fromBytes bytes = .ok parentDepth)
    (hdepth : parentDepth.depth < maxSpaceDepth)
    (heligible : (viewBoundContext state instanceId now (some actor.get)).ensureActorEligible
      actor now = .ok ()) :
    kernelComputeInner (.createSpace a) instanceId now (some actor.get) = [] ∧
    (∀ id, (viewBoundContext state instanceId now (some actor.get)).upcomingId
        (ArkheComponent.typeCode SpaceConfig) = some id →
      drained (.createSpace a) (viewBoundContext state instanceId now (some actor.get)) =
        a.nestedOps id actor parentDepth) ∧
    ¬ (kernelComputeInner (.createSpace a) instanceId now (some actor.get) =
        drained (.createSpace a) (viewBoundContext state instanceId now (some actor.get)) ∧
      ∃ id, kernelComputeInner (.createSpace a) instanceId now (some actor.get) =
        a.nestedOps id actor parentDepth) := by
  have hbridge : kernelComputeInner (.createSpace a) instanceId now (some actor.get) = [] :=
    bridge_nested_createSpace hT hparent (some actor.get)
  refine ⟨hbridge, ?_, ?_⟩
  · intro id hid
    exact viewBound_createSpace hT hvalid hparent hstored hdecode hdepth heligible hid
  · rintro ⟨_, id, hnested⟩
    rw [hbridge] at hnested
    simp [CreateSpace.nestedOps, createOps] at hnested

end

/-! ## One nested space -/

/-- A space of `someShell`, at the root or under a parent. -/
def someSpace (parentSpace : Option SpaceId) : CreateSpace where
  schemaVersion := 1
  config :=
    { schemaVersion := 1, shellId := someShell, slug := ⟨"lobby", by decide⟩, kind := .tree
      visibility := .publicVisibility, parentSpace := parentSpace, createdTick := 1 }

/-- The id of the root created at tick one. -/
def rootSpace : SpaceId := ⟨⟨0x104c858b54a0cb0a, by decide⟩⟩

/-- The state after the bridge created the root. -/
def afterRoot [Blake3] [CoreWire] : InstanceState :=
  InstanceState.empty.commit
    (kernelComputeInner (.createSpace (someSpace none)) firstInstance 1 (some someActor.get))

/-- A child of the root at tick two: the bridge returns nothing, the view-bound compute
    three ops. -/
theorem bridge_drops_child_of_root :
    letI := postcardWire
    letI := oneBlockBlake3
    let child := ShippedAction.createSpace (someSpace (some rootSpace))
    kernelComputeInner child firstInstance 2 (some someActor.get) = [] ∧
      (drained child (viewBoundContext afterRoot firstInstance 2 (some someActor.get))).length
        = 3 := by
  decide +kernel

theorem bridge_never_nests_child_of_root :
    letI := postcardWire
    letI := oneBlockBlake3
    let child := ShippedAction.createSpace (someSpace (some rootSpace))
    let bound := viewBoundContext afterRoot firstInstance 2 (some someActor.get)
    let nested := (someSpace (some rootSpace)).nestedOps
    ¬ (kernelComputeInner child firstInstance 2 (some someActor.get) = drained child bound ∧
      ∃ id, kernelComputeInner child firstInstance 2 (some someActor.get) =
        nested id someActor ⟨1, 0⟩) := by
  have hall := @CreateSpace.bridge_never_nests oneBlockBlake3 postcardWire postcard_serializes
    (@afterRoot oneBlockBlake3 postcardWire) (someSpace (some rootSpace)) firstInstance 2
    someActor rootSpace ⟨1, 0⟩ [1, 0] (by decide) rfl (by decide +kernel) (by decide +kernel)
    (by decide) (by decide +kernel)
  exact hall.2.2

end ArkheForge.Core
