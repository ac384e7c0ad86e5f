/-
  The tree of spaces.

  `CreateSpace::compute` does not walk up a chain of parents. It reads the parent's
  cached `ParentChainDepth` from the view it is bound to and stores one more, up to
  `MAX_SPACE_DEPTH`. `SpaceTree` says what makes the cache right: a stored space has a
  stored depth and the other way round, the depth of a child is its parent's plus one,
  the depth of a root is zero, and no depth exceeds the cap. A turn that spawns no
  known entity keeps it (`SpaceTree.commit`), so every state a run reaches from an
  empty instance has it (`space_tree_reachable`), and its chains of parents end at a
  root after as many steps as the cached depth says.
-/
import ArkheForge.Core.Commit
import ArkheForge.Core.NestedSpaces
import ArkheForge.Lib.StepPath

namespace ArkheForge.Core

open BigEndian Fallible

/-! ## Slots a batch leaves alone -/

/-- No op writes or clears a slot of type code `t`. -/
def Spares (t : TypeCode) (ops : List Op) : Prop := ∀ op ∈ ops, ∀ e, op.slot ≠ some (e, t)

theorem Spares.createOps {t : TypeCode} {id : EntityId} {owner : Principal}
    {components : List (TypeCode × Bytes)} (h : ∀ c ∈ components, c.1 ≠ t) :
    Spares t (createOps id owner components) := by
  intro op hop e hslot
  rcases List.mem_cons.mp hop with rfl | hset
  · simp [Op.slot] at hslot
  · obtain ⟨c, hc, rfl⟩ := List.mem_map.mp hset
    have hcode : c.1 = t := (Prod.mk.inj (Option.some.inj hslot)).2
    exact h c hc hcode

theorem Spares.markOps {t : TypeCode} {entity : EntityId} {component : TypeCode × Bytes}
    {eventCode : TypeCode} {payload : Bytes} (h : component.1 ≠ t) :
    Spares t (markOps entity component eventCode payload) := by
  intro op hop e hslot
  rcases List.mem_cons.mp hop with rfl | hemit
  · have hcode : component.1 = t := (Prod.mk.inj (Option.some.inj hslot)).2
    exact h hcode
  · obtain rfl := List.mem_singleton.mp hemit
    simp [Op.slot] at hslot

theorem Spares.nil (t : TypeCode) : Spares t [] := by
  intro op hop
  simp at hop

theorem Spares.component {t : TypeCode} {ops : List Op} (h : Spares t ops) (state : InstanceState)
    (e : EntityId) : (state.commit ops).component e t = state.component e t :=
  InstanceState.commit_component_of_untouched fun op hop => h op hop e

/-! ## The parent of a space -/

section

variable [CoreWire]

/-- The space stored at `x` has the parent `y`. -/
def HasParent (state : InstanceState) (x y : EntityId) : Prop :=
  ∃ config, componentOf SpaceConfig state x = some config ∧ config.parentSpace = some ⟨y⟩

/-- A space is stored at `x`. -/
def IsSpace (state : InstanceState) (x : EntityId) : Prop :=
  (componentOf SpaceConfig state x).isSome = true

/-- A space without a parent is stored at `x`. -/
def IsRoot (state : InstanceState) (x : EntityId) : Prop :=
  ∃ config, componentOf SpaceConfig state x = some config ∧ config.parentSpace = none

/-- The depth cached for an entity. -/
def cachedDepth (state : InstanceState) (x : EntityId) : Option ℕ :=
  (componentOf ParentChainDepth state x).map fun d => d.depth.toNat

/-- The cached depths are the lengths of the parent chains. -/
structure SpaceTree (state : InstanceState) : Prop where
  /-- What is stored as a configuration decodes. -/
  readable : ∀ x, state.component x (ArkheComponent.typeCode SpaceConfig) ≠ none →
    IsSpace state x
  /-- A cached depth belongs to a stored space. -/
  space_of_depth : ∀ x depth, cachedDepth state x = some depth → IsSpace state x
  /-- The parent of a stored space is a stored space, one level up. -/
  depth_of_child : ∀ x y, HasParent state x y → IsSpace state y ∧
    ∃ depth, cachedDepth state y = some depth ∧ cachedDepth state x = some (depth + 1)
  depth_of_root : ∀ x, IsRoot state x → cachedDepth state x = some 0
  depth_le : ∀ x depth, cachedDepth state x = some depth → depth ≤ maxSpaceDepth.toNat

theorem spaceTree_empty : SpaceTree InstanceState.empty := by
  have hnone : ∀ x, ¬ IsSpace InstanceState.empty x := by
    intro x hspace
    unfold IsSpace at hspace
    rw [componentOf_of_not_known rfl] at hspace
    simp at hspace
  have hdepth : ∀ x depth, cachedDepth InstanceState.empty x ≠ some depth := by
    intro x depth hcached
    unfold cachedDepth at hcached
    rw [componentOf_of_not_known rfl] at hcached
    simp at hcached
  refine ⟨?_, ?_, ?_, ?_, ?_⟩
  · intro x hstored
    exact absurd rfl hstored
  · intro x depth hcached
    exact absurd hcached (hdepth x depth)
  · rintro x y ⟨config, hconfig, _⟩
    exact absurd (Option.isSome_iff_exists.mpr ⟨config, hconfig⟩) (hnone x)
  · rintro x ⟨config, hconfig, _⟩
    exact absurd (Option.isSome_iff_exists.mpr ⟨config, hconfig⟩) (hnone x)
  · intro x depth hcached
    exact absurd hcached (hdepth x depth)

/-! ## Chains of parents -/

variable {state state' : InstanceState}

/-- The cached depth, zero where there is none. -/
def rank (state : InstanceState) (x : EntityId) : ℕ := (cachedDepth state x).getD 0

theorem SpaceTree.ranked (h : SpaceTree state) : StepPath.Ranked (HasParent state) (rank state) := by
  intro x y hparent
  obtain ⟨_, depth, hy, hx⟩ := h.depth_of_child x y hparent
  unfold rank
  rw [hx, hy]
  rfl

/-- A stored space has a parent or is a root. -/
theorem parent_or_root {x : EntityId} (hspace : IsSpace state x) :
    (∃ y, HasParent state x y) ∨ IsRoot state x := by
  obtain ⟨config, hconfig⟩ := Option.isSome_iff_exists.mp hspace
  cases hparent : config.parentSpace with
  | none => exact .inr ⟨config, hconfig, hparent⟩
  | some p => exact .inl ⟨p.get, config, hconfig, hparent⟩

theorem SpaceTree.cachedDepth_eq (h : SpaceTree state) {x : EntityId} (hspace : IsSpace state x) :
    cachedDepth state x = some (rank state x) := by
  unfold rank
  rcases parent_or_root hspace with ⟨y, hparent⟩ | hroot
  · obtain ⟨_, depth, _, hx⟩ := h.depth_of_child x y hparent
    rw [hx]
    rfl
  · rw [h.depth_of_root x hroot]
    rfl

/-- No chain of parents comes back to where it started. -/
theorem SpaceTree.acyclic (h : SpaceTree state) {k : ℕ} (hk : 0 < k) (x : EntityId) :
    ¬ StepPath (HasParent state) k x x := h.ranked.acyclic hk

/-- Going up from a stored space ends at a root, after as many steps as its depth. -/
theorem SpaceTree.reaches_root (h : SpaceTree state) {x : EntityId} (hspace : IsSpace state x) :
    ∃ k root, k ≤ maxSpaceDepth.toNat ∧ cachedDepth state x = some k ∧
      StepPath (HasParent state) k x root ∧ IsRoot state root := by
  have hup : ∀ y, IsSpace state y → 0 < rank state y →
      ∃ z, HasParent state y z ∧ IsSpace state z := by
    intro y hy hpos
    rcases parent_or_root hy with ⟨z, hparent⟩ | hroot
    · exact ⟨z, hparent, (h.depth_of_child y z hparent).1⟩
    · have hzero := h.depth_of_root y hroot
      rw [h.cachedDepth_eq hy] at hzero
      have : rank state y = 0 := Option.some.inj hzero
      omega
  obtain ⟨root, hpath, hstored, hzero⟩ := h.ranked.reaches hup (rank state x) x hspace rfl
  have hcached := h.cachedDepth_eq hspace
  refine ⟨rank state x, root, h.depth_le x _ hcached, hcached, hpath, ?_⟩
  rcases parent_or_root hstored with ⟨y, hparent⟩ | hroot
  · have hdrop := h.ranked root y hparent
    omega
  · exact hroot

/-! ## What a commit does to the tree -/

/-- A batch that spares both slots leaves the tree as it is. -/
theorem SpaceTree.commit_of_spares (h : SpaceTree state) {ops : List Op}
    (hconfig : Spares (ArkheComponent.typeCode SpaceConfig) ops)
    (hdepth : Spares (ArkheComponent.typeCode ParentChainDepth) ops) :
    SpaceTree (state.commit ops) := by
  have hconfig' : ∀ x, componentOf SpaceConfig (state.commit ops) x =
      componentOf SpaceConfig state x := fun x => componentOf_congr (hconfig.component state x)
  have hcached : ∀ x, cachedDepth (state.commit ops) x = cachedDepth state x := by
    intro x
    unfold cachedDepth
    rw [componentOf_congr (hdepth.component state x)]
  refine ⟨?_, ?_, ?_, ?_, ?_⟩
  · intro x hstored
    rw [hconfig.component] at hstored
    unfold IsSpace
    rw [hconfig']
    exact h.readable x hstored
  · intro x depth hx
    rw [hcached] at hx
    unfold IsSpace
    rw [hconfig']
    exact h.space_of_depth x depth hx
  · rintro x y ⟨config, hx, hparent⟩
    rw [hconfig'] at hx
    unfold IsSpace
    rw [hconfig', hcached, hcached]
    exact h.depth_of_child x y ⟨config, hx, hparent⟩
  · rintro x ⟨config, hx, hparent⟩
    rw [hconfig'] at hx
    rw [hcached]
    exact h.depth_of_root x ⟨config, hx, hparent⟩
  · intro x depth hx
    rw [hcached] at hx
    exact h.depth_le x depth hx

/-- The batch of a new space. -/
def spaceOps (id : EntityId) (owner : Principal) (config : SpaceConfig) (depth : UInt8) : List Op :=
  createOps id owner [stored config, stored (ParentChainDepth.mk 1 depth)]

theorem spaceOps_config (hT : CoreWire.Serializes) (hround : Postcard.RoundTrip SpaceConfig)
    (state : InstanceState) (id : EntityId) (owner : Principal) (config : SpaceConfig)
    (depth : UInt8) (e : EntityId) :
    componentOf SpaceConfig (state.commit (spaceOps id owner config depth)) e =
      if e = id then some config else componentOf SpaceConfig state e := by
  unfold spaceOps
  by_cases he : e = id
  · rw [if_pos he]
    refine componentOf_of_stored hT.spaceConfig hround ?_
    rw [commit_createOps_component, if_pos he]
    rfl
  · rw [if_neg he]
    exact componentOf_create_elsewhere he

theorem spaceOps_cachedDepth (hT : CoreWire.Serializes)
    (hround : Postcard.RoundTrip ParentChainDepth) (state : InstanceState) (id : EntityId)
    (owner : Principal) (config : SpaceConfig) (depth : UInt8) (e : EntityId) :
    cachedDepth (state.commit (spaceOps id owner config depth)) e =
      if e = id then some depth.toNat else cachedDepth state e := by
  unfold spaceOps cachedDepth
  by_cases he : e = id
  · rw [if_pos he, componentOf_of_stored hT.parentChainDepth hround (c := ⟨1, depth⟩)]
    · rfl
    · rw [commit_createOps_component, if_pos he]
      rfl
  · rw [if_neg he, componentOf_create_elsewhere he]

/-- What `CreateSpace::compute` has checked of the depth it stores. -/
def DepthFits (state : InstanceState) (parentSpace : Option SpaceId) (depth : UInt8) : Prop :=
  depth ≤ maxSpaceDepth ∧
    match parentSpace with
    | none => depth = 0
    | some parent => ∃ above, cachedDepth state parent.get = some above ∧ depth.toNat = above + 1

theorem isSpace_spaceOps (hT : CoreWire.Serializes) (hround : Postcard.RoundTrip SpaceConfig)
    (id : EntityId) (owner : Principal) (config : SpaceConfig) (depth : UInt8) (x : EntityId) :
    IsSpace (state.commit (spaceOps id owner config depth)) x ↔ x = id ∨ IsSpace state x := by
  unfold IsSpace
  rw [spaceOps_config hT hround]
  by_cases hx : x = id
  · simp [hx]
  · simp [hx]

theorem hasParent_spaceOps (hT : CoreWire.Serializes) (hround : Postcard.RoundTrip SpaceConfig)
    (id : EntityId) (owner : Principal) (config : SpaceConfig) (depth : UInt8) (x y : EntityId) :
    HasParent (state.commit (spaceOps id owner config depth)) x y ↔
      if x = id then config.parentSpace = some ⟨y⟩ else HasParent state x y := by
  unfold HasParent
  rw [spaceOps_config hT hround]
  by_cases hx : x = id
  · simp [hx]
  · simp [hx]

theorem isRoot_spaceOps (hT : CoreWire.Serializes) (hround : Postcard.RoundTrip SpaceConfig)
    (id : EntityId) (owner : Principal) (config : SpaceConfig) (depth : UInt8) (x : EntityId) :
    IsRoot (state.commit (spaceOps id owner config depth)) x ↔
      if x = id then config.parentSpace = none else IsRoot state x := by
  unfold IsRoot
  rw [spaceOps_config hT hround]
  by_cases hx : x = id
  · simp [hx]
  · simp [hx]

/-- A stored space is known, so it is no entity that a batch newly spawns. -/
theorem IsSpace.ne_of_not_known {x id : EntityId} (hspace : IsSpace state x)
    (hfresh : state.known id = false) : x ≠ id := by
  rintro rfl
  unfold IsSpace at hspace
  rw [componentOf_of_not_known hfresh] at hspace
  simp at hspace

/-- A depth that fits below a parent: the parent is a stored space, one level up. -/
theorem SpaceTree.parent_of_fits (h : SpaceTree state) {depth : UInt8} {y : EntityId}
    (hfits : DepthFits state (some ⟨y⟩) depth) :
    IsSpace state y ∧ ∃ above, cachedDepth state y = some above ∧ depth.toNat = above + 1 := by
  obtain ⟨_, above, habove, hsucc⟩ := hfits
  exact ⟨h.space_of_depth y above habove, above, habove, hsucc⟩

/-- A new space on an unknown entity, with a depth that fits, keeps the tree. -/
theorem SpaceTree.commit_space (hT : CoreWire.Serializes)
    (hconfig : Postcard.RoundTrip SpaceConfig) (hdepth : Postcard.RoundTrip ParentChainDepth)
    (h : SpaceTree state) {id : EntityId} (hfresh : state.known id = false) (owner : Principal)
    {config : SpaceConfig} {depth : UInt8} (hfits : DepthFits state config.parentSpace depth) :
    SpaceTree (state.commit (spaceOps id owner config depth)) := by
  have hspace : ∀ x, IsSpace (state.commit (spaceOps id owner config depth)) x ↔
      x = id ∨ IsSpace state x := isSpace_spaceOps hT hconfig id owner config depth
  have hcached := spaceOps_cachedDepth hT hdepth state id owner config depth
  refine ⟨?_, ?_, ?_, ?_, ?_⟩
  · intro x hslot
    rw [hspace]
    by_cases hx : x = id
    · exact .inl hx
    · unfold spaceOps at hslot
      rw [commit_createOps_component, if_neg hx] at hslot
      exact .inr (h.readable x hslot)
  · intro x d hd
    rw [hspace]
    by_cases hx : x = id
    · exact .inl hx
    · rw [hcached, if_neg hx] at hd
      exact .inr (h.space_of_depth x d hd)
  · intro x y hparent
    rw [hasParent_spaceOps hT hconfig] at hparent
    -- the new space has a parent the checks have found, an old one keeps its own
    have hup : IsSpace state y ∧ ∃ above, cachedDepth state y = some above ∧
        cachedDepth (state.commit (spaceOps id owner config depth)) x = some (above + 1) := by
      rw [hcached]
      by_cases hx : x = id
      · rw [if_pos hx] at hparent ⊢
        rw [hparent] at hfits
        obtain ⟨hy, above, habove, hsucc⟩ := h.parent_of_fits hfits
        exact ⟨hy, above, habove, congrArg some hsucc⟩
      · rw [if_neg hx] at hparent ⊢
        exact h.depth_of_child x y hparent
    obtain ⟨hy, above, habove, hsucc⟩ := hup
    refine ⟨(hspace y).mpr (.inr hy), above, ?_, hsucc⟩
    rw [hcached, if_neg (hy.ne_of_not_known hfresh)]
    exact habove
  · intro x hroot
    rw [isRoot_spaceOps hT hconfig] at hroot
    rw [hcached]
    by_cases hx : x = id
    · rw [if_pos hx] at hroot ⊢
      rw [hroot] at hfits
      rw [hfits.2]
      rfl
    · rw [if_neg hx] at hroot ⊢
      exact h.depth_of_root x hroot
  · intro x d hd
    rw [hcached] at hd
    by_cases hx : x = id
    · rw [if_pos hx] at hd
      obtain rfl := Option.some.inj hd
      exact UInt8.le_iff_toNat_le.mp hfits.1
    · rw [if_neg hx] at hd
      exact h.depth_le x d hd

end

/-! ## What the checks let through -/

section

variable {state : InstanceState} {ctx : ActionContext}

/-- Bound to a view of a state, a component is read from that state. -/
theorem read_eq_some {C : Type} [ArkheComponent C] [Postcard C] {e : EntityId} {c : C}
    (h : (ctx.withView state.view).read C e = .ok (some c)) : componentOf C state e = some c := by
  unfold ActionContext.read at h
  have hview : (ctx.withView state.view).view = some state.view := rfl
  rw [hview] at h
  simp only [InstanceState.view] at h
  unfold componentOf
  cases hslot : state.component e (ArkheComponent.typeCode C) with
  | none =>
      rw [hslot] at h
      simp at h
  | some bytes =>
      rw [hslot] at h
      simp only at h ⊢
      cases hdecode : (Postcard.fromBytes bytes : Except PostcardError C) with
      | error err =>
          rw [hdecode] at h
          simp at h
      | ok c' =>
          rw [hdecode] at h
          simpa using h

theorem saturatingSuccU8_toNat {n : UInt8} (h : saturatingSuccU8 n ≤ maxSpaceDepth) :
    (saturatingSuccU8 n).toNat = n.toNat + 1 := by
  have hcap : maxSpaceDepth.toNat = 64 := rfl
  have hle := UInt8.le_iff_toNat_le.mp h
  unfold saturatingSuccU8 at hle ⊢
  split at hle
  · next hlt =>
    rw [if_pos hlt, UInt8.toNat_add]
    have hone : (1 : UInt8).toNat = 1 := rfl
    have hsize : UInt8.size = 256 := rfl
    omega
  · next hlt =>
    have hsize : UInt8.size = 256 := rfl
    omega

/-- The depth a view-bound `CreateSpace` stores fits the state it is bound to. -/
theorem childDepth_fits [CoreWire] {parentSpace : Option SpaceId} {depth : UInt8}
    (h : childDepth (ctx.withView state.view) parentSpace = .ok depth) :
    DepthFits state parentSpace depth := by
  unfold DepthFits
  cases parentSpace with
  | none =>
      obtain rfl : (0 : UInt8) = depth := Except.ok.inj h
      exact ⟨by decide, rfl⟩
  | some parent =>
      unfold childDepth at h
      simp only [except_bind_eq_ok] at h
      obtain ⟨found, hread, hcase⟩ := h
      cases found with
      | none => simp at hcase
      | some above =>
          simp only at hcase
          split at hcase
          · simp at hcase
          · next hcap =>
            obtain rfl := Except.ok.inj hcase
            have hle : saturatingSuccU8 above.depth ≤ maxSpaceDepth := UInt8.not_lt.mp hcap
            refine ⟨hle, above.depth.toNat, ?_, saturatingSuccU8_toNat hle⟩
            unfold cachedDepth
            rw [read_eq_some hread]
            rfl

end

section

variable [Blake3] [CoreWire] {ctx : ActionContext} {ops : List Op}

/-- A batch is that of a new space with a depth its context came to, or it spares both slots. -/
theorem ShippedAction.batch_space_cases {a : ShippedAction} (h : a.batch ctx = .ok ops) :
    (∃ id config depth, childDepth ctx config.parentSpace = .ok depth ∧
      ops = spaceOps id ctx.principal config depth) ∨
    Spares (ArkheComponent.typeCode SpaceConfig) ops ∧
      Spares (ArkheComponent.typeCode ParentChainDepth) ops := by
  cases a with
  | createSpace a =>
      obtain ⟨_, creator, depth, ⟨_, _, hdepth⟩, _, id, _, rfl⟩ := createSpace_batch_eq_ok.mp h
      exact .inl ⟨id, a.config.intoConfig creator, depth, hdepth, rfl⟩
  | registerUser a =>
      obtain ⟨_, _, id, _, rfl⟩ := registerUser_batch_eq_ok.mp h
      refine .inr ⟨Spares.createOps ?_, Spares.createOps ?_⟩
      all_goals simp [stored, ArkheComponent.typeCode]
  | registerActor a =>
      obtain ⟨_, _, id, _, rfl⟩ := registerActor_batch_eq_ok.mp h
      refine .inr ⟨Spares.createOps ?_, Spares.createOps ?_⟩
      all_goals simp [stored, ArkheComponent.typeCode]
  | submitActivity a =>
      obtain ⟨_, actor, _, _, id, _, _, rfl⟩ := submitActivity_batch_eq_ok.mp h
      refine .inr ⟨Spares.createOps ?_, Spares.createOps ?_⟩
      all_goals simp [stored, ArkheComponent.typeCode]
  | gdprEraseUser a =>
      obtain ⟨_, rfl⟩ := gdprEraseUser_batch_eq_ok.mp h
      refine .inr ⟨Spares.markOps ?_, Spares.markOps ?_⟩
      all_goals simp [stored, ArkheComponent.typeCode]
  | retractActivity a =>
      obtain ⟨_, rfl⟩ := retractActivity_batch_eq_ok.mp h
      exact .inr ⟨Spares.nil _, Spares.nil _⟩

end

/-! ## Runs of view-bound computes -/

/-- One compute, in a context whose buffer is empty. Its view is bound when it runs. -/
structure BoundTurn where
  action : ShippedAction
  ctx : ActionContext
  fresh : ctx.ops = []

section

variable [Blake3] [CoreWire]

/-- The ops it hands over, bound to a view of `state`. -/
def BoundTurn.ops (turn : BoundTurn) (state : InstanceState) : List Op :=
  drained turn.action (turn.ctx.withView state.view)

/-- The state once each turn has run on the view of the state before it and its ops have
    been committed. -/
def runFrom (state : InstanceState) (run : List BoundTurn) : InstanceState :=
  run.foldl (fun state turn => state.commit (turn.ops state)) state

/-- The entities a run spawns, in order. -/
def spawnedFrom : InstanceState → List BoundTurn → List EntityId
  | _, [] => []
  | state, turn :: run =>
    spawned (turn.ops state) ++ spawnedFrom (state.commit (turn.ops state)) run

/-- **One turn.** -/
theorem SpaceTree.turn (hT : CoreWire.Serializes) (hconfig : Postcard.RoundTrip SpaceConfig)
    (hdepth : Postcard.RoundTrip ParentChainDepth) {state : InstanceState} (h : SpaceTree state)
    (turn : BoundTurn) (hfresh : ∀ e ∈ spawned (turn.ops state), state.known e = false) :
    SpaceTree (state.commit (turn.ops state)) := by
  have hbuffer : (turn.ctx.withView state.view).ops = [] := turn.fresh
  have hops : turn.ops state = _ := drained_eq hT turn.action hbuffer
  cases hbatch : turn.action.batch (turn.ctx.withView state.view) with
  | error e =>
      rw [hbatch] at hops
      rw [hops]
      exact h
  | ok ops =>
      rw [hbatch] at hops
      simp only at hops
      rw [hops] at hfresh ⊢
      rcases ShippedAction.batch_space_cases hbatch with
        ⟨id, config, depth, hchild, rfl⟩ | ⟨hspares, hspares'⟩
      · have hid : state.known id = false := hfresh id (by simp [spaceOps])
        exact h.commit_space hT hconfig hdepth hid _ (childDepth_fits hchild)
      · exact h.commit_of_spares hspares hspares'

/-- **A run.** From a state with the invariant, where the spawned ids are new and distinct. -/
theorem SpaceTree.run (hT : CoreWire.Serializes) (hconfig : Postcard.RoundTrip SpaceConfig)
    (hdepth : Postcard.RoundTrip ParentChainDepth) (run : List BoundTurn) {state : InstanceState}
    (h : SpaceTree state) (hdistinct : (spawnedFrom state run).Nodup)
    (hfresh : ∀ e ∈ spawnedFrom state run, state.known e = false) :
    SpaceTree (runFrom state run) := by
  induction run generalizing state with
  | nil => exact h
  | cons turn run ih =>
      unfold spawnedFrom at hdistinct hfresh
      obtain ⟨_, hrest, hdisjoint⟩ := List.nodup_append.mp hdistinct
      have hstep := h.turn hT hconfig hdepth turn fun e he => hfresh e (List.mem_append_left _ he)
      refine ih hstep hrest ?_
      intro e he
      by_contra hknown
      have hknown' := (InstanceState.commit_known state (turn.ops state) e).mp (by simpa using hknown)
      rcases hknown' with hold | hnew
      · have hunknown := hfresh e (List.mem_append_right _ he)
        rw [hold] at hunknown
        simp at hunknown
      · exact hdisjoint e hnew e he rfl

/-- **The space tree.** In every state that a run of view-bound computes with distinct spawned
    ids reaches from an empty instance, the cached depths are right, no chain of parents comes
    back to where it started, and every stored space reaches a root within `MAX_SPACE_DEPTH`
    steps. -/
theorem space_tree_reachable (hT : CoreWire.Serializes)
    (hconfig : Postcard.RoundTrip SpaceConfig) (hdepth : Postcard.RoundTrip ParentChainDepth)
    (run : List BoundTurn) (hdistinct : (spawnedFrom InstanceState.empty run).Nodup) :
    SpaceTree (runFrom InstanceState.empty run) ∧
    (∀ k x, 0 < k → ¬ StepPath (HasParent (runFrom InstanceState.empty run)) k x x) ∧
    ∀ x, IsSpace (runFrom InstanceState.empty run) x →
      ∃ k root, k ≤ maxSpaceDepth.toNat ∧
        cachedDepth (runFrom InstanceState.empty run) x = some k ∧
        StepPath (HasParent (runFrom InstanceState.empty run)) k x root ∧
        IsRoot (runFrom InstanceState.empty run) root := by
  have htree := spaceTree_empty.run hT hconfig hdepth run hdistinct fun _ _ => rfl
  refine ⟨htree, ?_, ?_⟩
  · intro k x hk
    exact htree.acyclic hk x
  · intro x hspace
    exact htree.reaches_root hspace

end

/-! ## A root and its child -/

theorem bridgeContext_ops (instanceId : InstanceId) (now : Tick) (actor : Option EntityId) :
    (bridgeContext instanceId now actor).ops = [] := rfl

/-- A creation of `someActor`, in a context of the bridge. -/
def creationAt (tick : Tick) (parentSpace : Option SpaceId) : BoundTurn where
  action := .createSpace (someSpace parentSpace)
  ctx := bridgeContext firstInstance tick (some someActor.get)
  fresh := bridgeContext_ops firstInstance tick (some someActor.get)

theorem space_tree_reachable_child_of_root :
    letI := postcardWire
    letI := oneBlockBlake3
    let run := [creationAt 1 none, creationAt 2 (some rootSpace)]
    (spawnedFrom InstanceState.empty run).length = 2 ∧
      SpaceTree (runFrom InstanceState.empty run) := by
  intro run
  have hdistinct : (@spawnedFrom oneBlockBlake3 postcardWire InstanceState.empty run).Nodup ∧
      (@spawnedFrom oneBlockBlake3 postcardWire InstanceState.empty run).length = 2 := by
    decide +kernel
  exact ⟨hdistinct.2, (@space_tree_reachable oneBlockBlake3 postcardWire postcard_serializes
    (Postcard.ofCodec_roundTrip Wire.spaceConfig)
    (Postcard.ofCodec_roundTrip Wire.parentChainDepth) run hdistinct.1).1⟩

end ArkheForge.Core
