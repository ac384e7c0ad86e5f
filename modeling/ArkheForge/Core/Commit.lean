/-
  What the kernel's state holds after it committed a batch of a shipped action.

  Every such batch is `createOps`, `markOps` or empty. One lemma for each says what
  a component slot holds afterwards; `componentOf` is the slot read at its type.
-/
import ArkheForge.Core.Bridge

namespace ArkheForge.Core

open BigEndian

/-- The component of type `C` that a state stores for an entity, if its bytes decode. -/
def componentOf (C : Type) [ArkheComponent C] [Postcard C] (state : InstanceState)
    (entity : EntityId) : Option C :=
  match state.component entity (ArkheComponent.typeCode C) with
  | none => none
  | some bytes =>
    match Postcard.fromBytes bytes with
    | .ok c => some c
    | .error _ => none

section

variable {C : Type} [ArkheComponent C] [Postcard C] {state state' : InstanceState}
  {entity : EntityId}

theorem componentOf_congr
    (h : state'.component entity (ArkheComponent.typeCode C) =
      state.component entity (ArkheComponent.typeCode C)) :
    componentOf C state' entity = componentOf C state entity := by
  unfold componentOf
  rw [h]

theorem componentOf_of_stored (hT : Postcard.Total C) (hround : Postcard.RoundTrip C) {c : C}
    (h : state.component entity (ArkheComponent.typeCode C) = some (stored c).2) :
    componentOf C state entity = some c := by
  have hbytes : Postcard.fromBytes (stored c).2 = .ok c :=
    hround c _ (toStdvec_eq_encoded hT c)
  unfold componentOf
  simp only [h, hbytes]

theorem componentOf_of_not_known (h : state.known entity = false) :
    componentOf C state entity = none := by
  unfold componentOf
  rw [InstanceState.component_of_not_known h]

end

/-! ## Committing -/

/-- What a slot of type code `t` holds once the components are attached in order. -/
def attach (components : List (TypeCode × Bytes)) (t : TypeCode) (held : Option Bytes) :
    Option Bytes :=
  components.foldl (fun held c => if c.1 = t then some c.2 else held) held

theorem commit_setOps_component {state : InstanceState} {id : EntityId}
    (hknown : state.known id = true) (components : List (TypeCode × Bytes)) (e : EntityId)
    (t : TypeCode) :
    (state.commit (components.map (setOp id))).component e t =
      if e = id then attach components t (state.component e t) else state.component e t := by
  induction components generalizing state with
  | nil => simp [attach]
  | cons c components ih =>
      have hknown' : (state.applyOp (setOp id c)).known id = true := by
        unfold setOp InstanceState.applyOp
        rw [InstanceState.update_known]
        exact hknown
      have hslot : (state.applyOp (setOp id c)).component e t =
          if e = id ∧ t = c.1 then some c.2 else state.component e t := by
        unfold setOp InstanceState.applyOp
        rw [InstanceState.update_component_of_known hknown]
      rw [List.map_cons, InstanceState.commit_cons, ih hknown', hslot]
      by_cases he : e = id
      · by_cases ht : t = c.1
        · simp [he, ht, attach]
        · have ht' : ¬ c.1 = t := fun h => ht h.symm
          simp [he, ht, ht', attach]
      · simp [he]

/-- A created entity holds its components; every other entity holds what it held. -/
theorem commit_createOps_component (state : InstanceState) (id : EntityId) (owner : Principal)
    (components : List (TypeCode × Bytes)) (e : EntityId) (t : TypeCode) :
    (state.commit (createOps id owner components)).component e t =
      if e = id then attach components t (state.component e t) else state.component e t := by
  have hspawn : (state.applyOp (.spawnEntity id owner)).known id = true := by
    simp [InstanceState.applyOp]
  unfold createOps
  rw [InstanceState.commit_cons, commit_setOps_component hspawn]
  rfl

/-- A mark replaces one slot of a known entity; nothing else changes. -/
theorem commit_markOps_component (state : InstanceState) (entity : EntityId)
    (component : TypeCode × Bytes) (eventCode : TypeCode) (payload : Bytes) (e : EntityId)
    (t : TypeCode) :
    (state.commit (markOps entity component eventCode payload)).component e t =
      if state.known entity = true ∧ e = entity ∧ t = component.1 then some component.2
      else state.component e t := by
  have hcommit : state.commit (markOps entity component eventCode payload) =
      state.update entity component.1 (some component.2) := rfl
  rw [hcommit]
  by_cases hknown : state.known entity = true
  · rw [InstanceState.update_component_of_known hknown]
    simp [hknown]
  · rw [InstanceState.update_of_not_known (by simpa using hknown)]
    simp [hknown]

/-- Components a batch does not attach are what they were. -/
theorem componentOf_create_other {C : Type} [ArkheComponent C] [Postcard C] {state : InstanceState}
    {id : EntityId} {owner : Principal} {components : List (TypeCode × Bytes)}
    (hother : ∀ c ∈ components, c.1 ≠ ArkheComponent.typeCode C) (e : EntityId) :
    componentOf C (state.commit (createOps id owner components)) e = componentOf C state e := by
  refine componentOf_congr ?_
  rw [commit_createOps_component]
  have hattach : attach components (ArkheComponent.typeCode C)
      (state.component e (ArkheComponent.typeCode C)) =
      state.component e (ArkheComponent.typeCode C) := by
    unfold attach
    generalize state.component e (ArkheComponent.typeCode C) = held
    induction components with
    | nil => rfl
    | cons c components ih =>
        rw [List.foldl_cons, if_neg (hother c (by simp))]
        exact ih fun c' hc' => hother c' (by simp [hc'])
  rw [hattach, ite_self]

/-- On any entity but the spawned one components are what they were. -/
theorem componentOf_create_elsewhere {C : Type} [ArkheComponent C] [Postcard C] {state : InstanceState}
    {id e : EntityId} {owner : Principal} {components : List (TypeCode × Bytes)} (he : e ≠ id) :
    componentOf C (state.commit (createOps id owner components)) e = componentOf C state e := by
  refine componentOf_congr ?_
  rw [commit_createOps_component, if_neg he]

end ArkheForge.Core
