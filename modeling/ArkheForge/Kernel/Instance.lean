/-
  What the runtime sees of the L0 kernel: the vocabulary of `arkhe_kernel::abi`,
  the ops a compute hands over, and one instance's entity store with the way it
  commits them.

  The kernel is not part of this repository. `InstanceState.applyOp` is the commit
  rule the runtime's comments rely on: ops are applied in order, `SpawnEntity`
  creates its entity, `SetComponent` on an unknown entity is a no-op. That
  components hang on known entities only is a field of the state.
-/
import ArkheForge.Lib.BigEndian
import Mathlib.Logic.Function.Basic

namespace ArkheForge

open BigEndian

/-! ## `arkhe_kernel::abi` -/

abbrev Tick := UInt64

abbrev TypeCode := UInt32

/-- `EntityId`: a non-zero `u64`. -/
structure EntityId where
  get : UInt64
  get_ne_zero : get ≠ 0
  deriving DecidableEq, Repr

/-- `EntityId::new`. -/
def EntityId.new (raw : UInt64) : Option EntityId :=
  if h : raw ≠ 0 then some ⟨raw, h⟩ else none

theorem EntityId.new_eq_some {raw : UInt64} {id : EntityId} :
    EntityId.new raw = some id ↔ raw = id.get := by
  obtain ⟨v, hv⟩ := id
  unfold EntityId.new
  split
  · simp
  · next h =>
    have hzero : raw = 0 := not_not.mp h
    simp only [reduceCtorEq, false_iff, hzero]
    exact fun heq => hv heq.symm

/-- `InstanceId`: a non-zero `u64`. -/
structure InstanceId where
  get : UInt64
  get_ne_zero : get ≠ 0
  deriving DecidableEq, Repr

/-- The instance with the id 1. -/
def firstInstance : InstanceId := ⟨1, by decide⟩

/-- `Principal`, as far as the runtime distinguishes it. -/
inductive Principal
  | system
  | other (tag : ℕ)
  deriving DecidableEq, Repr

/-- `CapabilityMask`: `SYSTEM`, or another mask by its bits. -/
inductive CapabilityMask
  | system
  | other (tag : ℕ)
  deriving DecidableEq, Repr

/-- `Op`, the variants a forge compute produces. -/
inductive Op
  | spawnEntity (id : EntityId) (owner : Principal)
  | setComponent (entity : EntityId) (typeCode : TypeCode) (bytes : Bytes) (size : UInt64)
  | removeComponent (entity : EntityId) (typeCode : TypeCode) (size : UInt64)
  | emitEvent (actor : Option EntityId) (eventTypeCode : TypeCode) (eventBytes : Bytes)
  deriving DecidableEq, Repr

/-- The entity an op spawns. -/
def Op.spawns : Op → Option EntityId
  | .spawnEntity id _ => some id
  | _ => none

/-- The component slot an op writes or clears. -/
def Op.slot : Op → Option (EntityId × TypeCode)
  | .setComponent e t _ _ => some (e, t)
  | .removeComponent e t _ => some (e, t)
  | _ => none

/-- The entities a batch spawns, in order. -/
def spawned (ops : List Op) : List EntityId := ops.filterMap Op.spawns

/-! ## Instance state -/

/-- `InstanceView`: the read side of an instance. -/
structure InstanceView where
  component : EntityId → TypeCode → Option Bytes

/-- The entities of an instance and their components. -/
structure InstanceState where
  known : EntityId → Bool
  component : EntityId → TypeCode → Option Bytes
  attached : ∀ e t, component e t ≠ none → known e = true

namespace InstanceState

/-- An instance without entities. -/
def empty : InstanceState where
  known _ := false
  component _ _ := none
  attached _ _ h := absurd rfl h

/-- `Kernel::instance_view`. -/
def view (s : InstanceState) : InstanceView := ⟨s.component⟩

/-- Replace what one component slot holds, on a known entity. -/
def update (s : InstanceState) (e : EntityId) (t : TypeCode) (b : Option Bytes) : InstanceState :=
  if h : s.known e = true then
    { known := s.known
      component := fun e' t' => if e' = e ∧ t' = t then b else s.component e' t'
      attached := by
        intro e' t' hne
        by_cases hslot : e' = e ∧ t' = t
        · rw [hslot.1]
          exact h
        · rw [if_neg hslot] at hne
          exact s.attached e' t' hne }
  else s

/-- One op. -/
def applyOp (s : InstanceState) : Op → InstanceState
  | .spawnEntity id _ =>
    { known := fun e => s.known e || decide (e = id)
      component := s.component
      attached := fun e t h => by simp [s.attached e t h] }
  | .setComponent e t b _ => s.update e t (some b)
  | .removeComponent e t _ => s.update e t none
  | .emitEvent .. => s

/-- A batch, in order. -/
def commit (s : InstanceState) (ops : List Op) : InstanceState := ops.foldl applyOp s

@[simp] theorem commit_nil (s : InstanceState) : s.commit [] = s := rfl

@[simp] theorem commit_cons (s : InstanceState) (op : Op) (ops : List Op) :
    s.commit (op :: ops) = (s.applyOp op).commit ops := rfl

theorem commit_append (s : InstanceState) (ops ops' : List Op) :
    s.commit (ops ++ ops') = (s.commit ops).commit ops' := List.foldl_append

/-! ## What a commit does to one slot -/

@[simp] theorem update_known (s : InstanceState) (e : EntityId) (t : TypeCode)
    (b : Option Bytes) : (s.update e t b).known = s.known := by
  unfold update
  split <;> rfl

theorem update_component_of_known {s : InstanceState} {e : EntityId} (h : s.known e = true)
    (t : TypeCode) (b : Option Bytes) (e' : EntityId) (t' : TypeCode) :
    (s.update e t b).component e' t' = if e' = e ∧ t' = t then b else s.component e' t' := by
  rw [update, dif_pos h]

theorem update_of_not_known {s : InstanceState} {e : EntityId} (h : s.known e = false)
    (t : TypeCode) (b : Option Bytes) : s.update e t b = s := by
  rw [update, dif_neg (by simp [h])]

theorem update_component_of_ne {s : InstanceState} {e e' : EntityId} {t t' : TypeCode}
    (b : Option Bytes) (h : ¬ (e' = e ∧ t' = t)) :
    (s.update e t b).component e' t' = s.component e' t' := by
  by_cases hk : s.known e = true
  · rw [update_component_of_known hk, if_neg h]
  · rw [update_of_not_known (by simpa using hk)]

/-- Only ops on a slot change what it holds. -/
theorem applyOp_component_of_untouched {s : InstanceState} {op : Op} {e : EntityId}
    {t : TypeCode} (h : op.slot ≠ some (e, t)) :
    (s.applyOp op).component e t = s.component e t := by
  cases op with
  | spawnEntity id owner => rfl
  | setComponent e' t' b size =>
      refine update_component_of_ne _ fun heq => h ?_
      rw [heq.1, heq.2]
      rfl
  | removeComponent e' t' size =>
      refine update_component_of_ne _ fun heq => h ?_
      rw [heq.1, heq.2]
      rfl
  | emitEvent actor tc b => rfl

theorem commit_component_of_untouched {s : InstanceState} {ops : List Op} {e : EntityId}
    {t : TypeCode} (h : ∀ op ∈ ops, op.slot ≠ some (e, t)) :
    (s.commit ops).component e t = s.component e t := by
  induction ops generalizing s with
  | nil => rfl
  | cons op ops ih =>
      rw [commit_cons, ih fun op' h' => h op' (by simp [h'])]
      exact applyOp_component_of_untouched (h op (by simp))

theorem commit_known (s : InstanceState) (ops : List Op) (e : EntityId) :
    (s.commit ops).known e = true ↔ s.known e = true ∨ e ∈ spawned ops := by
  induction ops generalizing s with
  | nil => simp [spawned]
  | cons op ops ih =>
      rw [commit_cons, ih]
      cases op with
      | spawnEntity id owner =>
          simp [applyOp, spawned, Op.spawns, or_assoc]
      | setComponent e' t b size => simp [applyOp, spawned, Op.spawns]
      | removeComponent e' t size => simp [applyOp, spawned, Op.spawns]
      | emitEvent actor tc b => simp [applyOp, spawned, Op.spawns]

theorem component_of_not_known {s : InstanceState} {e : EntityId} (h : s.known e = false)
    (t : TypeCode) : s.component e t = none := by
  by_contra hne
  simp [s.attached e t hne] at h

end InstanceState

end ArkheForge
