/-
  `ProjectionRouter` (`projection.rs`): the event-stream dispatcher of the L2
  projection pipeline.

  A projection is any type with the methods of the `Projection` trait, so a fault of
  the store behind it is part of its state and may strike at any call. The router
  holds one stream cursor, the identity of the last accepted event, the pin of a
  failed fan-out, and an index from type codes to the projections that observe them.
  Left out: the read-model rows and stores, the manifest snapshot a dispatch context
  may carry, and the auto-promote policy, which the router's methods never read.
-/
import Mathlib.Data.Prod.Lex
import ArkheForge.Core.Context

namespace ArkheForge.Platform

open ArkheForge.Core BigEndian Fallible

/-! ## Stream positions -/

/-- `ProjectionCursor`. -/
structure ProjectionCursor where
  sequence : UInt64
  tick : Tick
  deriving DecidableEq, Repr

namespace ProjectionCursor

/-- The pair `(tick, sequence)` that positions are compared by. -/
def key (c : ProjectionCursor) : ℕ ×ₗ ℕ := toLex (c.tick.toNat, c.sequence.toNat)

theorem key_injective : Function.Injective key := by
  intro a b h
  have hpair := congrArg ofLex h
  simp only [key, ofLex_toLex, Prod.mk.injEq] at hpair
  obtain ⟨htick, hsequence⟩ := hpair
  cases a
  cases b
  simp_all [UInt64.toNat_inj]

/-- The order of the stream is tick-major. -/
instance : LinearOrder ProjectionCursor := LinearOrder.lift' key key_injective

theorem lt_iff (a b : ProjectionCursor) :
    a < b ↔ a.tick < b.tick ∨ a.tick = b.tick ∧ a.sequence < b.sequence := by
  show key a < key b ↔ _
  unfold key
  rw [Prod.Lex.toLex_lt_toLex, UInt64.lt_iff_toNat_lt, UInt64.lt_iff_toNat_lt, UInt64.toNat_inj]

end ProjectionCursor

/-- The position of an event in the stream. -/
def position (event : EventRecord) : ProjectionCursor where
  sequence := event.sequence
  tick := event.tick

/-! ## Projections -/

/-- `ObserverState`. -/
inductive ObserverState
  | passive
  | active
  | draining
  deriving DecidableEq, Repr

/-- `ProjectionError`. -/
inductive ProjectionError
  | sequenceBackward (last incoming : ProjectionCursor)
  | sequenceGap (last incoming : ProjectionCursor)
  | positionConflict (contested : ProjectionCursor)
  | notActive (state : ObserverState)
  | storage (message : String)
  | decodeFailed (message : String)
  | missingRow
  deriving DecidableEq, Repr

/-- `ProjectionContext`, without the manifest. -/
structure ProjectionContext where
  tick : Tick
  instanceId : InstanceId

/-- `Projection`. -/
class Projection (P : Type) where
  observes : P → List TypeCode
  onEvent : EventRecord → ProjectionContext → Fallible P ProjectionError Unit
  onStateChange : ObserverState → Fallible P ProjectionError Unit := fun _ => pure ()
  lastApplied : P → Option (UInt64 × Tick)

/-! ## The router -/

/-- `ProjectionRouter`. The index is what its `get` answers, empty for a code it lacks. -/
structure ProjectionRouter (P : Type) where
  projections : List P
  observersByCode : TypeCode → List ℕ
  cursor : Option ProjectionCursor
  lastEvent : Option (TypeCode × Bytes)
  pendingRetry : Option (ProjectionCursor × TypeCode × Bytes)
  state : ObserverState

/-- What the ordering checks make of an event they do not reject. -/
inductive Admission
  | redelivery
  | next
  deriving DecidableEq, Repr

/-- A method of the router. -/
abbrev RouterMethod (P α : Type) := Fallible (ProjectionRouter P) ProjectionError α

namespace ProjectionRouter

section

variable {P : Type}

/-- `ProjectionRouter::new`. -/
def new : ProjectionRouter P where
  projections := []
  observersByCode := fun _ => []
  cursor := none
  lastEvent := none
  pendingRetry := none
  state := .passive

/-- The `contiguous` test of `dispatch`: the next event of a tick, or the first of another. -/
def contiguous (last incoming : ProjectionCursor) : Bool :=
  if incoming.tick = last.tick then incoming.sequence = saturatingSucc last.sequence
  else incoming.sequence = 0

/-- The check against the pin of a failed fan-out. -/
def checkPin (pin : ProjectionCursor × TypeCode × Bytes) (event : EventRecord) :
    Except ProjectionError Admission :=
  let (pending, pendingCode, pendingPayload) := pin
  let incoming := position event
  if incoming < pending then .error (.sequenceBackward pending incoming)
  else if incoming ≠ pending then .error (.sequenceGap pending incoming)
  else if pendingCode ≠ event.typeCode ∨ pendingPayload ≠ event.payload then
    .error (.positionConflict incoming)
  else .ok .next

/-- The check against the stream cursor when nothing is pinned. -/
def checkOrder (cursor : Option ProjectionCursor) (incoming : ProjectionCursor) :
    Except ProjectionError Admission :=
  match cursor with
  | none => .ok .next
  | some last =>
    if incoming < last then .error (.sequenceBackward last incoming)
    else if contiguous last incoming then .ok .next
    else .error (.sequenceGap last incoming)

/-- The part of `dispatch` before the fan-out. -/
def checkPosition (r : ProjectionRouter P) (event : EventRecord) :
    Except ProjectionError Admission :=
  let incoming := position event
  if r.state ≠ .active then .error (.notActive r.state)
  else if r.cursor = some incoming then
    if r.lastEvent = some (event.typeCode, event.payload) then .ok .redelivery
    else .error (.positionConflict incoming)
  else
    match r.pendingRetry with
    | some pin => checkPin pin event
    | none => checkOrder r.cursor incoming

end

section

variable {P : Type} [Projection P]

/-- `ProjectionRouter::register`. -/
def register (projection : P) (r : ProjectionRouter P) : ProjectionRouter P :=
  let idx := r.projections.length
  let observed := Projection.observes projection
  { r with
    observersByCode := fun code =>
      r.observersByCode code ++ (observed.filter (· = code)).map fun _ => idx
    projections := r.projections ++ [projection] }

/-- The dispatch index lists exactly the observers of each code. -/
def Indexed (r : ProjectionRouter P) : Prop :=
  ∀ code i, i ∈ r.observersByCode code ↔
    ∃ p, r.projections[i]? = some p ∧ code ∈ Projection.observes p

theorem indexed_register {r : ProjectionRouter P} (h : Indexed r) (p : P) :
    Indexed (r.register p) := by
  intro code i
  have hmem : i ∈ (r.register p).observersByCode code ↔
      i ∈ r.observersByCode code ∨ code ∈ Projection.observes p ∧ i = r.projections.length := by
    simp only [register, List.mem_append, List.mem_map, List.mem_filter, decide_eq_true_eq]
    constructor
    · rintro (hold | ⟨_, ⟨hcode, rfl⟩, rfl⟩)
      · exact .inl hold
      · exact .inr ⟨hcode, rfl⟩
    · rintro (hold | ⟨hcode, rfl⟩)
      · exact .inl hold
      · exact .inr ⟨code, ⟨hcode, rfl⟩, rfl⟩
  rw [hmem, h]
  show _ ↔ ∃ p', (r.projections ++ [p])[i]? = some p' ∧ _
  rcases Nat.lt_trichotomy i r.projections.length with hlt | rfl | hgt
  · rw [List.getElem?_append_left hlt]
    simp [hlt.ne]
  · simp
  · have hbeyond : (r.projections ++ [p]).length ≤ i := by
      rw [List.length_append, List.length_singleton]
      omega
    rw [List.getElem?_eq_none hbeyond, List.getElem?_eq_none hgt.le]
    simp [hgt.ne']

/-- The loop of `transition`: the first error leaves the rest unnotified. -/
def notify (next : ObserverState) : List P → Except ProjectionError Unit × List P
  | [] => (.ok (), [])
  | p :: rest =>
    match (Projection.onStateChange next).exec p with
    | (.error err, p') => (.error err, p' :: rest)
    | (.ok (), p') =>
      let (outcome, rest') := notify next rest
      (outcome, p' :: rest')

/-- `ProjectionRouter::transition`. -/
def transition (next : ObserverState) : RouterMethod P Unit := do
  let r ← get
  if r.state = .draining then throw (.notActive r.state)
  let (outcome, projections) := notify next r.projections
  set { r with projections := projections }
  ofExcept outcome
  modify fun r => { r with state := next }

/-- `ProjectionRouter::promote_to_active`. -/
def promoteToActive : RouterMethod P Unit := transition .active

/-- `ProjectionRouter::demote_to_passive`. -/
def demoteToPassive : RouterMethod P Unit := transition .passive

/-- `ProjectionRouter::begin_draining`. -/
def beginDraining : RouterMethod P Unit := transition .draining

/-- The skip test of the fan-out: the projection is at or past the event. -/
def alreadyApplied (p : P) (incoming : ProjectionCursor) : Bool :=
  match Projection.lastApplied p with
  | some (lastSeq, lastTick) => incoming ≤ ⟨lastSeq, lastTick⟩
  | none => false

/-- One round of the fan-out: the number of applications it adds. -/
def visit (event : EventRecord) (ctx : ProjectionContext) (i : ℕ) :
    Fallible (List P) ProjectionError ℕ := do
  match (← get)[i]? with
  | none => pure 0 -- an index out of range: the dispatch index never holds one (`Indexed`)
  | some p =>
    if alreadyApplied p (position event) then pure 0
    else
      let (outcome, p') := (Projection.onEvent event ctx).exec p
      modify fun projections => projections.set i p'
      ofExcept outcome
      pure 1

/-- The fan-out loop of `dispatch`, with its running count. -/
def fanOut (event : EventRecord) (ctx : ProjectionContext) :
    ℕ → List ℕ → Fallible (List P) ProjectionError ℕ
  | applied, [] => pure applied
  | applied, i :: rest => do
    let count ← visit event ctx i
    fanOut event ctx (applied + count) rest

/-- `ProjectionRouter::dispatch`. -/
def dispatch (event : EventRecord) (ctx : ProjectionContext) : RouterMethod P ℕ := do
  let r ← get
  match ← ofExcept (r.checkPosition event) with
  | .redelivery => pure 0
  | .next =>
    let matching := r.observersByCode event.typeCode
    match (fanOut event ctx 0 matching).exec r.projections with
    | (.error err, projections) =>
      set { r with
        projections := projections
        pendingRetry := some (position event, event.typeCode, event.payload) }
      throw err
    | (.ok applied, projections) =>
      set { r with
        projections := projections
        cursor := some (position event)
        lastEvent := some (event.typeCode, event.payload)
        pendingRetry := none }
      pure applied

/-- One round leaves the list alone or replaces one projection by what its call left. -/
theorem exec_visit (event : EventRecord) (ctx : ProjectionContext) (i : ℕ) (ps : List P) :
    (visit event ctx i).exec ps =
      match ps[i]? with
      | none => (.ok 0, ps)
      | some p =>
        if alreadyApplied p (position event) then (.ok 0, ps)
        else
          match (Projection.onEvent event ctx).exec p with
          | (.error err, p') => (.error err, ps.set i p')
          | (.ok (), p') => (.ok 1, ps.set i p') := by
  unfold visit
  simp only [exec_bind, exec_get]
  cases ps[i]? with
  | none => rfl
  | some p =>
      simp only [exec_ite, exec_pure, exec_bind, exec_modify, exec_ofExcept]
      rcases (Projection.onEvent event ctx).exec p with ⟨err | _, p'⟩
      · rfl
      · rfl

end

end ProjectionRouter

/-! ## Runs -/

/-- A call of one of the router's methods. -/
inductive RouterCall (P : Type)
  | register (projection : P)
  | promoteToActive
  | demoteToPassive
  | beginDraining
  | dispatch (event : EventRecord) (ctx : ProjectionContext)

namespace ProjectionRouter

variable {P : Type} [Projection P]

/-- The router a call leaves behind, whatever the call returns. -/
def call (r : ProjectionRouter P) : RouterCall P → ProjectionRouter P
  | .register projection => r.register projection
  | .promoteToActive => (promoteToActive.exec r).2
  | .demoteToPassive => (demoteToPassive.exec r).2
  | .beginDraining => (beginDraining.exec r).2
  | .dispatch event ctx => ((dispatch event ctx).exec r).2

/-- The router after a run of calls on a fresh one. -/
def after (run : List (RouterCall P)) : ProjectionRouter P := run.foldl call new

end ProjectionRouter

end ArkheForge.Platform
