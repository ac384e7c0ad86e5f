/-
  The contract of the `Projection` trait, and projections that keep a record.

  `LawfulProjection` is what the router relies on: `observes` is fixed, an event
  that is applied becomes `last_applied`, and a failed one, like a change of state,
  leaves `last_applied` as it was. Nothing is said about when `on_event` fails.

  `Recorded P` is a projection with a log of the events it accepted beside it. The
  router cannot tell the difference (`erase_dispatch`, `erase_after`), so what is
  proved about the logs of a router over `Recorded P` is about the router over `P`.
-/
import ArkheForge.Lib.Watermark
import ArkheForge.Platform.Projection.Router

namespace ArkheForge.Platform

open ArkheForge.Core BigEndian Fallible

/-- The contract of `Projection`. -/
class LawfulProjection (P : Type) [Projection P] : Prop where
  observes_onEvent : ∀ (event : EventRecord) (ctx : ProjectionContext) (p : P),
    Projection.observes ((Projection.onEvent event ctx).exec p).2 = Projection.observes p
  observes_onStateChange : ∀ (next : ObserverState) (p : P),
    Projection.observes ((Projection.onStateChange next).exec p).2 = Projection.observes p
  lastApplied_of_ok : ∀ (event : EventRecord) (ctx : ProjectionContext) (p : P),
    ((Projection.onEvent event ctx).exec p).1 = .ok () →
    Projection.lastApplied ((Projection.onEvent event ctx).exec p).2 =
      some (event.sequence, event.tick)
  lastApplied_of_error : ∀ (event : EventRecord) (ctx : ProjectionContext) (p : P)
    (err : ProjectionError), ((Projection.onEvent event ctx).exec p).1 = .error err →
    Projection.lastApplied ((Projection.onEvent event ctx).exec p).2 = Projection.lastApplied p
  lastApplied_onStateChange : ∀ (next : ObserverState) (p : P),
    Projection.lastApplied ((Projection.onStateChange next).exec p).2 = Projection.lastApplied p

/-! ## Marks -/

section

variable {P : Type} [Projection P]

/-- How far a projection has come: its `last_applied` as a point of the stream. -/
def mark (p : P) : WithBot ProjectionCursor :=
  match Projection.lastApplied p with
  | some (lastSeq, lastTick) => (⟨lastSeq, lastTick⟩ : ProjectionCursor)
  | none => ⊥

theorem alreadyApplied_iff (p : P) (incoming : ProjectionCursor) :
    ProjectionRouter.alreadyApplied p incoming = true ↔
      (incoming : WithBot ProjectionCursor) ≤ mark p := by
  unfold ProjectionRouter.alreadyApplied mark
  cases Projection.lastApplied p with
  | none => simp
  | some last => simp [WithBot.coe_le_coe]

variable [LawfulProjection P]

theorem mark_of_ok (event : EventRecord) (ctx : ProjectionContext) (p : P)
    (h : ((Projection.onEvent event ctx).exec p).1 = .ok ()) :
    mark ((Projection.onEvent event ctx).exec p).2 = position event := by
  have hlast := LawfulProjection.lastApplied_of_ok event ctx p h
  unfold mark
  rw [hlast]
  rfl

theorem mark_of_error (event : EventRecord) (ctx : ProjectionContext) (p : P)
    (err : ProjectionError) (h : ((Projection.onEvent event ctx).exec p).1 = .error err) :
    mark ((Projection.onEvent event ctx).exec p).2 = mark p := by
  have hlast := LawfulProjection.lastApplied_of_error event ctx p err h
  unfold mark
  rw [hlast]

end

/-! ## Recording -/

/-- A projection, where it stood when it was registered, and the events it accepted since. -/
structure Recorded (P : Type) where
  projection : P
  start : WithBot ProjectionCursor
  accepted : List EventRecord

namespace Recorded

variable {P : Type} [Projection P]

/-- A projection at the start of its record. -/
def fresh (p : P) : Recorded P where
  projection := p
  start := mark p
  accepted := []

/-- Put a new state of the projection into its record. -/
def withProjection (p : P) (q : Recorded P) : Recorded P := { q with projection := p }

instance : Projection (Recorded P) where
  observes q := Projection.observes q.projection
  onEvent event ctx := do
    zoom projection withProjection id (Projection.onEvent event ctx)
    modify fun q => { q with accepted := q.accepted ++ [event] }
  onStateChange next := zoom projection withProjection id (Projection.onStateChange next)
  lastApplied q := Projection.lastApplied q.projection

@[simp] theorem observes_eq (q : Recorded P) :
    Projection.observes q = Projection.observes q.projection := rfl

@[simp] theorem mark_eq (q : Recorded P) : mark q = mark q.projection := rfl

@[simp] theorem alreadyApplied_eq (q : Recorded P) (incoming : ProjectionCursor) :
    ProjectionRouter.alreadyApplied q incoming =
      ProjectionRouter.alreadyApplied q.projection incoming := rfl

/-- An application is recorded, a failure is not. -/
theorem exec_onEvent (event : EventRecord) (ctx : ProjectionContext) (q : Recorded P) :
    (Projection.onEvent event ctx).exec q =
      match (Projection.onEvent event ctx).exec q.projection with
      | (.ok (), p) => (.ok (), ⟨p, q.start, q.accepted ++ [event]⟩)
      | (.error err, p) => (.error err, ⟨p, q.start, q.accepted⟩) := by
  show exec (zoom projection withProjection id (Projection.onEvent event ctx) >>= _) q = _
  rw [exec_bind, exec_zoom]
  rcases (Projection.onEvent event ctx).exec q.projection with ⟨err | _, p⟩
  · rfl
  · rfl

theorem exec_onStateChange (next : ObserverState) (q : Recorded P) :
    (Projection.onStateChange next).exec q =
      (((Projection.onStateChange next).exec q.projection).1,
        ⟨((Projection.onStateChange next).exec q.projection).2, q.start, q.accepted⟩) := by
  show exec (zoom projection withProjection id (Projection.onStateChange next)) q = _
  rw [exec_zoom]
  rcases (Projection.onStateChange next).exec q.projection with ⟨err | _, p⟩
  · rfl
  · rfl

end Recorded

/-! ## The record is only a record -/

namespace RouterCall

/-- The call on recorded projections. -/
def record {P : Type} [Projection P] : RouterCall P → RouterCall (Recorded P)
  | .register p => .register (Recorded.fresh p)
  | .promoteToActive => .promoteToActive
  | .demoteToPassive => .demoteToPassive
  | .beginDraining => .beginDraining
  | .dispatch event ctx => .dispatch event ctx

end RouterCall

namespace ProjectionRouter

variable {P : Type}

/-- The router without the records. -/
def erase (r : ProjectionRouter (Recorded P)) : ProjectionRouter P :=
  { r with projections := r.projections.map Recorded.projection }

variable [Projection P]

/-- The router after a run, with the records of its projections. -/
def recorded (run : List (RouterCall P)) : ProjectionRouter (Recorded P) :=
  after (run.map RouterCall.record)

theorem erase_visit (event : EventRecord) (ctx : ProjectionContext) (i : ℕ)
    (qs : List (Recorded P)) :
    (visit event ctx i).exec (qs.map Recorded.projection) =
      (((visit event ctx i).exec qs).1,
        ((visit event ctx i).exec qs).2.map Recorded.projection) := by
  rw [exec_visit, exec_visit, List.getElem?_map]
  cases qs[i]? with
  | none => rfl
  | some q =>
      simp only [Option.map_some, Recorded.alreadyApplied_eq, Recorded.exec_onEvent]
      split
      · rfl
      · rcases (Projection.onEvent event ctx).exec q.projection with ⟨err | _, p⟩
        · simp [List.map_set]
        · simp [List.map_set]

theorem erase_fanOut (event : EventRecord) (ctx : ProjectionContext) (indices : List ℕ)
    (applied : ℕ) (qs : List (Recorded P)) :
    (fanOut event ctx applied indices).exec (qs.map Recorded.projection) =
      (((fanOut event ctx applied indices).exec qs).1,
        ((fanOut event ctx applied indices).exec qs).2.map Recorded.projection) := by
  induction indices generalizing applied qs with
  | nil => rfl
  | cons i rest ih =>
      simp only [fanOut, exec_bind, erase_visit]
      rcases (visit event ctx i).exec qs with ⟨err | count, qs'⟩
      · rfl
      · exact ih (applied + count) qs'

/-- A dispatch answers the same and does the same, recorded or not. -/
theorem erase_dispatch (event : EventRecord) (ctx : ProjectionContext)
    (r : ProjectionRouter (Recorded P)) :
    (dispatch event ctx).exec r.erase =
      (((dispatch event ctx).exec r).1, ((dispatch event ctx).exec r).2.erase) := by
  have hcheck : r.erase.checkPosition event = r.checkPosition event := rfl
  unfold dispatch
  simp only [exec_bind, exec_get, exec_ofExcept, hcheck]
  cases r.checkPosition event with
  | error err => rfl
  | ok admission =>
      cases admission with
      | redelivery => rfl
      | next =>
          have hfan := erase_fanOut event ctx (r.observersByCode event.typeCode) 0 r.projections
          simp only [erase, hfan]
          rcases (fanOut event ctx 0 (r.observersByCode event.typeCode)).exec r.projections with
            ⟨err | applied, qs⟩
          · rfl
          · rfl

theorem erase_notify (next : ObserverState) (qs : List (Recorded P)) :
    notify next (qs.map Recorded.projection) =
      ((notify next qs).1, (notify next qs).2.map Recorded.projection) := by
  induction qs with
  | nil => rfl
  | cons q rest ih =>
      simp only [List.map_cons, notify, Recorded.exec_onStateChange]
      rcases (Projection.onStateChange next).exec q.projection with ⟨err | _, p⟩
      · rfl
      · simp only [ih, List.map_cons]

theorem erase_transition (next : ObserverState) (r : ProjectionRouter (Recorded P)) :
    (transition next).exec r.erase =
      (((transition next).exec r).1, ((transition next).exec r).2.erase) := by
  have hnotify := erase_notify next r.projections
  unfold transition
  simp only [exec_bind, exec_get, exec_ite, exec_throw, erase, hnotify]
  split
  · rfl
  · rcases notify next r.projections with ⟨err | _, qs⟩
    · rfl
    · rfl

theorem erase_call (r : ProjectionRouter (Recorded P)) (c : RouterCall P) :
    r.erase.call c = (r.call c.record).erase := by
  cases c with
  | register p =>
      show r.erase.register p = (r.register (Recorded.fresh p)).erase
      simp [register, erase, Recorded.fresh]
  | promoteToActive => exact congrArg Prod.snd (erase_transition .active r)
  | demoteToPassive => exact congrArg Prod.snd (erase_transition .passive r)
  | beginDraining => exact congrArg Prod.snd (erase_transition .draining r)
  | dispatch event ctx => exact congrArg Prod.snd (erase_dispatch event ctx r)

/-- The recorded run is the run. -/
theorem erase_recorded (run : List (RouterCall P)) : (recorded run).erase = after run := by
  induction run using List.reverseRecOn with
  | nil => rfl
  | append_singleton run c ih =>
      unfold recorded after at ih ⊢
      rw [List.map_append, List.foldl_append, List.foldl_append, ← ih]
      exact (erase_call _ c).symm

end ProjectionRouter

end ArkheForge.Platform
