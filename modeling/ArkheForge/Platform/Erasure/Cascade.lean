/-
  `ErasureCascadeObserver` (`crypto_erasure.rs`): shred a user's DEK, tombstone the
  rows, record the completion.

  Every step goes to a backend and may fail there. `Handled` says what one event
  comes to, the failures included (`handled_iff`), and what holds over a run is read
  off it.
-/
import ArkheForge.Platform.Erasure.Backends

namespace ArkheForge.Platform

open ArkheForge.Core BigEndian Fallible

/-! ## The observer -/

/-- `ErasureCompletion`. -/
structure ErasureCompletion where
  user : UserId
  completedTick : Tick
  tombstonedRows : ℕ
  attestation : DekShredAttestation
  regions : List RegionProgress
  deriving DecidableEq, Repr

/-- `ErasureCascadeObserver`, its two boxes being `backends`. -/
structure ErasureCascadeObserver (W : Type) where
  cursor : Option ProjectionCursor
  backends : W
  completions : List ErasureCompletion

/-- How `on_event` reports a shredder's error. -/
def shredFailure : DekShredError → ProjectionError
  | .alreadyShredded =>
    .storage "shredder returned AlreadyShredded; implementations must cache attestation"
  | .unknownDek => .storage "DEK unknown to shredder"
  | .backend message => .storage message

/-- What stands for the attestation of a user without a DEK. -/
def noDekResult : ShredResult where
  regions := []
  overall :=
    { attestationClass := .none
      attestationBytes := []
      logIndex := none }

namespace ErasureCascadeObserver

/-- `ErasureCascadeObserver::new`. -/
def new {W : Type} (backends : W) : ErasureCascadeObserver W where
  cursor := none
  backends := backends
  completions := []

/-- `ErasureCascadeObserver::drain_completions`. -/
def drainCompletions {W : Type} (o : ErasureCascadeObserver W) :
    List ErasureCompletion × ErasureCascadeObserver W :=
  (o.completions, { o with completions := [] })

/-- `ErasureCascadeObserver::last_applied`. -/
def lastApplied {W : Type} (o : ErasureCascadeObserver W) : Option (UInt64 × Tick) :=
  o.cursor.map fun c => (c.sequence, c.tick)

variable {W : Type} [PiiRowStore W] [DekShredder W] [Postcard UserErasureScheduled]

/-- The event `on_event` decodes. -/
def decodeScheduled (event : EventRecord) : Except ProjectionError UserErasureScheduled :=
  match (Postcard.fromBytes event.payload : Except PostcardError UserErasureScheduled) with
  | .ok scheduled => .ok scheduled
  | .error _ => .error (.decodeFailed "UserErasureScheduled payload")

/-- The shred step: a user without a DEK has nothing to shred. -/
def shredNamed (dekId : Option DekId) (tick : Tick) : Fallible W DekShredError ShredResult :=
  match dekId with
  | some dekId => DekShredder.shredWithRegions dekId tick
  | none => pure noDekResult

/-- A call of a backend. -/
def onBackends {ε α : Type} (wrap : ε → ProjectionError) (call : Fallible W ε α) :
    Fallible (ErasureCascadeObserver W) ProjectionError α :=
  zoom backends (fun w o => { o with backends := w }) wrap call

/-- `ErasureCascadeObserver::on_event`. -/
def onEvent (event : EventRecord) (ctx : ProjectionContext) :
    Fallible (ErasureCascadeObserver W) ProjectionError Unit := do
  let scheduled ← ofExcept (decodeScheduled event)
  let user := scheduled.user
  let rows := PiiRowStore.rowsFor (← get).backends user
  let tombstoned := rows.rows.length
  -- shred first: rows look dead only once their DEK is
  let result ← onBackends shredFailure (shredNamed rows.dekId ctx.tick)
  onBackends id (PiiRowStore.tombstone user)
  modify fun o =>
    { o with
      completions := o.completions ++
        [{ user := user
           completedTick := ctx.tick
           tombstonedRows := tombstoned
           attestation := result.overall
           regions := result.regions }]
      cursor := some (position event) }

instance : Projection (ErasureCascadeObserver W) where
  observes _ := [ArkheEvent.typeCode UserErasureScheduled]
  onEvent := onEvent
  lastApplied := lastApplied

/-! ## What one event comes to -/

/-- The outcomes of `on_event`, each with the observer it leaves. -/
inductive Handled (event : EventRecord) (ctx : ProjectionContext) (o : ErasureCascadeObserver W) :
    Except ProjectionError Unit → ErasureCascadeObserver W → Prop
  | malformed (e : ProjectionError) (hdecode : decodeScheduled event = .error e) :
      Handled event ctx o (.error e) o
  | unshredded (scheduled : UserErasureScheduled) (e : DekShredError) (w : W)
      (hdecode : decodeScheduled event = .ok scheduled)
      (hshred : (shredNamed (PiiRowStore.rowsFor o.backends scheduled.user).dekId ctx.tick).exec
        o.backends = (.error e, w)) :
      Handled event ctx o (.error (shredFailure e)) { o with backends := w }
  | untombstoned (scheduled : UserErasureScheduled) (result : ShredResult) (w : W)
      (e : ProjectionError) (w' : W) (hdecode : decodeScheduled event = .ok scheduled)
      (hshred : (shredNamed (PiiRowStore.rowsFor o.backends scheduled.user).dekId ctx.tick).exec
        o.backends = (.ok result, w))
      (htombstone : (PiiRowStore.tombstone scheduled.user).exec w = (.error e, w')) :
      Handled event ctx o (.error e) { o with backends := w' }
  | completed (scheduled : UserErasureScheduled) (result : ShredResult) (w w' : W)
      (hdecode : decodeScheduled event = .ok scheduled)
      (hshred : (shredNamed (PiiRowStore.rowsFor o.backends scheduled.user).dekId ctx.tick).exec
        o.backends = (.ok result, w))
      (htombstone : (PiiRowStore.tombstone scheduled.user).exec w = (.ok (), w')) :
      Handled event ctx o (.ok ())
        { cursor := some (position event)
          backends := w'
          completions := o.completions ++
            [{ user := scheduled.user
               completedTick := ctx.tick
               tombstonedRows := (PiiRowStore.rowsFor o.backends scheduled.user).rows.length
               attestation := result.overall
               regions := result.regions }] }

theorem handled_onEvent (event : EventRecord) (ctx : ProjectionContext)
    (o : ErasureCascadeObserver W) :
    Handled event ctx o ((onEvent event ctx).exec o).1 ((onEvent event ctx).exec o).2 := by
  unfold onEvent onBackends
  simp only [exec_bind, exec_ofExcept]
  cases hdecode : decodeScheduled event with
  | error e => exact .malformed e hdecode
  | ok scheduled =>
      simp only [exec_get, exec_zoom]
      cases hshred : (shredNamed (PiiRowStore.rowsFor o.backends scheduled.user).dekId
          ctx.tick).exec o.backends with
      | mk outcome w =>
          cases outcome with
          | error e => exact .unshredded scheduled e w hdecode hshred
          | ok result =>
              simp only [Except.mapError]
              cases htombstone : (PiiRowStore.tombstone scheduled.user).exec w with
              | mk outcome' w' =>
                  cases outcome' with
                  | error e => exact .untombstoned scheduled result w e w' hdecode hshred htombstone
                  | ok _ => exact .completed scheduled result w w' hdecode hshred htombstone

theorem handled_iff {event : EventRecord} {ctx : ProjectionContext}
    {o o' : ErasureCascadeObserver W} {outcome : Except ProjectionError Unit} :
    Handled event ctx o outcome o' ↔ (onEvent event ctx).exec o = (outcome, o') := by
  constructor
  · intro h
    unfold onEvent onBackends
    simp only [exec_bind, exec_ofExcept]
    cases h with
    | malformed e hdecode => rw [hdecode]
    | unshredded scheduled e w hdecode hshred =>
        simp only [hdecode, exec_get, exec_zoom, hshred, Except.mapError]
    | untombstoned scheduled result w e w' hdecode hshred htombstone =>
        simp only [hdecode, exec_get, exec_zoom, hshred, htombstone, Except.mapError, id]
    | completed scheduled result w w' hdecode hshred htombstone =>
        simp only [hdecode, exec_get, exec_zoom, hshred, htombstone, Except.mapError, exec_modify]
  · intro h
    have hstep := handled_onEvent event ctx o
    rw [h] at hstep
    exact hstep

end ErasureCascadeObserver

end ArkheForge.Platform
