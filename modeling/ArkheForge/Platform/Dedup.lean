/-
  The idempotency keys that L2 keeps (`dedup.rs`), and what they are kept for.

  A key is bound to the first entity and tick it is inserted with. Inserting the same binding
  again is allowed, another one is refused and changes nothing (`first_binding_wins`). A context
  with the index attached accepts of the submissions it would accept without one those whose
  key was never inserted (`keyed_submission_iff`). When the keys are inserted is up to the
  service that keeps the index, so the theorems are over any inserts.
-/
import ArkheForge.Core.Atomic
import ArkheForge.Lib.FirstWrite

namespace ArkheForge.Core

/-- `ActionContext::with_idempotency_index`. -/
def ActionContext.withIdempotencyIndex (ctx : ActionContext)
    (index : Vector UInt8 16 → Option (EntityId × Tick)) : ActionContext :=
  { ctx with idempotencyIndex := some index }

end ArkheForge.Core

namespace ArkheForge.Platform

open ArkheForge.Core BigEndian Fallible

/-- `DedupError`. -/
inductive DedupError
  | conflict (key : Vector UInt8 16)
  deriving DecidableEq, Repr

/-- `InMemoryIdempotencyIndex`. -/
structure InMemoryIdempotencyIndex where
  inner : FirstWrite.Table (Vector UInt8 16) (EntityId × Tick)

namespace InMemoryIdempotencyIndex

/-- `InMemoryIdempotencyIndex::new`. -/
def new : InMemoryIdempotencyIndex := ⟨∅⟩

/-- `InMemoryIdempotencyIndex::insert`. -/
def insert (key : Vector UInt8 16) (entity : EntityId) (tick : Tick) :
    Fallible InMemoryIdempotencyIndex DedupError Unit := do
  match (← get).inner.lookup key with
  | some existing => if existing = (entity, tick) then pure () else throw (.conflict key)
  | none => modify fun index => ⟨index.inner.insert key (entity, tick)⟩

/-- `InMemoryIdempotencyIndex::lookup`. -/
def lookup (index : InMemoryIdempotencyIndex) (key : Vector UInt8 16) : Option (EntityId × Tick) :=
  index.inner.lookup key

/-- `InMemoryIdempotencyIndex::len`. -/
def len (index : InMemoryIdempotencyIndex) : ℕ := index.inner.keys.card

/-- `InMemoryIdempotencyIndex::is_empty`. -/
def isEmpty (index : InMemoryIdempotencyIndex) : Bool := index.len = 0

theorem exec_insert (key : Vector UInt8 16) (entity : EntityId) (tick : Tick)
    (index : InMemoryIdempotencyIndex) :
    (insert key entity tick).exec index =
      match index.lookup key with
      | some existing =>
        (if existing = (entity, tick) then .ok () else .error (.conflict key), index)
      | none => (.ok (), ⟨index.inner.insert key (entity, tick)⟩) := by
  unfold insert lookup
  simp only [exec_bind, exec_get]
  cases index.inner.lookup key with
  | none => rfl
  | some existing =>
      simp only
      split
      · rfl
      · rfl

/-- The index after a run of inserts. -/
def run (inserts : List (Vector UInt8 16 × EntityId × Tick)) (index : InMemoryIdempotencyIndex) :
    InMemoryIdempotencyIndex :=
  inserts.foldl (fun index i => ((insert i.1 i.2.1 i.2.2).exec index).2) index

theorem inner_run (inserts : List (Vector UInt8 16 × EntityId × Tick))
    (index : InMemoryIdempotencyIndex) :
    (run inserts index).inner =
      inserts.foldl (fun t w => FirstWrite.add w.1 w.2 t) index.inner := by
  induction inserts generalizing index with
  | nil => rfl
  | cons i later ih =>
      show (run later ((insert i.1 i.2.1 i.2.2).exec index).2).inner = _
      rw [ih, exec_insert, List.foldl_cons]
      unfold FirstWrite.add lookup
      cases index.inner.lookup i.1 with
      | none => rfl
      | some existing => rfl

/-- A key is bound as it was first inserted. -/
theorem lookup_run (inserts : List (Vector UInt8 16 × EntityId × Tick)) (key : Vector UInt8 16) :
    (run inserts new).lookup key = inserts.lookup key := by
  have hnew : new.inner.lookup key = none := Finmap.lookup_empty key
  unfold lookup
  rw [inner_run, FirstWrite.lookup_foldl_add, hnew, Option.none_or]

theorem lookup_run_eq_none {inserts : List (Vector UInt8 16 × EntityId × Tick)}
    {key : Vector UInt8 16} :
    (run inserts new).lookup key = none ↔ key ∉ inserts.map Prod.fst := by
  rw [lookup_run, List.lookup_eq_none_iff]
  constructor
  · intro h hmem
    obtain ⟨i, hi, rfl⟩ := List.mem_map.mp hmem
    simpa using h i hi
  · intro h i hi
    exact bne_iff_ne.mpr fun heq => h (heq ▸ List.mem_map_of_mem hi)

/-- After any inserts, refused ones among them: every key is bound as it was first inserted, the
    index has as many keys as were named, and the next insert is refused exactly if its key is
    bound otherwise, with that key as the conflict and nothing changed. -/
theorem first_binding_wins (inserts : List (Vector UInt8 16 × EntityId × Tick)) :
    let index := run inserts new
    (∀ key, index.lookup key = inserts.lookup key) ∧
    index.len = (inserts.map Prod.fst).toFinset.card ∧
    ∀ key entity tick,
      (((insert key entity tick).exec index).1 = .ok () ↔
        ∀ binding, inserts.lookup key = some binding → binding = (entity, tick)) ∧
      ∀ err, ((insert key entity tick).exec index).1 = .error err →
        err = .conflict key ∧ ((insert key entity tick).exec index).2 = index := by
  intro index
  have hlookup := lookup_run inserts
  refine ⟨hlookup, ?_, fun key entity tick => ?_⟩
  · show index.inner.keys.card = _
    rw [inner_run, FirstWrite.keys_foldl_add]
    exact congrArg Finset.card (Finset.empty_union _)
  · rw [exec_insert, hlookup]
    cases inserts.lookup key with
    | none => simp
    | some existing =>
        by_cases hsame : existing = (entity, tick)
        · simp [hsame]
        · simp [hsame, eq_comm]

section

/-- The index is asked for the key, and for nothing else. -/
theorem checkIdempotency_eq_ok {ctx : ActionContext} {key : Option (Vector UInt8 16)}
    {index : Vector UInt8 16 → Option (EntityId × Tick)} :
    checkIdempotency (ctx.withIdempotencyIndex index) key = .ok () ↔
      ∀ k, key = some k → index k = none := by
  cases key with
  | none => simp [checkIdempotency]
  | some k =>
      unfold checkIdempotency ActionContext.idempotencyLookup ActionContext.withIdempotencyIndex
      cases hk : index k with
      | none => simp [hk]
      | some binding => simp [hk]

variable [Blake3] [CoreWire]

theorem exec_submit_ok_iff (hT : CoreWire.Serializes) {a : SubmitActivity} {ctx : ActionContext} :
    (a.compute.exec ctx).1 = .ok () ↔
      ∃ ops, (ShippedAction.submitActivity a).batch ctx = .ok ops := by
  constructor
  · intro h
    have hexec : (ShippedAction.submitActivity a).compute.exec ctx =
        (.ok (), (a.compute.exec ctx).2) := Prod.ext h rfl
    obtain ⟨ops, hbatch, -⟩ := ShippedAction.exec_compute_ok hT hexec
    exact ⟨ops, hbatch⟩
  · rintro ⟨ops, hbatch⟩
    rcases hexec : a.compute.exec ctx with ⟨err | _, ctx'⟩
    · have hfail := (ShippedAction.exec_compute_error hT (a := .submitActivity a) hexec).1
      rw [hbatch] at hfail
      cases hfail
    · rfl

/-- After any inserts: a context with the index accepts a submission exactly if it accepts it
    without one and the key, if there is one, was never inserted; and a submission that is
    refused leaves no op and no event. -/
theorem keyed_submission_iff (hT : CoreWire.Serializes)
    (inserts : List (Vector UInt8 16 × EntityId × Tick)) (ctx : ActionContext)
    (a : SubmitActivity) :
    let attached := ctx.withIdempotencyIndex (run inserts new).lookup
    ((a.compute.exec attached).1 = .ok () ↔
      (a.compute.exec { ctx with idempotencyIndex := none }).1 = .ok () ∧
        ∀ key, a.idempotencyKey = some key → key ∉ inserts.map Prod.fst) ∧
    ∀ err ctx', a.compute.exec attached = (.error err, ctx') →
      ctx'.ops = ctx.ops ∧ ctx'.events = ctx.events := by
  intro attached
  have hkey : checkIdempotency attached a.idempotencyKey = .ok () ↔
      ∀ key, a.idempotencyKey = some key → key ∉ inserts.map Prod.fst := by
    rw [checkIdempotency_eq_ok]
    exact forall₂_congr fun key _ => lookup_run_eq_none
  have hfree : checkIdempotency { ctx with idempotencyIndex := none } a.idempotencyKey =
      .ok () := by
    cases a.idempotencyKey with
    | none => rfl
    | some key => rfl
  refine ⟨?_, fun err ctx' h => ?_⟩
  · rw [exec_submit_ok_iff hT, exec_submit_ok_iff hT]
    simp only [submitActivity_batch_eq_ok]
    constructor
    · rintro ⟨ops, hvalid, actor, ⟨hactor, hgate, hidempotent⟩, hspawn⟩
      exact ⟨⟨ops, hvalid, actor, ⟨hactor, hgate, hfree⟩, hspawn⟩, hkey.mp hidempotent⟩
    · rintro ⟨⟨ops, hvalid, actor, ⟨hactor, hgate, -⟩, hspawn⟩, hnever⟩
      exact ⟨ops, hvalid, actor, ⟨hactor, hgate, hkey.mpr hnever⟩, hspawn⟩
  · exact (ShippedAction.exec_compute_error hT (a := .submitActivity a) h).2

end

section

attribute [local instance] postcardWire oneBlockBlake3

def someKey : Vector UInt8 16 := .replicate 16 7

def keyedSubmission : SubmitActivity :=
  { SubmitActivity.about (.actor someActor) with idempotencyKey := some someKey }

/-- A submission under a key is accepted until the key is bound. -/
theorem keyed_submission_iff_bound :
    let attached := fun inserts => firstContext.withIdempotencyIndex (run inserts new).lookup
    (keyedSubmission.compute.exec (attached [])).1 = .ok () ∧
    (keyedSubmission.compute.exec (attached [(someKey, someActor.get, 1)])).1 ≠ .ok () := by
  intro attached
  have hfree : (keyedSubmission.compute.exec
      { firstContext with idempotencyIndex := none }).1 = .ok () := by decide +kernel
  have hiff := fun inserts =>
    (keyed_submission_iff postcard_serializes inserts firstContext keyedSubmission).1
  refine ⟨(hiff []).mpr ⟨hfree, by simp⟩, fun h => ?_⟩
  exact ((hiff _).mp h).2 someKey rfl (by simp)

end

end InMemoryIdempotencyIndex

end ArkheForge.Platform
