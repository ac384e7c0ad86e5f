/-
  The producer and the router agree on positions.

  The context numbers the events of a call from 0 under one tick, and the router
  accepts the next event of a tick, or an event numbered 0 under another. `Ordered`
  is the middle ground: a stream each of whose events follows the one before it by
  the router's rule. Batches of calls at increasing ticks make an ordered stream
  (`ordered_flatten`), and an ordered stream goes through a router whose observers
  never fail without a refusal, every observer taking its events in order
  (`step_stream`, `run_stream`).
-/
import ArkheForge.Core.Blake3
import ArkheForge.Core.Pipeline
import ArkheForge.Core.PostcardWire
import ArkheForge.Platform.Projection.Delivery

namespace ArkheForge.Platform

open ArkheForge.Core BigEndian Fallible

/-! ## Ordered streams -/

/-- The router's rule for the event after `last`. -/
def Follows (last : Option ProjectionCursor) (incoming : ProjectionCursor) : Prop :=
  ∀ cursor, last = some cursor →
    cursor < incoming ∧ ProjectionRouter.contiguous cursor incoming = true

/-- Every event follows the one before it. -/
def Ordered : Option ProjectionCursor → List EventRecord → Prop
  | _, [] => True
  | last, event :: rest => Follows last (position event) ∧ Ordered (some (position event)) rest

/-- The cursor after a stream. -/
def cursorAfter (last : Option ProjectionCursor) (stream : List EventRecord) :
    Option ProjectionCursor :=
  match stream.getLast? with
  | some event => some (position event)
  | none => last

theorem cursorAfter_cons (last : Option ProjectionCursor) (event : EventRecord)
    (stream : List EventRecord) :
    cursorAfter last (event :: stream) = cursorAfter (some (position event)) stream := by
  unfold cursorAfter
  rw [List.getLast?_cons]
  cases stream.getLast? with
  | none => rfl
  | some final => rfl

theorem cursorAfter_concat (last : Option ProjectionCursor) (stream : List EventRecord)
    (event : EventRecord) : cursorAfter last (stream ++ [event]) = some (position event) := by
  unfold cursorAfter
  rw [List.getLast?_concat]

theorem ordered_append {last : Option ProjectionCursor} {xs ys : List EventRecord} :
    Ordered last (xs ++ ys) ↔ Ordered last xs ∧ Ordered (cursorAfter last xs) ys := by
  induction xs generalizing last with
  | nil =>
      show Ordered last ys ↔ True ∧ Ordered last ys
      rw [true_and]
  | cons x xs ih =>
      rw [cursorAfter_cons]
      show Follows last (position x) ∧ Ordered (some (position x)) (xs ++ ys) ↔
        (Follows last (position x) ∧ Ordered (some (position x)) xs) ∧ _
      rw [ih, and_assoc]

theorem saturatingSucc_toNat {n : UInt64} (h : n.toNat + 1 < UInt64.size) :
    (saturatingSucc n).toNat = n.toNat + 1 := by
  have hone : (1 : UInt64).toNat = 1 := rfl
  unfold saturatingSucc
  rw [if_pos h, UInt64.toNat_add, hone]
  exact Nat.mod_eq_of_lt h

/-- A batch goes on from the event before it, as long as the sequence does not saturate. -/
theorem ordered_numbered {tick : Tick} {seq : UInt64} {contents : List (TypeCode × Bytes)}
    {last : Option ProjectionCursor} (hfirst : contents ≠ [] → Follows last ⟨seq, tick⟩)
    (hroom : seq.toNat + contents.length < UInt64.size) :
    Ordered last (numbered tick seq contents) := by
  induction contents generalizing seq last with
  | nil => trivial
  | cons content rest ih =>
      refine ⟨hfirst (by simp), ?_⟩
      rw [List.length_cons] at hroom
      have hsucc := saturatingSucc_toNat (n := seq) (by omega)
      refine ih ?_ (by omega)
      intro _ cursor hcursor
      obtain rfl := Option.some.inj hcursor
      refine ⟨(ProjectionCursor.lt_iff _ _).mpr (.inr ⟨rfl, ?_⟩), ?_⟩
      · rw [UInt64.lt_iff_toNat_lt]
        show seq.toNat < (saturatingSucc seq).toNat
        omega
      · have hsame : (⟨saturatingSucc seq, tick⟩ : ProjectionCursor).tick =
            (position ⟨content.1, seq, tick, content.2⟩).tick := rfl
        unfold ProjectionRouter.contiguous
        rw [if_pos hsame]
        exact decide_eq_true rfl

theorem tick_of_mem_numbered {tick : Tick} {seq : UInt64} {contents : List (TypeCode × Bytes)}
    {event : EventRecord} (h : event ∈ numbered tick seq contents) : event.tick = tick := by
  induction contents generalizing seq with
  | nil => simp [numbered] at h
  | cons content rest ih =>
      rcases List.mem_cons.mp h with rfl | hrest
      · rfl
      · exact ih hrest

/-- A batch that starts at 0 may follow whatever came at an earlier tick. -/
theorem follows_head {last : Option ProjectionCursor} {tick : Tick}
    (hearlier : ∀ cursor, last = some cursor → cursor.tick < tick) :
    Follows last ⟨0, tick⟩ := by
  intro cursor hcursor
  have htick := hearlier cursor hcursor
  refine ⟨(ProjectionCursor.lt_iff _ _).mpr (.inl htick), ?_⟩
  have hne : tick ≠ cursor.tick := by
    intro heq
    rw [heq, UInt64.lt_iff_toNat_lt] at htick
    exact Nat.lt_irrefl _ htick
  unfold ProjectionRouter.contiguous
  rw [if_neg hne]
  exact decide_eq_true rfl

/-- Two events at the heads of their batches, the second under a later tick. -/
theorem ordered_heads {first second : EventRecord} (hhead : second.sequence = 0)
    (htick : first.tick < second.tick) : Ordered none [first, second] := by
  refine ⟨fun _ h => absurd h (by simp), ?_, trivial⟩
  unfold position
  rw [hhead]
  refine follows_head ?_
  intro cursor hcursor
  obtain rfl := Option.some.inj hcursor
  exact htick

/-- Batches under increasing ticks make an ordered stream. -/
theorem ordered_flatten {batches : List (Tick × List (TypeCode × Bytes))}
    {last : Option ProjectionCursor}
    (hearlier : ∀ cursor, last = some cursor → ∀ b ∈ batches, cursor.tick < b.1)
    (hticks : (batches.map Prod.fst).Pairwise (· < ·))
    (hroom : ∀ b ∈ batches, b.2.length < UInt64.size) :
    Ordered last (batches.map fun b => numbered b.1 0 b.2).flatten := by
  induction batches generalizing last with
  | nil => trivial
  | cons batch rest ih =>
      rw [List.map_cons, List.pairwise_cons] at hticks
      obtain ⟨hlater, hticks⟩ := hticks
      rw [List.map_cons, List.flatten_cons]
      refine ordered_append.mpr ⟨ordered_numbered ?_ ?_, ih ?_ hticks ?_⟩
      · intro _
        exact follows_head fun cursor hcursor => hearlier cursor hcursor batch (by simp)
      · rw [UInt64.toNat_zero, Nat.zero_add]
        exact hroom batch (by simp)
      · intro cursor hcursor b hb
        have hb' := hlater b.1 (List.mem_map_of_mem hb)
        unfold cursorAfter at hcursor
        cases hlast : (numbered batch.1 0 batch.2).getLast? with
        | none =>
            rw [hlast] at hcursor
            exact hearlier cursor hcursor b (List.mem_cons_of_mem _ hb)
        | some final =>
            rw [hlast] at hcursor
            obtain rfl := Option.some.inj hcursor
            show final.tick < b.1
            rw [tick_of_mem_numbered (List.mem_of_getLast? hlast)]
            exact hb'
      · intro b hb
        exact hroom b (List.mem_cons_of_mem _ hb)

/-! ## The router on an ordered stream -/

/-- A projection none of whose calls fails. -/
class NeverFails (P : Type) [Projection P] : Prop where
  onEvent_ok : ∀ (event : EventRecord) (ctx : ProjectionContext) (p : P),
    ((Projection.onEvent event ctx).exec p).1 = .ok ()
  onStateChange_ok : ∀ (next : ObserverState) (p : P),
    ((Projection.onStateChange next).exec p).1 = .ok ()

/-- The events of a stream that a projection observes. -/
def observed {P : Type} [Projection P] (p : P) (stream : List EventRecord) : List EventRecord :=
  stream.filter fun event => event.typeCode ∈ Projection.observes p

namespace ProjectionRouter

variable {P : Type} [Projection P]

/-- The record of a projection registered as `p` that has followed the stream. -/
structure Follower (stream : List EventRecord) (p : P) (q : Recorded P) : Prop where
  observes : Projection.observes q.projection = Projection.observes p
  accepted : q.accepted = observed p stream

/-- A router that has taken the stream from its start, with nothing left over. -/
structure UpToDate (ps : List P) (stream : List EventRecord) (state : ObserverState)
    (r : ProjectionRouter (Recorded P)) : Prop where
  sound : Sound r
  state : r.state = state
  unpinned : r.pendingRetry = none
  cursor : r.cursor = cursorAfter none stream
  behind : ∀ q ∈ r.projections, mark q.projection ≤ r.reached
  followers : List.Forall₂ (Follower stream) ps r.projections

omit [Projection P] in
/-- The next event of a stream gets to the fan-out. -/
theorem checkPosition_follows {r : ProjectionRouter P} {event : EventRecord}
    (hstate : r.state = .active) (hpin : r.pendingRetry = none)
    (hfollows : Follows r.cursor (position event)) : r.checkPosition event = .ok .next := by
  have hcursor : r.cursor ≠ some (position event) := by
    intro heq
    exact absurd (hfollows _ heq).1 (lt_irrefl _)
  unfold checkPosition
  simp only [hstate, hcursor, hpin, ne_eq, not_true_eq_false, if_false]
  unfold checkOrder
  cases hlast : r.cursor with
  | none => rfl
  | some last =>
      obtain ⟨hlt, hcontiguous⟩ := hfollows last hlast
      simp only [if_neg (not_lt.mpr hlt.le), hcontiguous, if_true]

theorem observed_concat (p : P) (stream : List EventRecord) (event : EventRecord) :
    observed p (stream ++ [event]) =
      observed p stream ++ if event.typeCode ∈ Projection.observes p then [event] else [] := by
  unfold observed
  rw [List.filter_append]
  by_cases hcode : event.typeCode ∈ Projection.observes p
  · simp [hcode]
  · simp [hcode]

/-! ### Registration and promotion -/

theorem upToDate_new : UpToDate ([] : List P) [] .passive new := by
  refine ⟨sound_new, rfl, rfl, rfl, ?_, List.Forall₂.nil⟩
  intro q hq
  simp [new] at hq

theorem upToDate_register {ps : List P} {state : ObserverState}
    {r : ProjectionRouter (Recorded P)} (h : UpToDate ps [] state r) {p : P}
    (hfresh : Projection.lastApplied p = none) :
    UpToDate (ps ++ [p]) [] state (r.register (Recorded.fresh p)) := by
  refine ⟨sound_register h.sound p, h.state, h.unpinned, h.cursor, ?_, ?_⟩
  · intro q hq
    rcases List.mem_append.mp hq with hold | hnew
    · exact h.behind q hold
    · rw [List.mem_singleton.mp hnew]
      have hmark : mark p = ⊥ := by
        unfold mark
        rw [hfresh]
      show mark p ≤ _
      rw [hmark]
      exact bot_le
  · exact List.rel_append h.followers (List.Forall₂.cons ⟨rfl, rfl⟩ List.Forall₂.nil)

variable [LawfulProjection P] [NeverFails P]

omit [LawfulProjection P] in
/-- Projections that never fail are all notified. -/
theorem notify_ok (next : ObserverState) (qs : List (Recorded P)) :
    (notify next qs).1 = .ok () := by
  induction qs with
  | nil => rfl
  | cons q rest ih =>
      have hok := NeverFails.onStateChange_ok next q.projection
      unfold notify
      rw [Recorded.exec_onStateChange]
      rcases hexec : (Projection.onStateChange next).exec q.projection with ⟨err | _, p⟩
      · rw [hexec] at hok
        simp at hok
      · exact ih

theorem upToDate_promote {ps : List P} {stream : List EventRecord}
    {r : ProjectionRouter (Recorded P)} (h : UpToDate ps stream .passive r) :
    UpToDate ps stream .active (promoteToActive.exec r).2 := by
  have hkept := notify_kept .active r.projections
  have hexec : (promoteToActive.exec r).2 =
      { r with projections := (notify .active r.projections).2, state := .active } := by
    have hok := notify_ok .active r.projections
    unfold promoteToActive transition
    simp only [exec_bind, exec_get, h.state, reduceCtorEq, if_false]
    rcases hnotify : notify .active r.projections with ⟨err | _, qs⟩
    · rw [hnotify] at hok
      simp at hok
    · rfl
  rw [hexec]
  refine ⟨sound_of_kept h.sound hkept .active, rfl, h.unpinned, h.cursor, ?_, ?_⟩
  · intro q' hq'
    obtain ⟨q, hq, hsame⟩ := Pointwise.mem_right hkept hq'
    rw [hsame.mark]
    exact h.behind q hq
  · refine Pointwise.of_getElem? (h.followers.length_eq.trans hkept.length_eq) ?_
    intro i p q' hp hq'
    obtain ⟨q, hq, hsame⟩ := Pointwise.getElem?_right hkept hq'
    have hfollower := Pointwise.getElem?_rel h.followers hp hq
    exact ⟨hsame.observes.trans hfollower.observes, hsame.accepted.trans hfollower.accepted⟩

/-! ### One event and the whole stream -/

omit [LawfulProjection P] [NeverFails P] in
/-- What a delivery does to a projection that has followed the stream. -/
theorem follower_delivered {stream : List EventRecord} {event : EventRecord} {p : P}
    {q q' : Recorded P} (h : Follower stream p q) (hdelivered : Delivered event q q')
    (hbehind : mark q.projection < position event)
    (hreach : event.typeCode ∈ Projection.observes p →
      (position event : WithBot ProjectionCursor) ≤ mark q'.projection)
    (hother : event.typeCode ∉ Projection.observes p → q' = q) :
    Follower (stream ++ [event]) p q' := by
  by_cases hcode : event.typeCode ∈ Projection.observes p
  · rcases hdelivered with hkept | htook
    · have hmark := hreach hcode
      rw [hkept.mark] at hmark
      exact absurd hbehind (not_lt.mpr hmark)
    · refine ⟨htook.observes.trans h.observes, ?_⟩
      rw [htook.accepted, h.accepted, observed_concat, if_pos hcode]
  · rw [hother hcode]
    refine ⟨h.observes, ?_⟩
    rw [h.accepted, observed_concat, if_neg hcode, List.append_nil]

omit [LawfulProjection P] in
theorem ready_of_neverFails (event : EventRecord) (ctx : ProjectionContext) (q : Recorded P) :
    Ready event ctx q := by
  have hok := NeverFails.onEvent_ok event ctx q.projection
  refine .inr ?_
  rw [Recorded.exec_onEvent]
  rcases hexec : (Projection.onEvent event ctx).exec q.projection with ⟨err | _, p⟩
  · rw [hexec] at hok
    simp at hok
  · rfl

omit [LawfulProjection P] [NeverFails P] in
/-- The router knows the observers of the projections that were registered. -/
theorem mem_observersByCode_iff {ps : List P} {stream : List EventRecord} {state : ObserverState}
    {r : ProjectionRouter (Recorded P)} (h : UpToDate ps stream state r) {i : ℕ} {p : P}
    {q : Recorded P} (hp : ps[i]? = some p) (hq : r.projections[i]? = some q) {code : TypeCode} :
    i ∈ r.observersByCode code ↔ code ∈ Projection.observes p := by
  have hfollower := Pointwise.getElem?_rel h.followers hp hq
  rw [h.sound.indexed code i, ← hfollower.observes]
  constructor
  · intro hex
    obtain ⟨q₁, hq₁, hcode⟩ := hex
    obtain rfl := Option.some.inj (hq.symm.trans hq₁)
    exact hcode
  · intro hcode
    exact ⟨q, hq, hcode⟩

omit [NeverFails P] in
/-- A fan-out that reaches its end takes every follower one event on. -/
theorem followers_fanOut {ps : List P} {stream : List EventRecord} {state : ObserverState}
    {r : ProjectionRouter (Recorded P)} (h : UpToDate ps stream state r) {event : EventRecord}
    {ctx : ProjectionContext} {total : ℕ} {qs : List (Recorded P)}
    (hahead : r.reached < (position event : WithBot ProjectionCursor))
    (hreturns : (fanOut event ctx 0 (r.observersByCode event.typeCode)).exec r.projections =
      (.ok total, qs)) :
    List.Forall₂ (Follower (stream ++ [event])) ps qs := by
  have hfan := fanOut_delivered event ctx (r.observersByCode event.typeCode) 0 r.projections
  rw [hreturns] at hfan
  refine Pointwise.of_getElem? (h.followers.length_eq.trans hfan.length_eq) ?_
  intro i p q' hp hq'
  obtain ⟨q, hq, hdelivered⟩ := Pointwise.getElem?_right hfan hq'
  have hobserver : i ∈ r.observersByCode event.typeCode ↔
      event.typeCode ∈ Projection.observes p := mem_observersByCode_iff h hp hq
  refine follower_delivered (Pointwise.getElem?_rel h.followers hp hq) hdelivered ?_ ?_ ?_
  · exact (h.behind q (List.mem_of_getElem? hq)).trans_lt hahead
  · intro hcode
    exact fanOut_reaches hreturns (hobserver.mpr hcode) hq'
  · intro hcode
    have hsame : ((fanOut event ctx 0 (r.observersByCode event.typeCode)).exec
        r.projections).2[i]? = r.projections[i]? :=
      fanOut_other event ctx 0 fun hmem => hcode (hobserver.mp hmem)
    rw [hreturns] at hsame
    exact Option.some.inj (hq'.symm.trans (hsame.trans hq))

/-- The next event of a stream is taken by its observers and left alone by the others. -/
theorem step_stream {ps : List P} {stream : List EventRecord} {r : ProjectionRouter (Recorded P)}
    (h : UpToDate ps stream .active r) {event : EventRecord}
    (hfollows : Follows r.cursor (position event)) (ctx : ProjectionContext) :
    ∃ applied r', (dispatch event ctx).exec r = (.ok applied, r') ∧
      UpToDate ps (stream ++ [event]) .active r' := by
  have hnext := checkPosition_follows h.state h.unpinned hfollows
  have hahead := ahead_of_next h.sound hnext
  have hready : ∀ j ∈ r.observersByCode event.typeCode, ∀ q, r.projections[j]? = some q →
      Ready event ctx q := fun _ _ q _ => ready_of_neverFails event ctx q
  obtain ⟨total, qs, hreturns⟩ := fanOut_returns 0 hready
  have hfan := fanOut_delivered event ctx (r.observersByCode event.typeCode) 0 r.projections
  rw [hreturns] at hfan
  have hsound := sound_dispatch h.sound event ctx
  have hdispatched := dispatch_cases event ctx r
  rcases hexec : (dispatch event ctx).exec r with ⟨outcome, r'⟩
  rw [hexec] at hdispatched hsound
  cases hdispatched with
  | refused err hcheck =>
      rw [hnext] at hcheck
      simp at hcheck
  | redelivered hcheck =>
      rw [hnext] at hcheck
      simp at hcheck
  | failed err qs' _ hfail =>
      rw [hreturns] at hfail
      simp at hfail
  | advanced applied qs' _ hfanned =>
      obtain ⟨-, rfl⟩ := Prod.mk.inj (hreturns.symm.trans hfanned)
      refine ⟨applied, _, rfl, hsound, h.state, rfl, (cursorAfter_concat _ _ _).symm, ?_,
        followers_fanOut h hahead hreturns⟩
      intro q' hq'
      obtain ⟨q, hq, hkept | htook⟩ := Pointwise.mem_right hfan hq'
      · rw [hkept.mark]
        exact ((h.behind q hq).trans_lt hahead).le
      · exact htook.mark.le

/-! ### A whole run -/

/-- Dispatch an event in the context it is delivered with. -/
def deliver (delivery : EventRecord × ProjectionContext) : RouterCall P :=
  .dispatch delivery.1 delivery.2

/-- Register projections, promote, and register more. -/
def setup (early late : List P) : List (RouterCall P) :=
  early.map .register ++ .promoteToActive :: late.map .register

omit [LawfulProjection P] [NeverFails P] in
theorem upToDate_registers {ps : List P} {state : ObserverState} {run : List (RouterCall P)}
    (h : UpToDate ps [] state (recorded run)) {more : List P}
    (hfresh : ∀ p ∈ more, Projection.lastApplied p = none) :
    UpToDate (ps ++ more) [] state (recorded (run ++ more.map .register)) := by
  induction more generalizing ps run with
  | nil =>
      rw [List.map_nil, List.append_nil, List.append_nil]
      exact h
  | cons p more ih =>
      have hnext : UpToDate (ps ++ [p]) [] state (recorded (run ++ [.register p])) := by
        rw [recorded_concat]
        exact upToDate_register h (hfresh p (by simp))
      have hall := ih hnext fun q hq => hfresh q (List.mem_cons_of_mem p hq)
      rw [List.append_assoc, List.append_assoc] at hall
      exact hall

theorem upToDate_setup {early late : List P}
    (hfresh : ∀ p ∈ early ++ late, Projection.lastApplied p = none) :
    UpToDate (early ++ late) [] .active (recorded (setup early late)) := by
  have hnew : UpToDate ([] : List P) [] .passive (recorded []) := upToDate_new
  have hearly : UpToDate early [] .passive (recorded (early.map .register)) :=
    upToDate_registers hnew fun p hp => hfresh p (List.mem_append_left _ hp)
  have hactive : UpToDate early [] .active
      (recorded (early.map .register ++ [.promoteToActive])) := by
    rw [recorded_concat]
    exact upToDate_promote hearly
  have hlate := upToDate_registers hactive fun p hp => hfresh p (List.mem_append_right _ hp)
  rw [List.append_assoc] at hlate
  exact hlate

/-- A router that is set up stays up to date along an ordered stream. -/
theorem run_stream {ps : List P} {run : List (RouterCall P)}
    (h : UpToDate ps [] .active (recorded run)) {deliveries : List (EventRecord × ProjectionContext)}
    (hordered : Ordered none (deliveries.map Prod.fst)) :
    UpToDate ps (deliveries.map Prod.fst) .active (recorded (run ++ deliveries.map deliver)) := by
  induction deliveries using List.reverseRecOn with
  | nil =>
      rw [List.map_nil, List.map_nil, List.append_nil]
      exact h
  | append_singleton deliveries delivery ih =>
      rw [List.map_append, ordered_append] at hordered
      obtain ⟨hsent, hfollows, -⟩ := hordered
      have hsofar := ih hsent
      rw [← hsofar.cursor] at hfollows
      obtain ⟨applied, r', hexec, hup⟩ := step_stream hsofar hfollows delivery.2
      rw [List.map_append, List.map_append, ← List.append_assoc]
      show UpToDate ps _ .active (recorded (_ ++ [deliver delivery]))
      rw [recorded_concat]
      show UpToDate ps _ .active ((dispatch delivery.1 delivery.2).exec _).2
      rw [hexec]
      exact hup

end ProjectionRouter

/-! ## Producer and router -/

/-- The batches that successful calls of `process_action`, each on a context of its own and
    under a later tick than the one before, have drained. -/
structure Drained [Blake3] (calls : List (ActionContext × Compute Unit))
    (batches : List (List EventRecord)) : Prop where
  fresh : ∀ c ∈ calls, Fresh c.1
  bodies : ∀ c ∈ calls, ComputeBody c.2
  ticks : (calls.map fun c => c.1.tick).Pairwise (· < ·)
  results : List.Forall₂ (fun c batch => ((processAction c.2).exec c.1).1 = .ok batch) calls batches
  room : ∀ batch ∈ batches, batch.length < UInt64.size

namespace Drained

variable [Blake3] {calls : List (ActionContext × Compute Unit)} {batches : List (List EventRecord)}

/-- Each batch is numbered from 0 under the tick of its call. -/
theorem numbered_batches (hfresh : ∀ c ∈ calls, Fresh c.1) (hbodies : ∀ c ∈ calls, ComputeBody c.2)
    (hresults : List.Forall₂ (fun c batch => ((processAction c.2).exec c.1).1 = .ok batch)
      calls batches) :
    ∃ contents : List (Tick × List (TypeCode × Bytes)),
      contents.map Prod.fst = calls.map (fun c => c.1.tick) ∧
        batches = contents.map fun b => numbered b.1 0 b.2 := by
  induction hresults with
  | nil => exact ⟨[], rfl, rfl⟩
  | @cons c batch calls batches hrun _ ih =>
      obtain ⟨content, hbatch⟩ :=
        drained_numbered (hbodies c (by simp)) (hfresh c (by simp)) hrun
      obtain ⟨contents, hticks, hbatches⟩ :=
        ih (fun d hd => hfresh d (by simp [hd])) (fun d hd => hbodies d (by simp [hd]))
      refine ⟨(c.1.tick, content) :: contents, ?_, ?_⟩
      · rw [List.map_cons, List.map_cons, hticks]
      · rw [List.map_cons, hbatches, hbatch]

/-- The drained events, one batch after the other, make an ordered stream. -/
theorem ordered (h : Drained calls batches) : Ordered none batches.flatten := by
  obtain ⟨contents, hticks, hbatches⟩ := numbered_batches h.fresh h.bodies h.results
  have hroom := h.room
  subst hbatches
  refine ordered_flatten ?_ ?_ ?_
  · intro cursor hcursor
    simp at hcursor
  · rw [hticks]
    exact h.ticks
  · intro b hb
    have hlength := hroom _ (List.mem_map_of_mem hb)
    rw [numbered_length] at hlength
    exact hlength

end Drained

section

variable [Blake3] {P : Type} [Projection P] [LawfulProjection P] [NeverFails P]

/-- Whatever the computes drain, the router takes: dispatched in order to a fresh router that
    was promoted, every event returns `Ok`, and each projection has accepted the events of its
    type codes, once each and in the order they were emitted. -/
theorem drained_events_delivered {calls : List (ActionContext × Compute Unit)}
    {batches : List (List EventRecord)} (hdrained : Drained calls batches) {early late : List P}
    (hfresh : ∀ p ∈ early ++ late, Projection.lastApplied p = none)
    {deliveries : List (EventRecord × ProjectionContext)}
    (hstream : deliveries.map Prod.fst = batches.flatten) :
    (∀ sent delivery rest, deliveries = sent ++ delivery :: rest →
      ∃ applied, ((ProjectionRouter.dispatch delivery.1 delivery.2).exec
        (ProjectionRouter.after
          (ProjectionRouter.setup early late ++ sent.map ProjectionRouter.deliver))).1 =
          .ok applied) ∧
      (ProjectionRouter.recorded
        (ProjectionRouter.setup early late ++ deliveries.map ProjectionRouter.deliver)).erase =
        ProjectionRouter.after
          (ProjectionRouter.setup early late ++ deliveries.map ProjectionRouter.deliver) ∧
      List.Forall₂ (ProjectionRouter.Follower batches.flatten) (early ++ late)
        (ProjectionRouter.recorded (ProjectionRouter.setup early late ++
          deliveries.map ProjectionRouter.deliver)).projections := by
  have hordered : Ordered none (deliveries.map Prod.fst) := by
    rw [hstream]
    exact hdrained.ordered
  have hsetup := ProjectionRouter.upToDate_setup hfresh
  refine ⟨?_, ProjectionRouter.erase_recorded _, ?_⟩
  · intro sent delivery rest hsplit
    rw [hsplit, List.map_append, ordered_append, List.map_cons] at hordered
    obtain ⟨hsent, hfollows, -⟩ := hordered
    have hsofar := ProjectionRouter.run_stream hsetup hsent
    rw [← hsofar.cursor] at hfollows
    obtain ⟨applied, r', hexec, -⟩ := ProjectionRouter.step_stream hsofar hfollows delivery.2
    refine ⟨applied, ?_⟩
    rw [← ProjectionRouter.erase_recorded, ProjectionRouter.erase_dispatch, hexec]
  · have hall := ProjectionRouter.run_stream hsetup hordered
    rw [hstream] at hall
    exact hall.followers

end

/-! ## Two erasures and a silent action -/

/-- `CountingProjection`. -/
structure CountingProjection where
  observes : Vector TypeCode 1
  cursor : Option ProjectionCursor
  applied : ℕ
  deriving DecidableEq, Repr

namespace CountingProjection

instance : Projection CountingProjection where
  observes p := p.observes.toList
  onEvent event _ := modify fun p =>
    { p with applied := p.applied + 1, cursor := some (position event) }
  lastApplied p := p.cursor.map fun c => (c.sequence, c.tick)

instance : LawfulProjection CountingProjection where
  observes_onEvent _ _ _ := rfl
  observes_onStateChange _ _ := rfl
  lastApplied_of_ok _ _ _ _ := rfl
  lastApplied_of_error _ _ _ _ h := by simp [Projection.onEvent] at h
  lastApplied_onStateChange _ _ := rfl

instance : NeverFails CountingProjection where
  onEvent_ok _ _ _ := rfl
  onStateChange_ok _ _ := rfl

/-- A fresh projection on one type code. -/
def observing (code : TypeCode) : CountingProjection where
  observes := #v[code]
  cursor := none
  applied := 0

end CountingProjection

section

attribute [local instance] postcardWire oneBlockBlake3

/-- The user whose erasure is scheduled. -/
def erasedUser : UserId := ⟨⟨firstInstance.get, firstInstance.get_ne_zero⟩⟩

/-- The context of a call without an actor. -/
def contextAt (tick : Tick) : ActionContext :=
  ActionContext.new (.replicate 32 0) firstInstance tick .system .system

/-- An erasure at tick 1, a retraction at tick 4 that emits nothing, an erasure at tick 9. -/
def erasureCalls : List (ActionContext × Compute Unit) :=
  [(contextAt 1, ShippedAction.compute (.gdprEraseUser ⟨1, erasedUser⟩)),
    (contextAt 4, ShippedAction.compute (.retractActivity ⟨1, ⟨erasedUser.get⟩⟩)),
    (contextAt 9, ShippedAction.compute (.gdprEraseUser ⟨1, erasedUser⟩))]

/-- The record of a scheduled erasure. -/
def erasureRecord (tick : Tick) : EventRecord where
  typeCode := ArkheEvent.typeCode UserErasureScheduled
  sequence := 0
  tick := tick
  payload := encoded (UserErasureScheduled.mk 1 erasedUser tick)

theorem drained_erasureCalls :
    Drained erasureCalls [[erasureRecord 1], [], [erasureRecord 9]] := by
  refine ⟨?_, ?_, ?_, ?_, ?_⟩
  · intro c hc
    unfold erasureCalls at hc
    simp only [List.mem_cons, List.not_mem_nil, or_false] at hc
    obtain rfl | rfl | rfl := hc
    all_goals exact fresh_new _ _ _ _ _
  · intro c hc
    unfold erasureCalls at hc
    simp only [List.mem_cons, List.not_mem_nil, or_false] at hc
    obtain rfl | rfl | rfl := hc
    · exact ShippedAction.compute_body (.gdprEraseUser ⟨1, erasedUser⟩)
    · exact ShippedAction.compute_body (.retractActivity ⟨1, ⟨erasedUser.get⟩⟩)
    · exact ShippedAction.compute_body (.gdprEraseUser ⟨1, erasedUser⟩)
  · decide
  · exact .cons rfl (.cons rfl (.cons rfl .nil))
  · decide

/-- What is dispatched. -/
def erasureDeliveries : List (EventRecord × ProjectionContext) :=
  [(erasureRecord 1, ⟨1, firstInstance⟩), (erasureRecord 9, ⟨9, firstInstance⟩)]

/-- An observer of erasures, registered first, and one of cross-shell activities. -/
theorem drained_events_delivered_two_erasures :
    ∃ q q', (ProjectionRouter.recorded (ProjectionRouter.setup
        [CountingProjection.observing (ArkheEvent.typeCode UserErasureScheduled)]
        [CountingProjection.observing crossShellActivityCode] ++
      erasureDeliveries.map ProjectionRouter.deliver)).projections = [q, q'] ∧
      q.accepted = [erasureRecord 1, erasureRecord 9] ∧ q'.accepted = [] := by
  have hfresh : ∀ p ∈ [CountingProjection.observing (ArkheEvent.typeCode UserErasureScheduled)] ++
      [CountingProjection.observing crossShellActivityCode],
      Projection.lastApplied p = none := by decide
  have hstream : erasureDeliveries.map Prod.fst = [[erasureRecord 1], [], [erasureRecord 9]].flatten :=
    rfl
  obtain ⟨-, -, hfollowers⟩ := drained_events_delivered drained_erasureCalls hfresh hstream
  generalize (ProjectionRouter.recorded (P := CountingProjection) _).projections = qs at hfollowers ⊢
  cases hfollowers with
  | cons hfirst hrest =>
      cases hrest with
      | cons hsecond hnil =>
          cases hnil
          exact ⟨_, _, rfl, hfirst.accepted, hsecond.accepted⟩

end

end ArkheForge.Platform
