/-
  No loss, at most once: what the router guarantees over every run.

  `no_loss_at_most_once` reads the guarantees off the invariant. A projection
  accepts events at strictly increasing positions; a dispatch that moves the cursor
  has brought every observer of the code to the event; a failed fan-out pins its
  event, and the cursor cannot pass a pin except by a retry of that very event, which
  leaves the observers that have it alone and fails only where an observer does.
-/
import ArkheForge.Platform.Projection.Invariant

namespace ArkheForge.Platform

open ArkheForge.Core BigEndian Fallible

namespace ProjectionRouter

variable {P : Type} [Projection P]

/-! ## What a run guarantees -/

/-- Every projection accepted events at strictly increasing positions, all of them beyond
    the one it stood at when it was registered. -/
def AtMostOnce (r : ProjectionRouter (Recorded P)) : Prop :=
  ∀ q ∈ r.projections, (q.accepted.map position).Pairwise (· < ·) ∧
    ∀ event ∈ q.accepted, q.start < position event

/-- A dispatch that moves the cursor moves it forward to its event, and leaves every
    observer of the event's code at or past it: the observer accepted this very event,
    unless it was past it when it was registered. -/
def NoLoss (r : ProjectionRouter (Recorded P)) : Prop :=
  ∀ (event : EventRecord) (ctx : ProjectionContext) (outcome : Except ProjectionError ℕ)
    (r' : ProjectionRouter (Recorded P)),
    (dispatch event ctx).exec r = (outcome, r') → r'.cursor ≠ r.cursor →
    r.reached < position event ∧ r'.cursor = some (position event) ∧
      ∀ q ∈ r'.projections, event.typeCode ∈ Projection.observes q.projection →
        (position event : WithBot ProjectionCursor) ≤ mark q.projection ∧
          (event ∈ q.accepted ∨ (position event : WithBot ProjectionCursor) ≤ q.start)

theorem atMostOnce_of_sound {r : ProjectionRouter (Recorded P)} (h : Sound r) :
    AtMostOnce r := by
  intro q hq
  have hclimb := h.climbs q hq
  refine ⟨hclimb.pairwise, ?_⟩
  intro event hevent
  exact hclimb.start_lt (List.mem_map_of_mem hevent)

/-- A projection at or past an event that ends a run has accepted it or started beyond. -/
theorem accepted_of_reached {r : ProjectionRouter (Recorded P)} (h : Sound r)
    {event : EventRecord} {q : Recorded P} (hq : q ∈ r.projections)
    (hmark : (position event : WithBot ProjectionCursor) ≤ mark q.projection)
    (honly : ∀ other ∈ q.accepted, position event ≤ position other → other = event) :
    event ∈ q.accepted ∨ (position event : WithBot ProjectionCursor) ≤ q.start := by
  rcases (h.climbs q hq).mark_mem with hstart | ⟨last, hlast, heq⟩
  · rw [hstart] at hmark
    exact .inr hmark
  · obtain ⟨other, hother, rfl⟩ := List.mem_map.mp hlast
    rw [heq] at hmark
    have hsame := honly other hother (WithBot.coe_le_coe.mp hmark)
    rw [hsame] at hother
    exact .inl hother

/-- A failed dispatch changed nothing, or pinned its event and left the stream where it was. -/
def FailurePins (r : ProjectionRouter (Recorded P)) : Prop :=
  ∀ (event : EventRecord) (ctx : ProjectionContext) (err : ProjectionError)
    (r' : ProjectionRouter (Recorded P)), (dispatch event ctx).exec r = (.error err, r') →
    r' = r ∨ r'.pendingRetry = some (identity event) ∧ r'.cursor = r.cursor ∧
      r'.lastEvent = r.lastEvent

/-- What the pin of an event guarantees after a run. -/
structure HoldsPin (run : List (RouterCall P)) (event : EventRecord) : Prop where
  /-- Another event is not applied and changes nothing. -/
  others : ∀ other ctx, other ≠ event →
    ((dispatch other ctx).exec (recorded run)).2 = recorded run ∧
      ∀ applied, ((dispatch other ctx).exec (recorded run)).1 = .ok applied → applied = 0
  /-- Whatever the run goes on with, the pin holds the cursor until the event is retried
      and the retry returns. -/
  holds : ∀ rest : List (RouterCall P),
    (recorded (run ++ rest)).pendingRetry = some (identity event) ∧
        (recorded (run ++ rest)).cursor = (recorded run).cursor ∨
      ∃ before ctx later applied r', rest = before ++ .dispatch event ctx :: later ∧
        (dispatch event ctx).exec (recorded (run ++ before)) = (.ok applied, r') ∧
        r'.cursor = some (position event)
  /-- A retry leaves the projections alone that have the event behind them. -/
  spares : ∀ ctx (i : ℕ) (q : Recorded P), (recorded run).projections[i]? = some q →
    (position event : WithBot ProjectionCursor) ≤ mark q.projection →
    ((dispatch event ctx).exec (recorded run)).2.projections[i]? = some q
  /-- A retry on the active router returns if every observer that lacks the event takes it. -/
  retries : ∀ ctx, (recorded run).state = .active →
    (∀ q ∈ (recorded run).projections, event.typeCode ∈ Projection.observes q.projection →
      Ready event ctx q) →
    ∃ applied r', (dispatch event ctx).exec (recorded run) = (.ok applied, r') ∧
      r'.cursor = some (position event)

variable [LawfulProjection P]

theorem noLoss_of_sound {r : ProjectionRouter (Recorded P)} (h : Sound r) : NoLoss r := by
  intro event ctx outcome r' hexec hmoved
  have hsound : Sound r' := by
    have hafter := sound_dispatch h event ctx
    rwa [hexec] at hafter
  have hfan := fanOut_delivered event ctx (r.observersByCode event.typeCode) 0 r.projections
  have hdispatched := dispatch_cases event ctx r
  rw [hexec] at hdispatched
  cases hdispatched with
  | refused err _ => exact absurd rfl hmoved
  | redelivered _ => exact absurd rfl hmoved
  | failed err qs _ _ => exact absurd rfl hmoved
  | advanced applied qs hnext hfanned =>
      refine ⟨ahead_of_next h hnext, rfl, ?_⟩
      intro q hq hobserves
      obtain ⟨i, hi⟩ := List.mem_iff_getElem?.mp hq
      have hindex : i ∈ r.observersByCode event.typeCode :=
        (hsound.indexed event.typeCode i).mpr ⟨q, hi, hobserves⟩
      have hreach := fanOut_reaches hfanned hindex hi
      refine ⟨hreach, accepted_of_reached hsound hq hreach ?_⟩
      -- nothing else was ever accepted at this position
      intro other hother hle
      rw [hfanned] at hfan
      obtain ⟨q₀, hq₀, hdelivered⟩ := Pointwise.mem_right hfan hq
      rcases mem_accepted_of_delivered hdelivered hother with hold | heq
      · rcases settled_of_next h hnext hq₀ hold with hbehind | heq
        · have hback : (position other : WithBot ProjectionCursor) < position event :=
            hbehind.trans_lt (ahead_of_next h hnext)
          exact absurd hle (not_le.mpr (WithBot.coe_lt_coe.mp hback))
        · exact heq
      · exact heq

/-! ## The pin -/

omit [LawfulProjection P] in
theorem failurePins (r : ProjectionRouter (Recorded P)) : FailurePins r := by
  intro event ctx err r' hexec
  have hdispatched := dispatch_cases event ctx r
  rw [hexec] at hdispatched
  cases hdispatched with
  | refused err _ => exact .inl rfl
  | failed err qs _ _ => exact .inr ⟨rfl, rfl, rfl⟩

omit [Projection P] [LawfulProjection P] in
/-- Only the pinned event gets to the fan-out. -/
theorem eq_of_next {r : ProjectionRouter (Recorded P)} {event other : EventRecord}
    (hpin : r.pendingRetry = some (identity event))
    (hnext : r.checkPosition other = .ok .next) : other = event := by
  obtain ⟨-, hother | ⟨hnone, -⟩⟩ := checkPosition_next hnext
  · exact identity_inj (Option.some.inj (hother.symm.trans hpin))
  · rw [hnone] at hpin
    simp at hpin

omit [LawfulProjection P] in
theorem dispatch_other {r : ProjectionRouter (Recorded P)} {event other : EventRecord}
    (hpin : r.pendingRetry = some (identity event)) (hne : other ≠ event)
    (ctx : ProjectionContext) :
    ((dispatch other ctx).exec r).2 = r ∧
      ∀ applied, ((dispatch other ctx).exec r).1 = .ok applied → applied = 0 := by
  have hdispatched := dispatch_cases other ctx r
  generalize (dispatch other ctx).exec r = result at hdispatched ⊢
  cases hdispatched with
  | refused err _ => exact ⟨rfl, fun applied hok => by simp at hok⟩
  | redelivered _ => exact ⟨rfl, fun applied hok => (Except.ok.inj hok).symm⟩
  | failed err qs hnext _ => exact absurd (eq_of_next hpin hnext) hne
  | advanced applied qs hnext _ => exact absurd (eq_of_next hpin hnext) hne

omit [LawfulProjection P] in
theorem transition_pin (next : ObserverState) (r : ProjectionRouter (Recorded P)) :
    ((transition next).exec r).2.pendingRetry = r.pendingRetry ∧
      ((transition next).exec r).2.cursor = r.cursor := by
  unfold transition
  simp only [exec_bind, exec_get, exec_ite, exec_throw]
  split
  case isTrue => exact ⟨rfl, rfl⟩
  case isFalse =>
      rcases notify next r.projections with ⟨err | _, qs⟩
      · exact ⟨rfl, rfl⟩
      · exact ⟨rfl, rfl⟩

omit [LawfulProjection P] in
/-- One call leaves pin and cursor alone, or it is a retry of the event that returns. -/
theorem call_pin {r : ProjectionRouter (Recorded P)} {event : EventRecord}
    (hpin : r.pendingRetry = some (identity event)) (c : RouterCall P) :
    (r.call c.record).pendingRetry = some (identity event) ∧
        (r.call c.record).cursor = r.cursor ∨
      ∃ ctx applied r', c = .dispatch event ctx ∧
        (dispatch event ctx).exec r = (.ok applied, r') ∧ r'.cursor = some (position event) := by
  have htransition : ∀ next : ObserverState,
      ((transition next).exec r).2.pendingRetry = some (identity event) ∧
        ((transition next).exec r).2.cursor = r.cursor := by
    intro next
    obtain ⟨hpin', hcursor'⟩ := transition_pin next r
    exact ⟨hpin'.trans hpin, hcursor'⟩
  cases c with
  | register p => exact .inl ⟨hpin, rfl⟩
  | promoteToActive => exact .inl (htransition .active)
  | demoteToPassive => exact .inl (htransition .passive)
  | beginDraining => exact .inl (htransition .draining)
  | dispatch other ctx =>
      show ((dispatch other ctx).exec r).2.pendingRetry = some (identity event) ∧
        ((dispatch other ctx).exec r).2.cursor = r.cursor ∨ _
      have hdispatched := dispatch_cases other ctx r
      rcases hexec : (dispatch other ctx).exec r with ⟨outcome, r'⟩
      rw [hexec] at hdispatched
      cases hdispatched with
      | refused err _ => exact .inl ⟨hpin, rfl⟩
      | redelivered _ => exact .inl ⟨hpin, rfl⟩
      | failed err qs hnext _ =>
          obtain rfl := eq_of_next hpin hnext
          exact .inl ⟨rfl, rfl⟩
      | advanced applied qs hnext _ =>
          obtain rfl := eq_of_next hpin hnext
          exact .inr ⟨ctx, applied, _, rfl, hexec, rfl⟩

omit [LawfulProjection P] in
/-- A run leaves pin and cursor alone, or it has a retry of the event that returns. -/
theorem run_pin {run : List (RouterCall P)} {event : EventRecord}
    (hpin : (recorded run).pendingRetry = some (identity event)) (rest : List (RouterCall P)) :
    (recorded (run ++ rest)).pendingRetry = some (identity event) ∧
        (recorded (run ++ rest)).cursor = (recorded run).cursor ∨
      ∃ before ctx later applied r', rest = before ++ .dispatch event ctx :: later ∧
        (dispatch event ctx).exec (recorded (run ++ before)) = (.ok applied, r') ∧
        r'.cursor = some (position event) := by
  induction rest generalizing run with
  | nil =>
      rw [List.append_nil]
      exact .inl ⟨hpin, rfl⟩
  | cons c rest ih =>
      rcases call_pin hpin c with ⟨hpin', hcursor'⟩ | ⟨ctx, applied, r', rfl, hexec, hcursor⟩
      · rw [← recorded_concat] at hpin' hcursor'
        have hassoc : run ++ c :: rest = (run ++ [c]) ++ rest := by simp
        rw [hassoc]
        rcases ih hpin' with ⟨hheld, hcursor⟩ | ⟨before, ctx, later, applied, r', rfl, hexec, hcursor⟩
        · exact .inl ⟨hheld, hcursor.trans hcursor'⟩
        · refine .inr ⟨c :: before, ctx, later, applied, r', rfl, ?_, hcursor⟩
          rw [List.append_assoc] at hexec
          exact hexec
      · refine .inr ⟨[], ctx, rest, applied, r', rfl, ?_, hcursor⟩
        rw [List.append_nil]
        exact hexec

theorem dispatch_spares {r : ProjectionRouter (Recorded P)} (event : EventRecord)
    (ctx : ProjectionContext) {i : ℕ} {q : Recorded P} (hq : r.projections[i]? = some q)
    (hdone : (position event : WithBot ProjectionCursor) ≤ mark q.projection) :
    ((dispatch event ctx).exec r).2.projections[i]? = some q := by
  have hsettled := fanOut_settled ctx (r.observersByCode event.typeCode) 0 hq hdone
  have hdispatched := dispatch_cases event ctx r
  generalize (dispatch event ctx).exec r = result at hdispatched ⊢
  cases hdispatched with
  | refused err _ => exact hq
  | redelivered _ => exact hq
  | failed err qs _ hexec =>
      rw [hexec] at hsettled
      exact hsettled
  | advanced applied qs _ hexec =>
      rw [hexec] at hsettled
      exact hsettled

theorem dispatch_retries {r : ProjectionRouter (Recorded P)} (h : Sound r) {event : EventRecord}
    (hpin : r.pendingRetry = some (identity event)) (ctx : ProjectionContext)
    (hstate : r.state = .active)
    (hready : ∀ q ∈ r.projections, event.typeCode ∈ Projection.observes q.projection →
      Ready event ctx q) :
    ∃ applied r', (dispatch event ctx).exec r = (.ok applied, r') ∧
      r'.cursor = some (position event) := by
  have hnext := checkPosition_retry hstate hpin (h.pinned _ hpin)
  have hobservers : ∀ j ∈ r.observersByCode event.typeCode, ∀ q, r.projections[j]? = some q →
      Ready event ctx q := by
    intro j hj q hq
    obtain ⟨q₀, hq₀, hcode⟩ := (h.indexed event.typeCode j).mp hj
    obtain rfl := Option.some.inj (hq.symm.trans hq₀)
    exact hready q (List.mem_of_getElem? hq) hcode
  obtain ⟨total, qs, hreturns⟩ := fanOut_returns 0 hobservers
  have hdispatched := dispatch_cases event ctx r
  rcases hexec : (dispatch event ctx).exec r with ⟨outcome, r'⟩
  rw [hexec] at hdispatched
  cases hdispatched with
  | refused err hcheck =>
      rw [hnext] at hcheck
      simp at hcheck
  | redelivered hcheck =>
      rw [hnext] at hcheck
      simp at hcheck
  | failed err qs' _ hfail =>
      rw [hreturns] at hfail
      simp at hfail
  | advanced applied qs' _ _ => exact ⟨applied, _, rfl, rfl⟩

/-! ## Over every run -/

/-- The guarantees of the router, over every run of calls on a fresh one. The recorded run
    is the run, with each projection's accepted events written down. -/
theorem no_loss_at_most_once (run : List (RouterCall P)) :
    (recorded run).erase = after run ∧ AtMostOnce (recorded run) ∧ NoLoss (recorded run) ∧
      FailurePins (recorded run) ∧
      ∀ event, (recorded run).pendingRetry = some (identity event) → HoldsPin run event := by
  have hsound := sound_recorded run
  refine ⟨erase_recorded run, atMostOnce_of_sound hsound, noLoss_of_sound hsound,
    failurePins (recorded run), ?_⟩
  intro event hpin
  refine ⟨?_, ?_, ?_, ?_⟩
  · intro other ctx hne
    exact dispatch_other hpin hne ctx
  · intro rest
    exact run_pin hpin rest
  · intro ctx i q hq hdone
    exact dispatch_spares event ctx hq hdone
  · intro ctx hstate hready
    exact dispatch_retries hsound hpin ctx hstate hready

end ProjectionRouter

/-! ## A failure in the middle of a stream -/

/-- `CrossShellActivity::TYPE_CODE`. -/
def crossShellActivityCode : TypeCode := 0x00030F07

/-- `FailSecondProjection`: the second call of `on_event` fails. -/
structure FailSecondProjection where
  observes : Vector TypeCode 1
  cursor : Option ProjectionCursor
  calls : ℕ
  deriving DecidableEq, Repr

namespace FailSecondProjection

instance : Projection FailSecondProjection where
  observes p := p.observes.toList
  onEvent event _ := do
    modify fun p => { p with calls := p.calls + 1 }
    let p ← get
    if p.calls = 2 then throw (.storage "transient")
    set { p with cursor := some (position event) }
  lastApplied p := p.cursor.map fun c => (c.sequence, c.tick)

theorem exec_onEvent (event : EventRecord) (ctx : ProjectionContext) (p : FailSecondProjection) :
    (Projection.onEvent event ctx).exec p =
      if p.calls + 1 = 2 then
        (.error (.storage "transient"), { p with calls := p.calls + 1 })
      else (.ok (), { p with calls := p.calls + 1, cursor := some (position event) }) := by
  simp only [Projection.onEvent, exec_bind, exec_modify, exec_get, exec_ite, exec_throw]
  split
  · rfl
  · rfl

instance : LawfulProjection FailSecondProjection where
  observes_onEvent event ctx p := by
    rw [exec_onEvent]
    split
    · rfl
    · rfl
  observes_onStateChange next p := rfl
  lastApplied_of_ok event ctx p h := by
    rw [exec_onEvent] at h ⊢
    split
    · simp_all
    · rfl
  lastApplied_of_error event ctx p err h := by
    rw [exec_onEvent] at h ⊢
    split
    · rfl
    · simp_all
  lastApplied_onStateChange next p := rfl

/-- An observer of cross-shell activities that has been called `calls` times. -/
def called (calls : ℕ) : FailSecondProjection where
  observes := #v[crossShellActivityCode]
  cursor := none
  calls := calls

end FailSecondProjection

/-- The head event of a tick. -/
def headEvent (tick : Tick) (payload : Bytes) : EventRecord where
  typeCode := crossShellActivityCode
  sequence := 0
  tick := tick
  payload := payload

/-- A first event that both observers apply, and a second that the later one fails on. -/
def midStreamRun : List (RouterCall FailSecondProjection) :=
  [.promoteToActive, .register (.called 2), .register (.called 0),
    .dispatch (headEvent 5 [0x10]) ⟨5, firstInstance⟩,
    .dispatch (headEvent 6 [0x10]) ⟨6, firstInstance⟩]

theorem no_loss_at_most_once_mid_stream :
    ((ProjectionRouter.recorded midStreamRun).pendingRetry =
        some (identity (headEvent 6 [0x10])) ∧
      ProjectionRouter.AtMostOnce (ProjectionRouter.recorded midStreamRun) ∧
      ProjectionRouter.NoLoss (ProjectionRouter.recorded midStreamRun) ∧
      ProjectionRouter.HoldsPin midStreamRun (headEvent 6 [0x10])) := by
  have hpin : (ProjectionRouter.recorded midStreamRun).pendingRetry =
      some (identity (headEvent 6 [0x10])) := by decide +kernel
  obtain ⟨-, honce, hloss, -, hholds⟩ := ProjectionRouter.no_loss_at_most_once midStreamRun
  exact ⟨hpin, honce, hloss, hholds _ hpin⟩

end ArkheForge.Platform
