/-
  The invariant of a projection router, kept over every run (`sound_recorded`).

  `Sound` has four parts. The dispatch index lists exactly the observers of each
  code; every projection's record climbs from where it was registered to its mark;
  whatever a projection accepted is behind the stream cursor or is the pinned event;
  and the pin is ahead of the cursor. The last two are what makes a position name one
  event: a position is used again only for the retry of the event that is pinned there.
-/
import ArkheForge.Platform.Projection.FanOut

namespace ArkheForge.Platform

open ArkheForge.Core BigEndian Fallible

namespace ProjectionRouter

variable {P : Type}

/-- How far the stream has been accepted. -/
def reached (r : ProjectionRouter P) : WithBot ProjectionCursor :=
  match r.cursor with
  | some last => last
  | none => ⊥

/-! ## The ordering checks -/

/-- Only the pinned event passes the check against the pin. -/
theorem checkPin_next (pin : ProjectionCursor × TypeCode × Bytes) (event : EventRecord) :
    checkPin pin event = .ok .next ↔ pin = identity event := by
  obtain ⟨pending, code, payload⟩ := pin
  unfold checkPin identity
  constructor
  · intro h
    by_cases hlt : position event < pending
    · simp [hlt] at h
    · by_cases hne : position event = pending
      · by_cases hid : code ≠ event.typeCode ∨ payload ≠ event.payload
        · simp [hne, hid] at h
        · push Not at hid
          rw [hne, hid.1, hid.2]
      · simp [hlt, hne] at h
  · intro h
    simp only [Prod.mk.injEq] at h
    obtain ⟨rfl, rfl, rfl⟩ := h
    simp

/-- An event that passes the check against the cursor is ahead of it. -/
theorem checkOrder_next {r : ProjectionRouter P} {incoming : ProjectionCursor}
    (hne : r.cursor ≠ some incoming) (h : checkOrder r.cursor incoming = .ok .next) :
    r.reached < incoming := by
  unfold reached
  cases hcursor : r.cursor with
  | none => exact WithBot.bot_lt_coe incoming
  | some last =>
      rw [hcursor] at h hne
      have hback : ¬ incoming < last := by
        intro hlt
        simp [checkOrder, hlt] at h
      have hlast : last ≠ incoming := fun heq => hne (congrArg some heq)
      exact WithBot.coe_lt_coe.mpr (lt_of_le_of_ne (not_lt.mp hback) hlast)

/-- The fan-out runs for the pinned event, or for an event ahead of the cursor when
    nothing is pinned. -/
theorem checkPosition_next {r : ProjectionRouter P} {event : EventRecord}
    (h : r.checkPosition event = .ok .next) :
    r.state = .active ∧ (r.pendingRetry = some (identity event) ∨
      r.pendingRetry = none ∧ r.reached < position event) := by
  unfold checkPosition at h
  by_cases hstate : r.state = .active
  · by_cases hcursor : r.cursor = some (position event)
    · by_cases hlast : r.lastEvent = some (event.typeCode, event.payload)
      · simp [hstate, hcursor, hlast] at h
      · simp [hstate, hcursor, hlast] at h
    · refine ⟨hstate, ?_⟩
      cases hpin : r.pendingRetry with
      | some pin =>
          simp only [hstate, hcursor, hpin, ne_eq, not_true_eq_false, if_false] at h
          exact .inl (congrArg some ((checkPin_next pin event).mp h))
      | none =>
          simp only [hstate, hcursor, hpin, ne_eq, not_true_eq_false, if_false] at h
          exact .inr ⟨rfl, checkOrder_next hcursor h⟩
  · simp [hstate] at h

/-- The retry of a pinned event ahead of the cursor is let through. -/
theorem checkPosition_retry {r : ProjectionRouter P} {event : EventRecord}
    (hstate : r.state = .active) (hpin : r.pendingRetry = some (identity event))
    (hahead : r.reached < position event) : r.checkPosition event = .ok .next := by
  have hcursor : r.cursor ≠ some (position event) := by
    intro heq
    have hreached : r.reached = position event := by
      unfold reached
      rw [heq]
    exact absurd hahead (by rw [hreached]; exact lt_irrefl _)
  unfold checkPosition
  simp only [hstate, hcursor, hpin, ne_eq, not_true_eq_false, if_false]
  exact (checkPin_next _ event).mpr rfl

/-! ## The invariant -/

variable [Projection P]

/-- What every router keeps to. -/
structure Sound (r : ProjectionRouter (Recorded P)) : Prop where
  indexed : Indexed r
  climbs : ∀ q ∈ r.projections, Climb q.start (q.accepted.map position) (mark q.projection)
  settled : ∀ q ∈ r.projections, ∀ event ∈ q.accepted,
    (position event : WithBot ProjectionCursor) ≤ r.reached ∨
      r.pendingRetry = some (identity event)
  pinned : ∀ pin, r.pendingRetry = some pin → r.reached < pin.1

theorem sound_new : Sound (new : ProjectionRouter (Recorded P)) := by
  refine ⟨?_, ?_, ?_, ?_⟩
  · intro code i
    simp [new]
  · intro q hq
    simp [new] at hq
  · intro q hq
    simp [new] at hq
  · intro pin hpin
    simp [new] at hpin

theorem sound_register {r : ProjectionRouter (Recorded P)} (h : Sound r) (p : P) :
    Sound (r.register (Recorded.fresh p)) := by
  refine ⟨?_, ?_, ?_, h.pinned⟩
  · exact indexed_register h.indexed _
  · intro q hq
    rcases List.mem_append.mp hq with hold | hnew
    · exact h.climbs q hold
    · rw [List.mem_singleton.mp hnew]
      exact Climb.nil
  · intro q hq event hevent
    rcases List.mem_append.mp hq with hold | hnew
    · exact h.settled q hold event hevent
    · rw [List.mem_singleton.mp hnew] at hevent
      simp [Recorded.fresh] at hevent

/-- The index survives whatever leaves each projection's type codes alone. -/
theorem indexed_of_pointwise {r : ProjectionRouter (Recorded P)} (h : Indexed r)
    {R : Recorded P → Recorded P → Prop} {qs : List (Recorded P)}
    (hobserves : ∀ q q', R q q' →
      Projection.observes q'.projection = Projection.observes q.projection)
    (hqs : List.Forall₂ R r.projections qs) (code : TypeCode) (i : ℕ) :
    i ∈ r.observersByCode code ↔
      ∃ q, qs[i]? = some q ∧ code ∈ Projection.observes q.projection := by
  rw [h code i]
  constructor
  · rintro ⟨q, hq, hcode⟩
    obtain ⟨q', hq', hR⟩ := Pointwise.getElem?_left hqs hq
    refine ⟨q', hq', ?_⟩
    rw [hobserves q q' hR]
    exact hcode
  · rintro ⟨q', hq', hcode⟩
    obtain ⟨q, hq, hR⟩ := Pointwise.getElem?_right hqs hq'
    refine ⟨q, hq, ?_⟩
    rw [Recorded.observes_eq, ← hobserves q q' hR]
    exact hcode

theorem sound_of_kept {r : ProjectionRouter (Recorded P)} (h : Sound r)
    {qs : List (Recorded P)} (hqs : List.Forall₂ Kept r.projections qs) (state : ObserverState) :
    Sound { r with projections := qs, state := state } := by
  refine ⟨?_, ?_, ?_, h.pinned⟩
  · exact indexed_of_pointwise h.indexed (fun _ _ hkept => hkept.observes) hqs
  · intro q' hq'
    obtain ⟨q, hq, hkept⟩ := Pointwise.mem_right hqs hq'
    rw [hkept.start, hkept.accepted, hkept.mark]
    exact h.climbs q hq
  · intro q' hq' event hevent
    obtain ⟨q, hq, hkept⟩ := Pointwise.mem_right hqs hq'
    rw [hkept.accepted] at hevent
    exact h.settled q hq event hevent

/-- A delivery is one more step of the climb. -/
theorem climb_of_delivered {event : EventRecord} {q q' : Recorded P}
    (h : Climb q.start (q.accepted.map position) (mark q.projection))
    (hdelivered : Delivered event q q') :
    Climb q'.start (q'.accepted.map position) (mark q'.projection) := by
  rcases hdelivered with hkept | htook
  · rw [hkept.start, hkept.accepted, hkept.mark]
    exact h
  · rw [htook.start, htook.accepted, htook.mark, List.map_append]
    exact h.concat htook.beyond

theorem mem_accepted_of_delivered {event other : EventRecord} {q q' : Recorded P}
    (hdelivered : Delivered event q q') (hother : other ∈ q'.accepted) :
    other ∈ q.accepted ∨ other = event := by
  rcases hdelivered with hkept | htook
  · rw [hkept.accepted] at hother
    exact .inl hother
  · rw [htook.accepted] at hother
    rcases List.mem_append.mp hother with hold | hnew
    · exact .inl hold
    · exact .inr (List.mem_singleton.mp hnew)

/-- An event that gets to the fan-out is ahead of the cursor. -/
theorem ahead_of_next {r : ProjectionRouter (Recorded P)} (h : Sound r) {event : EventRecord}
    (hnext : r.checkPosition event = .ok .next) : r.reached < position event := by
  obtain ⟨-, hpin | ⟨-, hahead⟩⟩ := checkPosition_next hnext
  · exact h.pinned _ hpin
  · exact hahead

/-- Whatever was accepted before an event gets to the fan-out is behind the cursor, or is
    that event. -/
theorem settled_of_next {r : ProjectionRouter (Recorded P)} (h : Sound r) {event : EventRecord}
    (hnext : r.checkPosition event = .ok .next) {q : Recorded P} (hq : q ∈ r.projections)
    {other : EventRecord} (hother : other ∈ q.accepted) :
    (position other : WithBot ProjectionCursor) ≤ r.reached ∨ other = event := by
  rcases h.settled q hq other hother with hbehind | hpinned
  · exact .inl hbehind
  · obtain ⟨-, hpin | ⟨hnone, -⟩⟩ := checkPosition_next hnext
    · have hid : identity other = identity event := Option.some.inj (hpinned.symm.trans hpin)
      exact .inr (identity_inj hid)
    · rw [hnone] at hpinned
      simp at hpinned

variable [LawfulProjection P]

theorem sound_transition {r : ProjectionRouter (Recorded P)} (h : Sound r)
    (next : ObserverState) : Sound ((transition next).exec r).2 := by
  have hkept := notify_kept next r.projections
  unfold transition
  simp only [exec_bind, exec_get, exec_ite, exec_throw]
  split
  case isTrue => exact h
  case isFalse =>
      rcases hexec : notify next r.projections with ⟨err | _, qs⟩
      all_goals rw [hexec] at hkept
      · exact sound_of_kept h hkept r.state
      · exact sound_of_kept h hkept next

theorem sound_dispatch {r : ProjectionRouter (Recorded P)} (h : Sound r) (event : EventRecord)
    (ctx : ProjectionContext) : Sound ((dispatch event ctx).exec r).2 := by
  have hfan := fanOut_delivered event ctx (r.observersByCode event.typeCode) 0 r.projections
  have hdispatched := dispatch_cases event ctx r
  generalize (dispatch event ctx).exec r = result at hdispatched ⊢
  have hobserves : ∀ q q' : Recorded P, Delivered event q q' →
      Projection.observes q'.projection = Projection.observes q.projection :=
    fun _ _ => Delivered.observes
  cases hdispatched with
  | refused err _ => exact h
  | redelivered _ => exact h
  | failed err qs hnext hexec =>
      rw [hexec] at hfan
      refine ⟨indexed_of_pointwise h.indexed hobserves hfan, ?_, ?_, ?_⟩
      · intro q' hq'
        obtain ⟨q, hq, hdelivered⟩ := Pointwise.mem_right hfan hq'
        exact climb_of_delivered (h.climbs q hq) hdelivered
      · intro q' hq' other hother
        obtain ⟨q, hq, hdelivered⟩ := Pointwise.mem_right hfan hq'
        rcases mem_accepted_of_delivered hdelivered hother with hold | rfl
        · rcases settled_of_next h hnext hq hold with hbehind | rfl
          · exact .inl hbehind
          · exact .inr rfl
        · exact .inr rfl
      · intro pin hpin
        obtain rfl := Option.some.inj hpin
        exact ahead_of_next h hnext
  | advanced applied qs hnext hexec =>
      rw [hexec] at hfan
      refine ⟨indexed_of_pointwise h.indexed hobserves hfan, ?_, ?_, ?_⟩
      · intro q' hq'
        obtain ⟨q, hq, hdelivered⟩ := Pointwise.mem_right hfan hq'
        exact climb_of_delivered (h.climbs q hq) hdelivered
      · intro q' hq' other hother
        obtain ⟨q, hq, hdelivered⟩ := Pointwise.mem_right hfan hq'
        refine .inl ?_
        show (position other : WithBot ProjectionCursor) ≤ position event
        rcases mem_accepted_of_delivered hdelivered hother with hold | rfl
        · rcases settled_of_next h hnext hq hold with hbehind | rfl
          · exact hbehind.trans (ahead_of_next h hnext).le
          · exact le_rfl
        · exact le_rfl
      · intro pin hpin
        simp at hpin

theorem sound_call {r : ProjectionRouter (Recorded P)} (h : Sound r) (c : RouterCall P) :
    Sound (r.call c.record) := by
  cases c with
  | register p => exact sound_register h p
  | promoteToActive => exact sound_transition h .active
  | demoteToPassive => exact sound_transition h .passive
  | beginDraining => exact sound_transition h .draining
  | dispatch event ctx => exact sound_dispatch h event ctx

omit [LawfulProjection P] in
theorem recorded_concat (run : List (RouterCall P)) (c : RouterCall P) :
    recorded (run ++ [c]) = (recorded run).call c.record := by
  unfold recorded after
  rw [List.map_append, List.foldl_append]
  rfl

/-- Every run keeps to the invariant. -/
theorem sound_recorded (run : List (RouterCall P)) : Sound (recorded run) := by
  induction run using List.reverseRecOn with
  | nil => exact sound_new
  | append_singleton run c ih =>
      rw [recorded_concat]
      exact sound_call ih c

end ProjectionRouter

end ArkheForge.Platform
