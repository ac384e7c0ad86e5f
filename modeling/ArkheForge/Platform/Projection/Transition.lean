/-
  What a failed transition leaves of the projections.

  `transition` tells the projections the new state one after the other and stores it in the
  router at the end. When one of them fails, the call ends there: the router keeps its
  state, and so do the projections from the failing one on, but those before it have the
  new state. `Notified P` keeps beside a projection the last state it took, so that this can
  be said; the router cannot tell the difference (`forget_transition`). A transition is all
  or nothing exactly if the projections before the first failing one stood there already
  (`transition_allOrNothing_iff`).
-/
import ArkheForge.Platform.Projection.Router

namespace ArkheForge.Platform

open ArkheForge.Core BigEndian Fallible

/-- A projection and the last state it was told without failing, if any. -/
structure Notified (P : Type) where
  projection : P
  received : Option ObserverState
  deriving DecidableEq, Repr

namespace Notified

variable {P : Type} [Projection P]

/-- Put a new state of the projection beside what it received. -/
def withProjection (p : P) (q : Notified P) : Notified P := { q with projection := p }

instance : Projection (Notified P) where
  observes q := Projection.observes q.projection
  onEvent event ctx := zoom projection withProjection id (Projection.onEvent event ctx)
  onStateChange next := do
    zoom projection withProjection id (Projection.onStateChange next)
    modify fun q => { q with received := some next }
  lastApplied q := Projection.lastApplied q.projection

/-- A state that is taken is noted, a failure is not. -/
theorem exec_onStateChange (next : ObserverState) (q : Notified P) :
    (Projection.onStateChange next).exec q =
      match (Projection.onStateChange next).exec q.projection with
      | (.ok (), p) => (.ok (), ⟨p, some next⟩)
      | (.error err, p) => (.error err, ⟨p, q.received⟩) := by
  show exec (zoom projection withProjection id (Projection.onStateChange next) >>= _) q = _
  rw [exec_bind, exec_zoom]
  rcases (Projection.onStateChange next).exec q.projection with ⟨err | _, p⟩
  · rfl
  · rfl

/-- The projection fails when it is told the state. -/
def Fails (next : ObserverState) (q : Notified P) : Prop :=
  ((Projection.onStateChange next).exec q.projection).1 ≠ .ok ()

end Notified

namespace ProjectionRouter

variable {P : Type}

/-- The router without what its projections received. -/
def forget (r : ProjectionRouter (Notified P)) : ProjectionRouter P :=
  { r with projections := r.projections.map Notified.projection }

variable [Projection P] {next : ObserverState}

theorem forget_notify (next : ObserverState) (qs : List (Notified P)) :
    notify next (qs.map Notified.projection) =
      ((notify next qs).1, (notify next qs).2.map Notified.projection) := by
  induction qs with
  | nil => rfl
  | cons q rest ih =>
      simp only [List.map_cons, notify, Notified.exec_onStateChange]
      rcases (Projection.onStateChange next).exec q.projection with ⟨err | _, p⟩
      · rfl
      · simp only [ih, List.map_cons]

theorem exec_transition (next : ObserverState) (r : ProjectionRouter P) :
    (transition next).exec r =
      if r.state = .draining then (.error (.notActive r.state), r)
      else
        match notify next r.projections with
        | (.error err, ps) => (.error err, { r with projections := ps })
        | (.ok (), ps) => (.ok (), { r with projections := ps, state := next }) := by
  unfold transition
  simp only [exec_bind, exec_get, exec_ite, exec_throw]
  split
  · rfl
  · rcases notify next r.projections with ⟨err | _, ps⟩
    · rfl
    · rfl

/-- A transition answers the same and does the same, whether what is received is noted or
    not. -/
theorem forget_transition (next : ObserverState) (r : ProjectionRouter (Notified P)) :
    (transition next).exec r.forget =
      (((transition next).exec r).1, ((transition next).exec r).2.forget) := by
  have hnotify := forget_notify next r.projections
  rw [exec_transition, exec_transition]
  simp only [forget, hnotify]
  split
  · rfl
  · rcases notify next r.projections with ⟨err | _, qs⟩
    · rfl
    · rfl

/-! ## The projections that are told -/

/-- Those before the first projection that fails have the new state already. -/
def AheadStood (next : ObserverState) (qs : List (Notified P)) : Prop :=
  ∀ before q after, qs = before ++ q :: after → (∀ p ∈ before, ¬ p.Fails next) →
    q.Fails next → ∀ p ∈ before, p.received = some next

theorem notify_cons_of_fails {q : Notified P} (h : q.Fails next) (rest : List (Notified P)) :
    ∃ err p, notify next (q :: rest) = (.error err, ⟨p, q.received⟩ :: rest) := by
  rcases hcall : (Projection.onStateChange next).exec q.projection with ⟨err | _, p⟩
  · refine ⟨err, p, ?_⟩
    rw [notify, Notified.exec_onStateChange, hcall]
  · exact absurd (congrArg Prod.fst hcall) h

theorem notify_cons_of_takes {q : Notified P} (h : ¬ q.Fails next) (rest : List (Notified P)) :
    ∃ p, notify next (q :: rest) =
      ((notify next rest).1, ⟨p, some next⟩ :: (notify next rest).2) := by
  rcases hcall : (Projection.onStateChange next).exec q.projection with ⟨err | _, p⟩
  · exact absurd (by simp [Notified.Fails, hcall]) h
  · refine ⟨p, ?_⟩
    rw [notify, Notified.exec_onStateChange, hcall]

/-- When no projection fails, all of them take the new state. -/
theorem notified_ok {qs : List (Notified P)} (h : (notify next qs).1 = .ok ()) :
    (notify next qs).2.map Notified.received = qs.map fun _ => some next := by
  induction qs with
  | nil => rfl
  | cons q rest ih =>
      by_cases hq : q.Fails next
      · obtain ⟨err, p, hnotify⟩ := notify_cons_of_fails hq rest
        rw [hnotify] at h
        nomatch h
      · obtain ⟨p, hnotify⟩ := notify_cons_of_takes hq rest
        rw [hnotify] at h ⊢
        rw [List.map_cons, List.map_cons, ih h]

theorem exists_fails_of_error {qs : List (Notified P)} {err : ProjectionError}
    (h : (notify next qs).1 = .error err) : ∃ p ∈ qs, p.Fails next := by
  induction qs with
  | nil => nomatch h
  | cons q rest ih =>
      by_cases hq : q.Fails next
      · exact ⟨q, List.mem_cons_self, hq⟩
      · obtain ⟨p, hnotify⟩ := notify_cons_of_takes hq rest
        rw [hnotify] at h
        obtain ⟨p', hp', hfails⟩ := ih h
        exact ⟨p', List.mem_cons_of_mem q hp', hfails⟩

theorem not_fails_of_ok {qs : List (Notified P)} (h : (notify next qs).1 = .ok ()) :
    ∀ p ∈ qs, ¬ p.Fails next := by
  induction qs with
  | nil => simp
  | cons q rest ih =>
      by_cases hq : q.Fails next
      · obtain ⟨err, p, hnotify⟩ := notify_cons_of_fails hq rest
        rw [hnotify] at h
        nomatch h
      · obtain ⟨p, hnotify⟩ := notify_cons_of_takes hq rest
        rw [hnotify] at h
        exact List.forall_mem_cons.mpr ⟨hq, ih h⟩

/-! ## The projections before a failing one -/

theorem aheadStood_cons_of_fails {q : Notified P} (h : q.Fails next) (rest : List (Notified P)) :
    AheadStood next (q :: rest) := by
  intro before q' after hsplit hbefore _ p hp
  cases before with
  | nil => simp at hp
  | cons head before =>
      rw [List.cons_append, List.cons.injEq] at hsplit
      exact absurd (hsplit.1 ▸ h) (hbefore head List.mem_cons_self)

/-- The first failing projection of a list that has one. -/
theorem exists_first_failing {qs : List (Notified P)} (h : ∃ p ∈ qs, p.Fails next) :
    ∃ before q after, qs = before ++ q :: after ∧ (∀ p ∈ before, ¬ p.Fails next) ∧
      q.Fails next := by
  induction qs with
  | nil => simp at h
  | cons q rest ih =>
      by_cases hq : q.Fails next
      · exact ⟨[], q, rest, rfl, by simp, hq⟩
      · have hrest : ∃ p ∈ rest, p.Fails next := by
          obtain ⟨p, hp, hfails⟩ := h
          rcases List.mem_cons.mp hp with rfl | hmem
          · exact absurd hfails hq
          · exact ⟨p, hmem, hfails⟩
        obtain ⟨before, q', after, hsplit, hbefore, hq'⟩ := ih hrest
        refine ⟨q :: before, q', after, by rw [hsplit, List.cons_append], ?_, hq'⟩
        exact List.forall_mem_cons.mpr ⟨hq, hbefore⟩

theorem aheadStood_cons_of_takes {q : Notified P} (h : ¬ q.Fails next)
    {rest : List (Notified P)} (hrest : ∃ p ∈ rest, p.Fails next) :
    AheadStood next (q :: rest) ↔ q.received = some next ∧ AheadStood next rest := by
  constructor
  · intro hall
    constructor
    · obtain ⟨before, q', after, hsplit, hbefore, hq'⟩ := exists_first_failing hrest
      exact hall (q :: before) q' after (by rw [hsplit, List.cons_append])
        (List.forall_mem_cons.mpr ⟨h, hbefore⟩) hq' q List.mem_cons_self
    · intro before q' after hsplit hbefore hq' p hp
      exact hall (q :: before) q' after (by rw [hsplit, List.cons_append])
        (List.forall_mem_cons.mpr ⟨h, hbefore⟩) hq' p (List.mem_cons_of_mem q hp)
  · rintro ⟨hq, hall⟩ before q' after hsplit hbefore hq' p hp
    cases before with
    | nil => simp at hp
    | cons head before =>
        rw [List.cons_append, List.cons.injEq] at hsplit
        obtain ⟨rfl, hsplit⟩ := hsplit
        rcases List.mem_cons.mp hp with rfl | hmem
        · exact hq
        · exact hall before q' after hsplit (List.forall_mem_cons.mp hbefore).2 hq' p hmem

/-- A failed loop leaves what was received as it was exactly if those before the failing
    projection stood there. -/
theorem notify_error_iff {qs : List (Notified P)} {err : ProjectionError}
    (h : (notify next qs).1 = .error err) :
    (notify next qs).2.map Notified.received = qs.map Notified.received ↔ AheadStood next qs := by
  induction qs with
  | nil => nomatch h
  | cons q rest ih =>
      by_cases hq : q.Fails next
      · obtain ⟨err', p, hnotify⟩ := notify_cons_of_fails hq rest
        rw [hnotify]
        exact iff_of_true rfl (aheadStood_cons_of_fails hq rest)
      · obtain ⟨p, hnotify⟩ := notify_cons_of_takes hq rest
        rw [hnotify] at h ⊢
        rw [aheadStood_cons_of_takes hq (exists_fails_of_error h), ← ih h, List.map_cons,
          List.map_cons, List.cons.injEq, eq_comm]

theorem aheadStood_of_ok {qs : List (Notified P)} (h : (notify next qs).1 = .ok ()) :
    AheadStood next qs := by
  intro before q after hsplit _ hq
  have hmem : q ∈ qs := by
    rw [hsplit]
    simp
  exact absurd hq (not_fails_of_ok h q hmem)

/-! ## Transitions -/

/-- After an error the router and every projection stand where they did; without one, they
    stand in the requested state. -/
structure AllOrNothing (next : ObserverState) (r : ProjectionRouter (Notified P)) : Prop where
  error : ∀ err, ((transition next).exec r).1 = .error err →
    ((transition next).exec r).2.state = r.state ∧
    ((transition next).exec r).2.projections.map Notified.received =
      r.projections.map Notified.received
  ok : ((transition next).exec r).1 = .ok () →
    ((transition next).exec r).2.state = next ∧
    ((transition next).exec r).2.projections.map Notified.received =
      r.projections.map fun _ => some next

/-- A transition is all or nothing exactly if the router is draining or every projection
    before the first one that fails has the requested state already. -/
theorem transition_allOrNothing_iff (next : ObserverState) (r : ProjectionRouter (Notified P)) :
    AllOrNothing next r ↔ r.state = .draining ∨ AheadStood next r.projections := by
  have hexec := exec_transition next r
  by_cases hdraining : r.state = .draining
  · rw [if_pos hdraining] at hexec
    refine iff_of_true ⟨?_, ?_⟩ (.inl hdraining)
    · intro err _
      rw [hexec]
      exact ⟨rfl, rfl⟩
    · intro hok
      rw [hexec] at hok
      nomatch hok
  · rw [if_neg hdraining] at hexec
    rcases hnotify : notify next r.projections with ⟨err | _, qs⟩
    · rw [hnotify] at hexec
      have hreceived := notify_error_iff (congrArg Prod.fst hnotify)
      rw [hnotify] at hreceived
      constructor
      · intro h
        refine .inr (hreceived.mp ?_)
        have hkept := (h.error err (congrArg Prod.fst hexec)).2
        rw [hexec] at hkept
        exact hkept
      · intro h
        refine ⟨fun err' _ => ?_, fun hok => ?_⟩
        · rw [hexec]
          exact ⟨rfl, hreceived.mpr (h.resolve_left hdraining)⟩
        · rw [hexec] at hok
          nomatch hok
    · rw [hnotify] at hexec
      have hreceived := notified_ok (congrArg Prod.fst hnotify)
      rw [hnotify] at hreceived
      refine iff_of_true ⟨?_, ?_⟩ (.inr (aheadStood_of_ok (congrArg Prod.fst hnotify)))
      · intro err herr
        rw [hexec] at herr
        nomatch herr
      · intro _
        rw [hexec]
        exact ⟨rfl, hreceived⟩

end ProjectionRouter

/-! ## A projection in the way -/

/-- A projection that fails every change of state, or none. -/
structure Stubborn where
  refuses : Bool
  deriving DecidableEq, Repr

instance : Projection Stubborn where
  observes _ := []
  onEvent _ _ := pure ()
  onStateChange _ := do
    if (← get).refuses then throw (.storage "state change refused")
  lastApplied _ := none

namespace ProjectionRouter

/-- Two projections in the passive state, of which the second refuses to change. -/
def halfStubborn : ProjectionRouter (Notified Stubborn) :=
  { (new : ProjectionRouter (Notified Stubborn)) with
    projections := [⟨⟨false⟩, some .passive⟩, ⟨⟨true⟩, some .passive⟩] }

/-- The promotion fails, the router stays passive and its first projection is active. -/
theorem not_allOrNothing_halfStubborn :
    (promoteToActive.exec halfStubborn).1 = .error (.storage "state change refused") ∧
      (promoteToActive.exec halfStubborn).2.state = .passive ∧
      (promoteToActive.exec halfStubborn).2.projections.map Notified.received =
        [some .active, some .passive] ∧
      ¬ AllOrNothing .active halfStubborn := by
  refine ⟨rfl, rfl, rfl, ?_⟩
  intro h
  have hkept := (h.error (.storage "state change refused") rfl).2
  have hmoved : ((transition .active).exec halfStubborn).2.projections.map Notified.received =
      [some .active, some .passive] := rfl
  rw [hmoved] at hkept
  exact absurd hkept (by decide)

end ProjectionRouter

end ArkheForge.Platform
