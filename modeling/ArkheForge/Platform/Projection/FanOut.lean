/-
  What one call can do to the projections.

  A state change leaves every projection's mark and record alone (`Kept`), and a
  dispatched event either leaves them alone or is taken from beyond the mark
  (`Took`). `fanOut_delivered` says so for the whole loop, failed or not,
  `fanOut_reaches` that a loop that returns has brought every observer to the event,
  and `fanOut_returns` that only an observer can make it fail. `dispatch_cases` and
  `checkPosition_next` are the inversions of `dispatch` and of its ordering checks.
-/
import ArkheForge.Lib.Pointwise
import ArkheForge.Platform.Projection.Recorded

namespace ArkheForge.Platform

open ArkheForge.Core BigEndian Fallible

/-- What identifies an event to the router: its position, type code and payload. -/
def identity (event : EventRecord) : ProjectionCursor × TypeCode × Bytes :=
  (position event, event.typeCode, event.payload)

theorem identity_inj {a b : EventRecord} (h : identity a = identity b) : a = b := by
  cases a
  cases b
  simp_all [identity, position]

/-! ## One projection -/

section

variable {P : Type} [Projection P]

/-- The projection stands where it stood, with the same record. -/
structure Kept (q q' : Recorded P) : Prop where
  observes : Projection.observes q'.projection = Projection.observes q.projection
  mark : mark q'.projection = mark q.projection
  start : q'.start = q.start
  accepted : q'.accepted = q.accepted

/-- The projection took an event from beyond its mark. -/
structure Took (event : EventRecord) (q q' : Recorded P) : Prop where
  observes : Projection.observes q'.projection = Projection.observes q.projection
  beyond : Platform.mark q.projection < position event
  mark : Platform.mark q'.projection = position event
  start : q'.start = q.start
  accepted : q'.accepted = q.accepted ++ [event]

/-- What dispatching an event may do to a projection. -/
def Delivered (event : EventRecord) (q q' : Recorded P) : Prop := Kept q q' ∨ Took event q q'

theorem Kept.refl (q : Recorded P) : Kept q q := ⟨rfl, rfl, rfl, rfl⟩

theorem Kept.trans {q q' q'' : Recorded P} (h : Kept q q') (h' : Kept q' q'') : Kept q q'' :=
  ⟨h'.observes.trans h.observes, h'.mark.trans h.mark, h'.start.trans h.start,
    h'.accepted.trans h.accepted⟩

theorem Delivered.refl (event : EventRecord) (q : Recorded P) : Delivered event q q :=
  .inl (Kept.refl q)

theorem Delivered.observes {event : EventRecord} {q q' : Recorded P} (h : Delivered event q q') :
    Projection.observes q'.projection = Projection.observes q.projection := by
  rcases h with hkept | htook
  · exact hkept.observes
  · exact htook.observes

/-- An event is taken once: after it was taken the mark is no longer below it. -/
theorem Delivered.trans {event : EventRecord} {q q' q'' : Recorded P}
    (h : Delivered event q q') (h' : Delivered event q' q'') : Delivered event q q'' := by
  rcases h with hkept | htook
  · rcases h' with hkept' | htook'
    · exact .inl (hkept.trans hkept')
    · refine .inr ⟨htook'.observes.trans hkept.observes, ?_, htook'.mark,
        htook'.start.trans hkept.start, ?_⟩
      · rw [← hkept.mark]
        exact htook'.beyond
      · rw [htook'.accepted, hkept.accepted]
  · rcases h' with hkept' | htook'
    · refine .inr ⟨hkept'.observes.trans htook.observes, htook.beyond, ?_,
        hkept'.start.trans htook.start, ?_⟩
      · rw [hkept'.mark, htook.mark]
      · rw [hkept'.accepted, htook.accepted]
    · have hbeyond := htook'.beyond
      rw [htook.mark] at hbeyond
      exact absurd hbeyond (lt_irrefl _)

variable [LawfulProjection P]

theorem kept_of_onStateChange (next : ObserverState) (q : Recorded P) :
    Kept q ((Projection.onStateChange next).exec q).2 := by
  rw [Recorded.exec_onStateChange]
  refine ⟨LawfulProjection.observes_onStateChange next q.projection, ?_, rfl, rfl⟩
  unfold mark
  rw [LawfulProjection.lastApplied_onStateChange next q.projection]

theorem kept_of_error {event : EventRecord} {ctx : ProjectionContext} {q q' : Recorded P}
    {err : ProjectionError} (h : (Projection.onEvent event ctx).exec q = (.error err, q')) :
    Kept q q' := by
  have hobserves := LawfulProjection.observes_onEvent event ctx q.projection
  have hmark := mark_of_error event ctx q.projection err
  rw [Recorded.exec_onEvent] at h
  rcases hexec : (Projection.onEvent event ctx).exec q.projection with ⟨err' | _, p⟩
  · rw [hexec] at h hobserves hmark
    obtain ⟨herr, rfl⟩ := Prod.mk.inj h
    exact ⟨hobserves, hmark herr, rfl, rfl⟩
  · rw [hexec] at h
    exact absurd (Prod.mk.inj h).1 (by simp)

theorem took_of_ok {event : EventRecord} {ctx : ProjectionContext} {q q' : Recorded P}
    (hbeyond : mark q.projection < position event)
    (h : (Projection.onEvent event ctx).exec q = (.ok (), q')) : Took event q q' := by
  have hobserves := LawfulProjection.observes_onEvent event ctx q.projection
  have hmark := mark_of_ok event ctx q.projection
  rw [Recorded.exec_onEvent] at h
  rcases hexec : (Projection.onEvent event ctx).exec q.projection with ⟨err | _, p⟩
  · rw [hexec] at h
    exact absurd (Prod.mk.inj h).1 (by simp)
  · rw [hexec] at h hobserves hmark
    obtain ⟨-, rfl⟩ := Prod.mk.inj h
    exact ⟨hobserves, hbeyond, hmark rfl, rfl, rfl⟩

end

namespace ProjectionRouter

variable {P : Type} [Projection P] [LawfulProjection P]

/-! ## A change of state -/

theorem notify_kept (next : ObserverState) (qs : List (Recorded P)) :
    List.Forall₂ Kept qs (notify next qs).2 := by
  induction qs with
  | nil => exact List.Forall₂.nil
  | cons q rest ih =>
      have hkept := kept_of_onStateChange next q
      unfold notify
      rcases hexec : (Projection.onStateChange next).exec q with ⟨err | _, q'⟩
      all_goals rw [hexec] at hkept
      · exact List.Forall₂.cons hkept (Pointwise.refl Kept.refl rest)
      · exact List.Forall₂.cons hkept ih

/-! ## One round and the whole loop -/

variable {event : EventRecord} {ctx : ProjectionContext} {i : ℕ} {qs qs' : List (Recorded P)}

/-- What one round of the fan-out can do. -/
inductive Visited (event : EventRecord) (ctx : ProjectionContext) (i : ℕ)
    (qs : List (Recorded P)) : Except ProjectionError ℕ × List (Recorded P) → Prop
  | missing : qs[i]? = none → Visited event ctx i qs (.ok 0, qs)
  | skipped (q : Recorded P) : qs[i]? = some q →
      (position event : WithBot ProjectionCursor) ≤ mark q.projection →
      Visited event ctx i qs (.ok 0, qs)
  | failed (q q' : Recorded P) (err : ProjectionError) : qs[i]? = some q →
      mark q.projection < position event →
      (Projection.onEvent event ctx).exec q = (.error err, q') → Kept q q' →
      Visited event ctx i qs (.error err, qs.set i q')
  | applied (q q' : Recorded P) : qs[i]? = some q →
      (Projection.onEvent event ctx).exec q = (.ok (), q') → Took event q q' →
      Visited event ctx i qs (.ok 1, qs.set i q')

theorem visit_cases (event : EventRecord) (ctx : ProjectionContext) (i : ℕ)
    (qs : List (Recorded P)) : Visited event ctx i qs ((visit event ctx i).exec qs) := by
  rw [exec_visit]
  cases hi : qs[i]? with
  | none => exact .missing hi
  | some q =>
      simp only
      split
      case isTrue hdone =>
        exact .skipped q hi ((alreadyApplied_iff q.projection _).mp hdone)
      case isFalse hdone =>
        have hbeyond : mark q.projection < position event :=
          not_le.mp fun hle => hdone ((alreadyApplied_iff q.projection _).mpr hle)
        rcases hexec : (Projection.onEvent event ctx).exec q with ⟨err | _, q'⟩
        · exact .failed q q' err hi hbeyond hexec (kept_of_error hexec)
        · exact .applied q q' hi hexec (took_of_ok hbeyond hexec)

theorem visit_delivered (event : EventRecord) (ctx : ProjectionContext) (i : ℕ)
    (qs : List (Recorded P)) :
    List.Forall₂ (Delivered event) qs ((visit event ctx i).exec qs).2 := by
  have hvisited := visit_cases event ctx i qs
  generalize (visit event ctx i).exec qs = result at hvisited ⊢
  cases hvisited with
  | missing _ => exact Pointwise.refl (Delivered.refl event) qs
  | skipped _ _ _ => exact Pointwise.refl (Delivered.refl event) qs
  | failed q q' err hi _ _ hkept => exact Pointwise.set (Delivered.refl event) hi (.inl hkept)
  | applied q q' hi _ htook => exact Pointwise.set (Delivered.refl event) hi (.inr htook)

/-- Failed or not, the loop takes each projection at most to the event. -/
theorem fanOut_delivered (event : EventRecord) (ctx : ProjectionContext) (indices : List ℕ)
    (applied : ℕ) (qs : List (Recorded P)) :
    List.Forall₂ (Delivered event) qs ((fanOut event ctx applied indices).exec qs).2 := by
  induction indices generalizing applied qs with
  | nil => exact Pointwise.refl (Delivered.refl event) qs
  | cons i rest ih =>
      have hvisit := visit_delivered event ctx i qs
      unfold fanOut
      rw [exec_bind]
      rcases hexec : (visit event ctx i).exec qs with ⟨err | count, qs₁⟩
      all_goals rw [hexec] at hvisit
      · exact hvisit
      · have htrans : ∀ x y z : Recorded P, Delivered event x y → Delivered event y z →
            Delivered event x z := fun _ _ _ => Delivered.trans
        exact Pointwise.trans htrans hvisit (ih (applied + count) qs₁)

variable (ctx) in
theorem visit_settled (i : ℕ) {j : ℕ} {q : Recorded P} (hq : qs[j]? = some q)
    (hdone : (position event : WithBot ProjectionCursor) ≤ mark q.projection) :
    ((visit event ctx i).exec qs).2[j]? = some q := by
  have hvisited := visit_cases event ctx i qs
  generalize (visit event ctx i).exec qs = result at hvisited ⊢
  have hother : ∀ q₁ q' : Recorded P, qs[i]? = some q₁ → mark q₁.projection < position event →
      (qs.set i q')[j]? = some q := by
    intro q₁ q' hi hbeyond
    have hne : i ≠ j := by
      intro heq
      subst heq
      obtain rfl := Option.some.inj (hi.symm.trans hq)
      exact absurd hbeyond (not_lt.mpr hdone)
    rw [List.getElem?_set_ne hne]
    exact hq
  cases hvisited with
  | missing _ => exact hq
  | skipped _ _ _ => exact hq
  | failed q₁ q' err hi hbeyond _ _ => exact hother q₁ q' hi hbeyond
  | applied q₁ q' hi _ htook => exact hother q₁ q' hi htook.beyond

variable (ctx) in
/-- A projection at or past the event is not touched. -/
theorem fanOut_settled (indices : List ℕ) (applied : ℕ) {j : ℕ} {q : Recorded P}
    (hq : qs[j]? = some q)
    (hdone : (position event : WithBot ProjectionCursor) ≤ mark q.projection) :
    ((fanOut event ctx applied indices).exec qs).2[j]? = some q := by
  induction indices generalizing applied qs with
  | nil => exact hq
  | cons i rest ih =>
      have hvisit := visit_settled ctx i hq hdone
      unfold fanOut
      rw [exec_bind]
      rcases hexec : (visit event ctx i).exec qs with ⟨err | count, qs₁⟩
      all_goals rw [hexec] at hvisit
      · exact hvisit
      · exact ih (applied + count) hvisit

variable (event ctx) in
/-- A projection that is not in the loop's list is not touched. -/
theorem fanOut_other {indices : List ℕ} (applied : ℕ) {j : ℕ} (hj : j ∉ indices) :
    ((fanOut event ctx applied indices).exec qs).2[j]? = qs[j]? := by
  induction indices generalizing applied qs with
  | nil => rfl
  | cons i rest ih =>
      have hne : i ≠ j := by
        intro heq
        exact hj (by simp [heq])
      have hrest : j ∉ rest := fun hmem => hj (List.mem_cons_of_mem i hmem)
      have hvisit : ((visit event ctx i).exec qs).2[j]? = qs[j]? := by
        have hvisited := visit_cases event ctx i qs
        generalize (visit event ctx i).exec qs = result at hvisited ⊢
        cases hvisited with
        | missing _ => rfl
        | skipped _ _ _ => rfl
        | failed _ _ _ _ _ _ _ => exact List.getElem?_set_ne hne
        | applied _ _ _ _ _ => exact List.getElem?_set_ne hne
      unfold fanOut
      rw [exec_bind]
      rcases hexec : (visit event ctx i).exec qs with ⟨err | count, qs₁⟩
      all_goals rw [hexec] at hvisit
      · exact hvisit
      · exact (ih (applied + count) hrest).trans hvisit

/-- A round that returns leaves its projection at or past the event. -/
theorem visit_reaches {count : ℕ} (h : (visit event ctx i).exec qs = (.ok count, qs'))
    {q' : Recorded P} (hq' : qs'[i]? = some q') :
    (position event : WithBot ProjectionCursor) ≤ mark q'.projection := by
  have hvisited := visit_cases event ctx i qs
  rw [h] at hvisited
  cases hvisited with
  | missing hi =>
      rw [hi] at hq'
      exact absurd hq' (by simp)
  | skipped q hi hdone =>
      obtain rfl := Option.some.inj (hi.symm.trans hq')
      exact hdone
  | applied q q₁ hi _ htook =>
      have hlt : i < qs.length := (List.getElem?_eq_some_iff.mp hi).1
      rw [List.getElem?_set_self hlt] at hq'
      obtain rfl := Option.some.inj hq'
      exact htook.mark.ge

/-- A loop that returns leaves every projection of its list at or past the event. -/
theorem fanOut_reaches {indices : List ℕ} {applied total : ℕ}
    (h : (fanOut event ctx applied indices).exec qs = (.ok total, qs')) {j : ℕ}
    (hj : j ∈ indices) {q' : Recorded P} (hq' : qs'[j]? = some q') :
    (position event : WithBot ProjectionCursor) ≤ mark q'.projection := by
  induction indices generalizing applied qs with
  | nil => simp at hj
  | cons i rest ih =>
      unfold fanOut at h
      obtain ⟨count, qs₁, hvisit, hrest⟩ := exec_bind_eq_ok.mp h
      rcases List.mem_cons.mp hj with rfl | hmem
      · have hdelivered := fanOut_delivered event ctx rest (applied + count) qs₁
        rw [hrest] at hdelivered
        obtain ⟨q₁, hq₁, -⟩ := Pointwise.getElem?_right hdelivered hq'
        have hreach := visit_reaches hvisit hq₁
        -- the rounds that follow pass the projection by
        have hsame := fanOut_settled ctx rest (applied + count) hq₁ hreach
        rw [hrest] at hsame
        obtain rfl := Option.some.inj (hsame.symm.trans hq')
        exact hreach
      · exact ih hrest hmem

/-- The projection has the event behind it, or takes it when it is offered. -/
def Ready (event : EventRecord) (ctx : ProjectionContext) (q : Recorded P) : Prop :=
  (position event : WithBot ProjectionCursor) ≤ mark q.projection ∨
    ((Projection.onEvent event ctx).exec q).1 = .ok ()

/-- The loop fails only where an observer does. -/
theorem fanOut_returns {indices : List ℕ} (applied : ℕ)
    (hready : ∀ j ∈ indices, ∀ q, qs[j]? = some q → Ready event ctx q) :
    ∃ total qs', (fanOut event ctx applied indices).exec qs = (.ok total, qs') := by
  induction indices generalizing applied qs with
  | nil => exact ⟨applied, qs, rfl⟩
  | cons i rest ih =>
      have hvisited := visit_cases event ctx i qs
      unfold fanOut
      rw [exec_bind]
      rcases hexec : (visit event ctx i).exec qs with ⟨err | count, qs₁⟩
      all_goals rw [hexec] at hvisited
      · cases hvisited with
        | failed q q' err hi hbeyond hfail _ =>
            rcases hready i (by simp) q hi with hdone | hok
            · exact absurd hbeyond (not_lt.mpr hdone)
            · rw [hfail] at hok
              simp at hok
      · refine ih (applied + count) ?_
        intro j hj q₁ hq₁
        by_cases hij : i = j
        · subst hij
          exact .inl (visit_reaches hexec hq₁)
        · have hsame : qs[j]? = some q₁ := by
            cases hvisited with
            | missing _ => exact hq₁
            | skipped _ _ _ => exact hq₁
            | applied q q' _ _ _ => rwa [List.getElem?_set_ne hij] at hq₁
          exact hready j (List.mem_cons_of_mem i hj) q₁ hsame

/-! ## A dispatch -/

/-- What a dispatch can do, with the outcome it returns. -/
inductive Dispatched (event : EventRecord) (ctx : ProjectionContext)
    (r : ProjectionRouter (Recorded P)) :
    Except ProjectionError ℕ × ProjectionRouter (Recorded P) → Prop
  | refused (err : ProjectionError) : r.checkPosition event = .error err →
      Dispatched event ctx r (.error err, r)
  | redelivered : r.checkPosition event = .ok .redelivery → Dispatched event ctx r (.ok 0, r)
  | failed (err : ProjectionError) (qs : List (Recorded P)) :
      r.checkPosition event = .ok .next →
      (fanOut event ctx 0 (r.observersByCode event.typeCode)).exec r.projections =
        (.error err, qs) →
      Dispatched event ctx r
        (.error err, { r with projections := qs, pendingRetry := some (identity event) })
  | advanced (applied : ℕ) (qs : List (Recorded P)) :
      r.checkPosition event = .ok .next →
      (fanOut event ctx 0 (r.observersByCode event.typeCode)).exec r.projections =
        (.ok applied, qs) →
      Dispatched event ctx r
        (.ok applied,
          { r with
            projections := qs
            cursor := some (position event)
            lastEvent := some (event.typeCode, event.payload)
            pendingRetry := none })

omit [LawfulProjection P] in
theorem dispatch_cases (event : EventRecord) (ctx : ProjectionContext)
    (r : ProjectionRouter (Recorded P)) :
    Dispatched event ctx r ((dispatch event ctx).exec r) := by
  unfold dispatch
  simp only [exec_bind, exec_get, exec_ofExcept]
  cases hcheck : r.checkPosition event with
  | error err => exact .refused err hcheck
  | ok admission =>
      cases admission with
      | redelivery => exact .redelivered hcheck
      | next =>
          simp only
          rcases hexec : (fanOut event ctx 0 (r.observersByCode event.typeCode)).exec
            r.projections with ⟨err | applied, qs⟩
          · exact .failed err qs hcheck hexec
          · exact .advanced applied qs hcheck hexec

end ProjectionRouter

end ArkheForge.Platform
