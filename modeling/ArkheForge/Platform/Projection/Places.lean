/-
  One projection among the others of a router (`Vec<Box<dyn Projection>>`, `projection.rs`).

  The boxes of a router hold projections of different types. Here they are of one of two
  kinds: the one that is spoken of, and any other. What every call of the first keeps true
  of the events it accepted (`Accumulates`) it has of a first part of the stream that has every
  acknowledged event, wherever the consumer of `Rebuild` has come to, and whatever the others
  are and do (`placed_holds`).
-/
import ArkheForge.Platform.Projection.Rebuild

namespace ArkheForge.Platform

open ArkheForge.Core BigEndian Consumer Fallible

/-! ## Projections of two kinds -/

/-- A method of the part that the whole consists of. -/
def methodOf {σ τ : Type} (wrap : τ → σ) (m : Fallible τ ProjectionError Unit) (part : τ) :
    Fallible σ ProjectionError Unit := do
  let (outcome, part') := m.exec part
  set (wrap part')
  ofExcept outcome

theorem exec_methodOf {σ τ : Type} (wrap : τ → σ) (m : Fallible τ ProjectionError Unit)
    (part : τ) (s : σ) :
    (methodOf wrap m part).exec s = ((m.exec part).1, wrap (m.exec part).2) := by
  unfold methodOf
  rcases m.exec part with ⟨err | _, part'⟩
  all_goals rfl

section

variable {A B : Type} [Projection A] [Projection B]

/-- A projection of one kind or the other, as the router holds them behind `dyn Projection`. -/
instance eitherProjection : Projection (A ⊕ B) where
  observes
    | .inl a => Projection.observes a
    | .inr b => Projection.observes b
  onEvent event ctx := do
    match ← get with
    | .inl a => methodOf .inl (Projection.onEvent event ctx) a
    | .inr b => methodOf .inr (Projection.onEvent event ctx) b
  onStateChange next := do
    match ← get with
    | .inl a => methodOf .inl (Projection.onStateChange next) a
    | .inr b => methodOf .inr (Projection.onStateChange next) b
  lastApplied
    | .inl a => Projection.lastApplied a
    | .inr b => Projection.lastApplied b

variable (event : EventRecord) (ctx : ProjectionContext) (next : ObserverState) (a : A) (b : B)

theorem exec_onEvent_inl : (Projection.onEvent event ctx).exec (.inl a : A ⊕ B) =
    (((Projection.onEvent event ctx).exec a).1, .inl ((Projection.onEvent event ctx).exec a).2) :=
  exec_methodOf (Sum.inl : A → A ⊕ B) (Projection.onEvent event ctx) a (.inl a)

theorem exec_onEvent_inr : (Projection.onEvent event ctx).exec (.inr b : A ⊕ B) =
    (((Projection.onEvent event ctx).exec b).1, .inr ((Projection.onEvent event ctx).exec b).2) :=
  exec_methodOf (Sum.inr : B → A ⊕ B) (Projection.onEvent event ctx) b (.inr b)

theorem exec_onStateChange_inl : (Projection.onStateChange next).exec (.inl a : A ⊕ B) =
    (((Projection.onStateChange next).exec a).1,
      .inl ((Projection.onStateChange next).exec a).2) :=
  exec_methodOf (Sum.inl : A → A ⊕ B) (Projection.onStateChange next) a (.inl a)

theorem exec_onStateChange_inr : (Projection.onStateChange next).exec (.inr b : A ⊕ B) =
    (((Projection.onStateChange next).exec b).1,
      .inr ((Projection.onStateChange next).exec b).2) :=
  exec_methodOf (Sum.inr : B → A ⊕ B) (Projection.onStateChange next) b (.inr b)

instance eitherLawful [LawfulProjection A] [LawfulProjection B] : LawfulProjection (A ⊕ B) where
  observes_onEvent event ctx p := by
    cases p with
    | inl a =>
        rw [exec_onEvent_inl]
        exact LawfulProjection.observes_onEvent event ctx a
    | inr b =>
        rw [exec_onEvent_inr]
        exact LawfulProjection.observes_onEvent event ctx b
  observes_onStateChange next p := by
    cases p with
    | inl a =>
        rw [exec_onStateChange_inl]
        exact LawfulProjection.observes_onStateChange next a
    | inr b =>
        rw [exec_onStateChange_inr]
        exact LawfulProjection.observes_onStateChange next b
  lastApplied_of_ok event ctx p h := by
    cases p with
    | inl a =>
        rw [exec_onEvent_inl] at h ⊢
        exact LawfulProjection.lastApplied_of_ok event ctx a h
    | inr b =>
        rw [exec_onEvent_inr] at h ⊢
        exact LawfulProjection.lastApplied_of_ok event ctx b h
  lastApplied_of_error event ctx p err h := by
    cases p with
    | inl a =>
        rw [exec_onEvent_inl] at h ⊢
        exact LawfulProjection.lastApplied_of_error event ctx a err h
    | inr b =>
        rw [exec_onEvent_inr] at h ⊢
        exact LawfulProjection.lastApplied_of_error event ctx b err h
  lastApplied_onStateChange next p := by
    cases p with
    | inl a =>
        rw [exec_onStateChange_inl]
        exact LawfulProjection.lastApplied_onStateChange next a
    | inr b =>
        rw [exec_onStateChange_inr]
        exact LawfulProjection.lastApplied_onStateChange next b

end

/-! ## What the one projection holds -/

/-- What a projection holds of the events it accepted is kept by every call. -/
structure Accumulates {A : Type} [Projection A] (Holds : List EventRecord → A → Prop) :
    Prop where
  accepted : ∀ {events : List EventRecord} {event : EventRecord} {ctx : ProjectionContext}
    {a a' : A}, Holds events a → (Projection.onEvent event ctx).exec a = (.ok (), a') →
      Holds (events ++ [event]) a'
  refused : ∀ {events : List EventRecord} {event : EventRecord} {ctx : ProjectionContext}
    {a a' : A} {err : ProjectionError}, Holds events a →
      (Projection.onEvent event ctx).exec a = (.error err, a') → Holds events a'
  onStateChange : ∀ {events : List EventRecord} (next : ObserverState) {a : A},
    Holds events a → Holds events ((Projection.onStateChange next).exec a).2

section

variable {A Q : Type} [Projection A] [Projection Q] {Holds : List EventRecord → A → Prop}

/-- A recorded projection of the first kind holds what it accepted. -/
def HoldsAccepted (Holds : List EventRecord → A → Prop) (q : Recorded (A ⊕ Q)) : Prop :=
  ∀ a, q.projection = .inl a → Holds q.accepted a

/-- A projection stays of its kind, and goes on holding what it accepted. -/
structure StaysPlaced (Holds : List EventRecord → A → Prop) (q q' : Recorded (A ⊕ Q)) : Prop where
  kind : q'.projection.isLeft = q.projection.isLeft
  holds : HoldsAccepted Holds q → HoldsAccepted Holds q'

theorem stays_placed (hcalls : Accumulates Holds) : KeptByCalls (StaysPlaced Holds (Q := Q)) where
  refl _ := ⟨rfl, id⟩
  trans _ _ _ hxy hyz := ⟨hyz.kind.trans hxy.kind, hyz.holds ∘ hxy.holds⟩
  onEvent event ctx q := by
    rw [Recorded.exec_onEvent]
    rcases hprojection : q.projection with a | other
    · rw [exec_onEvent_inl]
      rcases hexec : (Projection.onEvent event ctx).exec a with ⟨err | _, a'⟩
      · refine ⟨by rw [hprojection]; rfl, ?_⟩
        intro h a'' hsame
        obtain rfl := Sum.inl.inj hsame
        exact hcalls.refused (h a hprojection) hexec
      · refine ⟨by rw [hprojection]; rfl, ?_⟩
        intro h a'' hsame
        obtain rfl := Sum.inl.inj hsame
        exact hcalls.accepted (h a hprojection) hexec
    · rw [exec_onEvent_inr]
      rcases (Projection.onEvent event ctx).exec other with ⟨err | _, other'⟩
      all_goals refine ⟨by rw [hprojection]; rfl, ?_⟩
      all_goals exact fun _ _ hsame => absurd hsame (by simp)
  onStateChange next q := by
    rw [Recorded.exec_onStateChange]
    rcases hprojection : q.projection with a | other
    · rw [exec_onStateChange_inl]
      refine ⟨by rw [hprojection]; rfl, ?_⟩
      intro h a' hsame
      obtain rfl := Sum.inl.inj hsame
      exact hcalls.onStateChange next (h a hprojection)
    · rw [exec_onStateChange_inr]
      refine ⟨by rw [hprojection]; rfl, ?_⟩
      exact fun _ _ hsame => absurd hsame (by simp)

/-- The projection is still in its place, and holds what it observes of a first part of the
    stream that has every acknowledged event. -/
theorem placed_holds [LawfulProjection A] [LawfulProjection Q] (hcalls : Accumulates Holds)
    {stream : List EventRecord} (hordered : Ordered none stream) {ps : List (A ⊕ Q)}
    (hfresh : ∀ p ∈ ps, Projection.lastApplied p = none) (steps : List ConsumerStep) {i : ℕ}
    {a : A} (hi : ps[i]? = some (.inl a)) (hstart : Holds [] a) :
    ∃ a' k, ((start ps).run stream steps).router.projections[i]? = some (.inl a') ∧
      Covers stream ps steps k ∧ Holds (observed a (stream.take k)) a' := by
  have herase := erase_recorded stream ps steps
  obtain ⟨q, hq⟩ : ∃ q, (recorded stream ps steps).router.projections[i]? = some q := by
    have hlength := (kept_recorded (stays_placed hcalls) stream ps steps).length_eq
    have hlt := (List.getElem?_eq_some_iff.mp hi).1
    exact ⟨_, List.getElem?_eq_getElem (hlength ▸ hlt)⟩
  have hstays : StaysPlaced Holds (Recorded.fresh (.inl a)) q :=
    Pointwise.getElem?_rel (Q := fun p q => StaysPlaced Holds (Recorded.fresh p) q)
      (kept_recorded (stays_placed hcalls) stream ps steps) hi hq
  obtain ⟨a', ha'⟩ := Sum.isLeft_iff.mp hstays.kind
  have hholds : Holds q.accepted a' := by
    refine hstays.holds ?_ a' ha'
    intro a'' hsame
    obtain rfl := Sum.inl.inj hsame
    exact hstart
  obtain ⟨k, hk, haccepted⟩ :=
    Pointwise.getElem?_rel (followers_recorded hordered hfresh steps) hi hq
  rw [haccepted] at hholds
  refine ⟨a', k, ?_, hk, hholds⟩
  rw [← herase, ← ha']
  show ((recorded stream ps steps).router.projections.map Recorded.projection)[i]? = _
  rw [List.getElem?_map]
  exact congrArg (Option.map Recorded.projection) hq

end

end ArkheForge.Platform
