/-
  The lifecycle pointer and the actor binding across a commit.

  Two slots decide what the admission gate answers: the `UserGdprState` of a user
  and the `UserBinding` of an actor. `gdprState_commit` and `binding_commit` list
  the ways a committed batch can change them: a registration on the entity it
  spawned, and an erasure on the user it names. Everything the gate guarantees over
  a run follows from these two.
-/
import ArkheForge.Core.Commit

namespace ArkheForge.Core

open BigEndian

/-! ## The order of statuses -/

/-- The discriminant of a status. -/
def GdprStatus.rank : GdprStatus → ℕ
  | .active => 0
  | .erasurePending => 1
  | .erased => 2

/-- `Active < ErasurePending < Erased`. -/
instance : LE GdprStatus := ⟨fun a b => a.rank ≤ b.rank⟩

theorem GdprStatus.le_refl (a : GdprStatus) : a ≤ a := Nat.le_refl a.rank

theorem GdprStatus.le_erasurePending {a : GdprStatus} : a ≤ .erasurePending ↔ a ≠ .erased := by
  cases a <;> decide +revert

section

variable [Blake3] [CoreWire]

/-- The state an erasure writes. -/
def pendingState : UserGdprState := UserGdprState.mk 1 .erasurePending

/-! ## One committed batch -/

variable {state : InstanceState} {ctx : ActionContext} {ops : List Op}

omit [Blake3] in
/-- A registered user is active. -/
theorem gdprState_registerUser (hT : CoreWire.Serializes)
    (hround : Postcard.RoundTrip UserGdprState) {id : EntityId} {owner : Principal}
    (a : RegisterUser) :
    componentOf UserGdprState (state.commit (createOps id owner
      [stored a.profile, stored a.credential, stored (UserGdprState.mk 1 .active)])) id =
      some (UserGdprState.mk 1 .active) := by
  refine componentOf_of_stored hT.userGdprState hround ?_
  rw [commit_createOps_component, if_pos rfl]
  rfl

/-- An erasure marks the user it names, where that entity exists. -/
theorem gdprState_erase (hT : CoreWire.Serializes) (hround : Postcard.RoundTrip UserGdprState)
    {a : GdprEraseUser} (h : (ShippedAction.gdprEraseUser a).batch ctx = .ok ops)
    (hknown : state.known a.user.get = true) :
    componentOf UserGdprState (state.commit ops) a.user.get = some pendingState := by
  obtain ⟨_, rfl⟩ := gdprEraseUser_batch_eq_ok.mp h
  refine componentOf_of_stored hT.userGdprState hround ?_
  rw [commit_markOps_component, if_pos ⟨hknown, rfl, rfl⟩]
  rfl

variable (state) in
/-- **What a batch can do to a lifecycle pointer**: nothing, seed it on the user it
    registers, or mark the user it erases. -/
theorem gdprState_commit (hT : CoreWire.Serializes) (hround : Postcard.RoundTrip UserGdprState)
    {a : ShippedAction} (h : a.batch ctx = .ok ops) (e : EntityId) :
    componentOf UserGdprState (state.commit ops) e = componentOf UserGdprState state e ∨
    (∃ r, a = .registerUser r ∧ e ∈ spawned ops ∧
      componentOf UserGdprState (state.commit ops) e = some (UserGdprState.mk 1 .active)) ∨
    (∃ g, a = .gdprEraseUser g ∧ e = g.user.get ∧ state.known e = true ∧
      componentOf UserGdprState (state.commit ops) e = some pendingState) := by
  cases a with
  | registerUser a =>
      obtain ⟨_, _, id, _, rfl⟩ := registerUser_batch_eq_ok.mp h
      by_cases he : e = id
      · subst he
        exact .inr (.inl ⟨a, rfl, by simp, gdprState_registerUser hT hround a⟩)
      · exact .inl (componentOf_create_elsewhere he)
  | gdprEraseUser a =>
      by_cases hhit : state.known a.user.get = true ∧ e = a.user.get
      · obtain ⟨hknown, rfl⟩ := hhit
        exact .inr (.inr ⟨a, rfl, rfl, hknown, gdprState_erase hT hround h hknown⟩)
      · obtain ⟨_, rfl⟩ := gdprEraseUser_batch_eq_ok.mp h
        refine .inl (componentOf_congr ?_)
        rw [commit_markOps_component, if_neg]
        rintro ⟨hknown, he, _⟩
        exact hhit ⟨hknown, he⟩
  | registerActor a =>
      obtain ⟨_, _, id, _, rfl⟩ := registerActor_batch_eq_ok.mp h
      refine .inl (componentOf_create_other ?_ e)
      simp [stored, ArkheComponent.typeCode]
  | createSpace a =>
      obtain ⟨_, creator, depth, _, _, id, _, rfl⟩ := createSpace_batch_eq_ok.mp h
      refine .inl (componentOf_create_other ?_ e)
      simp [stored, ArkheComponent.typeCode]
  | submitActivity a =>
      obtain ⟨_, actor, _, _, id, _, _, rfl⟩ := submitActivity_batch_eq_ok.mp h
      refine .inl (componentOf_create_other ?_ e)
      simp [stored, ArkheComponent.typeCode]
  | retractActivity a =>
      obtain ⟨_, rfl⟩ := retractActivity_batch_eq_ok.mp h
      exact .inl rfl

/-- An actor registered for a user is bound to that user. -/
theorem binding_registerActor (hT : CoreWire.Serializes)
    (hround : Postcard.RoundTrip UserBinding) {a : RegisterActor}
    (h : (ShippedAction.registerActor a).batch ctx = .ok ops) {e : EntityId}
    (he : e ∈ spawned ops) :
    componentOf UserBinding (state.commit ops) e = some (UserBinding.mk 1 a.user) := by
  obtain ⟨_, _, id, _, rfl⟩ := registerActor_batch_eq_ok.mp h
  obtain rfl : e = id := by simpa using he
  refine componentOf_of_stored hT.userBinding hround ?_
  rw [commit_createOps_component, if_pos rfl]
  rfl

variable (state) in
/-- **What a batch can do to a binding**: nothing, or write it on the actor it registers. -/
theorem binding_commit (hT : CoreWire.Serializes) (hround : Postcard.RoundTrip UserBinding)
    {a : ShippedAction} (h : a.batch ctx = .ok ops) (e : EntityId) :
    componentOf UserBinding (state.commit ops) e = componentOf UserBinding state e ∨
    (∃ r, a = .registerActor r ∧ e ∈ spawned ops ∧
      componentOf UserBinding (state.commit ops) e = some (UserBinding.mk 1 r.user)) := by
  cases a with
  | registerUser a =>
      obtain ⟨_, _, id, _, rfl⟩ := registerUser_batch_eq_ok.mp h
      refine .inl (componentOf_create_other ?_ e)
      simp [stored, ArkheComponent.typeCode]
  | gdprEraseUser a =>
      obtain ⟨_, rfl⟩ := gdprEraseUser_batch_eq_ok.mp h
      refine .inl (componentOf_congr ?_)
      rw [commit_markOps_component, if_neg]
      rintro ⟨_, _, hcode⟩
      simp [stored, ArkheComponent.typeCode] at hcode
  | registerActor a =>
      by_cases he : e ∈ spawned ops
      · exact .inr ⟨a, rfl, he, binding_registerActor hT hround h he⟩
      · obtain ⟨_, _, id, _, rfl⟩ := registerActor_batch_eq_ok.mp h
        exact .inl (componentOf_create_elsewhere (by simpa using he))
  | createSpace a =>
      obtain ⟨_, creator, depth, _, _, id, _, rfl⟩ := createSpace_batch_eq_ok.mp h
      refine .inl (componentOf_create_other ?_ e)
      simp [stored, ArkheComponent.typeCode]
  | submitActivity a =>
      obtain ⟨_, actor, _, _, id, _, _, rfl⟩ := submitActivity_batch_eq_ok.mp h
      refine .inl (componentOf_create_other ?_ e)
      simp [stored, ArkheComponent.typeCode]
  | retractActivity a =>
      obtain ⟨_, rfl⟩ := retractActivity_batch_eq_ok.mp h
      exact .inl rfl

end

end ArkheForge.Core
