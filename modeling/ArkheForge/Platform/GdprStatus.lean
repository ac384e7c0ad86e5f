/-
  The lifecycle pointer across one dispatch.

  `GdprEraseUser` writes `ErasurePending` without reading what is stored, so on a user
  whose cascade has completed it takes the terminal `Erased` back
  (`erase_reopens_erased_user`). `statuses_kept_iff` says that this is the only way
  down: from any state, a dispatch of a shipped action leaves every stored status at
  least where it was exactly when it is not an admitted erasure of an erased user.
-/
import ArkheForge.Platform.GdprGate

namespace ArkheForge.Platform

open ArkheForge.Core BigEndian Fallible

/-- No stored status is lost or lowered. -/
def StatusesKept [CoreWire] (before after : InstanceState) : Prop :=
  ∀ (user : UserId) (gdpr : UserGdprState),
    componentOf UserGdprState before user.get = some gdpr →
    ∃ gdpr', componentOf UserGdprState after user.get = some gdpr' ∧ gdpr.status ≤ gdpr'.status

theorem StatusesKept.refl [CoreWire] (state : InstanceState) : StatusesKept state state :=
  fun _ gdpr h => ⟨gdpr, h, GdprStatus.le_refl gdpr.status⟩

section

variable [CoreWire] {state : InstanceState} {ctx : ActionContext} {ops : List Op}

/-- A batch keeps every status unless it marks an erased user. -/
theorem statusesKept_commit [Blake3] (hT : CoreWire.Serializes)
    (hround : Postcard.RoundTrip UserGdprState) {a : ShippedAction} (h : a.batch ctx = .ok ops)
    (hfresh : ∀ e ∈ spawned ops, state.known e = false)
    (herased : ∀ g, a = .gdprEraseUser g → ∀ gdpr,
      componentOf UserGdprState state g.user.get = some gdpr → gdpr.status ≠ .erased) :
    StatusesKept state (state.commit ops) := by
  intro user gdpr hgdpr
  rcases gdprState_commit state hT hround h user.get with
    hsame | ⟨r, _, hspawned, _⟩ | ⟨g, haction, huser, _, hmarked⟩
  · exact ⟨gdpr, hsame.trans hgdpr, GdprStatus.le_refl gdpr.status⟩
  · rw [componentOf_of_not_known (hfresh _ hspawned)] at hgdpr
    simp at hgdpr
  · rw [huser] at hgdpr
    exact ⟨pendingState, hmarked,
      GdprStatus.le_erasurePending.mpr (herased g haction gdpr hgdpr)⟩

/-- Marking an erased user lowers its status. -/
theorem not_statusesKept_of_erased [Blake3] (hT : CoreWire.Serializes)
    (hround : Postcard.RoundTrip UserGdprState) {g : GdprEraseUser}
    (h : (ShippedAction.gdprEraseUser g).batch ctx = .ok ops) {gdpr : UserGdprState}
    (hgdpr : componentOf UserGdprState state g.user.get = some gdpr)
    (herased : gdpr.status = .erased) : ¬ StatusesKept state (state.commit ops) := by
  intro hkept
  have hknown : state.known g.user.get = true := by
    by_contra hunknown
    rw [componentOf_of_not_known (by simpa using hunknown)] at hgdpr
    simp at hgdpr
  obtain ⟨gdpr', hafter, hle⟩ := hkept g.user gdpr hgdpr
  rw [gdprState_erase hT hround h hknown] at hafter
  obtain rfl : pendingState = gdpr' := Option.some.inj hafter
  have hne := GdprStatus.le_erasurePending.mp hle
  exact hne herased

/-- What the bridge computes for an action keeps every status unless it marks an erased user. -/
theorem statusesKept_computed_iff [Blake3] [CanonicalBytes ShippedAction] (hT : CoreWire.Serializes)
    (hround : Postcard.RoundTrip UserGdprState) (action : ShippedAction) (instanceId : InstanceId)
    (now : Tick) (actor : Option EntityId)
    (hfresh : ∀ e ∈ spawned (kernelComputeInner action instanceId now actor),
      state.known e = false) :
    StatusesKept state (state.commit (kernelComputeInner action instanceId now actor)) ↔
      ¬ ∃ g gdpr, action = .gdprEraseUser g ∧ g.schemaVersion = 1 ∧
        componentOf UserGdprState state g.user.get = some gdpr ∧ gdpr.status = .erased := by
  have hbatch := kernelComputeInner_cases hT action instanceId now actor
  constructor
  · rintro hkept ⟨g, gdpr, rfl, hversion, hgdpr, herased⟩
    rcases hbatch with hnil | hbatch
    · have hok : (ShippedAction.gdprEraseUser g).batch (bridgeContext instanceId now actor) =
          .ok _ := gdprEraseUser_batch_eq_ok.mpr ⟨hversion, rfl⟩
      rw [kernelComputeInner_eq hT, hok] at hnil
      simp [markOps] at hnil
    · exact not_statusesKept_of_erased hT hround hbatch hgdpr herased hkept
  · intro hcondition
    rcases hbatch with hnil | hbatch
    · rw [hnil, InstanceState.commit_nil]
      exact StatusesKept.refl state
    · refine statusesKept_commit hT hround hbatch hfresh ?_
      rintro g rfl gdpr hgdpr herased
      exact hcondition ⟨g, gdpr, rfl, (gdprEraseUser_batch_eq_ok.mp hbatch).1, hgdpr, herased⟩

theorem not_admitted {instanceId : InstanceId} {call : Call}
    (h : ¬ Admitted instanceId call.principal call.tick call.caps state call.actor) :
    ∃ actor err, call.actor = some actor ∧
      (RuntimeService.probeContext instanceId call.principal call.tick call.caps
        state.view).ensureActorEligible actor call.tick = .error err := by
  unfold Admitted at h
  push Not at h
  obtain ⟨actor, hactor, hgate⟩ := h
  cases hcheck : (RuntimeService.probeContext instanceId call.principal call.tick call.caps
      state.view).ensureActorEligible actor call.tick with
  | error err => exact ⟨actor, err, hactor, hcheck⟩
  | ok u => exact absurd hcheck hgate

variable {K : Type} [Blake3] [CanonicalBytes ShippedAction] [LawfulKernel K]

/-- **When no status goes backwards.** For every state of a live instance and every call of
    a shipped action that spawns no known entity: after the dispatch every stored status is
    at least what it was, if and only if the call is not an admitted, well-versioned erasure
    of a user whose stored status is `Erased`. -/
theorem statuses_kept_iff (hT : CoreWire.Serializes)
    (hround : Postcard.RoundTrip UserGdprState) (instanceId : InstanceId)
    (svc : RuntimeService K) (state : InstanceState) (call : Call)
    (hidle : LawfulKernel.idle svc.kernel)
    (hstate : LawfulKernel.state svc.kernel instanceId = some state)
    (hfresh : ∀ e ∈ spawned (kernelComputeInner call.action instanceId call.tick
      (call.actor.map ActorId.get)), state.known e = false) :
    (∃ state', LawfulKernel.state ((call.dispatch instanceId).exec svc).2.kernel instanceId =
        some state' ∧ StatusesKept state state') ↔
      ¬ (Admitted instanceId call.principal call.tick call.caps state call.actor ∧
        ∃ g gdpr, call.action = .gdprEraseUser g ∧ g.schemaVersion = 1 ∧
          componentOf UserGdprState state g.user.get = some gdpr ∧ gdpr.status = .erased) := by
  by_cases hadmitted : Admitted instanceId call.principal call.tick call.caps state call.actor
  · obtain ⟨report, svc', hrun, hstate', _⟩ := dispatch_admitted call.action hidle hstate
      hadmitted
    have hafter : LawfulKernel.state ((call.dispatch instanceId).exec svc).2.kernel instanceId =
        some (state.commit (kernelComputeInner call.action instanceId call.tick
          (call.actor.map ActorId.get))) := by
      unfold Call.dispatch
      rw [hrun]
      exact hstate'
    have hiff := statusesKept_computed_iff hT hround call.action instanceId call.tick
      (call.actor.map ActorId.get) hfresh
    constructor
    · rintro ⟨state', hsome, hkept⟩ ⟨_, hmarked⟩
      obtain rfl := Option.some.inj (hafter.symm.trans hsome)
      exact hiff.mp hkept hmarked
    · intro hcondition
      exact ⟨_, hafter, hiff.mpr fun hmarked => hcondition ⟨hadmitted, hmarked⟩⟩
  · obtain ⟨actor, err, hactor, hgate⟩ := not_admitted hadmitted
    have hrefused : (call.dispatch instanceId).exec svc =
        (.error (RuntimeService.gateError call.tick err), svc) := by
      unfold Call.dispatch
      rw [hactor]
      exact dispatch_refused call.action hstate hgate
    constructor
    · rintro _ ⟨h, _⟩
      exact hadmitted h
    · intro _
      rw [hrefused]
      exact ⟨state, hstate, StatusesKept.refl state⟩

end

/-! ## An erased user -/

section

attribute [local instance] postcardWire oneBlockBlake3 postcardActions

/-- `someUser` registered, and its erasure completed by the cascade. -/
def erasedState : InstanceState :=
  InstanceState.empty.commit
    (kernelComputeInner (.registerUser someRegistration) firstInstance 1 none ++
      [setOp someUser.get (stored (UserGdprState.mk 1 .erased))])

/-- A service whose only instance is in that state. -/
def erasedService : RuntimeService MemoryKernel :=
  ⟨MemoryKernel.live firstInstance erasedState⟩

/-- **`Erased` is not terminal.** A second erasure request takes the user back to
    `ErasurePending`. -/
theorem erase_reopens_erased_user :
    let after := ((callAt 4 none (.gdprEraseUser ⟨1, someUser⟩)).dispatch firstInstance).exec
      erasedService
    componentOf UserGdprState erasedState someUser.get = some ⟨1, .erased⟩ ∧
    (LawfulKernel.state after.2.kernel firstInstance).bind (fun state =>
      componentOf UserGdprState state someUser.get) = some ⟨1, .erasurePending⟩ ∧
    ¬ GdprStatus.erased ≤ GdprStatus.erasurePending := by
  intro after
  refine ⟨by decide +kernel, by decide +kernel, ?_⟩
  intro hle
  exact GdprStatus.le_erasurePending.mp hle rfl

/-- Registering another user there keeps every status. -/
theorem statuses_kept_iff_registration :
    ∃ state', LawfulKernel.state (((callAt 2 none (.registerUser someRegistration)).dispatch
        firstInstance).exec erasedService).2.kernel firstInstance = some state' ∧
      StatusesKept erasedState state' := by
  have hfresh : ∀ e ∈ spawned (kernelComputeInner (.registerUser someRegistration) firstInstance
      2 none), erasedState.known e = false := by decide +kernel
  have hiff := statuses_kept_iff postcard_serializes
    (Postcard.ofCodec_roundTrip Core.Wire.userGdprState) firstInstance erasedService erasedState
    (callAt 2 none (.registerUser someRegistration)) rfl rfl hfresh
  refine hiff.mpr ?_
  rintro ⟨_, g, gdpr, haction, _⟩
  cases haction

end

end ArkheForge.Platform
