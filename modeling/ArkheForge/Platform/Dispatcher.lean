/-
  `RuntimeService::dispatch` (`dispatcher.rs`): the admission gate in front of the
  kernel.

  The kernel is an outside crate and enters as a class. `LawfulKernel` is what the
  runtime relies on: between dispatches nothing is scheduled, a submission to a live
  instance is accepted, and the step that follows it runs the bridge and commits
  its ops in order. `dispatch_admitted` and `dispatch_refused` are the two things a
  dispatch can do: commit the batch of the bridge, or return an error from the gate
  with the service untouched.
-/
import ArkheForge.Core.Commit

namespace ArkheForge.Platform

open ArkheForge.Core BigEndian Fallible

/-! ## The kernel -/

/-- `ArkheError`, as far as the service distinguishes it. -/
inductive ArkheError
  | instanceNotFound
  | other (tag : ℕ)
  deriving DecidableEq, Repr

/-- `StepReport`. -/
structure StepReport where
  actionsExecuted : ℕ
  effectsApplied : ℕ
  effectsDenied : ℕ
  deriving DecidableEq, Repr

/-- `arkhe_kernel::Kernel`, the three calls a dispatch makes. -/
class Kernel (K : Type) where
  instanceView : K → InstanceId → Option InstanceView
  submit : InstanceId → Principal → Option EntityId → CapabilityMask → Tick → TypeCode → Bytes →
    Fallible K ArkheError Unit
  step : Tick → CapabilityMask → K → StepReport × K

/-- `Action::TYPE_CODE`. -/
def actionTypeCode : ShippedAction → TypeCode
  | .registerUser _ => ArkheAction.typeCode RegisterUser
  | .gdprEraseUser _ => ArkheAction.typeCode GdprEraseUser
  | .registerActor _ => ArkheAction.typeCode RegisterActor
  | .createSpace _ => ArkheAction.typeCode CreateSpace
  | .submitActivity _ => ArkheAction.typeCode SubmitActivity
  | .retractActivity _ => ArkheAction.typeCode RetractActivity

/-- The types that implement `Action`, with their `Action::TYPE_CODE`. -/
class KernelAction (A : Type) where
  typeCode : A → TypeCode

instance shippedKernelAction : KernelAction ShippedAction := ⟨actionTypeCode⟩

/-- `Action::canonical_bytes`. -/
class CanonicalBytes (A : Type) where
  canonicalBytes : A → Bytes

/-! ## The service -/

/-- `DispatchError`. -/
inductive DispatchError
  | kernel (e : ArkheError)
  | erasurePending (user : UserId) (tick : Tick)
  | unboundUserLifecycle (user : UserId)
  | probeViewCorrupt
  deriving DecidableEq, Repr

/-- `RuntimeService`. -/
structure RuntimeService (K : Type) where
  kernel : K

namespace RuntimeService

/-- The gate's answer to an error of the eligibility check. -/
def gateError (tick : Tick) : ActionError → DispatchError
  | .userErasurePending user _ => .erasurePending user tick
  | .userLifecycleUnresolved user => .unboundUserLifecycle user
  | _ => .probeViewCorrupt

/-- The read-only context the gate checks in. -/
def probeContext (instanceId : InstanceId) (principal : Principal) (tick : Tick)
    (caps : CapabilityMask) (view : InstanceView) : ActionContext :=
  (ActionContext.new zeroSeed instanceId tick principal caps).withView view

section

variable {K : Type} [Kernel K] [CoreWire]

/-- The admission gate of `dispatch`. -/
def admissionGate (instanceId : InstanceId) (principal : Principal) (tick : Tick)
    (caps : CapabilityMask) (actor : ActorId) : Fallible (RuntimeService K) DispatchError Unit := do
  let svc ← get
  match Kernel.instanceView svc.kernel instanceId with
  | none => throw (.kernel .instanceNotFound)
  | some view =>
    match (probeContext instanceId principal tick caps view).ensureActorEligible actor tick with
    | .error err => throw (gateError tick err)
    | .ok () => pure ()

/-- `RuntimeService::dispatch`. -/
def dispatch {A : Type} [KernelAction A] [CanonicalBytes A] (instanceId : InstanceId)
    (principal : Principal) (action : A) (tick : Tick) (caps : CapabilityMask)
    (authenticatedActor : Option ActorId) :
    Fallible (RuntimeService K) DispatchError StepReport := do
  match authenticatedActor with
  | some actor => admissionGate instanceId principal tick caps actor
  | none => pure ()
  let bytes := CanonicalBytes.canonicalBytes action
  zoom RuntimeService.kernel (fun kernel svc => { svc with kernel := kernel }) .kernel
    (Kernel.submit instanceId principal (authenticatedActor.map ActorId.get) caps tick
      (KernelAction.typeCode action) bytes)
  let svc ← get
  let (report, kernel) := Kernel.step tick caps svc.kernel
  set { svc with kernel := kernel }
  pure report

/-- Past the gate the bytes of the action are submitted, and the kernel steps. -/
theorem exec_dispatch {A : Type} [KernelAction A] [CanonicalBytes A] {instanceId : InstanceId}
    {principal : Principal} {action : A} {tick : Tick} {caps : CapabilityMask}
    {authenticatedActor : Option ActorId} {svc : RuntimeService K} {k : K}
    (hgate : ∀ actor, authenticatedActor = some actor →
      (admissionGate instanceId principal tick caps actor).exec svc = (.ok (), svc))
    (hsubmit : (Kernel.submit instanceId principal (authenticatedActor.map ActorId.get) caps tick
      (KernelAction.typeCode action) (CanonicalBytes.canonicalBytes action)).exec svc.kernel =
        (.ok (), k)) :
    (dispatch instanceId principal action tick caps authenticatedActor).exec svc =
      (.ok (Kernel.step tick caps k).1, ⟨(Kernel.step tick caps k).2⟩) := by
  unfold dispatch
  cases authenticatedActor with
  | none =>
      simp only [exec_bind, exec_pure, exec_zoom, hsubmit, exec_get, exec_set]
      rfl
  | some actor =>
      rw [exec_bind, hgate actor rfl]
      simp only [exec_bind, exec_zoom, hsubmit, exec_get, exec_set, exec_pure]
      rfl

end

end RuntimeService

/-! ## What the kernel promises -/

/-- A kernel with its instances' states: it commits the ops of a submitted action in order. -/
class LawfulKernel (K : Type) [Blake3] [CoreWire] [CanonicalBytes ShippedAction] extends
    Kernel K where
  /-- The state of a live instance. -/
  state : K → InstanceId → Option InstanceState
  /-- Nothing is scheduled. -/
  idle : K → Prop
  view_eq : ∀ k i, instanceView k i = (state k i).map InstanceState.view
  commits : ∀ (k : K) (i : InstanceId) (s : InstanceState) (principal : Principal)
    (actor : Option EntityId) (caps : CapabilityMask) (tick : Tick) (a : ShippedAction),
    idle k → state k i = some s →
    ∃ k', (submit i principal actor caps tick (actionTypeCode a)
        (CanonicalBytes.canonicalBytes a)).exec k = (.ok (), k') ∧
      state (step tick caps k').2 i = some (s.commit (kernelComputeInner a i tick actor)) ∧
      idle (step tick caps k').2

section

variable {K : Type} [Blake3] [CoreWire] [CanonicalBytes ShippedAction] [LawfulKernel K]

/-- The gate lets a caller through: there is no actor, or the check passes on this state. -/
def Admitted (instanceId : InstanceId) (principal : Principal) (tick : Tick)
    (caps : CapabilityMask) (state : InstanceState) (authenticatedActor : Option ActorId) : Prop :=
  ∀ actor, authenticatedActor = some actor →
    (RuntimeService.probeContext instanceId principal tick caps state.view).ensureActorEligible
      actor tick = .ok ()

variable {svc : RuntimeService K} {instanceId : InstanceId} {principal : Principal}
  {action : ShippedAction} {tick : Tick} {caps : CapabilityMask} {state : InstanceState}

variable (action) in
/-- A refused caller gets the gate's error and the service is as it was. -/
theorem dispatch_refused (hstate : LawfulKernel.state svc.kernel instanceId = some state)
    {actor : ActorId} {err : ActionError}
    (herr : (RuntimeService.probeContext instanceId principal tick caps
      state.view).ensureActorEligible actor tick = .error err) :
    (RuntimeService.dispatch instanceId principal action tick caps (some actor)).exec svc =
      (.error (RuntimeService.gateError tick err), svc) := by
  have hview : Kernel.instanceView svc.kernel instanceId = some state.view := by
    rw [LawfulKernel.view_eq, hstate]
    rfl
  unfold RuntimeService.dispatch RuntimeService.admissionGate
  simp only [exec_bind, exec_get, hview, herr, exec_throw]

variable (action) in
/-- An admitted caller's action is committed. -/
theorem dispatch_admitted (hidle : LawfulKernel.idle svc.kernel)
    (hstate : LawfulKernel.state svc.kernel instanceId = some state)
    {authenticatedActor : Option ActorId}
    (hadmitted : Admitted instanceId principal tick caps state authenticatedActor) :
    ∃ report svc', (RuntimeService.dispatch instanceId principal action tick caps
        authenticatedActor).exec svc = (.ok report, svc') ∧
      LawfulKernel.state svc'.kernel instanceId = some (state.commit
        (kernelComputeInner action instanceId tick (authenticatedActor.map ActorId.get))) ∧
      LawfulKernel.idle svc'.kernel := by
  have hview : Kernel.instanceView svc.kernel instanceId = some state.view := by
    rw [LawfulKernel.view_eq, hstate]
    rfl
  obtain ⟨k', hsubmit, hcommit, hidle'⟩ := LawfulKernel.commits svc.kernel instanceId state
    principal (authenticatedActor.map ActorId.get) caps tick action hidle hstate
  refine ⟨_, _, RuntimeService.exec_dispatch ?_ hsubmit, hcommit, hidle'⟩
  intro actor hactor
  unfold RuntimeService.admissionGate
  simp only [exec_bind, exec_get, hview, hadmitted actor hactor, exec_pure]

end

end ArkheForge.Platform
