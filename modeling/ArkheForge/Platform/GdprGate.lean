/-
  The admission gate over whole runs.

  A run is a list of calls on one instance. What a run leaves behind is its ledger:
  the actions that were dispatched with success, each with the ops the kernel
  committed for it (`serve_state`). On ledgers two things hold by induction. An
  active lifecycle pointer belongs to a user some `RegisterUser` spawned. A pointer
  that an erasure marked stays marked, because ids are distinct and only a
  registration on the entity it spawns writes `Active`. So once an erasure of a
  registered user is in the ledger, the gate refuses every actor bound to that
  user, and it always refuses an actor bound to a user nobody registered.
-/
import ArkheForge.Core.Lifecycle
import ArkheForge.Core.EntityIds
import ArkheForge.Core.NestedSpaces
import ArkheForge.Platform.MemoryKernel

namespace ArkheForge.Platform

open ArkheForge.Core BigEndian Fallible

/-! ## The gate on a bound actor -/

section

variable {instanceId : InstanceId} {principal : Principal} {tick : Tick}
  {caps : CapabilityMask} {state : InstanceState} {actor : ActorId} {binding : UserBinding}

theorem probe_read {C : Type} [ArkheComponent C] [Postcard C] {entity : EntityId} {c : C}
    (h : componentOf C state entity = some c) :
    (RuntimeService.probeContext instanceId principal tick caps state.view).read C entity =
      .ok (some c) := by
  have hview : (RuntimeService.probeContext instanceId principal tick caps state.view).view =
      some state.view := rfl
  unfold componentOf at h
  unfold ActionContext.read
  rw [hview]
  simp only [InstanceState.view]
  cases hbytes : state.component entity (ArkheComponent.typeCode C) with
  | none => simp [hbytes] at h
  | some bytes =>
      simp only [hbytes] at h ⊢
      cases hdecode : Postcard.fromBytes (α := C) bytes with
      | error e => simp [hdecode] at h
      | ok c' => simpa [hdecode] using h

theorem probe_stagedRead (C : Type) [ArkheComponent C] [Postcard C] (entity : EntityId) :
    (RuntimeService.probeContext instanceId principal tick caps state.view).stagedRead C entity =
      (RuntimeService.probeContext instanceId principal tick caps state.view).read C entity :=
  rfl

variable [CoreWire]

/-- The check of a bound actor is the check of its user's lifecycle pointer. -/
theorem eligible_of_bound (hbound : componentOf UserBinding state actor.get = some binding) :
    (RuntimeService.probeContext instanceId principal tick caps state.view).ensureActorEligible
        actor tick =
      ((RuntimeService.probeContext instanceId principal tick caps state.view).read UserGdprState
        binding.userId.get).bind fun gdpr =>
          match gdpr.map UserGdprState.status with
          | some .active => .ok ()
          | some .erasurePending => .error (.userErasurePending binding.userId tick)
          | some .erased => .error (.userErasurePending binding.userId tick)
          | none => .error (.userLifecycleUnresolved binding.userId) := by
  unfold ActionContext.ensureActorEligible ActionContext.authenticatedActorUser
    ActionContext.userGdprStatus
  simp only [probe_stagedRead, probe_read hbound, Except.map, Option.map_some, bind,
    Except.bind]
  cases (RuntimeService.probeContext instanceId principal tick caps state.view).read UserGdprState
      binding.userId.get with
  | error e => rfl
  | ok gdpr => rfl

theorem refused_of_pending (hbound : componentOf UserBinding state actor.get = some binding)
    {gdpr : UserGdprState}
    (hgdpr : componentOf UserGdprState state binding.userId.get = some gdpr)
    (hpending : gdpr.status = .erasurePending) :
    (RuntimeService.probeContext instanceId principal tick caps state.view).ensureActorEligible
      actor tick = .error (.userErasurePending binding.userId tick) := by
  rw [eligible_of_bound hbound, probe_read hgdpr]
  simp only [Except.bind, Option.map_some, hpending]

/-- Only an active pointer lets a bound actor through. -/
theorem active_of_admitted (hbound : componentOf UserBinding state actor.get = some binding)
    (hok : (RuntimeService.probeContext instanceId principal tick caps
      state.view).ensureActorEligible actor tick = .ok ()) :
    ∃ gdpr, componentOf UserGdprState state binding.userId.get = some gdpr ∧
      gdpr.status = .active := by
  have hview : (RuntimeService.probeContext instanceId principal tick caps state.view).view =
      some state.view := rfl
  rw [eligible_of_bound hbound] at hok
  unfold ActionContext.read at hok
  unfold componentOf
  rw [hview] at hok
  simp only [InstanceState.view] at hok
  cases hbytes : state.component binding.userId.get (ArkheComponent.typeCode UserGdprState) with
  | none => simp [hbytes, Except.bind] at hok
  | some bytes =>
      simp only [hbytes] at hok ⊢
      cases hdecode : Postcard.fromBytes (α := UserGdprState) bytes with
      | error e => simp [hdecode, Except.bind] at hok
      | ok gdpr =>
          simp only [hdecode, Except.bind, Option.map_some] at hok
          refine ⟨gdpr, rfl, ?_⟩
          cases hstatus : gdpr.status with
          | active => rfl
          | erasurePending => simp [hstatus] at hok
          | erased => simp [hstatus] at hok

end

/-! ## Ledgers -/

/-- The committed actions of an instance, each with its ops. -/
abbrev Ledger := List (ShippedAction × List Op)

namespace Ledger

/-- The entities a ledger spawned. -/
def entities (ledger : Ledger) : List EntityId := ledger.flatMap fun entry => spawned entry.2

/-- The state an empty instance comes to. -/
def state (ledger : Ledger) : InstanceState :=
  InstanceState.empty.commit (ledger.flatMap Prod.snd)

/-- A committed `RegisterUser` spawned the user. -/
def Registered (ledger : Ledger) (user : UserId) : Prop :=
  ∃ r ops, (ShippedAction.registerUser r, ops) ∈ ledger ∧ user.get ∈ spawned ops

theorem state_concat (ledger : Ledger) (entry : ShippedAction × List Op) :
    state (ledger ++ [entry]) = (state ledger).commit entry.2 := by
  unfold state
  rw [List.flatMap_append, InstanceState.commit_append]
  simp

theorem known_iff (ledger : Ledger) (e : EntityId) :
    (state ledger).known e = true ↔ e ∈ entities ledger := by
  unfold entities
  induction ledger using List.reverseRecOn with
  | nil => simp [state, InstanceState.empty]
  | append_singleton ledger entry ih =>
      rw [state_concat, InstanceState.commit_known, ih, List.flatMap_append]
      simp

section

variable [Blake3] [CoreWire]

/-- Every entry's ops are what its action handed over: a batch, or nothing. -/
def Genuine (ledger : Ledger) : Prop :=
  ∀ entry ∈ ledger, entry.2 = [] ∨ ∃ ctx, entry.1.batch ctx = .ok entry.2

variable {ledger earlier later : Ledger} {user : UserId}

theorem Genuine.init {entry : ShippedAction × List Op} (h : Genuine (ledger ++ [entry])) :
    Genuine ledger := fun p hp => h p (by simp [hp])

theorem Genuine.last {entry : ShippedAction × List Op} (h : Genuine (ledger ++ [entry])) :
    entry.2 = [] ∨ ∃ ctx, entry.1.batch ctx = .ok entry.2 := h entry (by simp)

/-- **An active user was registered.** -/
theorem registered_of_active (hT : CoreWire.Serializes)
    (hround : Postcard.RoundTrip UserGdprState) (hgenuine : Genuine ledger) {gdpr : UserGdprState}
    (hgdpr : componentOf UserGdprState (state ledger) user.get = some gdpr)
    (hactive : gdpr.status = .active) : Registered ledger user := by
  induction ledger using List.reverseRecOn with
  | nil =>
      rw [state, List.flatMap_nil, InstanceState.commit_nil,
        componentOf_of_not_known rfl] at hgdpr
      simp at hgdpr
  | append_singleton ledger entry ih =>
      have hkeep : componentOf UserGdprState (state ledger) user.get = some gdpr →
          Registered (ledger ++ [entry]) user := by
        intro hbefore
        obtain ⟨r, ops, hmem, hspawned⟩ := ih hgenuine.init hbefore
        exact ⟨r, ops, List.mem_append_left _ hmem, hspawned⟩
      rw [state_concat] at hgdpr
      rcases hgenuine.last with hnil | ⟨ctx, hbatch⟩
      · rw [hnil, InstanceState.commit_nil] at hgdpr
        exact hkeep hgdpr
      · rcases gdprState_commit (state ledger) hT hround hbatch user.get with
          hsame | ⟨r, haction, hspawned, _⟩ | ⟨g, _, _, _, hmarked⟩
        · exact hkeep (hsame ▸ hgdpr)
        · refine ⟨r, entry.2, ?_, hspawned⟩
          rw [← haction]
          simp
        · rw [hmarked] at hgdpr
          obtain rfl : pendingState = gdpr := Option.some.inj hgdpr
          cases hactive

/-- **A marked user stays marked.** No later entry spawns the user again, and nothing else
    writes `Active`. -/
theorem marked_stays (hT : CoreWire.Serializes) (hround : Postcard.RoundTrip UserGdprState)
    (hgenuine : Genuine (earlier ++ later)) (hdistinct : (entities (earlier ++ later)).Nodup)
    (hknown : (state earlier).known user.get = true)
    (hmarked : componentOf UserGdprState (state earlier) user.get = some pendingState) :
    componentOf UserGdprState (state (earlier ++ later)) user.get = some pendingState := by
  induction later using List.reverseRecOn with
  | nil => simpa using hmarked
  | append_singleton later entry ih =>
      rw [← List.append_assoc] at hgenuine hdistinct ⊢
      have hsplit : entities (earlier ++ later ++ [entry]) =
          entities (earlier ++ later) ++ spawned entry.2 := by
        simp [entities]
      rw [hsplit] at hdistinct
      obtain ⟨hinit, _, hdisjoint⟩ := List.nodup_append.mp hdistinct
      have hbefore := ih hgenuine.init hinit
      rw [state_concat]
      rcases hgenuine.last with hnil | ⟨ctx, hbatch⟩
      · rw [hnil, InstanceState.commit_nil]
        exact hbefore
      · rcases gdprState_commit (state (earlier ++ later)) hT hround hbatch
          user.get with hsame | ⟨r, _, hspawned, _⟩ | ⟨g, _, _, _, hagain⟩
        · rw [hsame]
          exact hbefore
        · have hmem : user.get ∈ entities (earlier ++ later) := by
            unfold entities
            rw [List.flatMap_append]
            exact List.mem_append_left _ ((known_iff earlier user.get).mp hknown)
          exact absurd rfl (hdisjoint _ hmem _ hspawned)
        · exact hagain

/-- After the erasure of a registered user was committed, its pointer is marked for good. -/
theorem marked_of_erased (hT : CoreWire.Serializes) (hround : Postcard.RoundTrip UserGdprState)
    {g : GdprEraseUser} {ops : List Op}
    (hledger : ledger = earlier ++ (.gdprEraseUser g, ops) :: later)
    (hgenuine : Genuine ledger) (hdistinct : (entities ledger).Nodup) (hops : ops ≠ [])
    (hregistered : Registered earlier g.user) :
    componentOf UserGdprState (state ledger) g.user.get = some pendingState := by
  have hsplit : ledger = (earlier ++ [(.gdprEraseUser g, ops)]) ++ later := by
    rw [hledger]
    simp
  rw [hsplit] at hgenuine hdistinct ⊢
  have hknown : (state earlier).known g.user.get = true := by
    obtain ⟨r, ops', hmem, hspawned⟩ := hregistered
    rw [known_iff]
    exact List.mem_flatMap.mpr ⟨_, hmem, hspawned⟩
  have hmid := state_concat earlier (.gdprEraseUser g, ops)
  have hbatch : ∃ ctx, (ShippedAction.gdprEraseUser g).batch ctx = .ok ops := by
    rcases hgenuine (.gdprEraseUser g, ops) (by simp) with hnil | hbatch
    · exact absurd hnil hops
    · exact hbatch
  obtain ⟨ctx, hbatch⟩ := hbatch
  refine marked_stays hT hround hgenuine hdistinct ?_ ?_
  · rw [hmid, InstanceState.commit_known]
    exact .inl hknown
  · rw [hmid]
    exact gdprState_erase hT hround hbatch hknown

/-- **A binding is never rewritten.** A registered actor stays bound to its user. -/
theorem bound_of_registered (hT : CoreWire.Serializes) (hround : Postcard.RoundTrip UserBinding)
    (hgenuine : Genuine ledger) (hdistinct : (entities ledger).Nodup) {r : RegisterActor}
    {ops : List Op} (hmem : (.registerActor r, ops) ∈ ledger) {actor : ActorId}
    (hspawned : actor.get ∈ spawned ops) :
    componentOf UserBinding (state ledger) actor.get = some (UserBinding.mk 1 r.user) := by
  induction ledger using List.reverseRecOn with
  | nil => simp at hmem
  | append_singleton ledger entry ih =>
      have hsplit : entities (ledger ++ [entry]) = entities ledger ++ spawned entry.2 := by
        simp [entities]
      rw [hsplit] at hdistinct
      obtain ⟨hinit, _, hdisjoint⟩ := List.nodup_append.mp hdistinct
      rw [state_concat]
      rcases List.mem_append.mp hmem with hold | hnew
      · have hbefore := ih hgenuine.init hinit hold
        rcases hgenuine.last with hnil | ⟨ctx, hbatch⟩
        · rw [hnil, InstanceState.commit_nil]
          exact hbefore
        · rcases binding_commit (state ledger) hT hround hbatch actor.get with
            hsame | ⟨r', _, hspawned', _⟩
          · rw [hsame]
            exact hbefore
          · exact absurd rfl
              (hdisjoint _ (List.mem_flatMap.mpr ⟨_, hold, hspawned⟩) _ hspawned')
      · obtain rfl : (ShippedAction.registerActor r, ops) = entry := by simpa using hnew
        rcases hgenuine.last with hnil | ⟨ctx, hbatch⟩
        · simp only at hnil
          rw [hnil] at hspawned
          simp [spawned] at hspawned
        · exact binding_registerActor hT hround hbatch hspawned

end

end Ledger

/-! ## Runs -/

/-- One call of `dispatch`. -/
structure Call where
  action : ShippedAction
  principal : Principal
  tick : Tick
  caps : CapabilityMask
  actor : Option ActorId
  deriving DecidableEq, Repr

section

variable {K : Type} [Blake3] [CoreWire] [CanonicalBytes ShippedAction] [LawfulKernel K]
  (instanceId : InstanceId)

/-- The call, made on a service. -/
def Call.dispatch (call : Call) : Fallible (RuntimeService K) DispatchError StepReport :=
  RuntimeService.dispatch instanceId call.principal call.action call.tick call.caps call.actor

/-- The service after a run. -/
def serve (svc : RuntimeService K) (run : List Call) : RuntimeService K :=
  run.foldl (fun svc call => ((call.dispatch instanceId).exec svc).2) svc

/-- The actions of a run whose dispatch succeeded, with what the kernel committed. -/
def committed (svc : RuntimeService K) : List Call → Ledger
  | [] => []
  | call :: run =>
    match (call.dispatch instanceId).exec svc with
    | (.ok _, svc') =>
      (call.action, kernelComputeInner call.action instanceId call.tick
        (call.actor.map ActorId.get)) :: committed svc' run
    | (.error _, svc') => committed svc' run

variable {instanceId} {svc : RuntimeService K} {state : InstanceState}

/-- A call is refused with the service untouched, or its batch is committed. -/
theorem Call.dispatch_cases (call : Call) (hidle : LawfulKernel.idle svc.kernel)
    (hstate : LawfulKernel.state svc.kernel instanceId = some state) :
    (∃ e, (call.dispatch instanceId).exec svc = (.error e, svc)) ∨
    ∃ report svc', (call.dispatch instanceId).exec svc = (.ok report, svc') ∧
      LawfulKernel.state svc'.kernel instanceId = some (state.commit
        (kernelComputeInner call.action instanceId call.tick (call.actor.map ActorId.get))) ∧
      LawfulKernel.idle svc'.kernel := by
  unfold Call.dispatch
  cases hactor : call.actor with
  | none =>
      right
      refine dispatch_admitted call.action hidle hstate ?_
      intro actor h
      simp at h
  | some actor =>
      cases hgate : (RuntimeService.probeContext instanceId call.principal call.tick call.caps
          state.view).ensureActorEligible actor call.tick with
      | error err => exact .inl ⟨_, dispatch_refused call.action hstate hgate⟩
      | ok u =>
          right
          refine dispatch_admitted call.action hidle hstate ?_
          intro actor' h
          obtain rfl : actor = actor' := by simpa using h
          exact hgate

/-- **A run leaves the state of its ledger.** -/
theorem serve_state (run : List Call) (hidle : LawfulKernel.idle svc.kernel)
    (hstate : LawfulKernel.state svc.kernel instanceId = some state) :
    LawfulKernel.state (serve instanceId svc run).kernel instanceId =
        some (state.commit ((committed instanceId svc run).flatMap Prod.snd)) ∧
      LawfulKernel.idle (serve instanceId svc run).kernel := by
  induction run generalizing svc state with
  | nil => exact ⟨hstate, hidle⟩
  | cons call run ih =>
      unfold committed serve
      rw [List.foldl_cons]
      rcases call.dispatch_cases hidle hstate with ⟨e, hrun⟩ | ⟨report, svc', hrun, hstate', hidle'⟩
      · simp only [hrun]
        exact ih hidle hstate
      · simp only [hrun, List.flatMap_cons, InstanceState.commit_append]
        exact ih hidle' hstate'

variable (instanceId svc) in
theorem committed_genuine (hT : CoreWire.Serializes) (run : List Call) :
    (committed instanceId svc run).Genuine := by
  induction run generalizing svc with
  | nil =>
      intro entry hmem
      simp [committed] at hmem
  | cons call run ih =>
      unfold committed
      rcases hrun : (call.dispatch instanceId).exec svc with ⟨e | report, svc'⟩
      · simp only
        exact ih svc'
      · simp only
        intro entry hmem
        rcases List.mem_cons.mp hmem with rfl | hmem
        · rcases kernelComputeInner_cases hT call.action instanceId call.tick
            (call.actor.map ActorId.get) with hnil | hbatch
          · exact .inl hnil
          · exact .inr ⟨_, hbatch⟩
        · exact ih svc' entry hmem

/-- A call of an actor bound to a marked user is refused. -/
theorem refused_of_marked (hstate : LawfulKernel.state svc.kernel instanceId = some state)
    {call : Call} {actor : ActorId} (hactor : call.actor = some actor) {binding : UserBinding}
    (hbound : componentOf UserBinding state actor.get = some binding)
    (hmarked : componentOf UserGdprState state binding.userId.get = some pendingState) :
    (call.dispatch instanceId).exec svc =
      (.error (.erasurePending binding.userId call.tick), svc) := by
  unfold Call.dispatch
  rw [hactor]
  exact dispatch_refused call.action hstate (refused_of_pending hbound hmarked rfl)

/-- An actor registered for an erased user is refused, whichever of the two came first. -/
theorem registered_actor_refused (hT : CoreWire.Serializes)
    (hround : Postcard.RoundTrip UserGdprState) (hroundBinding : Postcard.RoundTrip UserBinding)
    (hidle : LawfulKernel.idle svc.kernel)
    (hempty : LawfulKernel.state svc.kernel instanceId = some InstanceState.empty)
    {run : List Call} (hdistinct : (committed instanceId svc run).entities.Nodup)
    {earlier later : Ledger} {g : GdprEraseUser} {ops : List Op}
    (hledger : committed instanceId svc run = earlier ++ (.gdprEraseUser g, ops) :: later)
    (hops : ops ≠ []) (hregistered : earlier.Registered g.user) {r : RegisterActor}
    {actorOps : List Op} (hmem : (.registerActor r, actorOps) ∈ committed instanceId svc run)
    (huser : r.user = g.user) {call : Call} {actor : ActorId} (hactor : call.actor = some actor)
    (hspawned : actor.get ∈ spawned actorOps) :
    (call.dispatch instanceId).exec (serve instanceId svc run) =
      (.error (.erasurePending g.user call.tick), serve instanceId svc run) := by
  have hgenuine := committed_genuine instanceId svc hT run
  obtain ⟨hserve, _⟩ := serve_state run hidle hempty
  have hmarked := Ledger.marked_of_erased hT hround hledger hgenuine hdistinct hops hregistered
  have hbound := Ledger.bound_of_registered hT hroundBinding hgenuine hdistinct hmem hspawned
  rw [← huser] at hmarked ⊢
  exact refused_of_marked hserve hactor hbound hmarked

/-- **The gate, over every run.** From an empty instance, after any run of dispatches whose
    spawned ids are distinct, a call whose actor is bound to a user is refused with the
    service untouched: as erasure-pending once an erasure of that user, registered before
    it, has been committed; and always, where no `RegisterUser` spawned that user. -/
theorem gate_holds_over_runs (hT : CoreWire.Serializes)
    (hround : Postcard.RoundTrip UserGdprState) (instanceId : InstanceId)
    (svc : RuntimeService K) (hidle : LawfulKernel.idle svc.kernel)
    (hempty : LawfulKernel.state svc.kernel instanceId = some InstanceState.empty)
    (run : List Call) (hdistinct : (committed instanceId svc run).entities.Nodup)
    (state : InstanceState)
    (hstate : LawfulKernel.state (serve instanceId svc run).kernel instanceId = some state)
    (call : Call) (actor : ActorId) (hactor : call.actor = some actor) (binding : UserBinding)
    (hbound : componentOf UserBinding state actor.get = some binding) :
    (∀ (earlier : Ledger) g ops later,
      committed instanceId svc run = earlier ++ (.gdprEraseUser g, ops) :: later → ops ≠ [] →
      earlier.Registered g.user → binding.userId = g.user →
      (call.dispatch instanceId).exec (serve instanceId svc run) =
        (.error (.erasurePending g.user call.tick), serve instanceId svc run)) ∧
    (¬ (committed instanceId svc run).Registered binding.userId →
      ∃ e, (call.dispatch instanceId).exec (serve instanceId svc run) =
        (.error e, serve instanceId svc run)) := by
  have hgenuine := committed_genuine instanceId svc hT run
  obtain ⟨hserve, hidle'⟩ := serve_state run hidle hempty
  obtain rfl : state = (committed instanceId svc run).state :=
    Option.some.inj (hstate.symm.trans hserve)
  constructor
  · intro earlier g ops later hledger hops hregistered hsame
    have hmarked := Ledger.marked_of_erased hT hround hledger hgenuine hdistinct hops hregistered
    rw [← hsame] at hmarked ⊢
    exact refused_of_marked hstate hactor hbound hmarked
  · intro hunregistered
    rcases call.dispatch_cases hidle' hstate with hrefused | ⟨report, svc', hrun, _⟩
    · exact hrefused
    · exfalso
      cases hgate : (RuntimeService.probeContext instanceId call.principal call.tick call.caps
          (committed instanceId svc run).state.view).ensureActorEligible actor call.tick with
      | error err =>
          have hrefused := dispatch_refused call.action hstate hgate
          unfold Call.dispatch at hrun
          rw [hactor, hrefused] at hrun
          simp at hrun
      | ok u =>
          obtain ⟨gdpr, hgdpr, hactive⟩ := active_of_admitted hbound hgate
          exact hunregistered (Ledger.registered_of_active hT hround hgenuine hgdpr hactive)

end

/-! ## One erasure -/

section

attribute [local instance] postcardWire oneBlockBlake3 postcardActions

/-- The user and the actor that a run registering them at ticks one and two spawns. -/
def someUser : UserId := ⟨⟨0xc55c3eff1fbd0238, by decide⟩⟩

def boundActor : ActorId := ⟨⟨0xbfd57c5770ecda2f, by decide⟩⟩

/-- A call without capabilities of its own. -/
def callAt (tick : Tick) (actor : Option ActorId) (action : ShippedAction) : Call where
  action := action
  principal := .system
  tick := tick
  caps := .system
  actor := actor

/-- An actor of `someShell` for `user`. -/
def RegisterActor.forUser (user : UserId) : RegisterActor where
  schemaVersion := 1
  profile :=
    { schemaVersion := 1, shellId := someShell, handle := ⟨"ada", by decide⟩, kind := .human
      createdTick := 2 }
  user := user

/-- Register a user, an actor for it, then ask for the erasure. -/
def erasureRun : List Call :=
  [callAt 1 none (.registerUser someRegistration),
    callAt 2 none (.registerActor (RegisterActor.forUser someUser)),
    callAt 3 none (.gdprEraseUser ⟨1, someUser⟩)]

/-- A service with one empty instance. -/
def freshService : RuntimeService MemoryKernel :=
  ⟨MemoryKernel.live firstInstance InstanceState.empty⟩

/-- What the two registrations of that run hand over. -/
def registrationEntries : Ledger :=
  [(.registerUser someRegistration,
      createOps someUser.get .system
        [stored someRegistration.profile, stored someRegistration.credential,
          stored (UserGdprState.mk 1 .active)]),
    (.registerActor (RegisterActor.forUser someUser),
      createOps boundActor.get .system
        [stored (RegisterActor.forUser someUser).profile, stored (UserBinding.mk 1 someUser)])]

/-- What its erasure request hands over. -/
def erasureOps : List Op :=
  markOps someUser.get (stored (UserGdprState.mk 1 .erasurePending))
    (ArkheEvent.typeCode UserErasureScheduled) (encoded (UserErasureScheduled.mk 1 someUser 3))

theorem committed_erasureRun :
    committed firstInstance freshService erasureRun =
      registrationEntries ++ (.gdprEraseUser ⟨1, someUser⟩, erasureOps) :: [] := by
  decide +kernel

/-- The actor tries to create a space at tick four and is refused. -/
theorem gate_holds_over_runs_erasure :
    let svc := serve firstInstance freshService erasureRun
    ((callAt 4 (some boundActor) (.createSpace (someSpace none))).dispatch firstInstance).exec
      svc = (.error (.erasurePending someUser 4), svc) := by
  have hidle : LawfulKernel.idle freshService.kernel := rfl
  have hempty : LawfulKernel.state freshService.kernel firstInstance =
      some InstanceState.empty := rfl
  have hdistinct : (committed firstInstance freshService erasureRun).entities.Nodup := by
    rw [committed_erasureRun]
    decide +kernel
  have hbound : componentOf UserBinding (committed firstInstance freshService erasureRun).state
      boundActor.get = some (UserBinding.mk 1 someUser) := by
    rw [committed_erasureRun]
    decide +kernel
  have hregistered : Ledger.Registered registrationEntries someUser :=
    ⟨someRegistration, _, List.mem_cons_self, by decide +kernel⟩
  have hall := gate_holds_over_runs postcard_serializes
    (Postcard.ofCodec_roundTrip Core.Wire.userGdprState) firstInstance freshService hidle hempty
    erasureRun hdistinct _ (serve_state erasureRun hidle hempty).1
    (callAt 4 (some boundActor) (.createSpace (someSpace none))) boundActor rfl
    (UserBinding.mk 1 someUser) hbound
  exact hall.1 _ _ _ _ committed_erasureRun (by decide +kernel) hregistered rfl

end

end ArkheForge.Platform
