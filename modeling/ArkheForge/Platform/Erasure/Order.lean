/-
  Crypto-erasure before row removal.

  `Traced` runs a world's calls and keeps the list of them, so that the order of the
  two steps can be spoken of; keeping the list changes nothing else
  (`tracedAfter_untraced`). Every event keeps the order (`shredBeforeTombstone_handled`),
  and so does every run.

  A completion carries the attestation of what the store names for the user when the
  event is handled (`attested_of_completed`). A retry after a failed tombstone finds the
  first attestation where the DEK is still named. Another event for the user that is
  completed in between takes the name away, and the retry records the placeholder
  (`cascade_safety_overtaken`).
-/
import ArkheForge.Core.Blake3
import ArkheForge.Core.PostcardWire
import ArkheForge.Platform.Erasure.Lawful
import ArkheForge.Platform.Erasure.ShredLog

namespace ArkheForge.Platform

open ArkheForge.Core BigEndian Fallible

/-! ## The calls made -/

/-- A call of a backend and what it returned; `rows` is what the store answered for the
    user just before. -/
inductive BackendCall
  | shred (dekId : DekId) (outcome : Except DekShredError DekShredAttestation)
  | tombstone (user : UserId) (rows : UserPiiRows) (outcome : Except ProjectionError Unit)

/-- A world with the calls made in it. -/
structure Traced (W : Type) where
  world : W
  calls : List BackendCall

namespace Traced

variable {W : Type}

/-- Make a call and keep it. -/
def tracing {ε α : Type} (m : Fallible W ε α) (entry : W → Except ε α → BackendCall) :
    Fallible (Traced W) ε α := do
  let r ← get
  let (outcome, world) := m.exec r.world
  set { world := world, calls := r.calls ++ [entry r.world outcome] : Traced W }
  ofExcept outcome

@[simp] theorem exec_tracing {ε α : Type} (m : Fallible W ε α)
    (entry : W → Except ε α → BackendCall) (r : Traced W) :
    (tracing m entry).exec r =
      ((m.exec r.world).1,
        { world := (m.exec r.world).2, calls := r.calls ++ [entry r.world (m.exec r.world).1] }) := by
  unfold tracing
  simp only [exec_bind, exec_get]
  rcases m.exec r.world with ⟨outcome, world⟩
  simp only [exec_set, exec_ofExcept]

/-- Keeping a call changes nothing else. -/
theorem follows_tracing {ε α : Type} (m : Fallible W ε α) (entry : W → Except ε α → BackendCall) :
    Fallible.Follows Traced.world (tracing m entry) m := by
  intro r
  rw [exec_tracing]

theorem calls_tracing {ε α : Type} {m : Fallible W ε α} {entry : W → Except ε α → BackendCall}
    {r r' : Traced W} {outcome : Except ε α} (h : (tracing m entry).exec r = (outcome, r')) :
    r'.calls = r.calls ++ [entry r.world outcome] := by
  rw [exec_tracing] at h
  obtain ⟨rfl, rfl⟩ := Prod.mk.inj h
  rfl

instance [PiiRowStore W] : PiiRowStore (Traced W) where
  rowsFor r := PiiRowStore.rowsFor r.world
  tombstone user :=
    tracing (PiiRowStore.tombstone user) fun w outcome =>
      .tombstone user (PiiRowStore.rowsFor w user) outcome
  isTombstoned r := PiiRowStore.isTombstoned r.world

instance [DekShredder W] : DekShredder (Traced W) where
  shred dekId := tracing (DekShredder.shred dekId) fun _ outcome => .shred dekId outcome
  shredWithRegions dekId tick :=
    tracing (DekShredder.shredWithRegions dekId tick) fun _ outcome =>
      .shred dekId (outcome.map ShredResult.overall)

open ErasureCascadeObserver (shredNamed)

theorem follows_shredNamed [DekShredder W] (dekId : Option DekId) (tick : Tick) :
    Fallible.Follows Traced.world
      (shredNamed dekId tick : Fallible (Traced W) DekShredError ShredResult)
      (shredNamed dekId tick) := by
  cases dekId with
  | none => exact follows_pure _
  | some dekId =>
      exact follows_tracing (DekShredder.shredWithRegions dekId tick : Fallible W _ _)
        fun _ outcome => .shred dekId (outcome.map ShredResult.overall)

theorem exec_shredNamed_world [DekShredder W] {dekId : Option DekId} {tick : Tick}
    {r r' : Traced W} {outcome : Except DekShredError ShredResult}
    (h : (shredNamed dekId tick).exec r = (outcome, r')) :
    (shredNamed dekId tick).exec r.world = (outcome, r'.world) :=
  (follows_shredNamed dekId tick).exec_eq h

theorem exec_tombstone_world [PiiRowStore W] {user : UserId} {r r' : Traced W}
    {outcome : Except ProjectionError Unit}
    (h : (PiiRowStore.tombstone user).exec r = (outcome, r')) :
    (PiiRowStore.tombstone user).exec r.world = (outcome, r'.world) :=
  (follows_tracing (PiiRowStore.tombstone user) _).exec_eq h

/-! ## The invariant -/

/-- Every tombstone call comes after a successful shred of the DEK the store then named. -/
def ShredBeforeTombstone (calls : List BackendCall) : Prop :=
  ∀ pre user rows outcome, pre ++ [.tombstone user rows outcome] <+: calls →
    ∀ dekId, rows.dekId = some dekId → ∃ a, .shred dekId (.ok a) ∈ pre

theorem ShredBeforeTombstone.nil : ShredBeforeTombstone [] := by
  intro pre user rows outcome hprefix
  simp at hprefix

theorem ShredBeforeTombstone.concat_shred {calls : List BackendCall}
    (h : ShredBeforeTombstone calls) (dekId : DekId)
    (outcome : Except DekShredError DekShredAttestation) :
    ShredBeforeTombstone (calls ++ [.shred dekId outcome]) := by
  intro pre user rows outcome' hprefix
  rcases List.prefix_concat_iff.mp hprefix with hall | hshort
  · have hlast := (List.append_inj' hall rfl).2
    simp at hlast
  · exact h pre user rows outcome' hshort

theorem ShredBeforeTombstone.concat_tombstone {calls : List BackendCall}
    (h : ShredBeforeTombstone calls) {user : UserId} {rows : UserPiiRows}
    (outcome : Except ProjectionError Unit)
    (hshred : ∀ dekId, rows.dekId = some dekId → ∃ a, .shred dekId (.ok a) ∈ calls) :
    ShredBeforeTombstone (calls ++ [.tombstone user rows outcome]) := by
  intro pre user' rows' outcome' hprefix
  rcases List.prefix_concat_iff.mp hprefix with hall | hshort
  · obtain ⟨hpre, hlast⟩ := List.append_inj' hall rfl
    simp only [List.cons.injEq, BackendCall.tombstone.injEq, and_true] at hlast
    obtain ⟨-, hrows, -⟩ := hlast
    rw [hpre, hrows]
    exact hshred
  · exact h pre user' rows' outcome' hshort

/-- The shred step keeps the order, and what it returned for a DEK is among the calls. -/
theorem ShredBeforeTombstone.shredNamed [DekShredder W] {r r' : Traced W}
    (h : ShredBeforeTombstone r.calls) {dekId : Option DekId} {tick : Tick}
    {outcome : Except DekShredError ShredResult}
    (hexec : (shredNamed dekId tick).exec r = (outcome, r')) :
    ShredBeforeTombstone r'.calls ∧
      ∀ result, outcome = .ok result → ∀ d, dekId = some d →
        .shred d (.ok result.overall) ∈ r'.calls := by
  cases dekId with
  | none =>
      obtain ⟨rfl, rfl⟩ := Prod.mk.inj hexec
      refine ⟨h, ?_⟩
      intro result _ d hd
      cases hd
  | some dekId =>
      have htraced : (tracing (DekShredder.shredWithRegions dekId tick) fun _ outcome =>
          .shred dekId (outcome.map ShredResult.overall)).exec r = (outcome, r') := hexec
      rw [calls_tracing htraced]
      refine ⟨h.concat_shred dekId _, ?_⟩
      intro result hok d hd
      obtain rfl := Option.some.inj hd
      refine List.mem_append_right _ (List.mem_singleton.mpr ?_)
      rw [hok]
      rfl

/-- A tombstone call keeps the order where the DEK the store names is shredded already. -/
theorem ShredBeforeTombstone.tombstone [PiiRowStore W] {r r' : Traced W}
    (h : ShredBeforeTombstone r.calls) {user : UserId} {outcome : Except ProjectionError Unit}
    (hexec : (PiiRowStore.tombstone user).exec r = (outcome, r'))
    (hshred : ∀ d, (PiiRowStore.rowsFor r user).dekId = some d →
      ∃ a, .shred d (.ok a) ∈ r.calls) :
    ShredBeforeTombstone r'.calls := by
  have htraced : (tracing (PiiRowStore.tombstone user) fun w outcome =>
      .tombstone user (PiiRowStore.rowsFor w user) outcome).exec r = (outcome, r') := hexec
  rw [calls_tracing htraced]
  exact h.concat_tombstone _ hshred

end Traced

namespace ErasureCascadeObserver

/-! ## Runs -/

/-- A call of one of the observer's methods. -/
inductive Call
  | onEvent (event : EventRecord) (ctx : ProjectionContext)
  | onStateChange (next : ObserverState)
  | drainCompletions

section

variable {W : Type} [PiiRowStore W] [DekShredder W] [Postcard UserErasureScheduled]

/-- The observer a call leaves behind, whatever the call returns. -/
def call (o : ErasureCascadeObserver W) : Call → ErasureCascadeObserver W
  | .onEvent event ctx => ((onEvent event ctx).exec o).2
  | .onStateChange next =>
    ((Projection.onStateChange next :
      Fallible (ErasureCascadeObserver W) ProjectionError Unit).exec o).2
  | .drainCompletions => o.drainCompletions.2

/-- The observer after a run of calls on a fresh one. -/
def after (start : W) (run : List Call) : ErasureCascadeObserver W := run.foldl call (new start)

/-- The same run with its backend calls kept. -/
def tracedAfter (start : W) (run : List Call) : ErasureCascadeObserver (Traced W) :=
  after ⟨start, []⟩ run

/-- A failed event records nothing and moves nothing. -/
theorem handled_error {event : EventRecord} {ctx : ProjectionContext}
    {o o' : ErasureCascadeObserver W} {e : ProjectionError}
    (h : Handled event ctx o (.error e) o') :
    o'.completions = o.completions ∧ o'.cursor = o.cursor := by
  generalize houtcome : (.error e : Except ProjectionError Unit) = outcome at h
  cases h with
  | malformed => exact ⟨rfl, rfl⟩
  | unshredded => exact ⟨rfl, rfl⟩
  | untombstoned => exact ⟨rfl, rfl⟩
  | completed => cases houtcome

/-- An event that is handled adds one completion and sets the cursor. -/
theorem handled_ok {event : EventRecord} {ctx : ProjectionContext}
    {o o' : ErasureCascadeObserver W} (h : Handled event ctx o (.ok ()) o') :
    (∃ completion, o'.completions = o.completions ++ [completion]) ∧
      o'.cursor = some (position event) := by
  generalize houtcome : (.ok () : Except ProjectionError Unit) = outcome at h
  cases h with
  | malformed => cases houtcome
  | unshredded => cases houtcome
  | untombstoned => cases houtcome
  | completed => exact ⟨⟨_, rfl⟩, rfl⟩

/-! ## Tracing changes nothing -/

/-- The observer without its list of calls. -/
def untraced (o : ErasureCascadeObserver (Traced W)) : ErasureCascadeObserver W where
  cursor := o.cursor
  backends := o.backends.world
  completions := o.completions

theorem handled_untraced {event : EventRecord} {ctx : ProjectionContext}
    {o o' : ErasureCascadeObserver (Traced W)} {outcome : Except ProjectionError Unit}
    (h : Handled event ctx o outcome o') :
    Handled event ctx (untraced o) outcome (untraced o') := by
  cases h with
  | malformed e hdecode => exact .malformed e hdecode
  | unshredded scheduled e r hdecode hshred =>
      exact .unshredded scheduled e r.world hdecode (Traced.exec_shredNamed_world hshred)
  | untombstoned scheduled result r e r' hdecode hshred htombstone =>
      exact .untombstoned scheduled result r.world e r'.world hdecode
        (Traced.exec_shredNamed_world hshred) (Traced.exec_tombstone_world htombstone)
  | completed scheduled result r r' hdecode hshred htombstone =>
      exact .completed scheduled result r.world r'.world hdecode
        (Traced.exec_shredNamed_world hshred) (Traced.exec_tombstone_world htombstone)

theorem call_untraced (o : ErasureCascadeObserver (Traced W)) (c : Call) :
    untraced (o.call c) = (untraced o).call c := by
  cases c with
  | onEvent event ctx =>
      have hstep := handled_iff.mp (handled_untraced (handled_onEvent event ctx o))
      exact (congrArg Prod.snd hstep).symm
  | onStateChange next => rfl
  | drainCompletions => rfl

/-- Keeping the calls changes nothing else. -/
theorem tracedAfter_untraced (start : W) (run : List Call) :
    untraced (tracedAfter start run) = after start run := by
  suffices h : ∀ o : ErasureCascadeObserver (Traced W),
      untraced (run.foldl call o) = run.foldl call (untraced o) from h (new ⟨start, []⟩)
  intro o
  induction run generalizing o with
  | nil => rfl
  | cons c run ih =>
      rw [List.foldl_cons, List.foldl_cons, ih, call_untraced]

end

/-! ## What every run keeps -/

section

variable {W : Type} [PiiRowStore W] [DekShredder W] [LawfulBackends W]
  [Postcard UserErasureScheduled]

theorem shredBeforeTombstone_handled {event : EventRecord} {ctx : ProjectionContext}
    {o o' : ErasureCascadeObserver (Traced W)} {outcome : Except ProjectionError Unit}
    (hordered : Traced.ShredBeforeTombstone o.backends.calls)
    (h : Handled event ctx o outcome o') : Traced.ShredBeforeTombstone o'.backends.calls := by
  -- where the shred step returned, the DEK that the store still names is shredded
  have hnamed : ∀ {scheduled : UserErasureScheduled} {result : ShredResult} {r : Traced W},
      (shredNamed (PiiRowStore.rowsFor o.backends scheduled.user).dekId ctx.tick).exec o.backends =
        (.ok result, r) →
      ∀ d, (PiiRowStore.rowsFor r scheduled.user).dekId = some d →
        ∃ a, .shred d (.ok a) ∈ r.calls := by
    intro scheduled result r hshred d hd
    have hrows : PiiRowStore.rowsFor r scheduled.user =
        PiiRowStore.rowsFor o.backends scheduled.user :=
      rowsFor_shredNamed (Traced.exec_shredNamed_world hshred) scheduled.user
    rw [hrows] at hd
    exact ⟨_, (hordered.shredNamed hshred).2 result rfl d hd⟩
  cases h with
  | malformed => exact hordered
  | unshredded scheduled e r hdecode hshred => exact (hordered.shredNamed hshred).1
  | untombstoned scheduled result r e r' hdecode hshred htombstone =>
      exact (hordered.shredNamed hshred).1.tombstone htombstone (hnamed hshred)
  | completed scheduled result r r' hdecode hshred htombstone =>
      exact (hordered.shredNamed hshred).1.tombstone htombstone (hnamed hshred)

theorem shredBeforeTombstone_call {o : ErasureCascadeObserver (Traced W)}
    (hordered : Traced.ShredBeforeTombstone o.backends.calls) (c : Call) :
    Traced.ShredBeforeTombstone (o.call c).backends.calls := by
  cases c with
  | onEvent event ctx => exact shredBeforeTombstone_handled hordered (handled_onEvent event ctx o)
  | onStateChange next => exact hordered
  | drainCompletions => exact hordered

theorem shredBeforeTombstone_tracedAfter (start : W) (run : List Call) :
    Traced.ShredBeforeTombstone (tracedAfter start run).backends.calls := by
  suffices h : ∀ o : ErasureCascadeObserver (Traced W),
      Traced.ShredBeforeTombstone o.backends.calls →
        Traced.ShredBeforeTombstone (run.foldl call o).backends.calls from h _ .nil
  intro o hordered
  induction run generalizing o with
  | nil => exact hordered
  | cons c run ih => exact ih _ (shredBeforeTombstone_call hordered c)

/-! ## What the calls of a run keep -/

omit [LawfulBackends W] in
/-- What every shred and every tombstone keeps, an event keeps. -/
theorem backends_handled {P : W → Prop}
    (hshred : ∀ dekId tick w, P w → P ((DekShredder.shredWithRegions dekId tick).exec w).2)
    (htombstone : ∀ user w, P w → P ((PiiRowStore.tombstone user).exec w).2)
    {event : EventRecord} {ctx : ProjectionContext} {o o' : ErasureCascadeObserver W}
    {outcome : Except ProjectionError Unit} (h : Handled event ctx o outcome o')
    (ho : P o.backends) : P o'.backends := by
  have htombstoned : ∀ {user : UserId} {w w' : W} {result : Except ProjectionError Unit}, P w →
      (PiiRowStore.tombstone user).exec w = (result, w') → P w' := by
    intro user w w' result hw hexec
    have hkept := htombstone user w hw
    rw [hexec] at hkept
    exact hkept
  cases h with
  | malformed => exact ho
  | unshredded scheduled e w hdecode hexec => exact shredNamed_holds hshred hexec ho
  | untombstoned scheduled result w e w' hdecode hexec hfailed =>
      exact htombstoned (shredNamed_holds hshred hexec ho) hfailed
  | completed scheduled result w w' hdecode hexec hdone =>
      exact htombstoned (shredNamed_holds hshred hexec ho) hdone

omit [LawfulBackends W] in
theorem backends_run {P : W → Prop}
    (hshred : ∀ dekId tick w, P w → P ((DekShredder.shredWithRegions dekId tick).exec w).2)
    (htombstone : ∀ user w, P w → P ((PiiRowStore.tombstone user).exec w).2)
    {o : ErasureCascadeObserver W} (ho : P o.backends) (run : List Call) :
    P (run.foldl call o).backends := by
  induction run generalizing o with
  | nil => exact ho
  | cons c run ih =>
      refine ih ?_
      cases c with
      | onEvent event ctx =>
          exact backends_handled hshred htombstone (handled_onEvent event ctx o) ho
      | onStateChange next => exact ho
      | drainCompletions => exact ho

theorem cached_handled {event : EventRecord} {ctx : ProjectionContext}
    {o o' : ErasureCascadeObserver W} {outcome : Except ProjectionError Unit} {d : DekId}
    {a : DekShredAttestation} (hcached : LawfulBackends.cached o.backends d = some a)
    (h : Handled event ctx o outcome o') : LawfulBackends.cached o'.backends d = some a :=
  backends_handled (P := fun w => LawfulBackends.cached w d = some a)
    (fun dekId tick _ => LawfulBackends.cached_shred dekId tick)
    (fun user _ => LawfulBackends.cached_tombstone user) h hcached

theorem cached_run {o : ErasureCascadeObserver W} {d : DekId} {a : DekShredAttestation}
    (hcached : LawfulBackends.cached o.backends d = some a) (run : List Call) :
    LawfulBackends.cached (run.foldl call o).backends d = some a :=
  backends_run (P := fun w => LawfulBackends.cached w d = some a)
    (fun dekId tick _ => LawfulBackends.cached_shred dekId tick)
    (fun user _ => LawfulBackends.cached_tombstone user) hcached run

omit [LawfulBackends W] in
/-- What neither a shred nor a tombstone that fails changes, a failed event does not change. -/
theorem handled_error_keeps {α : Type} {f : W → α}
    (hshred : ∀ dekId tick w, f ((DekShredder.shredWithRegions dekId tick).exec w).2 = f w)
    (htombstone : ∀ {user w w' e}, (PiiRowStore.tombstone user).exec w = (.error e, w') →
      f w' = f w) {event : EventRecord} {ctx : ProjectionContext}
    {o o' : ErasureCascadeObserver W} {e : ProjectionError}
    (h : Handled event ctx o (.error e) o') : f o'.backends = f o.backends := by
  generalize houtcome : (.error e : Except ProjectionError Unit) = outcome at h
  cases h with
  | malformed => rfl
  | unshredded scheduled e w hdecode hexec => exact shredNamed_keeps hshred hexec
  | untombstoned scheduled result w e w' hdecode hexec hfailed =>
      exact (htombstone hfailed).trans (shredNamed_keeps hshred hexec)
  | completed => cases houtcome

theorem rowsFor_handled_error {event : EventRecord} {ctx : ProjectionContext}
    {o o' : ErasureCascadeObserver W} {e : ProjectionError}
    (h : Handled event ctx o (.error e) o') (user : UserId) :
    PiiRowStore.rowsFor o'.backends user = PiiRowStore.rowsFor o.backends user :=
  handled_error_keeps (f := fun w => PiiRowStore.rowsFor w user)
    (fun dekId tick w => LawfulBackends.rowsFor_shred dekId tick w user)
    (LawfulBackends.rowsFor_tombstone_error user) h

/-! ## What a completion attests to -/

/-- The attestation due to a user for whom the store names `dekId`. -/
def Due (w : W) (dekId : Option DekId) (a : DekShredAttestation) : Prop :=
  match dekId with
  | some d => LawfulBackends.cached w d = some a
  | none => a = noDekResult.overall

/-- A completion carries the attestation due for what the store named. -/
theorem attested_of_completed {event : EventRecord} {ctx : ProjectionContext}
    {o o' : ErasureCascadeObserver W} {scheduled : UserErasureScheduled}
    (h : Handled event ctx o (.ok ()) o') (hdecode : decodeScheduled event = .ok scheduled) :
    ∃ completion, o'.completions = o.completions ++ [completion] ∧
      completion.user = scheduled.user ∧
      Due o'.backends (PiiRowStore.rowsFor o.backends scheduled.user).dekId
        completion.attestation := by
  generalize houtcome : (.ok () : Except ProjectionError Unit) = outcome at h
  cases h with
  | malformed => cases houtcome
  | unshredded => cases houtcome
  | untombstoned => cases houtcome
  | completed scheduled' result w w' hdecode' hshred htombstone =>
      obtain rfl := Except.ok.inj (hdecode.symm.trans hdecode')
      refine ⟨_, rfl, rfl, ?_⟩
      show Due w' (PiiRowStore.rowsFor o.backends scheduled.user).dekId result.overall
      cases hnamed : (PiiRowStore.rowsFor o.backends scheduled.user).dekId with
      | none =>
          rw [hnamed] at hshred
          have hresult : noDekResult = result := Except.ok.inj (congrArg Prod.fst hshred)
          exact congrArg ShredResult.overall hresult.symm
      | some dekId =>
          rw [hnamed] at hshred
          exact cached_exec_tombstone (LawfulBackends.cached_of_shred hshred) htombstone

/-! ## Retries -/

/-- An event that is delivered and, with any calls in between, delivered again. -/
structure Retry where
  earlier : List Call
  event : EventRecord
  ctx : ProjectionContext
  between : List Call
  again : ProjectionContext

/-- The calls before the second delivery. -/
def Retry.before (r : Retry) : List Call := r.earlier ++ .onEvent r.event r.ctx :: r.between

/-- The calls up to the second delivery, itself included. -/
def Retry.calls (r : Retry) : List Call := r.before ++ [.onEvent r.event r.again]

/-- The shred of the first delivery returned `first` for the DEK named and the tombstone
    failed; no delivery of the event in between succeeded, and the retry does. -/
structure Retry.Recovers (start : W) (r : Retry) (scheduled : UserErasureScheduled)
    (dekId : DekId) (first : ShredResult) : Prop where
  decoded : decodeScheduled r.event = .ok scheduled
  named : (PiiRowStore.rowsFor (after start r.earlier).backends scheduled.user).dekId = some dekId
  failed : ∃ w e w',
    (DekShredder.shredWithRegions dekId r.ctx.tick).exec (after start r.earlier).backends =
      (.ok first, w) ∧
    (PiiRowStore.tombstone scheduled.user).exec w = (.error e, w')
  refused : ∀ pre ctx, pre ++ [.onEvent r.event ctx] <+: r.between →
    ((onEvent r.event ctx).exec (after start (r.earlier ++ .onEvent r.event r.ctx :: pre))).1 ≠
      .ok ()
  succeeded : ((onEvent r.event r.again).exec (after start r.before)).1 = .ok ()

/-- The completion that the retry adds carries the attestation of the first shred. -/
def Retry.KeepsAttestation (start : W) (r : Retry) (scheduled : UserErasureScheduled)
    (first : ShredResult) : Prop :=
  ∃ completion, (after start r.calls).completions =
      (after start r.before).completions ++ [completion] ∧
    completion.user = scheduled.user ∧ completion.attestation = first.overall

/-- The store names the DEK of the first shred when the event is retried. -/
def Retry.FindsDek (start : W) (r : Retry) (scheduled : UserErasureScheduled) (dekId : DekId) :
    Prop :=
  (PiiRowStore.rowsFor (after start r.before).backends scheduled.user).dekId = some dekId

omit [LawfulBackends W] in
theorem after_concat (start : W) (run : List Call) (c : Call) :
    after start (run ++ [c]) = (after start run).call c := by
  unfold after
  rw [List.foldl_append]
  rfl

/-- The first delivery failed as its tombstone did. -/
theorem Retry.Recovers.first_failed {start : W} {r : Retry} {scheduled : UserErasureScheduled}
    {dekId : DekId} {first : ShredResult} (h : r.Recovers start scheduled dekId first) :
    ∃ e w', Handled r.event r.ctx (after start r.earlier) (.error e)
        { after start r.earlier with backends := w' } ∧
      LawfulBackends.cached w' dekId = some first.overall := by
  obtain ⟨w, e, w', hshred, htombstone⟩ := h.failed
  refine ⟨e, w', .untombstoned scheduled first w e w' h.decoded ?_ htombstone,
    cached_exec_tombstone (LawfulBackends.cached_of_shred hshred) htombstone⟩
  rw [h.named]
  exact hshred

/-- Whatever is called in between, the first attestation stays in the cache. -/
theorem Retry.Recovers.cached {start : W} {r : Retry} {scheduled : UserErasureScheduled}
    {dekId : DekId} {first : ShredResult} (h : r.Recovers start scheduled dekId first) :
    LawfulBackends.cached (after start r.before).backends dekId = some first.overall := by
  obtain ⟨e, w', hfailed, hcached⟩ := h.first_failed
  have hbefore : after start r.before =
      r.between.foldl call { after start r.earlier with backends := w' } := by
    have hstep := congrArg Prod.snd (handled_iff.mp hfailed)
    unfold Retry.before after
    rw [List.foldl_append, List.foldl_cons]
    exact congrArg (r.between.foldl call) hstep
  rw [hbefore]
  exact cached_run hcached r.between

/-- The retry adds a completion with the attestation due for what the store then names, and
    the first attestation is still in the cache. -/
theorem Retry.Recovers.completion {start : W} {r : Retry} {scheduled : UserErasureScheduled}
    {dekId : DekId} {first : ShredResult} (h : r.Recovers start scheduled dekId first) :
    LawfulBackends.cached (after start r.calls).backends dekId = some first.overall ∧
      ∃ completion, (after start r.calls).completions =
          (after start r.before).completions ++ [completion] ∧
        completion.user = scheduled.user ∧
        Due (after start r.calls).backends
          (PiiRowStore.rowsFor (after start r.before).backends scheduled.user).dekId
          completion.attestation := by
  have hstep := handled_onEvent r.event r.again (after start r.before)
  have hcalls : after start r.calls =
      ((onEvent r.event r.again).exec (after start r.before)).2 :=
    after_concat start r.before (.onEvent r.event r.again)
  rw [h.succeeded, ← hcalls] at hstep
  exact ⟨cached_handled h.cached hstep, attested_of_completed hstep h.decoded⟩

theorem Retry.Recovers.keeps {start : W} {r : Retry} {scheduled : UserErasureScheduled}
    {dekId : DekId} {first : ShredResult} (h : r.Recovers start scheduled dekId first)
    (hnamed : r.FindsDek start scheduled dekId) : r.KeepsAttestation start scheduled first := by
  obtain ⟨hcached, completion, hadded, huser, hdue⟩ := h.completion
  rw [show (PiiRowStore.rowsFor (after start r.before).backends scheduled.user).dekId =
    some dekId from hnamed] at hdue
  exact ⟨completion, hadded, huser, Option.some.inj (hdue.symm.trans hcached)⟩

/-- A kept attestation tells which DEK it stands for, and that it stands for one. -/
def Apart (w : W) : Prop :=
  ∀ d a dekId, LawfulBackends.cached w d = some a → Due w dekId a → dekId = some d

theorem Retry.Recovers.findsDek {start : W} {r : Retry} {scheduled : UserErasureScheduled}
    {dekId : DekId} {first : ShredResult} (h : r.Recovers start scheduled dekId first)
    (hapart : Apart (after start r.calls).backends)
    (hkeeps : r.KeepsAttestation start scheduled first) : r.FindsDek start scheduled dekId := by
  obtain ⟨hcached, completion, hadded, -, hdue⟩ := h.completion
  obtain ⟨completion', hadded', -, hattestation⟩ := hkeeps
  obtain rfl : completion = completion' := by
    simpa using hadded.symm.trans hadded'
  rw [hattestation] at hdue
  exact hapart dekId first.overall _ hcached hdue

/-! ## The cascade -/

/-- A refused event adds no completion and does not move the cursor. -/
def RefusalKeeps (o : ErasureCascadeObserver W) : Prop :=
  ∀ event ctx e o', (onEvent event ctx).exec o = (.error e, o') →
    o'.completions = o.completions ∧ o'.lastApplied = o.lastApplied

/-- A handled event adds one completion and moves the cursor to its position. -/
def CompletionAdds (o : ErasureCascadeObserver W) : Prop :=
  ∀ event ctx o', (onEvent event ctx).exec o = (.ok (), o') →
    (∃ completion, o'.completions = o.completions ++ [completion]) ∧
      o'.lastApplied = some (event.sequence, event.tick)

/-- Every event of the run whose tombstone failed and that is retried until it succeeds
    records the attestation of its first shred. -/
def RetriesKeepAttestation (start : W) (run : List Call) : Prop :=
  ∀ (r : Retry) (scheduled : UserErasureScheduled) (dekId : DekId) (first : ShredResult),
    r.calls <+: run → r.Recovers start scheduled dekId first →
      r.KeepsAttestation start scheduled first

/-- Each of them finds the DEK still named. -/
def RetriesFindDek (start : W) (run : List Call) : Prop :=
  ∀ (r : Retry) (scheduled : UserErasureScheduled) (dekId : DekId) (first : ShredResult),
    r.calls <+: run → r.Recovers start scheduled dekId first → r.FindsDek start scheduled dekId

/-- **The cascade is safe.** In every run a user's rows are tombstoned only once the DEK named
    for the user is shredded, an event that fails records nothing, and one that succeeds records
    one completion. Retries record the attestation of the first shred in every run where they find
    the DEK still named, and, where attestations tell the DEKs apart, in no other. -/
theorem cascade_safety (start : W) (run : List Call) :
    Traced.ShredBeforeTombstone (tracedAfter start run).backends.calls ∧
      RefusalKeeps (after start run) ∧ CompletionAdds (after start run) ∧
      (RetriesFindDek start run → RetriesKeepAttestation start run) ∧
      ((∀ pre, pre <+: run → Apart (after start pre).backends) →
        RetriesKeepAttestation start run → RetriesFindDek start run) := by
  refine ⟨shredBeforeTombstone_tracedAfter start run, ?_, ?_, ?_, ?_⟩
  · intro event ctx e o' hexec
    obtain ⟨hcompletions, hcursor⟩ := handled_error (handled_iff.mpr hexec)
    refine ⟨hcompletions, ?_⟩
    unfold lastApplied
    rw [hcursor]
  · intro event ctx o' hexec
    obtain ⟨hcompletion, hcursor⟩ := handled_ok (handled_iff.mpr hexec)
    refine ⟨hcompletion, ?_⟩
    unfold lastApplied
    rw [hcursor]
    rfl
  · intro hfinds r scheduled dekId first hcalls hrecovers
    exact hrecovers.keeps (hfinds r scheduled dekId first hcalls hrecovers)
  · intro hapart hkeeps r scheduled dekId first hcalls hrecovers
    exact hrecovers.findsDek (hapart r.calls hcalls) (hkeeps r scheduled dekId first hcalls hrecovers)

end

/-! ## In memory -/

section

variable [Blake3]

/-- The log of the shredder inside has one entry for each attestation that it keeps. -/
def Logged (s : Flaky (InMemoryPiiRowStore × InMemoryDekShredder)) : Prop :=
  ∃ history, ShredsLogged InMemoryDekShredder.attestationAt history s.world.2

/-- Attestations with an index of their own tell the DEKs apart. -/
theorem apart_of_logged {s : Flaky (InMemoryPiiRowStore × InMemoryDekShredder)} (h : Logged s) :
    Apart s := by
  obtain ⟨history, hlogged⟩ := h
  intro d a dekId hcached hdue
  have hkept : s.world.2.shredded d = some a := hcached
  cases dekId with
  | none =>
      obtain ⟨i, hindexed⟩ := hlogged.attested hkept
      have hplaceholder : a.logIndex = none := congrArg DekShredAttestation.logIndex hdue
      rw [hindexed] at hplaceholder
      exact absurd hplaceholder (Option.some_ne_none i)
  | some d' =>
      have hkept' : s.world.2.shredded d' = some a := hdue
      rw [hlogged.dek_of_index (fun _ _ => rfl) ((hlogged.cached d a).mp hkept)
        ((hlogged.cached d' a).mp hkept') rfl]

theorem logged_shred (dekId : DekId) (tick : Tick)
    {s : Flaky (InMemoryPiiRowStore × InMemoryDekShredder)} (h : Logged s) :
    Logged ((DekShredder.shredWithRegions dekId tick).exec s).2 := by
  obtain ⟨history, hlogged⟩ := h
  rw [Flaky.exec_shredWithRegions]
  split
  · exact ⟨history, hlogged⟩
  · rw [exec_shredWithRegions_pair, InMemoryDekShredder.exec_shredWithRegions]
    exact ⟨_, hlogged.step (InMemoryDekShredder.shredStep dekId s.world.2)⟩

theorem logged_tombstone (user : UserId)
    {s : Flaky (InMemoryPiiRowStore × InMemoryDekShredder)} (h : Logged s) :
    Logged ((PiiRowStore.tombstone user).exec s).2 := by
  rw [Flaky.exec_tombstone]
  split
  · exact h
  · exact h

/-- The in-memory shredder tells the DEKs apart in every run, whichever calls fail. -/
theorem apart_after [Postcard UserErasureScheduled]
    {start : Flaky (InMemoryPiiRowStore × InMemoryDekShredder)} (h : Logged start)
    (run : List Call) : Apart (after start run).backends :=
  apart_of_logged (backends_run (fun dekId tick _ => logged_shred dekId tick)
    (fun user _ => logged_tombstone user) h run)

end

section

attribute [local instance] oneBlockBlake3 postcardWire

/-- A user with two rows under one DEK. -/
def doomedUser : UserId := ⟨⟨firstInstance.get, firstInstance.get_ne_zero⟩⟩

def doomedDek : DekId := ⟨.replicate 16 0xEF⟩

def doomedBackends : InMemoryPiiRowStore × InMemoryDekShredder :=
  (InMemoryPiiRowStore.new.upsert doomedUser [1, 2] doomedDek,
    InMemoryDekShredder.new.register doomedDek)

/-- The scheduled erasure of that user. -/
def doomedEvent (sequence : UInt64) (tick : Tick) : EventRecord where
  typeCode := ArkheEvent.typeCode UserErasureScheduled
  sequence := sequence
  tick := tick
  payload := Wire.userErasureScheduled.encode ⟨1, doomedUser, tick⟩

def doomedContext (tick : Tick) : ProjectionContext where
  tick := tick
  instanceId := firstInstance

theorem decodeScheduled_doomedEvent (sequence : UInt64) (tick : Tick) :
    decodeScheduled (doomedEvent sequence tick) = .ok ⟨1, doomedUser, tick⟩ := by
  have hround : Postcard.fromBytes (doomedEvent sequence tick).payload =
      .ok (UserErasureScheduled.mk 1 doomedUser tick) :=
    Postcard.ofCodec_roundTrip Wire.userErasureScheduled (.mk 1 doomedUser tick) _ rfl
  unfold decodeScheduled
  rw [hround]

/-- A second user under the same DEK. -/
def sharingUser : UserId := ⟨⟨2, by decide⟩⟩

/-- The scheduled erasure of the second user. -/
def sharingEvent : EventRecord :=
  { doomedEvent 1 41 with payload := Wire.userErasureScheduled.encode ⟨1, sharingUser, 41⟩ }

/-- Two users under one DEK; the first shred goes through and the first tombstone is refused. -/
def refusedOnce : Flaky (InMemoryPiiRowStore × InMemoryDekShredder) :=
  ⟨(doomedBackends.1.upsert sharingUser [3] doomedDek, doomedBackends.2), [false, true]⟩

/-- The refused event, retried after another one. -/
def retryAfter (event : EventRecord) : Retry where
  earlier := []
  event := doomedEvent 0 40
  ctx := doomedContext 40
  between := [.onEvent event (doomedContext 41)]
  again := doomedContext 42

/-- Another event that is handled in between leaves the retry to succeed. -/
theorem recovers_retryAfter {event : EventRecord} (hne : event ≠ doomedEvent 0 40)
    (hok : ((onEvent (doomedEvent 0 40) (doomedContext 42)).exec
      (after refusedOnce (retryAfter event).before)).1 = .ok ()) :
    (retryAfter event).Recovers refusedOnce ⟨1, doomedUser, 40⟩ doomedDek
      (singleRegion 40 (InMemoryDekShredder.attestationAt doomedDek 0)) where
  decoded := decodeScheduled_doomedEvent 0 40
  named := rfl
  failed := ⟨_, _, _, rfl, rfl⟩
  refused := by
    intro pre ctx hprefix
    rcases List.prefix_concat_iff.mp (show _ <+: [] ++ [_] from hprefix) with hall | hshort
    · have hlast := (List.append_inj' hall rfl).2
      simp only [List.cons.injEq, Call.onEvent.injEq, and_true] at hlast
      exact absurd hlast.1.symm hne
    · simp at hshort
  succeeded := hok

theorem sharingEvent_ne : sharingEvent ≠ doomedEvent 0 40 := by
  intro h
  cases congrArg EventRecord.tick h

/-- No other event of the three calls is delivered twice. -/
theorem eq_retryAfter {event : EventRecord} (hne : event ≠ doomedEvent 0 40) {r : Retry}
    (hcalls : r.calls <+: (retryAfter event).calls) : r = retryAfter event := by
  obtain ⟨later, hcalls⟩ := hcalls
  obtain ⟨earlier, event', ctx, between, again⟩ := r
  unfold Retry.calls Retry.before retryAfter at hcalls
  rcases earlier with _ | ⟨c, _ | ⟨c', earlier⟩⟩
  · rcases between with _ | ⟨c, _ | ⟨c', between⟩⟩
    · simp only [List.nil_append, List.cons_append, List.cons.injEq, Call.onEvent.injEq] at hcalls
      exact absurd (hcalls.2.1.1.symm.trans hcalls.1.1) hne
    · simp only [List.nil_append, List.cons_append, List.cons.injEq, Call.onEvent.injEq] at hcalls
      obtain ⟨⟨rfl, rfl⟩, rfl, ⟨-, rfl⟩, -⟩ := hcalls
      rfl
    · have hlength := congrArg List.length hcalls
      simp at hlength
  · rcases between with _ | ⟨c', between⟩
    · simp only [List.nil_append, List.cons_append, List.cons.injEq, Call.onEvent.injEq] at hcalls
      exact absurd (hcalls.2.1.1.symm.trans hcalls.2.2.1.1) hne
    · have hlength := congrArg List.length hcalls
      simp at hlength
  · have hlength := congrArg List.length hcalls
    simp at hlength
    omega

/-- Another user's event does not take the DEK's name from the user's rows. -/
theorem retriesFindDek_sharing :
    RetriesFindDek refusedOnce (retryAfter sharingEvent).calls := by
  intro r scheduled dekId first hcalls hrecovers
  obtain rfl := eq_retryAfter sharingEvent_ne hcalls
  obtain rfl : ⟨1, doomedUser, 40⟩ = scheduled :=
    Except.ok.inj ((decodeScheduled_doomedEvent 0 40).symm.trans hrecovers.decoded)
  exact hrecovers.named

/-- A retry with the event of a user of the same DEK in between. -/
theorem cascade_safety_retried :
    RetriesFindDek refusedOnce (retryAfter sharingEvent).calls ∧
      (retryAfter sharingEvent).KeepsAttestation refusedOnce ⟨1, doomedUser, 40⟩
        (singleRegion 40 (InMemoryDekShredder.attestationAt doomedDek 0)) := by
  have hkeeps := (cascade_safety refusedOnce (retryAfter sharingEvent).calls).2.2.2.1
    retriesFindDek_sharing
  exact ⟨retriesFindDek_sharing, hkeeps (retryAfter sharingEvent) _ _ _ (List.prefix_refl _)
    (recovers_retryAfter sharingEvent_ne rfl)⟩

/-- **Overtaken.** A second event for the user is completed before the refused one is retried,
    and the retry records the placeholder. -/
theorem cascade_safety_overtaken :
    ¬ ∀ (start : Flaky (InMemoryPiiRowStore × InMemoryDekShredder)) (run : List Call),
      RetriesKeepAttestation start run := by
  intro hclaim
  have hne : doomedEvent 1 41 ≠ doomedEvent 0 40 := by
    intro h
    cases congrArg EventRecord.tick h
  have hrecovers := recovers_retryAfter hne rfl
  have hkeeps := hclaim refusedOnce (retryAfter (doomedEvent 1 41)).calls _ _ _ _
    (List.prefix_refl _) hrecovers
  have hlogged : Logged refusedOnce :=
    ⟨_, (InMemoryDekShredder.logsAs.run trivial rfl [.register doomedDek]).2⟩
  have hfinds := hrecovers.findsDek (apart_after hlogged _) hkeeps
  have hforgotten : (PiiRowStore.rowsFor
      (after refusedOnce (retryAfter (doomedEvent 1 41)).before).backends doomedUser).dekId =
        none := rfl
  exact absurd (hforgotten.symm.trans hfinds) (by simp)

end

end ErasureCascadeObserver

end ArkheForge.Platform
