/-
  Erasures over a whole stream: `ErasureCascadeObserver` behind the consumer of `Rebuild`.

  The observer is one projection among the others of a router that crashes, resumes and
  redelivers, and its backends fail at any call. `answers` says without it what the row store
  answers for one user after another if nothing fails. The completions are those answers,
  one for each event of a first part of the stream that has every acknowledged event, each with
  the attestation of the DEK that was named (`erasures_complete_once`). Nothing is drained
  here, and the rows are written by the cascade alone.
-/
import ArkheForge.Platform.Erasure.Order
import ArkheForge.Platform.Projection.Places

namespace ArkheForge.Platform

open ArkheForge.Core BigEndian Consumer Fallible

/-! ## What a tombstone does -/

/-- Rows that go with a tombstone, and a mark that stays. -/
class LawfulRows (W : Type) [PiiRowStore W] [DekShredder W] : Prop where
  rowsFor_tombstone : ∀ {user : UserId} {w w' : W} (other : UserId),
    (PiiRowStore.tombstone user).exec w = (.ok (), w') →
      PiiRowStore.rowsFor w' other =
        if other = user then UserPiiRows.empty else PiiRowStore.rowsFor w other
  isTombstoned_tombstone : ∀ {user : UserId} {w w' : W} (other : UserId),
    (PiiRowStore.tombstone user).exec w = (.ok (), w') →
      (PiiRowStore.isTombstoned w' other = true ↔
        other = user ∨ PiiRowStore.isTombstoned w other = true)
  isTombstoned_tombstone_error : ∀ {user : UserId} {w w' : W} {e : ProjectionError}
    (other : UserId), (PiiRowStore.tombstone user).exec w = (.error e, w') →
      PiiRowStore.isTombstoned w' other = PiiRowStore.isTombstoned w other
  isTombstoned_shred : ∀ (dekId : DekId) (tick : Tick) (w : W) (other : UserId),
    PiiRowStore.isTombstoned ((DekShredder.shredWithRegions dekId tick).exec w).2 other =
      PiiRowStore.isTombstoned w other

instance inMemoryRows [Blake3] : LawfulRows (InMemoryPiiRowStore × InMemoryDekShredder) where
  rowsFor_tombstone := by
    intro user w w' other h
    obtain ⟨-, rfl⟩ := Prod.mk.inj h
    show (Function.update w.1.users user none other).getD _ = _
    by_cases hother : other = user
    · subst hother
      simp
    · rw [Function.update_of_ne hother, if_neg hother]
      rfl
  isTombstoned_tombstone := by
    intro user w w' other h
    obtain ⟨-, rfl⟩ := Prod.mk.inj h
    show decide (other ∈ insert user w.1.tombstoned) = true ↔
      other = user ∨ decide (other ∈ w.1.tombstoned) = true
    simp
  isTombstoned_tombstone_error := by
    intro user w w' e other h
    cases h
  isTombstoned_shred := by
    intro dekId tick w other
    rw [exec_shredWithRegions_pair]
    rfl

namespace Flaky

variable {W : Type} [PiiRowStore W]

instance lawfulRows [DekShredder W] [LawfulRows W] : LawfulRows (Flaky W) where
  rowsFor_tombstone := by
    intro user s s' other h
    show PiiRowStore.rowsFor s'.world other =
      if other = user then _ else PiiRowStore.rowsFor s.world other
    exact LawfulRows.rowsFor_tombstone other (exec_tombstone_ok h)
  isTombstoned_tombstone := by
    intro user s s' other h
    show PiiRowStore.isTombstoned s'.world other = true ↔
      other = user ∨ PiiRowStore.isTombstoned s.world other = true
    exact LawfulRows.isTombstoned_tombstone other (exec_tombstone_ok h)
  isTombstoned_tombstone_error := by
    intro user s s' e other h
    show PiiRowStore.isTombstoned s'.world other = PiiRowStore.isTombstoned s.world other
    rcases exec_tombstone_error h with hsame | hexec
    · rw [hsame]
    · exact LawfulRows.isTombstoned_tombstone_error other hexec
  isTombstoned_shred := by
    intro dekId tick s other
    rw [exec_shredWithRegions]
    split
    · rfl
    · exact LawfulRows.isTombstoned_shred dekId tick s.world other

end Flaky

namespace ErasureCascadeObserver

/-! ## The observer among the projections of a router -/

section

variable {W : Type} [PiiRowStore W] [DekShredder W] [Postcard UserErasureScheduled]

instance cascadeLawful : LawfulProjection (ErasureCascadeObserver W) where
  observes_onEvent event ctx o := rfl
  observes_onStateChange next o := rfl
  lastApplied_of_ok event ctx o h := by
    have hstep := handled_onEvent event ctx o
    rw [show ((onEvent event ctx).exec o).1 = .ok () from h] at hstep
    show lastApplied ((onEvent event ctx).exec o).2 = _
    unfold lastApplied
    rw [(handled_ok hstep).2]
    rfl
  lastApplied_of_error event ctx o err h := by
    have hstep := handled_onEvent event ctx o
    rw [show ((onEvent event ctx).exec o).1 = .error err from h] at hstep
    show lastApplied ((onEvent event ctx).exec o).2 = lastApplied o
    unfold lastApplied
    rw [(handled_error hstep).2]
  lastApplied_onStateChange next o := rfl

/-- The event is one the observer observes. -/
def Scheduling (event : EventRecord) : Prop :=
  event.typeCode = ArkheEvent.typeCode UserErasureScheduled

instance schedulingDecidable : DecidablePred Scheduling := fun _ =>
  inferInstanceAs (Decidable (_ = _))

/-- The user to be erased, if the payload decodes. -/
def userOf (event : EventRecord) : Option UserId :=
  (decodeScheduled event).toOption.map UserErasureScheduled.user

/-- The users the events schedule the erasure of, in their order. -/
def usersOf (events : List EventRecord) : List UserId :=
  (events.filter fun event => Scheduling event).filterMap userOf

theorem userOf_of_decode {event : EventRecord} {scheduled : UserErasureScheduled}
    (h : decodeScheduled event = .ok scheduled) : userOf event = some scheduled.user := by
  unfold userOf
  rw [h]
  rfl

end

/-! ## What the row store answers -/

section

variable {W : Type} [PiiRowStore W]

/-- What is left of the rows of a user once these users are erased. -/
def rowsLeft (w : W) (users : List UserId) (user : UserId) : UserPiiRows :=
  if user ∈ users then .empty else PiiRowStore.rowsFor w user

/-- The users in turn, each with the rows that are left of it when its turn comes. -/
def answers (w : W) (erased : List UserId) : List UserId → List (UserId × UserPiiRows)
  | [] => []
  | user :: later => (user, rowsLeft w erased user) :: answers w (erased ++ [user]) later

theorem answers_concat (w : W) (erased users : List UserId) (user : UserId) :
    answers w erased (users ++ [user]) =
      answers w erased users ++ [(user, rowsLeft w (erased ++ users) user)] := by
  induction users generalizing erased with
  | nil => simp [answers]
  | cons first later ih =>
      simp only [List.cons_append, answers, ih, List.append_assoc, List.nil_append]

/-- The first turn of a user meets all its rows. -/
theorem mem_answers (w : W) {erased users : List UserId} {user : UserId} (h : user ∈ users)
    (hfirst : user ∉ erased) : (user, PiiRowStore.rowsFor w user) ∈ answers w erased users := by
  induction users generalizing erased with
  | nil => exact absurd h List.not_mem_nil
  | cons first later ih =>
      unfold answers
      by_cases heq : user = first
      · subst heq
        rw [rowsLeft, if_neg hfirst]
        exact List.mem_cons_self
      · refine List.mem_cons_of_mem _ (ih (List.mem_of_ne_of_mem heq h) ?_)
        simp [hfirst, heq]

end

section

variable {W : Type} [PiiRowStore W] [DekShredder W] [LawfulBackends W]

/-- The completion of one answer: what the store named, and the attestation that is kept. -/
structure Completes (w : W) (answer : UserId × UserPiiRows) (completion : ErasureCompletion) :
    Prop where
  user : completion.user = answer.1
  tombstonedRows : completion.tombstonedRows = answer.2.rows.length
  attested : ∀ dekId, answer.2.dekId = some dekId →
    LawfulBackends.cached w dekId = some completion.attestation
  noDek : answer.2.dekId = none →
    completion.attestation = noDekResult.overall ∧ completion.regions = []

/-- The users are erased, each completed in its turn; the rows of all others are as they were. -/
structure Erased (w : W) (users : List UserId) (o : ErasureCascadeObserver W) : Prop where
  rowsFor : ∀ user, PiiRowStore.rowsFor o.backends user = rowsLeft w users user
  isTombstoned : ∀ user, PiiRowStore.isTombstoned o.backends user = true ↔
    user ∈ users ∨ PiiRowStore.isTombstoned w user = true
  completions : List.Forall₂ (Completes o.backends) (answers w [] users) o.completions

theorem erased_new (w : W) : Erased w [] (new w) where
  rowsFor _ := rfl
  isTombstoned _ := by simp [new]
  completions := List.Forall₂.nil

theorem Completes.keep {w w' : W} {answer : UserId × UserPiiRows} {completion : ErasureCompletion}
    (h : Completes w answer completion)
    (hcached : ∀ {dekId a}, LawfulBackends.cached w dekId = some a →
      LawfulBackends.cached w' dekId = some a) : Completes w' answer completion :=
  ⟨h.user, h.tombstonedRows, fun dekId hdek => hcached (h.attested dekId hdek), h.noDek⟩

/-- What the shred step returned is the attestation of the DEK that the store named. -/
theorem completes_shredNamed {w w' : W} {rows : UserPiiRows} {user : UserId} {tick : Tick}
    {result : ShredResult} (h : (shredNamed rows.dekId tick).exec w = (.ok result, w')) :
    Completes w' (user, rows) ⟨user, tick, rows.rows.length, result.overall, result.regions⟩ := by
  refine ⟨rfl, rfl, ?_, ?_⟩
  · intro dekId hdek
    rw [show rows.dekId = some dekId from hdek] at h
    exact LawfulBackends.cached_of_shred h
  · intro hnone
    rw [show rows.dekId = none from hnone] at h
    obtain rfl := Except.ok.inj (Prod.mk.inj h).1
    exact ⟨rfl, rfl⟩

/-- The DEK of an erased user is shredded. -/
theorem Erased.shredded {w : W} {users : List UserId} {o : ErasureCascadeObserver W}
    (h : Erased w users o) {user : UserId} (huser : user ∈ users) {dekId : DekId}
    (hdek : (PiiRowStore.rowsFor w user).dekId = some dekId) :
    (LawfulBackends.cached o.backends dekId).isSome := by
  obtain ⟨i, hi⟩ := List.mem_iff_getElem?.mp (mem_answers w huser List.not_mem_nil)
  have hlt := (List.getElem?_eq_some_iff.mp hi).1
  rw [h.completions.length_eq] at hlt
  have hcompletes : Completes o.backends _ _ :=
    Pointwise.getElem?_rel h.completions hi (List.getElem?_eq_getElem hlt)
  rw [hcompletes.attested dekId hdek]
  rfl

variable [LawfulRows W]

omit [LawfulBackends W] in
theorem isTombstoned_shredNamed {dekId : Option DekId} {tick : Tick} {w w' : W}
    {outcome : Except DekShredError ShredResult}
    (h : (shredNamed dekId tick).exec w = (outcome, w')) (user : UserId) :
    PiiRowStore.isTombstoned w' user = PiiRowStore.isTombstoned w user :=
  shredNamed_keeps (f := fun w => PiiRowStore.isTombstoned w user)
    (fun dekId tick w => LawfulRows.isTombstoned_shred dekId tick w user) h

variable [Postcard UserErasureScheduled]

omit [LawfulBackends W] in
theorem isTombstoned_handled_error {event : EventRecord} {ctx : ProjectionContext}
    {o o' : ErasureCascadeObserver W} {e : ProjectionError}
    (h : Handled event ctx o (.error e) o') (user : UserId) :
    PiiRowStore.isTombstoned o'.backends user = PiiRowStore.isTombstoned o.backends user :=
  handled_error_keeps (f := fun w => PiiRowStore.isTombstoned w user)
    (fun dekId tick w => LawfulRows.isTombstoned_shred dekId tick w user)
    (LawfulRows.isTombstoned_tombstone_error user) h

theorem Erased.error {w : W} {users : List UserId} {event : EventRecord} {ctx : ProjectionContext}
    {o o' : ErasureCascadeObserver W} {e : ProjectionError} (h : Erased w users o)
    (hstep : Handled event ctx o (.error e) o') : Erased w users o' where
  rowsFor user := (rowsFor_handled_error hstep user).trans (h.rowsFor user)
  isTombstoned user := by
    rw [isTombstoned_handled_error hstep user]
    exact h.isTombstoned user
  completions := by
    rw [(handled_error hstep).1]
    exact h.completions.imp fun _ _ hold => hold.keep fun hcached => cached_handled hcached hstep

theorem Erased.ok {w : W} {users : List UserId} {event : EventRecord} {ctx : ProjectionContext}
    {o o' : ErasureCascadeObserver W} (h : Erased w users o)
    (hstep : Handled event ctx o (.ok ()) o') :
    ∃ user, userOf event = some user ∧ Erased w (users ++ [user]) o' := by
  have hkept : ∀ {dekId a}, LawfulBackends.cached o.backends dekId = some a →
      LawfulBackends.cached o'.backends dekId = some a := fun hcached =>
    cached_handled hcached hstep
  generalize houtcome : (.ok () : Except ProjectionError Unit) = outcome at hstep
  cases hstep with
  | malformed => cases houtcome
  | unshredded => cases houtcome
  | untombstoned => cases houtcome
  | completed scheduled result w₁ w₂ hdecode hshred htombstone =>
      refine ⟨scheduled.user, userOf_of_decode hdecode, ?_, ?_, ?_⟩
      · intro user
        rw [LawfulRows.rowsFor_tombstone user htombstone, rowsFor_shredNamed hshred, h.rowsFor]
        unfold rowsLeft
        by_cases huser : user = scheduled.user
        · simp [huser]
        · simp [huser]
      · intro user
        rw [LawfulRows.isTombstoned_tombstone user htombstone, isTombstoned_shredNamed hshred,
          h.isTombstoned, List.mem_append, List.mem_singleton]
        tauto
      · rw [answers_concat, List.nil_append, ← h.rowsFor]
        refine List.rel_append ?_ (List.Forall₂.cons ?_ List.Forall₂.nil)
        · exact h.completions.imp fun _ _ hold => hold.keep hkept
        · exact (completes_shredNamed hshred).keep fun hcached =>
            cached_exec_tombstone hcached htombstone

/-! ## Over a stream -/

/-- What the observer holds of the events it accepted. -/
def ErasedBy (w : W) (events : List EventRecord) (o : ErasureCascadeObserver W) : Prop :=
  (∀ event ∈ events, (userOf event).isSome) ∧ Erased w (events.filterMap userOf) o

theorem accumulates (w : W) : Accumulates (ErasedBy w) where
  accepted {events event ctx o o'} h hexec := by
    obtain ⟨user, huser, herased⟩ := h.2.ok (handled_iff.mpr hexec)
    refine ⟨?_, ?_⟩
    · intro other hother
      rcases List.mem_append.mp hother with hold | hlast
      · exact h.1 other hold
      · rw [List.mem_singleton.mp hlast, huser]
        rfl
    · have hone : [event].filterMap userOf = [user] := by simp [huser]
      rw [List.filterMap_append, hone]
      exact herased
  refused {events event ctx o o' err} h hexec := ⟨h.1, h.2.error (handled_iff.mpr hexec)⟩
  onStateChange _ _ h := h

omit [LawfulRows W] in
theorem erased_of_observed {w : W} {events : List EventRecord} {o : ErasureCascadeObserver W}
    (h : ErasedBy w (observed (new w) events) o) :
    (∀ event ∈ events, Scheduling event → (userOf event).isSome) ∧ Erased w (usersOf events) o := by
  have hobserved : observed (new w) events = events.filter fun event => Scheduling event := by
    refine List.filter_congr ?_
    intro event _
    exact decide_eq_decide.mpr List.mem_singleton
  rw [hobserved] at h
  refine ⟨?_, h.2⟩
  intro event hevent hscheduling
  exact h.1 event (List.mem_filter.mpr ⟨hevent, decide_eq_true hscheduling⟩)

variable {Q : Type} [Projection Q] [LawfulProjection Q]

/-- **Erasures are completed once.** However the consumer of an ordered stream has stepped,
    whatever the other projections are and wherever they or the backends failed: the observer
    has one completion for each erasure scheduled in a first part of the stream that has every
    event ever acknowledged, in order, with the rows and the attestation of the DEK that the
    store named when its turn came; no other user has lost a row. So an erasure that was
    acknowledged is done: no row is left, and the DEK of the rows is shredded. -/
theorem erasures_complete_once {stream : List EventRecord} (hordered : Ordered none stream)
    {ps : List (ErasureCascadeObserver W ⊕ Q)}
    (hfresh : ∀ p ∈ ps, Projection.lastApplied p = none) (steps : List ConsumerStep) {i : ℕ}
    {w : W} (hi : ps[i]? = some (.inl (new w))) :
    ∃ o k, ((start ps).run stream steps).router.projections[i]? = some (.inl o) ∧
      Covers stream ps steps k ∧
      (∀ event ∈ stream.take k, Scheduling event → (userOf event).isSome) ∧
      Erased w (usersOf (stream.take k)) o ∧
      ∀ earlier, earlier <+: steps →
        ∀ event ∈ stream.take ((start ps).run stream earlier).next, Scheduling event →
        ∃ user, userOf event = some user ∧ PiiRowStore.rowsFor o.backends user = .empty ∧
          PiiRowStore.isTombstoned o.backends user = true ∧
          ∀ dekId, (PiiRowStore.rowsFor w user).dekId = some dekId →
            (LawfulBackends.cached o.backends dekId).isSome := by
  obtain ⟨o, k, hplace, hk, hholds⟩ := placed_holds (accumulates w) hordered hfresh steps hi
    ⟨by simp, erased_new w⟩
  obtain ⟨hdecoded, herased⟩ := erased_of_observed hholds
  refine ⟨o, k, hplace, hk, hdecoded, herased, ?_⟩
  intro earlier hearlier event hevent hscheduling
  have htake : event ∈ stream.take k :=
    List.take_subset_take_left stream (hk earlier hearlier) hevent
  obtain ⟨user, huser⟩ := Option.isSome_iff_exists.mp (hdecoded event htake hscheduling)
  have hmem : user ∈ usersOf (stream.take k) := List.mem_filterMap.mpr
    ⟨event, List.mem_filter.mpr ⟨htake, decide_eq_true hscheduling⟩, huser⟩
  refine ⟨user, huser, ?_, (herased.isTombstoned user).mpr (.inl hmem), ?_⟩
  · have hrows := herased.rowsFor user
    rw [rowsLeft, if_pos hmem] at hrows
    exact hrows
  · exact fun dekId hdek => herased.shredded hmem hdek

end

/-! ## An erasure that is scheduled twice and refused once -/

section

attribute [local instance] oneBlockBlake3 postcardWire

def doomedStream : List EventRecord := [doomedEvent 0 40, doomedEvent 0 41]

def doomedPlaces :
    List (ErasureCascadeObserver (Flaky (InMemoryPiiRowStore × InMemoryDekShredder)) ⊕
      FailSecondProjection) := [.inr (.called 0), .inl (new refusedOnce)]

/-- The tombstone is refused; the router is rebuilt and takes the event again. -/
def doomedSteps : List ConsumerStep :=
  [.transition .active, .deliver 0 (doomedContext 40), .rebuild 0, .transition .active,
    .deliver 0 (doomedContext 41), .deliver 1 (doomedContext 42)]

/-- Two completions: one with both rows and the attestation of the DEK, one with neither. -/
theorem erasures_complete_once_refused :
    ∃ o first second,
      ((start doomedPlaces).run doomedStream doomedSteps).router.projections[1]? = some (.inl o) ∧
      o.completions = [first, second] ∧ first.tombstonedRows = 2 ∧
      LawfulBackends.cached o.backends doomedDek = some first.attestation ∧
      second.tombstonedRows = 0 ∧ second.attestation = noDekResult.overall := by
  have hordered : Ordered none doomedStream := ordered_heads rfl (by decide)
  have hfresh : ∀ p ∈ doomedPlaces, Projection.lastApplied p = none := by
    intro p hp
    rcases List.mem_pair.mp hp with rfl | rfl
    · rfl
    · rfl
  have hnext : ((start doomedPlaces).run doomedStream doomedSteps).next = 2 := by decide +kernel
  obtain ⟨o, k, hplace, hk, -, herased, -⟩ :=
    erasures_complete_once hordered hfresh doomedSteps (i := 1) rfl
  have hk := hk doomedSteps (List.prefix_refl _)
  rw [hnext] at hk
  have hall : doomedStream.take k = doomedStream := List.take_of_length_le hk
  have huser : ∀ tick, userOf (doomedEvent 0 tick) = some doomedUser := fun tick =>
    userOf_of_decode (decodeScheduled_doomedEvent 0 tick)
  have husers : usersOf doomedStream = [doomedUser, doomedUser] := by
    show List.filterMap userOf doomedStream = _
    simp [doomedStream, huser]
  have hanswers : answers refusedOnce [] [doomedUser, doomedUser] =
      [(doomedUser, ⟨[1, 2], some doomedDek⟩), (doomedUser, .empty)] := rfl
  have hcompletions := herased.completions
  rw [hall, husers, hanswers] at hcompletions
  obtain ⟨first, rest, hfirst, hrest, hall'⟩ := List.forall₂_cons_left_iff.mp hcompletions
  obtain ⟨second, rest', hsecond, hend, hrest'⟩ := List.forall₂_cons_left_iff.mp hrest
  obtain rfl := List.forall₂_nil_left_iff.mp hend
  refine ⟨o, first, second, hplace, ?_, hfirst.tombstonedRows, hfirst.attested doomedDek rfl,
    hsecond.tombstonedRows, (hsecond.noDek rfl).1⟩
  rw [hall', hrest']

end

end ErasureCascadeObserver

end ArkheForge.Platform
