/-
  What a completion attests to, over the in-memory backends.

  The attestation is reached through the row store, and the store forgets a user's DEK
  with the rows. A second event for the same user then finds no DEK to shred and is
  completed with the placeholder of a user who never had one. `StillNamed` is the
  condition that this does not happen, and a run keeps every completion backed exactly
  where each of its events meets it (`completions_backed_iff`).
-/
import ArkheForge.Platform.Erasure.Order

namespace ArkheForge.Platform

open ArkheForge.Core BigEndian Fallible

/-! ## Issued attestations -/

namespace InMemoryDekShredder

variable [Blake3]

/-- The cache holds nothing but attestations of the shredder's own. -/
def Issued (s : InMemoryDekShredder) : Prop :=
  ∀ dekId a, s.shredded dekId = some a → ∃ logIndex, a = attestationAt dekId logIndex

theorem issued_new : Issued new := by
  intro dekId a h
  cases h

theorem issued_register {s : InMemoryDekShredder} (h : s.Issued) (dekId : DekId) :
    (s.register dekId).Issued := h

theorem issued_shred {s : InMemoryDekShredder} (h : s.Issued) (dekId : DekId) :
    ((shred dekId).exec s).2.Issued := by
  intro d a hd
  rw [exec_shred] at hd
  cases hcached : s.shredded dekId with
  | some cached =>
      simp only [hcached] at hd
      exact h d a hd
  | none =>
      simp only [hcached] at hd
      split at hd
      · exact h d a hd
      · split at hd
        · exact h d a hd
        · dsimp only at hd
          by_cases heq : d = dekId
          · rw [heq, Function.update_self] at hd
            exact ⟨s.nextLogIndex, by rw [heq, Option.some.inj hd]⟩
          · rw [Function.update_of_ne heq] at hd
            exact h d a hd

theorem attestationBytes_ne_nil (dekId : DekId) (logIndex : UInt64) :
    (attestationAt dekId logIndex).attestationBytes ≠ [] := by
  intro hnil
  have hlength := congrArg List.length hnil
  simp [attestationAt] at hlength

end InMemoryDekShredder

namespace ErasureCascadeObserver

/-- The observer's world in memory. -/
abbrev InMemory := InMemoryPiiRowStore × InMemoryDekShredder

/-- The DEK the store names for a user. -/
def namedDek (w : InMemory) (user : UserId) : Option DekId := (w.1.rowsFor user).dekId

/-- The attestation of a DEK: the one the shredder keeps for it, not empty, with the log index of
    the shred. -/
structure AttestedBy (s : InMemoryDekShredder) (dekId : DekId) (a : DekShredAttestation) :
    Prop where
  kept : s.shredded dekId = some a
  nonempty : a.attestationBytes ≠ []
  indexed : ∃ logIndex, a.logIndex = some logIndex

/-- Every completion of a user who had a DEK at the start carries its attestation, and the
    placeholder stands for users who had none. -/
def Backed (start : InMemory) (o : ErasureCascadeObserver InMemory) : Prop :=
  ∀ completion ∈ o.completions,
    (∀ dekId, namedDek start completion.user = some dekId →
      AttestedBy o.backends.2 dekId completion.attestation) ∧
    (completion.attestation = noDekResult.overall → namedDek start completion.user = none)

theorem namedDek_tombstone {w w' : InMemory} {user : UserId}
    {outcome : Except ProjectionError Unit}
    (h : (PiiRowStore.tombstone user).exec w = (outcome, w')) :
    outcome = .ok () ∧ w'.2 = w.2 ∧ namedDek w' user = none ∧
      ∀ other dekId, namedDek w' other = some dekId → namedDek w other = some dekId := by
  obtain ⟨rfl, rfl⟩ := Prod.mk.inj h
  refine ⟨rfl, rfl, ?_, ?_⟩
  · show (Option.getD (Function.update w.1.users user none user) UserPiiRows.empty).dekId = none
    rw [Function.update_self]
    rfl
  · intro other dekId hnamed
    by_cases heq : other = user
    · have hnone : (Option.getD (Function.update w.1.users user none other)
          UserPiiRows.empty).dekId = some dekId := hnamed
      rw [heq, Function.update_self] at hnone
      cases hnone
    · have hsome : (Option.getD (Function.update w.1.users user none other)
          UserPiiRows.empty).dekId = some dekId := hnamed
      rw [Function.update_of_ne heq] at hsome
      exact hsome

section

variable [Blake3]

/-- Rows only go, and the cache holds issued attestations. -/
structure Faithful (start : InMemory) (o : ErasureCascadeObserver InMemory) : Prop where
  named : ∀ user dekId, namedDek o.backends user = some dekId → namedDek start user = some dekId
  issued : o.backends.2.Issued

theorem AttestedBy.of_cached {w : InMemory} (hissued : w.2.Issued) {dekId : DekId}
    {a : DekShredAttestation} (h : LawfulBackends.cached w dekId = some a) :
    AttestedBy w.2 dekId a := by
  obtain ⟨logIndex, rfl⟩ := hissued dekId a h
  exact ⟨h, InMemoryDekShredder.attestationBytes_ne_nil dekId logIndex, logIndex, rfl⟩

theorem issued_shredNamed {w w' : InMemory} {dekId : Option DekId} {tick : Tick}
    {outcome : Except DekShredError ShredResult} (hissued : w.2.Issued)
    (h : (shredNamed dekId tick).exec w = (outcome, w')) : w'.2.Issued := by
  cases dekId with
  | none =>
      obtain ⟨-, rfl⟩ := Prod.mk.inj h
      exact hissued
  | some dekId =>
      have hexec : (DekShredder.shredWithRegions dekId tick).exec w = (outcome, w') := h
      rw [exec_shredWithRegions_pair, InMemoryDekShredder.exec_shredWithRegions] at hexec
      obtain ⟨-, rfl⟩ := Prod.mk.inj hexec
      exact InMemoryDekShredder.issued_shred hissued dekId

end

section

variable [Blake3] [Postcard UserErasureScheduled]

/-- The user of the event, if they had a DEK at the start, still has one in the store. -/
def StillNamed (start : InMemory) (o : ErasureCascadeObserver InMemory) (event : EventRecord) :
    Prop :=
  ∀ scheduled, decodeScheduled event = .ok scheduled →
    namedDek start scheduled.user ≠ none → namedDek o.backends scheduled.user ≠ none

/-- Each event of the run meets the condition where it is handled. -/
def RunNames (start : InMemory) (run : List Call) : Prop :=
  ∀ pre event ctx, pre ++ [.onEvent event ctx] <+: run → StillNamed start (after start pre) event

/-! ## One event -/

theorem faithful_handled {start : InMemory} {event : EventRecord} {ctx : ProjectionContext}
    {o o' : ErasureCascadeObserver InMemory} {outcome : Except ProjectionError Unit}
    (hfaithful : Faithful start o) (h : Handled event ctx o outcome o') : Faithful start o' := by
  have hshredded : ∀ {user : UserId} {result : Except DekShredError ShredResult} {w : InMemory},
      (shredNamed (PiiRowStore.rowsFor o.backends user).dekId ctx.tick).exec o.backends =
        (result, w) → Faithful start { o with backends := w } := by
    intro user result w hshred
    refine ⟨?_, issued_shredNamed hfaithful.issued hshred⟩
    intro other dekId hnamed
    refine hfaithful.named other dekId (Eq.trans ?_ hnamed)
    exact congrArg UserPiiRows.dekId (rowsFor_shredNamed hshred other).symm
  have htombstoned : ∀ {user : UserId} {w w' : InMemory} {result : Except ProjectionError Unit},
      Faithful start { o with backends := w } →
      (PiiRowStore.tombstone user).exec w = (result, w') →
        Faithful start { o with backends := w' } := by
    intro user w w' result hw htombstone
    obtain ⟨-, hshredder, -, hnamed⟩ := namedDek_tombstone htombstone
    refine ⟨fun other dekId hother => hw.named other dekId (hnamed other dekId hother), ?_⟩
    rw [hshredder]
    exact hw.issued
  cases h with
  | malformed => exact hfaithful
  | unshredded scheduled e w hdecode hshred => exact hshredded hshred
  | untombstoned scheduled result w e w' hdecode hshred htombstone =>
      exact htombstoned (hshredded hshred) htombstone
  | completed scheduled result w w' hdecode hshred htombstone =>
      obtain ⟨hnamed, hissued⟩ := htombstoned (hshredded hshred) htombstone
      exact ⟨hnamed, hissued⟩

/-- The completions so far stay backed, whatever the event comes to. -/
theorem attestedBy_handled {event : EventRecord} {ctx : ProjectionContext}
    {o o' : ErasureCascadeObserver InMemory} {outcome : Except ProjectionError Unit}
    {dekId : DekId} {a : DekShredAttestation} (h : Handled event ctx o outcome o')
    (hattested : AttestedBy o.backends.2 dekId a) : AttestedBy o'.backends.2 dekId a :=
  ⟨cached_handled (show LawfulBackends.cached o.backends dekId = some a from hattested.kept) h,
    hattested.nonempty, hattested.indexed⟩

theorem backed_handled {start : InMemory} {event : EventRecord} {ctx : ProjectionContext}
    {o o' : ErasureCascadeObserver InMemory} {outcome : Except ProjectionError Unit}
    (hfaithful : Faithful start o) (hbacked : Backed start o) (hnamed : StillNamed start o event)
    (h : Handled event ctx o outcome o') : Backed start o' := by
  have hold : ∀ completion ∈ o.completions,
      (∀ dekId, namedDek start completion.user = some dekId →
        AttestedBy o'.backends.2 dekId completion.attestation) ∧
      (completion.attestation = noDekResult.overall →
        namedDek start completion.user = none) := by
    intro completion hmem
    obtain ⟨hattested, hplaceholder⟩ := hbacked completion hmem
    exact ⟨fun dekId hd => attestedBy_handled h (hattested dekId hd), hplaceholder⟩
  have hfaithful' := faithful_handled hfaithful h
  cases h with
  | malformed => exact hbacked
  | unshredded => exact hold
  | untombstoned => exact hold
  | completed scheduled result w w' hdecode hshred htombstone =>
      intro completion hmem
      rcases List.mem_append.mp hmem with hbefore | hnew
      · exact hold completion hbefore
      · obtain rfl := List.mem_singleton.mp hnew
        have hattested : ∀ dekId, namedDek start scheduled.user = some dekId →
            AttestedBy w'.2 dekId result.overall := by
          intro dekId hstart
          have hstill := hnamed scheduled hdecode (by rw [hstart]; exact Option.some_ne_none dekId)
          obtain ⟨dekId', hdek⟩ := Option.ne_none_iff_exists'.mp hstill
          have hsame := hfaithful.named scheduled.user dekId' hdek
          obtain rfl := Option.some.inj (hstart.symm.trans hsame)
          have hrows : (PiiRowStore.rowsFor o.backends scheduled.user).dekId = some dekId := hdek
          rw [hrows] at hshred
          exact .of_cached hfaithful'.issued
            (cached_exec_tombstone (LawfulBackends.cached_of_shred hshred) htombstone)
        refine ⟨hattested, ?_⟩
        intro hplaceholder
        cases hstart : namedDek start scheduled.user with
        | none => rfl
        | some dekId =>
            have hoverall : result.overall = noDekResult.overall := hplaceholder
            exact absurd (congrArg DekShredAttestation.attestationBytes hoverall)
              (hattested dekId hstart).nonempty

/-- An event whose user lost the DEK to an earlier one is completed with the placeholder. -/
theorem not_backed_of_unnamed {start : InMemory} {event : EventRecord} {ctx : ProjectionContext}
    {o : ErasureCascadeObserver InMemory} (hnamed : ¬ StillNamed start o event) :
    ¬ Backed start ((onEvent event ctx).exec o).2 := by
  intro hbacked
  apply hnamed
  intro scheduled hdecode hstart hnone
  have hshred : (shredNamed (PiiRowStore.rowsFor o.backends scheduled.user).dekId ctx.tick).exec
      o.backends = (.ok noDekResult, o.backends) := by
    rw [show (PiiRowStore.rowsFor o.backends scheduled.user).dekId = none from hnone]
    rfl
  have hstep := handled_iff.mp (.completed scheduled noDekResult o.backends _ hdecode hshred
    (rfl : (PiiRowStore.tombstone scheduled.user).exec o.backends = (.ok (), _)))
  rw [hstep] at hbacked
  exact hstart ((hbacked _ (List.mem_append_right _ (List.mem_singleton.mpr rfl))).2 rfl)

/-! ## Runs -/

/-- In a run whose events all find their user's DEK still named, every completion is backed. -/
theorem backed_of_runNames {start : InMemory} (hissued : start.2.Issued) {run : List Call}
    (hnames : RunNames start run) :
    ∀ pre, pre <+: run → Faithful start (after start pre) ∧ Backed start (after start pre) := by
  intro pre
  induction pre using List.reverseRecOn with
  | nil =>
      intro _
      refine ⟨⟨fun _ _ hnamed => hnamed, hissued⟩, ?_⟩
      intro completion hmem
      cases hmem
  | append_singleton pre c ih =>
      intro hprefix
      obtain ⟨hfaithful, hbacked⟩ := ih ((List.prefix_append pre [c]).trans hprefix)
      rw [after_concat]
      cases c with
      | onEvent event ctx =>
          have hstep := handled_onEvent event ctx (after start pre)
          exact ⟨faithful_handled hfaithful hstep,
            backed_handled hfaithful hbacked (hnames pre event ctx hprefix) hstep⟩
      | onStateChange next => exact ⟨⟨hfaithful.named, hfaithful.issued⟩, hbacked⟩
      | drainCompletions =>
          refine ⟨⟨hfaithful.named, hfaithful.issued⟩, ?_⟩
          intro completion hmem
          cases hmem

theorem completions_backed_iff {start : InMemory} (hissued : start.2.Issued) (run : List Call) :
    (∀ pre, pre <+: run → Backed start (after start pre)) ↔ RunNames start run := by
  constructor
  · intro hbacked pre event ctx hprefix
    by_contra hnamed
    have hlast := hbacked _ hprefix
    rw [after_concat] at hlast
    exact not_backed_of_unnamed hnamed hlast
  · intro hnames pre hprefix
    exact (backed_of_runNames hissued hnames pre hprefix).2

end

section

attribute [local instance] oneBlockBlake3 postcardWire

theorem issued_doomedBackends : doomedBackends.2.Issued :=
  InMemoryDekShredder.issued_register InMemoryDekShredder.issued_new doomedDek

theorem namedDek_doomedBackends {user : UserId} {dekId : DekId}
    (h : namedDek doomedBackends user = some dekId) : user = doomedUser ∧ dekId = doomedDek := by
  have hrows : (Option.getD (Function.update (fun _ => none) doomedUser
      (some ⟨[1, 2], some doomedDek⟩) user) UserPiiRows.empty).dekId = some dekId := h
  by_cases heq : user = doomedUser
  · rw [heq, Function.update_self] at hrows
    exact ⟨heq, (Option.some.inj hrows).symm⟩
  · rw [Function.update_of_ne heq] at hrows
    cases hrows

/-- One event for the user is backed. -/
theorem completions_backed_once : Backed doomedBackends
    (after doomedBackends [.onEvent (doomedEvent 0 40) (doomedContext 40)]) := by
  refine (completions_backed_iff issued_doomedBackends
    [.onEvent (doomedEvent 0 40) (doomedContext 40)]).mpr ?_ _ (List.prefix_refl _)
  intro pre event ctx hprefix scheduled hdecode hstart
  have hlength := hprefix.length_le
  have hnil : pre = [] := by
    cases pre with
    | nil => rfl
    | cons c rest => simp at hlength
  rw [hnil]
  exact hstart

/-- A second event for the user records the placeholder. -/
theorem completions_unbacked_replayed :
    ¬ ∀ (start : InMemory) (run : List Call), start.2.Issued →
      (∀ user dekId, namedDek start user = some dekId → dekId ∈ start.2.live) →
      Backed start (after start run) := by
  intro hclaim
  have hbacked := hclaim doomedBackends
    [.onEvent (doomedEvent 0 40) (doomedContext 40), .onEvent (doomedEvent 1 41) (doomedContext 41)]
    issued_doomedBackends (by
      intro user dekId hnamed
      rw [(namedDek_doomedBackends hnamed).2]
      exact Finset.mem_insert_self doomedDek ∅)
  have hfirst : Handled (doomedEvent 0 40) (doomedContext 40) (new doomedBackends) (.ok ()) _ :=
    .completed ⟨1, doomedUser, 40⟩
      (singleRegion 40 (InMemoryDekShredder.attestationAt doomedDek 0))
      ((DekShredder.shredWithRegions doomedDek 40).exec doomedBackends).2 _
      (decodeScheduled_doomedEvent 0 40) rfl rfl
  refine not_backed_of_unnamed ?_ hbacked
  intro hnamed
  have hstate := congrArg Prod.snd (handled_iff.mp hfirst)
  have hforgotten : namedDek ((new doomedBackends).call
      (.onEvent (doomedEvent 0 40) (doomedContext 40))).backends doomedUser = none := by
    show namedDek ((onEvent (doomedEvent 0 40) (doomedContext 40)).exec
      (new doomedBackends)).2.backends doomedUser = none
    rw [hstate]
    rfl
  exact hnamed ⟨1, doomedUser, 41⟩ (decodeScheduled_doomedEvent 1 41)
    (Option.some_ne_none doomedDek) hforgotten

end

end ErasureCascadeObserver

end ArkheForge.Platform
