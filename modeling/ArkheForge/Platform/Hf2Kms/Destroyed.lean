/-
  Destroyed KEKs of the mock KMS over whole runs of its calls.

  `delete_key` takes a KEK out of the live map and notes it as destroyed, and no call takes
  it out of the notes. `register_kek` looks at the live map alone: it puts a destroyed KEK
  back, with the pad it had, since the pad depends on the id only (`revived`). Where no
  registration names a destroyed KEK, no KEK is both live and destroyed and nothing wrapped
  under a deleted KEK opens again; where one does, both fail (`staysDestroyed_iff`).
-/
import ArkheForge.Platform.Hf2Kms.MockKms

namespace ArkheForge.Platform

open ArkheForge.Core BigEndian Fallible

namespace MockKmsBackend

/-- A call of the mock KMS. -/
inductive Call
  | registerKek (kekRef : KekRef)
  | generateDek (kekRef : KekRef)
  | wrapDek (dek : Dek) (kekRef : KekRef)
  | unwrapDek (wrapped : Bytes) (kekRef : KekRef)
  | rotateKek (old new : KekRef)
  | deleteKey (kekRef : KekRef)
  deriving DecidableEq, Repr

section

variable [Blake3Hash]

/-- The KMS after a call. -/
def Call.next : Call → MockKmsBackend → MockKmsBackend
  | .registerKek kekRef, s => MockKmsBackend.registerKek kekRef s
  | .generateDek kekRef, s => ((MockKmsBackend.generateDek kekRef).exec s).2
  | .wrapDek dek kekRef, s => ((MockKmsBackend.wrapDek dek kekRef).exec s).2
  | .unwrapDek wrapped kekRef, s => ((MockKmsBackend.unwrapDek wrapped kekRef).exec s).2
  | .rotateKek old new, s => ((MockKmsBackend.rotateKek old new).exec s).2
  | .deleteKey kekRef, s => ((MockKmsBackend.deleteKey kekRef).exec s).2

/-- The KMS after a run of calls. -/
def run (calls : List Call) (s : MockKmsBackend) : MockKmsBackend :=
  calls.foldl (fun s c => c.next s) s

theorem run_append (calls more : List Call) (s : MockKmsBackend) :
    run (calls ++ more) s = run more (run calls s) := List.foldl_append

/-! ## What one call does to a KEK -/

theorem exec_deleteKey (kekRef : KekRef) (s : MockKmsBackend) :
    (deleteKey kekRef).exec s =
      match s.destroyed kekRef with
      | some cached => (.ok cached, s)
      | none =>
        if (s.keks kekRef).isNone then (.error (.kekNotFound kekRef.id), s)
        else
          (.ok (deletionAttestation kekRef s.destructionLogIndex),
            { s with
              destructionLogIndex := saturatingSucc s.destructionLogIndex
              keks := Function.update s.keks kekRef none
              destroyed := Function.update s.destroyed kekRef
                (some (deletionAttestation kekRef s.destructionLogIndex)) }) := by
  unfold deleteKey
  simp only [exec_bind, exec_get]
  cases s.destroyed kekRef with
  | some cached => rfl
  | none =>
      cases s.keks kekRef with
      | none => rfl
      | some kek => rfl

/-- A deletion that returns leaves its attestation in the notes. -/
theorem attested_deleteKey {kekRef : KekRef} {s : MockKmsBackend}
    {attestation : DekShredAttestation}
    (h : ((deleteKey kekRef).exec s).1 = .ok attestation) :
    ((deleteKey kekRef).exec s).2.destroyed kekRef = some attestation := by
  rw [exec_deleteKey] at h ⊢
  cases hdestroyed : s.destroyed kekRef with
  | some cached =>
      simp only [hdestroyed] at h ⊢
      rw [Except.ok.inj h]
  | none =>
      simp only [hdestroyed] at h ⊢
      split
      · next hnone =>
          rw [if_pos hnone] at h
          nomatch h
      · next hlive =>
          rw [if_neg hlive] at h
          rw [← Except.ok.inj h]
          exact Function.update_self kekRef _ s.destroyed

/-- A deletion that returns leaves the KEK among the destroyed ones. -/
theorem destroyed_deleteKey {kekRef : KekRef} {s : MockKmsBackend}
    {attestation : DekShredAttestation}
    (h : ((deleteKey kekRef).exec s).1 = .ok attestation) :
    (((deleteKey kekRef).exec s).2.destroyed kekRef).isSome := by
  rw [attested_deleteKey h]
  rfl

theorem next_wrapDek (dek : Dek) (kekRef : KekRef) (s : MockKmsBackend) :
    (Call.wrapDek dek kekRef).next s = s := exec_wrapDek_kms dek kekRef s

theorem next_unwrapDek (wrapped : Bytes) (kekRef : KekRef) (s : MockKmsBackend) :
    (Call.unwrapDek wrapped kekRef).next s = s := exec_unwrapDek_kms wrapped kekRef s

/-- What a call does to the live and to the destroyed KEKs: nothing, or it makes one live, or
    it moves one that is not destroyed from the former to the latter. -/
theorem next_cases (c : Call) (s : MockKmsBackend) :
    ((c.next s).keks = s.keks ∧ (c.next s).destroyed = s.destroyed) ∨
    (∃ kekRef pad, c = .registerKek kekRef ∧
      (c.next s).keks = Function.update s.keks kekRef (some pad) ∧
      (c.next s).destroyed = s.destroyed) ∨
    (∃ kekRef attestation, s.destroyed kekRef = none ∧
      (c.next s).keks = Function.update s.keks kekRef none ∧
      (c.next s).destroyed = Function.update s.destroyed kekRef (some attestation)) := by
  cases c with
  | registerKek kekRef =>
      simp only [Call.next, registerKek]
      split
      · exact .inl ⟨rfl, rfl⟩
      · exact .inr (.inl ⟨kekRef, _, rfl, rfl, rfl⟩)
  | generateDek kekRef =>
      simp only [Call.next, exec_generateDek]
      split
      · exact .inl ⟨rfl, rfl⟩
      · exact .inl ⟨rfl, rfl⟩
  | wrapDek dek kekRef =>
      rw [next_wrapDek]
      exact .inl ⟨rfl, rfl⟩
  | unwrapDek wrapped kekRef =>
      rw [next_unwrapDek]
      exact .inl ⟨rfl, rfl⟩
  | rotateKek old new =>
      left
      simp only [Call.next, rotateKek, exec_bind, exec_get]
      cases s.keks old with
      | none => exact ⟨rfl, rfl⟩
      | some oldKek =>
          cases s.keks new with
          | none => exact ⟨rfl, rfl⟩
          | some newKek => exact ⟨rfl, rfl⟩
  | deleteKey kekRef =>
      simp only [Call.next, exec_deleteKey]
      split
      · exact .inl ⟨rfl, rfl⟩
      · next hfresh =>
          split
          · exact .inl ⟨rfl, rfl⟩
          · exact .inr (.inr ⟨kekRef, _, hfresh, rfl, rfl⟩)

/-- No call changes the note of a destroyed KEK. -/
theorem attested_next {s : MockKmsBackend} {kekRef : KekRef} {attestation : DekShredAttestation}
    (h : s.destroyed kekRef = some attestation) (c : Call) :
    (c.next s).destroyed kekRef = some attestation := by
  rcases next_cases c s with ⟨-, hkept⟩ | ⟨_, _, -, -, hkept⟩ | ⟨other, _, hfresh, -, hadded⟩
  · rw [hkept, h]
  · rw [hkept, h]
  · have hother : kekRef ≠ other := by
      intro heq
      rw [heq, hfresh] at h
      nomatch h
    rw [hadded, Function.update_of_ne hother, h]

theorem attested_run {s : MockKmsBackend} {kekRef : KekRef} {attestation : DekShredAttestation}
    (h : s.destroyed kekRef = some attestation) (calls : List Call) :
    (run calls s).destroyed kekRef = some attestation := by
  induction calls generalizing s with
  | nil => exact h
  | cons c calls ih => exact ih (attested_next h c)

theorem destroyed_next {s : MockKmsBackend} {kekRef : KekRef}
    (h : (s.destroyed kekRef).isSome) (c : Call) : ((c.next s).destroyed kekRef).isSome := by
  obtain ⟨attestation, hattested⟩ := Option.isSome_iff_exists.mp h
  rw [attested_next hattested c]
  rfl

theorem destroyed_run {s : MockKmsBackend} {kekRef : KekRef}
    (h : (s.destroyed kekRef).isSome) (calls : List Call) :
    ((run calls s).destroyed kekRef).isSome := by
  obtain ⟨attestation, hattested⟩ := Option.isSome_iff_exists.mp h
  rw [attested_run hattested calls]
  rfl

/-! ## Live or destroyed -/

/-- No KEK is live and destroyed. -/
def Disjoint (s : MockKmsBackend) : Prop :=
  ∀ kekRef, (s.destroyed kekRef).isSome → s.keks kekRef = none

/-- A registration is of a KEK that is not destroyed. -/
def Call.RegistersFresh (s : MockKmsBackend) : Call → Prop
  | .registerKek kekRef => s.destroyed kekRef = none
  | _ => True

theorem disjoint_next {s : MockKmsBackend} (h : s.Disjoint) {c : Call}
    (hc : c.RegistersFresh s) : (c.next s).Disjoint := by
  intro kekRef hdestroyed
  rcases next_cases c s with ⟨hkeks, hkept⟩ | ⟨fresh, pad, rfl, hkeks, hkept⟩ |
    ⟨gone, attestation, -, hkeks, hadded⟩
  · rw [hkept] at hdestroyed
    rw [hkeks]
    exact h kekRef hdestroyed
  · rw [hkept] at hdestroyed
    have hother : kekRef ≠ fresh := by
      intro heq
      have hnone : s.destroyed kekRef = none := heq ▸ hc
      simp [hnone] at hdestroyed
    rw [hkeks, Function.update_of_ne hother]
    exact h kekRef hdestroyed
  · rw [hkeks]
    by_cases hother : kekRef = gone
    · rw [hother, Function.update_self]
    · rw [hadded, Function.update_of_ne hother] at hdestroyed
      rw [Function.update_of_ne hother]
      exact h kekRef hdestroyed

/-- A registration makes its KEK live, destroyed or not. -/
theorem live_registerKek (kekRef : KekRef) (s : MockKmsBackend) :
    (((Call.registerKek kekRef).next s).keks kekRef).isSome := by
  simp only [Call.next, registerKek]
  split
  · assumption
  · simp

theorem not_disjoint_registerKek {s : MockKmsBackend} {kekRef : KekRef}
    (h : (s.destroyed kekRef).isSome) : ¬ ((Call.registerKek kekRef).next s).Disjoint := by
  intro hdisjoint
  have hlive := live_registerKek kekRef s
  rw [hdisjoint kekRef (destroyed_next h _)] at hlive
  nomatch hlive

omit [Blake3Hash] in
/-- Nothing opens under a KEK that is not live. -/
theorem unwrapDek_not_ok {s : MockKmsBackend} {kekRef : KekRef} (h : s.keks kekRef = none)
    (wrapped : Bytes) (dek : Dek) : ((unwrapDek wrapped kekRef).exec s).1 ≠ .ok dek := by
  rw [exec_unwrapDek, h]
  split
  · exact fun hok => nomatch hok
  · exact fun hok => nomatch hok

/-! ## Runs -/

/-- Every registration of the run is of a KEK that is not destroyed where it is made. -/
def RegistersFresh (calls : List Call) : Prop :=
  ∀ before c after, calls = before ++ c :: after → c.RegistersFresh (run before new)

/-- In every state of the run no KEK is live and destroyed, and what was wrapped under a KEK
    opens under it at no point after its deletion. -/
structure StaysDestroyed (calls : List Call) : Prop where
  disjoint : ∀ before after, calls = before ++ after → (run before new).Disjoint
  erased : ∀ early dek kekRef middle late rest blob attestation,
    calls = early ++ .wrapDek dek kekRef :: middle ++ .deleteKey kekRef :: late ++ rest →
    ((MockKmsBackend.wrapDek dek kekRef).exec (run early new)).1 = .ok blob →
    ((deleteKey kekRef).exec (run (early ++ .wrapDek dek kekRef :: middle) new)).1 =
      .ok attestation →
    ∀ opened, ((MockKmsBackend.unwrapDek blob kekRef).exec
      (run (early ++ .wrapDek dek kekRef :: middle ++ .deleteKey kekRef :: late) new)).1 ≠
        .ok opened

omit [Blake3Hash] in
theorem disjoint_new : new.Disjoint := fun _ _ => rfl

theorem disjoint_run {calls : List Call} (h : RegistersFresh calls) :
    (run calls new).Disjoint := by
  induction calls using List.reverseRecOn with
  | nil => exact disjoint_new
  | append_singleton calls c ih =>
      have hc : c.RegistersFresh (run calls new) := h calls c [] rfl
      have hbefore : RegistersFresh calls := by
        intro before c' after hsplit
        refine h before c' (after ++ [c]) ?_
        rw [hsplit]
        simp
      rw [run_append]
      exact disjoint_next (ih hbefore) hc

theorem RegistersFresh.prefix {before after : List Call} (h : RegistersFresh (before ++ after)) :
    RegistersFresh before := by
  intro earlier c later hsplit
  refine h earlier c (later ++ after) ?_
  rw [hsplit]
  simp

/-- Destroyed KEKs stay destroyed in a run exactly if it registers none of them. -/
theorem staysDestroyed_iff (calls : List Call) : StaysDestroyed calls ↔ RegistersFresh calls := by
  constructor
  · intro h before c after hsplit
    cases c with
    | registerKek kekRef =>
        show (run before new).destroyed kekRef = none
        by_contra hdestroyed
        have hsome := Option.isSome_iff_ne_none.mpr hdestroyed
        refine not_disjoint_registerKek hsome ?_
        have hstate := h.disjoint (before ++ [.registerKek kekRef]) after (by simp [hsplit])
        rw [run_append] at hstate
        exact hstate
    | generateDek => trivial
    | wrapDek => trivial
    | unwrapDek => trivial
    | rotateKek => trivial
    | deleteKey => trivial
  · intro h
    constructor
    · intro before after hsplit
      rw [hsplit] at h
      exact disjoint_run h.prefix
    · intro early dek kekRef middle late rest blob attestation hsplit _ hdelete opened
      rw [hsplit] at h
      refine unwrapDek_not_ok (disjoint_run h.prefix kekRef ?_) blob opened
      rw [run_append]
      exact destroyed_run (destroyed_deleteKey hdelete) late

/-! ## Revival -/

/-- Whatever was wrapped under a KEK opens again once the KEK was deleted and registered. -/
theorem revived (kekRef : KekRef) (dek : Dek) :
    let registered := (Call.registerKek kekRef).next new
    let deleted := (Call.deleteKey kekRef).next registered
    let again := (Call.registerKek kekRef).next deleted
    ∃ blob attestation,
      ((wrapDek dek kekRef).exec registered).1 = .ok blob ∧
      ((deleteKey kekRef).exec registered).1 = .ok attestation ∧
      ((unwrapDek blob kekRef).exec again).1 =
        .ok (Dek.fromUnwrapped dek.material DekConfig.default) := by
  intro registered deleted again
  have hkeks : again.keks kekRef = registered.keks kekRef := by
    simp [again, deleted, registered, Call.next, registerKek, exec_deleteKey, new]
  have hlive := live_registerKek kekRef new
  obtain ⟨kek, hkek⟩ := Option.isSome_iff_exists.mp hlive
  have hwrap : (wrapDek dek kekRef).exec again =
      (.ok (kek.pad.toList ++ (xorPad dek.material kek.pad).toList), again) := by
    rw [exec_wrapDek, hkeks, hkek]
  refine ⟨kek.pad.toList ++ (xorPad dek.material kek.pad).toList,
    deletionAttestation kekRef 0, ?_, ?_, ?_⟩
  · rw [exec_wrapDek, hkek]
  · simp [registered, Call.next, registerKek, exec_deleteKey, new]
  · rw [exec_unwrapDek_wrapDek hwrap]

end

section

attribute [local instance] oneChunkBlake3Hash

def someKek : KekRef := ⟨"kek"⟩

def someDek : Dek := Dek.fromBytes (.replicate 32 7)

/-- Register, wrap, delete, register again: the KEK is live and destroyed and the blob opens. -/
theorem not_staysDestroyed_registered_again :
    ¬ StaysDestroyed [.registerKek someKek, .wrapDek someDek someKek, .deleteKey someKek,
      .registerKek someKek] := by
  intro h
  obtain ⟨blob, attestation, hwrap, hdelete, hopen⟩ := revived someKek someDek
  have hwrapped := next_wrapDek someDek someKek ((Call.registerKek someKek).next new)
  have hbefore : run [.registerKek someKek, .wrapDek someDek someKek] new =
      (Call.registerKek someKek).next new := hwrapped
  have hafter : run [.registerKek someKek, .wrapDek someDek someKek, .deleteKey someKek,
      .registerKek someKek] new = (Call.registerKek someKek).next ((Call.deleteKey someKek).next
        ((Call.registerKek someKek).next new)) :=
    congrArg (run [.deleteKey someKek, .registerKek someKek]) hwrapped
  refine h.erased [.registerKek someKek] someDek someKek [] [.registerKek someKek] [] blob
    attestation rfl hwrap ?_ (Dek.fromUnwrapped someDek.material DekConfig.default) ?_
  · show ((deleteKey someKek).exec (run [.registerKek someKek, .wrapDek someDek someKek] new)).1 = _
    rw [hbefore]
    exact hdelete
  · show ((unwrapDek blob someKek).exec (run [.registerKek someKek, .wrapDek someDek someKek,
      .deleteKey someKek, .registerKek someKek] new)).1 = _
    rw [hafter]
    exact hopen

end

end MockKmsBackend

end ArkheForge.Platform
