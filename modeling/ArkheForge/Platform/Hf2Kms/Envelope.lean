/-
  Envelope encryption over whole runs of the mock KMS: a payload is stored sealed under a
  DEK, beside the DEK wrapped under a KEK.

  What the KMS knows of one KEK is a machine of four states (`KekLife`), driven by the
  registrations and deletions of that KEK alone (`lifeOf_run`). A deleted KEK that is
  registered again is past deletion: `delete_key` finds the old attestation and removes
  nothing, so that state is never left (`revived_onLife`). The pad of a live KEK depends
  on its id only (`padded_run`), so a wrapped DEK comes back at every point of a run at which the
  KEK is live, under another live KEK too if the pads are equal, and at no other
  (`wrapped_opens_iff`); and so does the payload (`stored_payload_opens_iff`).
-/
import ArkheForge.Platform.Crypto.Binding
import ArkheForge.Platform.Hf2Kms.Destroyed

namespace ArkheForge.Platform

open ArkheForge.Core BigEndian Fallible

namespace MockKmsBackend

/-! ## The life of a KEK -/

/-- What the KMS knows of a KEK. -/
inductive KekLife
  | unknown
  | live
  | destroyed
  | revived
  deriving DecidableEq, Repr

namespace KekLife

/-- The KEK wraps and unwraps. -/
def IsLive : KekLife → Prop
  | unknown => False
  | live => True
  | destroyed => False
  | revived => True

instance : DecidablePred IsLive
  | unknown => .isFalse id
  | live => .isTrue trivial
  | destroyed => .isFalse id
  | revived => .isTrue trivial

def register : KekLife → KekLife
  | unknown => live
  | live => live
  | destroyed => revived
  | revived => revived

def delete : KekLife → KekLife
  | unknown => unknown
  | live => destroyed
  | destroyed => destroyed
  | revived => revived

end KekLife

/-- What a call does to the life of a KEK. -/
def Call.onLife (kekRef : KekRef) (c : Call) (life : KekLife) : KekLife :=
  match c with
  | .registerKek kekRef' => if kekRef' = kekRef then life.register else life
  | .deleteKey kekRef' => if kekRef' = kekRef then life.delete else life
  | _ => life

/-- The life of a KEK after a run from the empty KMS. -/
def lifeAfter (kekRef : KekRef) (calls : List Call) : KekLife :=
  calls.foldl (fun life c => c.onLife kekRef life) .unknown

/-- The life of a KEK in a state. -/
def lifeOf (kekRef : KekRef) (s : MockKmsBackend) : KekLife :=
  match s.keks kekRef, s.destroyed kekRef with
  | none, none => .unknown
  | some _, none => .live
  | none, some _ => .destroyed
  | some _, some _ => .revived

theorem isLive_lifeOf {kekRef : KekRef} {s : MockKmsBackend} :
    (lifeOf kekRef s).IsLive ↔ (s.keks kekRef).isSome := by
  unfold lifeOf
  cases s.keks kekRef with
  | none =>
      cases s.destroyed kekRef with
      | none => simp [KekLife.IsLive]
      | some attestation => simp [KekLife.IsLive]
  | some kek =>
      cases s.destroyed kekRef with
      | none => simp [KekLife.IsLive]
      | some attestation => simp [KekLife.IsLive]

/-- A KEK registered again after its deletion stays. -/
theorem revived_onLife (kekRef : KekRef) (calls : List Call) :
    calls.foldl (fun life c => c.onLife kekRef life) .revived = .revived := by
  induction calls with
  | nil => rfl
  | cons c calls ih =>
      have hstep : c.onLife kekRef .revived = .revived := by
        cases c with
        | registerKek other => exact ite_self _
        | deleteKey other => exact ite_self _
        | generateDek => rfl
        | wrapDek => rfl
        | unwrapDek => rfl
        | rotateKek => rfl
      rw [List.foldl_cons, hstep, ih]

section

variable [Blake3Hash]

/-- The pad of a KEK. -/
def padOf (kekRef : KekRef) : Vector UInt8 32 :=
  digestArray (Blake3.keyedHash
    (Blake3Hash.hash (literalBytes "arkhe-forge-mock-kms-kek-pad")) kekRef.asBytes)

theorem keks_registerKek (kekRef kekRef' : KekRef) (s : MockKmsBackend) :
    (registerKek kekRef s).keks kekRef' =
      if kekRef' = kekRef then some ((s.keks kekRef).getD ⟨padOf kekRef⟩) else s.keks kekRef' := by
  unfold registerKek
  by_cases hkey : kekRef' = kekRef
  · subst hkey
    cases hkek : s.keks kekRef' with
    | none => simp [padOf]
    | some kek => simp [hkek]
  · cases s.keks kekRef with
    | none => simp [hkey]
    | some kek => simp [hkey]

theorem destroyed_registerKek (kekRef : KekRef) (s : MockKmsBackend) :
    (registerKek kekRef s).destroyed = s.destroyed := by
  unfold registerKek
  split
  · rfl
  · rfl

theorem lifeOf_deleteKey (kekRef kekRef' : KekRef) (s : MockKmsBackend) :
    lifeOf kekRef ((deleteKey kekRef').exec s).2 =
      if kekRef' = kekRef then (lifeOf kekRef s).delete else lifeOf kekRef s := by
  rw [exec_deleteKey]
  by_cases hkey : kekRef' = kekRef
  · subst hkey
    rw [if_pos rfl]
    unfold lifeOf
    cases hdestroyed : s.destroyed kekRef' with
    | some cached =>
        simp only [hdestroyed]
        cases s.keks kekRef' with
        | none => rfl
        | some kek => rfl
    | none =>
        cases hkek : s.keks kekRef' with
        | none => simp [hdestroyed, hkek, KekLife.delete]
        | some kek => simp [KekLife.delete]
  · rw [if_neg hkey]
    have hother := Ne.symm hkey
    unfold lifeOf
    cases s.destroyed kekRef' with
    | some cached => rfl
    | none =>
        cases hkek : s.keks kekRef' with
        | none => simp
        | some kek => simp [Function.update_of_ne hother]

theorem lifeOf_registerKek (kekRef kekRef' : KekRef) (s : MockKmsBackend) :
    lifeOf kekRef (registerKek kekRef' s) =
      if kekRef' = kekRef then (lifeOf kekRef s).register else lifeOf kekRef s := by
  unfold lifeOf
  rw [destroyed_registerKek, keks_registerKek]
  by_cases hkey : kekRef' = kekRef
  · subst hkey
    rw [if_pos rfl, if_pos rfl]
    cases s.keks kekRef' with
    | none =>
        cases s.destroyed kekRef' with
        | none => rfl
        | some attestation => rfl
    | some kek =>
        cases s.destroyed kekRef' with
        | none => rfl
        | some attestation => rfl
  · rw [if_neg hkey, if_neg (Ne.symm hkey)]

/-- One call takes the life of a KEK one step. -/
theorem lifeOf_next (kekRef : KekRef) (c : Call) (s : MockKmsBackend) :
    lifeOf kekRef (c.next s) = c.onLife kekRef (lifeOf kekRef s) := by
  cases c with
  | registerKek kekRef' => exact lifeOf_registerKek kekRef kekRef' s
  | deleteKey kekRef' => exact lifeOf_deleteKey kekRef kekRef' s
  | generateDek kekRef' =>
      simp only [Call.next, exec_generateDek]
      split
      · rfl
      · rfl
  | wrapDek dek kekRef' => exact congrArg (lifeOf kekRef) (next_wrapDek dek kekRef' s)
  | unwrapDek wrapped kekRef' => exact congrArg (lifeOf kekRef) (next_unwrapDek wrapped kekRef' s)
  | rotateKek old new =>
      simp only [Call.next, rotateKek, exec_bind, exec_get]
      cases s.keks old with
      | none => rfl
      | some oldKek =>
          cases s.keks new with
          | none => rfl
          | some newKek => rfl

theorem lifeOf_run (kekRef : KekRef) (calls : List Call) :
    lifeOf kekRef (run calls new) = lifeAfter kekRef calls := by
  have hfold : ∀ s : MockKmsBackend, lifeOf kekRef (run calls s) =
      calls.foldl (fun life c => c.onLife kekRef life) (lifeOf kekRef s) := by
    induction calls with
    | nil => exact fun s => rfl
    | cons c calls ih =>
        intro s
        show lifeOf kekRef (run calls (c.next s)) = _
        rw [ih, lifeOf_next, List.foldl_cons]
  exact hfold new

/-! ## The pads -/

/-- Every live KEK has the pad of its id. -/
def Padded (s : MockKmsBackend) : Prop :=
  ∀ kekRef kek, s.keks kekRef = some kek → kek.pad = padOf kekRef

theorem padded_next {s : MockKmsBackend} (h : s.Padded) (c : Call) : (c.next s).Padded := by
  intro kekRef kek hkek
  rcases next_cases c s with ⟨hkeks, -⟩ | ⟨kekRef', pad, rfl, -, -⟩ | ⟨gone, _, -, hkeks, -⟩
  · rw [hkeks] at hkek
    exact h kekRef kek hkek
  · rw [Call.next, keks_registerKek] at hkek
    by_cases hkey : kekRef = kekRef'
    · rw [if_pos hkey, Option.some.injEq] at hkek
      cases hbefore : s.keks kekRef' with
      | none =>
          rw [hbefore] at hkek
          rw [← hkek, hkey]
          rfl
      | some before =>
          rw [hbefore] at hkek
          rw [hkey, ← h kekRef' before hbefore, ← hkek]
          rfl
    · rw [if_neg hkey] at hkek
      exact h kekRef kek hkek
  · rw [hkeks] at hkek
    by_cases hkey : kekRef = gone
    · rw [hkey, Function.update_self] at hkek
      exact absurd hkek (Option.some_ne_none kek).symm
    · rw [Function.update_of_ne hkey] at hkek
      exact h kekRef kek hkek

theorem padded_run (calls : List Call) : (run calls new).Padded := by
  induction calls using List.reverseRecOn with
  | nil => exact fun kekRef kek h => nomatch h
  | append_singleton calls c ih =>
      rw [run_append]
      exact padded_next ih c

/-! ## Wrapped DEKs -/

/-- What wrapping makes of a DEK under a KEK that is live. -/
theorem exec_wrapDek_run {calls : List Call} {dek : Dek} {kekRef : KekRef} {blob : Bytes}
    (h : ((wrapDek dek kekRef).exec (run calls new)).1 = .ok blob) :
    blob = (padOf kekRef).toList ++ (xorPad dek.material (padOf kekRef)).toList := by
  rw [exec_wrapDek] at h
  cases hkek : (run calls new).keks kekRef with
  | none =>
      rw [hkek] at h
      nomatch h
  | some kek =>
      rw [hkek] at h
      rw [← padded_run calls kekRef kek hkek]
      exact (Except.ok.inj h).symm

/-- A wrapped DEK at any later point of the run, under any KEK. -/
def unwrapped (calls : List Call) (kekRef kekRef' : KekRef) (dek : Dek) : Except KmsError Dek :=
  if ¬ (lifeAfter kekRef' calls).IsLive then .error (.kekNotFound kekRef'.id)
  else if padOf kekRef = padOf kekRef' then .ok (Dek.fromUnwrapped dek.material DekConfig.default)
  else .error .unwrapFailed

theorem exec_unwrapDek_run {before : List Call} {dek : Dek} {kekRef : KekRef} {blob : Bytes}
    (h : ((wrapDek dek kekRef).exec (run before new)).1 = .ok blob) (calls : List Call)
    (kekRef' : KekRef) :
    ((unwrapDek blob kekRef').exec (run calls new)).1 = unwrapped calls kekRef kekRef' dek := by
  have hblob := exec_wrapDek_run h
  have hlength : blob.length = 64 := by simp [hblob]
  have htake : blob.take 32 = (padOf kekRef).toList := by
    rw [hblob]
    exact List.take_left' (by simp)
  have hdrop : blob.drop 32 = (xorPad dek.material (padOf kekRef)).toList := by
    rw [hblob]
    exact List.drop_left' (by simp)
  have hlive : (lifeAfter kekRef' calls).IsLive ↔ ((run calls new).keks kekRef').isSome := by
    rw [← lifeOf_run, isLive_lifeOf]
  rw [exec_unwrapDek, if_neg (by simp [hlength]), htake, hdrop]
  unfold unwrapped
  cases hkek : (run calls new).keks kekRef' with
  | none => rw [if_pos (by simp [hlive, hkek])]
  | some kek =>
      have hpad := padded_run calls kekRef' kek hkek
      rw [if_neg (by simp [hlive, hkek])]
      simp only [hpad]
      by_cases hequal : padOf kekRef = padOf kekRef'
      · simp [hequal, digestArray_toList, xorPad_xorPad]
      · have hlist : (padOf kekRef).toList ≠ (padOf kekRef').toList :=
          fun heq => hequal (Vector.toList_inj.mp heq)
        simp [hlist, hequal]

/-- After every run a KEK is live or destroyed as its own registrations and deletions say, a
    KEK that is both stays so, and a DEK wrapped at any point of any run comes back with
    its material, long-lived and at the start of its counter, exactly at the points at
    which the KEK that is asked is live and has the pad of the one that wrapped. -/
theorem wrapped_opens_iff (before calls : List Call) (dek : Dek) (kekRef kekRef' : KekRef) :
    lifeOf kekRef' (run calls new) = lifeAfter kekRef' calls ∧
    (∀ more, lifeAfter kekRef' calls = .revived → lifeAfter kekRef' (calls ++ more) = .revived) ∧
    ∀ blob, ((wrapDek dek kekRef).exec (run before new)).1 = .ok blob →
      ((unwrapDek blob kekRef').exec (run calls new)).1 = unwrapped calls kekRef kekRef' dek := by
  refine ⟨lifeOf_run kekRef' calls, fun more hrevived => ?_, fun blob hwrap => ?_⟩
  · unfold lifeAfter at hrevived ⊢
    rw [List.foldl_append, hrevived, revived_onLife]
  · exact exec_unwrapDek_run hwrap calls kekRef'

example (kekRef : KekRef) : lifeAfter kekRef [.registerKek kekRef, .deleteKey kekRef,
    .registerKek kekRef, .deleteKey kekRef] = .revived := by
  simp [lifeAfter, Call.onLife, KekLife.register, KekLife.delete]

/-! ## Stored payloads -/

section

variable {W : Type} [NonceSource W] [AeadCrates W] [IdealAead W] {T : Type} [PiiType T]
  [Postcard T]

/-- Unwrap the stored DEK, then decrypt the stored envelope. -/
def OpensTo (coordinator : CryptoCoordinator) (w : W) (blob : Bytes) (kekRef : KekRef)
    (envelope : EncryptedPii T) (s : MockKmsBackend) (x : T) : Prop :=
  ∃ dek, ((unwrapDek blob kekRef).exec s).1 = .ok dek ∧
    coordinator.decrypt w dek envelope = .ok x

/-- A payload sealed under a DEK of any age and any origin, stored beside that DEK wrapped
    under a KEK, is read at exactly those points of any run of the KMS at which the KEK that is
    asked is live and has the pad of the one that wrapped; and what is read is the payload. -/
theorem stored_payload_opens_iff (hround : Postcard.RoundTrip T)
    {coordinator : CryptoCoordinator} {x : T} {dekId : DekId} {s s' : Sealer W}
    {envelope : EncryptedPii T} (hseal : (coordinator.encrypt x dekId).exec s = (.ok envelope, s'))
    {before : List Call} {dek : Dek} (hkey : dek.material = s.dek.material) {kekRef : KekRef}
    {blob : Bytes} (hwrap : ((wrapDek dek kekRef).exec (run before new)).1 = .ok blob)
    {w : W} (hlater : IdealAead.history s'.world ⊆ IdealAead.history w) (calls : List Call)
    (kekRef' : KekRef) (y : T) :
    OpensTo coordinator w blob kekRef' envelope (run calls new) y ↔
      (lifeAfter kekRef' calls).IsLive ∧ padOf kekRef = padOf kekRef' ∧ y = x := by
  unfold OpensTo
  rw [exec_unwrapDek_run hwrap]
  unfold unwrapped
  by_cases hlive : (lifeAfter kekRef' calls).IsLive
  · rw [if_neg (not_not_intro hlive)]
    by_cases hpad : padOf kekRef = padOf kekRef'
    · rw [if_pos hpad]
      have hopen : coordinator.decrypt w (Dek.fromUnwrapped dek.material DekConfig.default)
          envelope = .ok x := CryptoCoordinator.decrypt_encrypt hround hseal hlater hkey
      constructor
      · rintro ⟨dek', hdek, hdecrypt⟩
        rw [← Except.ok.inj hdek, hopen] at hdecrypt
        exact ⟨hlive, hpad, (Except.ok.inj hdecrypt).symm⟩
      · rintro ⟨-, -, rfl⟩
        exact ⟨_, rfl, hopen⟩
    · rw [if_neg hpad]
      exact iff_of_false (fun h => nomatch h.choose_spec.1) (fun h => hpad h.2.1)
  · rw [if_pos hlive]
    exact iff_of_false (fun h => nomatch h.choose_spec.1) (fun h => hlive h.1)

end

end

section

attribute [local instance] oneChunkBlake3Hash CryptoCoordinator.postcardActorHandle

/-- A stored handle is read while its KEK is registered, is lost with the deletion, and is read
    again after one more registration. -/
theorem stored_payload_opens_iff_handle :
    ∃ (envelope : EncryptedPii ActorHandle) (w : AeadTable) (blob : Bytes),
      let reads := fun calls => OpensTo ⟨.aes256Gcm⟩ w blob someKek envelope (run calls new)
        CryptoCoordinator.shortHandle
      reads [.registerKek someKek] ∧
      ¬ reads [.registerKek someKek, .deleteKey someKek] ∧
      reads [.registerKek someKek, .deleteKey someKek, .registerKek someKek] := by
  have hencrypt : ((⟨.aes256Gcm⟩ : CryptoCoordinator).encrypt CryptoCoordinator.shortHandle
      CryptoCoordinator.handleDek).exec CryptoCoordinator.freshSealer = (.ok _, _) := rfl
  obtain ⟨blob, attestation, hwrap, -, -⟩ := revived someKek CryptoCoordinator.freshSealer.dek
  have hstored : ((wrapDek CryptoCoordinator.freshSealer.dek someKek).exec
      (run [.registerKek someKek] new)).1 = .ok blob := hwrap
  have hreads := fun calls => stored_payload_opens_iff
    (Postcard.ofCodec_roundTrip Wire.actorHandle) hencrypt rfl hstored (List.Subset.refl _) calls
    someKek CryptoCoordinator.shortHandle
  refine ⟨_, _, blob, (hreads _).mpr ⟨?_, rfl, rfl⟩, fun h => ?_, (hreads _).mpr ⟨?_, rfl, rfl⟩⟩
  · decide
  · exact absurd ((hreads _).mp h).1 (by decide)
  · decide

end

end MockKmsBackend

end ArkheForge.Platform
