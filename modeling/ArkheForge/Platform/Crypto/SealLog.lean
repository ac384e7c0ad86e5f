/-
  The calls of the AEAD crates, in order.

  `Logged` is a world with the seals that were asked of the crates. Keeping them changes
  nothing else (`follows_encryptRaw`, `follows_rotateDek`). What the counter ciphers add
  to the list comes one nonce at a time: each step draws the counter of the `Dek` and
  calls the crate with it (`SealStep`), whether the crate succeeds or not, and whether
  the call it belongs to returns or not.
-/
import Mathlib.Logic.Relation
import ArkheForge.Platform.Crypto.Rotation

namespace ArkheForge.Platform

open ArkheForge.Core BigEndian Fallible

/-- A call of a crate and what it returned. -/
structure SealCall where
  kind : AeadKind
  key : Vector UInt8 32
  nonce : Bytes
  aad : Bytes
  plaintext : Bytes
  ciphertext : Option Bytes
  deriving DecidableEq, Repr

/-- A world with the seals that were asked for in it. -/
structure Logged (W : Type) where
  world : W
  calls : List SealCall

namespace Logged

section

variable {W : Type}

instance [NonceSource W] : NonceSource (Logged W) where
  fill len t :=
    let (bytes, world) := NonceSource.fill len t.world
    (bytes, { t with world := world })

instance [AeadCrates W] : AeadCrates (Logged W) where
  encrypt kind key nonce aad plaintext t :=
    let (ciphertext, world) := AeadCrates.encrypt kind key nonce aad plaintext t.world
    (ciphertext, ⟨world, t.calls ++ [⟨kind, key, nonce, aad, plaintext, ciphertext⟩]⟩)
  decrypt t := AeadCrates.decrypt t.world

/-- A sealer without the list. -/
def unlogged (s : Sealer (Logged W)) : Sealer W := ⟨s.dek, s.world.world⟩

/-- A rotation without the list. -/
def unloggedRotation {T : Type} (r : Rotation T (Logged W)) : Rotation T W :=
  ⟨r.newDek, r.world.world, r.ciphertexts, r.counter⟩

end

/-! ## The list changes nothing -/

section

variable {W : Type} [AeadCrates W]

theorem follows_sealWith (kind : AeadKind) (nonce aad plaintext : Bytes) :
    Follows (unlogged (W := W)) (CryptoCoordinator.sealWith kind nonce aad plaintext)
      (CryptoCoordinator.sealWith kind nonce aad plaintext) := by
  intro s
  have hcrate : AeadCrates.encrypt kind s.dek.material nonce aad plaintext s.world =
      ((AeadCrates.encrypt kind s.dek.material nonce aad plaintext s.world.world).1,
        ⟨(AeadCrates.encrypt kind s.dek.material nonce aad plaintext s.world.world).2,
          s.world.calls ++ [⟨kind, s.dek.material, nonce, aad, plaintext,
            (AeadCrates.encrypt kind s.dek.material nonce aad plaintext s.world.world).1⟩]⟩) := rfl
  have hdek : (unlogged s).dek = s.dek := rfl
  have hworld : (unlogged s).world = s.world.world := rfl
  rw [CryptoCoordinator.exec_sealWith, CryptoCoordinator.exec_sealWith, hcrate, hdek, hworld]
  cases AeadCrates.encrypt kind s.dek.material nonce aad plaintext s.world.world with
  | mk ciphertext w =>
      cases ciphertext with
      | none => rfl
      | some ciphertext => rfl

theorem follows_encryptCounted (kind : AeadKind) (aad plaintext : Bytes) :
    Follows (unlogged (W := W)) (CryptoCoordinator.encryptCounted kind aad plaintext)
      (CryptoCoordinator.encryptCounted kind aad plaintext) := by
  have hcounter : Follows id Dek.advanceCounter Dek.advanceCounter := fun _ => rfl
  unfold CryptoCoordinator.encryptCounted
  apply follows_bind
  · exact follows_zoom hcounter (fun _ => rfl) fun _ _ => rfl
  · intro counter
    apply follows_get_bind
    intro s
    exact follows_bind (follows_sealWith _ _ aad plaintext) fun _ => follows_pure _

theorem follows_encryptAesGcm (aad plaintext : Bytes) :
    Follows (unlogged (W := W)) (CryptoCoordinator.encryptAesGcm aad plaintext)
      (CryptoCoordinator.encryptAesGcm aad plaintext) := by
  unfold CryptoCoordinator.encryptAesGcm
  apply follows_get_bind
  intro s
  show Follows _ _ (if s.dek.lifecycle = .longLived then _ else _)
  by_cases hlifecycle : s.dek.lifecycle = .longLived
  · rw [if_pos hlifecycle, if_pos hlifecycle]
    exact follows_bind (follows_throw _) fun _ => follows_encryptCounted _ aad plaintext
  · rw [if_neg hlifecycle, if_neg hlifecycle]
    exact follows_encryptCounted _ aad plaintext

variable [NonceSource W]

theorem follows_encryptXchacha (aad plaintext : Bytes) :
    Follows (unlogged (W := W)) (CryptoCoordinator.encryptXchacha aad plaintext)
      (CryptoCoordinator.encryptXchacha aad plaintext) := by
  unfold CryptoCoordinator.encryptXchacha
  apply follows_get_bind
  intro s
  apply follows_bind
  · intro t
    rfl
  · intro _
    exact follows_bind (follows_sealWith _ _ aad plaintext) fun _ => follows_pure _

theorem follows_encryptRaw (coordinator : CryptoCoordinator) (aad plaintext : Bytes) :
    Follows (unlogged (W := W)) (coordinator.encryptRaw aad plaintext)
      (coordinator.encryptRaw aad plaintext) := by
  unfold CryptoCoordinator.encryptRaw
  cases coordinator.manifestCipher with
  | xChaCha20Poly1305 => exact follows_encryptXchacha aad plaintext
  | aes256Gcm => exact follows_encryptAesGcm aad plaintext
  | aes256GcmSiv => exact follows_encryptCounted _ aad plaintext

/-- `encrypt` does with the list what it does without. -/
theorem follows_encrypt {T : Type} [PiiType T] [Postcard T] (coordinator : CryptoCoordinator)
    (x : T) (dekId : DekId) :
    Follows (unlogged (W := W)) (coordinator.encrypt x dekId) (coordinator.encrypt x dekId) := by
  unfold CryptoCoordinator.encrypt
  cases (Postcard.toStdvec x : Except PostcardError Bytes) with
  | error e => exact follows_throw _
  | ok ptBytes => exact follows_bind (follows_encryptRaw coordinator _ _) fun _ => follows_pure _

variable {T : Type} [PiiType T]

theorem follows_rotateStep (coordinator : CryptoCoordinator) (oldDek : Dek) (newDekId : DekId)
    (aad : Bytes) (idx : ℕ) :
    Follows (unloggedRotation (T := T) (W := W))
      (Rotation.rotateStep coordinator oldDek newDekId aad idx)
      (Rotation.rotateStep coordinator oldDek newDekId aad idx) := by
  unfold Rotation.rotateStep
  apply follows_get_bind
  intro r
  have hview : (unloggedRotation r).ciphertexts = r.ciphertexts := rfl
  rw [hview]
  cases r.ciphertexts[idx]? with
  | none => exact follows_pure ()
  | some envelope =>
      apply follows_bind (follows_ofExcept _)
      intro plaintext
      apply follows_bind
      · exact follows_zoom (follows_encryptRaw coordinator aad plaintext) (fun _ => rfl)
          fun _ _ => rfl
      · intro _
        exact follows_modify fun _ => rfl

theorem follows_rotateFrom (coordinator : CryptoCoordinator) (oldDek : Dek) (newDekId : DekId)
    (aad : Bytes) (indices : List ℕ) :
    Follows (unloggedRotation (T := T) (W := W))
      (Rotation.rotateFrom coordinator oldDek newDekId aad indices)
      (Rotation.rotateFrom coordinator oldDek newDekId aad indices) := by
  induction indices with
  | nil => exact follows_pure ()
  | cons idx rest ih =>
      exact follows_bind (follows_rotateStep coordinator oldDek newDekId aad idx) fun _ => ih

/-- `rotate_dek` does with the list what it does without. -/
theorem follows_rotateDek (coordinator : CryptoCoordinator) (oldDek : Dek) (newDekId : DekId) :
    Follows (unloggedRotation (T := T) (W := W))
      (Rotation.rotateDek coordinator oldDek newDekId)
      (Rotation.rotateDek coordinator oldDek newDekId) := by
  unfold Rotation.rotateDek
  apply follows_get_bind
  intro r
  apply follows_get_bind
  intro r'
  apply follows_bind
  · exact follows_attempt (follows_rotateFrom coordinator oldDek newDekId _ _)
  · intro outcome
    cases outcome with
    | ok _ => exact follows_pure ()
    | error err => exact follows_bind (follows_modify fun _ => rfl) fun _ => follows_throw err

end

end Logged

/-! ## One nonce at a time -/

section

variable {W : Type}

/-- The counter of the `Dek` is drawn, and the crate is called with the nonce it numbers. -/
inductive SealStep (kind : AeadKind) : Sealer (Logged W) → Sealer (Logged W) → Prop
  | drawn (s : Sealer (Logged W)) (call : SealCall) (w : W)
      (hadmitted : kind = .aes256Gcm → s.dek.lifecycle ≠ .longLived)
      (hcounter : s.dek.counter ≠ maxCounter) (hkind : call.kind = kind)
      (hkey : call.key = s.dek.material)
      (hnonce : call.nonce = (aesGcmNonceFromCounter s.dek.replicaId s.dek.counter).toList) :
      SealStep kind s
        ⟨{ s.dek with counter := s.dek.counter + 1 }, ⟨w, s.world.calls ++ [call]⟩⟩

/-- Any number of such steps. -/
abbrev SealSteps (kind : AeadKind) : Sealer (Logged W) → Sealer (Logged W) → Prop :=
  Relation.ReflTransGen (SealStep kind)

variable [NonceSource W]

/-- A draw calls no crate. -/
theorem calls_of_draws {kind : AeadKind} {s : Sealer (Logged W)} {nonce : NonceBytes} {dek : Dek}
    {t : Logged W} (hdraws : CryptoCoordinator.Draws kind s nonce dek t) :
    t.calls = s.world.calls := by
  cases hdraws with
  | filled hkind nonceBuf t hfill =>
      obtain ⟨-, rfl⟩ := Prod.mk.inj hfill
      rfl
  | counted => rfl

variable [AeadCrates W]

theorem sealStep_of_draws {kind : AeadKind} (hkind : kind ≠ .xChaCha20Poly1305)
    {s : Sealer (Logged W)} {nonce : NonceBytes} {dek : Dek} {t t' : Logged W}
    {aad plaintext : Bytes} {ciphertext : Option Bytes}
    (hdraws : CryptoCoordinator.Draws kind s nonce dek t)
    (hcrate : AeadCrates.encrypt kind s.dek.material nonce.asSlice aad plaintext t =
      (ciphertext, t')) : SealStep kind s ⟨dek, t'⟩ := by
  cases hdraws with
  | filled hfilled => exact absurd hfilled hkind
  | counted _ hlifecycle hcounter =>
      obtain ⟨-, rfl⟩ := Prod.mk.inj hcrate
      exact .drawn s ⟨kind, s.dek.material, _, aad, plaintext, _⟩ _ hlifecycle hcounter rfl rfl rfl

/-- An encryption under a counter cipher takes one step or none. -/
theorem CryptoCoordinator.EncryptedRaw.steps {kind : AeadKind} (hkind : kind ≠ .xChaCha20Poly1305)
    {aad plaintext : Bytes} {s s' : Sealer (Logged W)}
    {outcome : Except PiiError (NonceBytes × Bytes)}
    (h : EncryptedRaw kind aad plaintext s outcome s') : SealSteps kind s s' := by
  cases h with
  | refused => exact .refl
  | exhausted => exact .refl
  | failed nonce dek t t' hdraws hcrate => exact .single (sealStep_of_draws hkind hdraws hcrate)
  | sealed nonce ciphertext dek t t' hdraws hcrate =>
      exact .single (sealStep_of_draws hkind hdraws hcrate)

theorem sealSteps_encryptRaw {coordinator : CryptoCoordinator}
    (hkind : coordinator.manifestCipher ≠ .xChaCha20Poly1305) (aad plaintext : Bytes)
    (s : Sealer (Logged W)) :
    SealSteps coordinator.manifestCipher s ((coordinator.encryptRaw aad plaintext).exec s).2 :=
  (CryptoCoordinator.encryptedRaw_encryptRaw coordinator aad plaintext s).steps hkind

/-- A ciphertext that an encryption returns is the last of the list. -/
theorem CryptoCoordinator.EncryptedRaw.calls {kind : AeadKind} {aad plaintext : Bytes}
    {s s' : Sealer (Logged W)} {nonce : NonceBytes} {ciphertext : Bytes}
    (h : EncryptedRaw kind aad plaintext s (.ok (nonce, ciphertext)) s') :
    s'.world.calls = s.world.calls ++
      [⟨kind, s.dek.material, nonce.asSlice, aad, plaintext, some ciphertext⟩] := by
  cases h with
  | sealed nonce ciphertext dek t t' hdraws hcrate =>
      obtain ⟨hciphertext, rfl⟩ := Prod.mk.inj hcrate
      rw [← calls_of_draws hdraws, ← hciphertext]

/-- No call is taken off the list. -/
theorem CryptoCoordinator.EncryptedRaw.calls_prefix {kind : AeadKind} {aad plaintext : Bytes}
    {s s' : Sealer (Logged W)} {outcome : Except PiiError (NonceBytes × Bytes)}
    (h : EncryptedRaw kind aad plaintext s outcome s') : s.world.calls <+: s'.world.calls := by
  cases h with
  | refused => exact List.prefix_rfl
  | exhausted => exact List.prefix_rfl
  | failed nonce dek t t' hdraws hcrate =>
      obtain ⟨-, rfl⟩ := Prod.mk.inj hcrate
      rw [← calls_of_draws hdraws]
      exact List.prefix_append _ _
  | sealed nonce ciphertext dek t t' hdraws hcrate =>
      obtain ⟨-, rfl⟩ := Prod.mk.inj hcrate
      rw [← calls_of_draws hdraws]
      exact List.prefix_append _ _

variable {T : Type} [PiiType T]

theorem sealSteps_encrypt [Postcard T] {coordinator : CryptoCoordinator}
    (hkind : coordinator.manifestCipher ≠ .xChaCha20Poly1305) (x : T) (dekId : DekId)
    (s : Sealer (Logged W)) :
    SealSteps coordinator.manifestCipher s ((coordinator.encrypt x dekId).exec s).2 := by
  unfold CryptoCoordinator.encrypt
  cases (Postcard.toStdvec x : Except PostcardError Bytes) with
  | error e => exact .refl
  | ok ptBytes =>
      have hraw := sealSteps_encryptRaw hkind
        (computeAad dekId (PiiType.piiCode T) coordinator.manifestCipher) ptBytes s
      simp only [exec_bind]
      generalize (coordinator.encryptRaw _ ptBytes).exec s = result at hraw ⊢
      obtain ⟨outcome, s'⟩ := result
      cases outcome with
      | error e => exact hraw
      | ok sealed => exact hraw

theorem Rotation.Rotated.steps {coordinator : CryptoCoordinator}
    (hkind : coordinator.manifestCipher ≠ .xChaCha20Poly1305) {oldDek : Dek} {newDekId : DekId}
    {aad : Bytes} {s s' : Sealer (Logged W)} {es : List (EncryptedPii T)}
    {outcome : Except PiiError (List (EncryptedPii T))}
    (h : Rotated coordinator oldDek newDekId aad s es outcome s') :
    SealSteps coordinator.manifestCipher s s' := by
  induction h with
  | done => exact .refl
  | unopened => exact .refl
  | unsealed s s' envelope rest plaintext err hopen hseal => exact hseal.steps hkind
  | resealed s s' s'' envelope rest plaintext nonce newCt outcome hopen hseal hrest ih =>
      exact (hseal.steps hkind).trans ih

theorem Rotation.Rotated.calls_prefix {coordinator : CryptoCoordinator} {oldDek : Dek}
    {newDekId : DekId} {aad : Bytes} {s s' : Sealer (Logged W)} {es : List (EncryptedPii T)}
    {outcome : Except PiiError (List (EncryptedPii T))}
    (h : Rotated coordinator oldDek newDekId aad s es outcome s') :
    s.world.calls <+: s'.world.calls := by
  induction h with
  | done => exact List.prefix_rfl
  | unopened => exact List.prefix_rfl
  | unsealed s s' envelope rest plaintext err hopen hseal => exact hseal.calls_prefix
  | resealed s s' s'' envelope rest plaintext nonce newCt outcome hopen hseal hrest ih =>
      exact hseal.calls_prefix.trans ih

/-- Every envelope that a rotation made is in the list with its nonce. -/
theorem Rotation.Rotated.calls {coordinator : CryptoCoordinator} {oldDek : Dek} {newDekId : DekId}
    {aad : Bytes} {s s' : Sealer (Logged W)} {es : List (EncryptedPii T)}
    {outcome : Except PiiError (List (EncryptedPii T))}
    (h : Rotated coordinator oldDek newDekId aad s es outcome s') :
    ∀ news, outcome = .ok news → ∀ new ∈ news, ∃ plaintext,
      ⟨coordinator.manifestCipher, s.dek.material, new.nonce.asSlice, aad, plaintext,
        some new.ciphertext⟩ ∈ s'.world.calls := by
  induction h with
  | done s =>
      intro news hnews new hnew
      rw [← Except.ok.inj hnews] at hnew
      cases hnew
  | unopened => exact fun news hnews => nomatch hnews
  | unsealed => exact fun news hnews => nomatch hnews
  | resealed s s' s'' envelope rest plaintext nonce newCt outcome hopen hseal hrest ih =>
      intro news hnews new hnew
      cases outcome with
      | error err => cases hnews
      | ok tail =>
          rw [← Except.ok.inj hnews] at hnew
          rcases List.mem_cons.mp hnew with rfl | htail
          · refine ⟨plaintext, hrest.calls_prefix.subset ?_⟩
            rw [hseal.calls]
            exact List.mem_append_right _ (List.mem_singleton.mpr rfl)
          · obtain ⟨pt, hpt⟩ := ih tail rfl new htail
            rw [hseal.material] at hpt
            exact ⟨pt, hpt⟩

/-- A rotation takes its steps under the new key, and a rollback takes none back. -/
theorem sealSteps_rotateDek {coordinator : CryptoCoordinator}
    (hkind : coordinator.manifestCipher ≠ .xChaCha20Poly1305) (oldDek : Dek) (newDekId : DekId)
    (r : Rotation T (Logged W)) :
    SealSteps coordinator.manifestCipher r.sealer
      ((Rotation.rotateDek coordinator oldDek newDekId).exec r).2.sealer := by
  obtain ⟨outcome, s, hrotated, hleft⟩ :=
    Rotation.dekRotated_rotateDek coordinator oldDek newDekId r
  have hsteps := hrotated.steps hkind
  generalize (Rotation.rotateDek coordinator oldDek newDekId).exec r = result at hleft ⊢
  cases hleft with
  | ok news => exact hsteps
  | error err => exact hsteps

end

end ArkheForge.Platform
