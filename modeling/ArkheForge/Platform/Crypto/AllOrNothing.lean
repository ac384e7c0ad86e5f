/-
  A rotation moves the whole slice or nothing.

  `dekRotated_rotateDek` says what `rotate_dek` leaves in terms of what became of the
  elements. Read for a caller: after `Ok` each envelope, in its place, carries the new id,
  the code of `T` and the coordinator's cipher, and opens under the new key to what its
  predecessor opened to under the old one; after `Err` the slice and the message counter
  are those of the entry. Sealing has to stay open (`KeepsSeals`), as it does for an ideal
  AEAD.
-/
import ArkheForge.Platform.Crypto.Binding
import ArkheForge.Platform.Crypto.Rotation
import Mathlib.Data.List.Forall2

namespace ArkheForge.Platform

open ArkheForge.Core BigEndian Fallible

/-! ## Ideal AEADs keep their seals -/

section

variable {W : Type} [NonceSource W] [AeadCrates W] [IdealAead W]

theorem IdealAead.staysOpen {w w' : W} (h : IdealAead.history w ⊆ IdealAead.history w') :
    StaysOpen w w' := by
  intro kind key nonce aad ciphertext plaintext hopen
  exact IdealAead.decrypt_eq_some.mpr (h (IdealAead.decrypt_eq_some.mp hopen))

instance IdealAead.keepsSeals : KeepsSeals W where
  decrypt_encrypt := by
    intro kind key nonce aad plaintext ciphertext w w' h
    rw [IdealAead.decrypt_eq_some, IdealAead.history_encrypt h]
    exact List.mem_append_right _ (List.mem_singleton.mpr rfl)
  staysOpen_encrypt := by
    intro kind key nonce aad plaintext w w' outcome h
    apply IdealAead.staysOpen
    cases outcome with
    | none =>
        rw [IdealAead.history_encrypt_none h]
        exact List.Subset.refl _
    | some ciphertext =>
        rw [IdealAead.history_encrypt h]
        exact List.subset_append_left _ _
  staysOpen_fill len w := by
    apply IdealAead.staysOpen
    rw [IdealAead.history_fill]
    exact List.Subset.refl _

end

/-! ## The message counter -/

theorem recordMessage_count (counter : DekMessageCounter) :
    counter.recordMessage.count.toNat = min (counter.count.toNat + 1) maxCounter.toNat := by
  have hbound := counter.count.toNat_lt
  have hmax : maxCounter.toNat = 2 ^ 64 - 1 := rfl
  have hsize : UInt64.size = 2 ^ 64 := rfl
  have hone : (1 : UInt64).toNat = 1 := rfl
  unfold DekMessageCounter.recordMessage
  split
  · simp only [UInt64.toNat_add]
    omega
  · show counter.count.toNat = _
    omega

theorem recordMessage_dekId (counter : DekMessageCounter) (n : ℕ) :
    (DekMessageCounter.recordMessage^[n] counter).dekId = counter.dekId := by
  induction n generalizing counter with
  | zero => rfl
  | succ n ih => exact ih counter.recordMessage

/-- `n` messages are counted as far as the counter goes. -/
theorem recordMessage_iterate (counter : DekMessageCounter) (n : ℕ) :
    (DekMessageCounter.recordMessage^[n] counter).count.toNat =
      min (counter.count.toNat + n) maxCounter.toNat := by
  induction n generalizing counter with
  | zero =>
      have hbound := counter.count.toNat_lt
      have hmax : maxCounter.toNat = 2 ^ 64 - 1 := rfl
      show counter.count.toNat = _
      omega
  | succ n ih =>
      rw [Function.iterate_succ_apply, ih, recordMessage_count]
      omega

namespace Rotation

section

variable {T W : Type} [AeadCrates W] [PiiType T]

/-- The new envelope, in the rotation that `after` ends, holds what the old one held in the
    rotation that `before` began. -/
structure Carried (coordinator : CryptoCoordinator) (oldDek : Dek) (newDekId : DekId)
    (before after : Rotation T W) (old new : EncryptedPii T) : Prop
    extends Resealed coordinator oldDek newDekId after.sealer old new where
  entry : ∀ plaintext, CryptoCoordinator.decryptRawUnder before.world oldDek old = .ok plaintext →
    CryptoCoordinator.decryptRawUnder after.world after.newDek new = .ok plaintext

theorem Resealed.carried {coordinator : CryptoCoordinator} {oldDek : Dek} {newDekId : DekId}
    {before after : Rotation T W} {old new : EncryptedPii T}
    (h : Resealed coordinator oldDek newDekId after.sealer old new)
    (hopen : StaysOpen before.world after.world) :
    Carried coordinator oldDek newDekId before after old new where
  toResealed := h
  entry plaintext hentry := by
    obtain ⟨pt, hold, hnew⟩ := h.plaintext
    have hlater : CryptoCoordinator.decryptRawUnder after.world oldDek old = .ok plaintext :=
      hopen.envelope hentry
    have hsame : plaintext = pt := Except.ok.inj (hlater.symm.trans hold)
    rw [hsame]
    exact hnew

variable [NonceSource W] [KeepsSeals W]

/-- A rotation that returns moved every envelope and counted each; one that fails moved none
    and counted none. -/
theorem rotateDek_all_or_nothing (coordinator : CryptoCoordinator) (oldDek : Dek)
    (newDekId : DekId) (r : Rotation T W) :
    (∀ r', (rotateDek coordinator oldDek newDekId).exec r = (.ok (), r') →
      List.Forall₂ (Carried coordinator oldDek newDekId r r') r.ciphertexts r'.ciphertexts ∧
      r'.newDek.material = r.newDek.material ∧
      r'.counter.dekId = r.counter.dekId ∧
      r'.counter.count.toNat =
        min (r.counter.count.toNat + r.ciphertexts.length) maxCounter.toNat) ∧
    (∀ err r', (rotateDek coordinator oldDek newDekId).exec r = (.error err, r') →
      r'.ciphertexts = r.ciphertexts ∧ r'.counter = r.counter) := by
  obtain ⟨outcome, s, hrotated, hends⟩ := dekRotated_rotateDek coordinator oldDek newDekId r
  generalize (rotateDek coordinator oldDek newDekId).exec r = result at hends
  cases hends with
  | ok news =>
      refine ⟨?_, fun err r' h => absurd (Prod.mk.inj h).1 (by simp)⟩
      intro r' h
      obtain rfl := (Prod.mk.inj h).2
      have hresealed := hrotated.resealed_all news rfl
      refine ⟨hresealed.imp fun old new h => h.carried hrotated.staysOpen, hrotated.material,
        recordMessage_dekId _ _, ?_⟩
      rw [recordMessage_iterate, hresealed.length_eq]
  | error err =>
      refine ⟨fun r' h => absurd (Prod.mk.inj h).1 (by simp), ?_⟩
      intro err' r' h
      obtain rfl := (Prod.mk.inj h).2
      exact ⟨rfl, rfl⟩

end

section

attribute [local instance] CryptoCoordinator.postcardActorHandle

/-- One handle sealed under AES-256-GCM and then under XChaCha20-Poly1305. -/
def sealTwice :
    Fallible (Sealer AeadTable) PiiError (List (EncryptedPii ActorHandle)) := do
  let first ← (⟨.aes256Gcm⟩ : CryptoCoordinator).encrypt CryptoCoordinator.shortHandle
    CryptoCoordinator.handleDek
  let second ← (⟨.xChaCha20Poly1305⟩ : CryptoCoordinator).encrypt CryptoCoordinator.shortHandle
    CryptoCoordinator.handleDek
  pure [first, second]

/-- A slice of both, and a new key. -/
def twoHandles : Rotation ActorHandle AeadTable :=
  match sealTwice.exec CryptoCoordinator.freshSealer with
  | (.ok envelopes, s) =>
    ⟨Dek.fromBytes (.replicate 32 0x22), s.world, envelopes, .new ⟨.replicate 16 0x08⟩⟩
  | (.error _, s) =>
    ⟨Dek.fromBytes (.replicate 32 0x22), s.world, [], .new ⟨.replicate 16 0x08⟩⟩

/-- Both move to the new key under XChaCha20-Poly1305. -/
theorem rotateDek_twoHandles :
    KeepsSeals AeadTable ∧ twoHandles.ciphertexts.length = 2 ∧
    ∃ r', (rotateDek ⟨.xChaCha20Poly1305⟩ CryptoCoordinator.freshSealer.dek
        ⟨.replicate 16 0x08⟩).exec twoHandles = (.ok (), r') ∧
      List.Forall₂ (Carried ⟨.xChaCha20Poly1305⟩ CryptoCoordinator.freshSealer.dek
        ⟨.replicate 16 0x08⟩ twoHandles r') twoHandles.ciphertexts r'.ciphertexts ∧
      r'.counter.count.toNat = 2 := by
  have hexec : (rotateDek ⟨.xChaCha20Poly1305⟩ CryptoCoordinator.freshSealer.dek
      ⟨.replicate 16 0x08⟩).exec twoHandles = (.ok (), _) := rfl
  obtain ⟨hok, -⟩ := rotateDek_all_or_nothing ⟨.xChaCha20Poly1305⟩
    CryptoCoordinator.freshSealer.dek ⟨.replicate 16 0x08⟩ twoHandles
  obtain ⟨hcarried, -, -, hcount⟩ := hok _ hexec
  exact ⟨inferInstance, rfl, _, hexec, hcarried, hcount⟩

end

end Rotation

end ArkheForge.Platform
