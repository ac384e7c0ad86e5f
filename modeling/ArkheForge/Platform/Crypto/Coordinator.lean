/-
  `CryptoCoordinator` (`crypto.rs`): envelopes, encryption and decryption under the
  manifest's cipher, in the build with both KMS tiers.

  The AEAD crates and the nonce source are not part of the repository. They are calls
  in a world, so a source of randomness or a record of what was sealed is part of it
  and a call may fail for a reason of its own; decryption only reads the world. An
  encryption draws its nonce from the counter of the `Dek` or from the nonce source
  before the crate is called.
-/
import ArkheForge.Platform.Crypto.Dek

namespace ArkheForge.Platform

open ArkheForge.Core BigEndian Fallible

/-! ## Outside the repository -/

/-- `NonceSource`. -/
class NonceSource (W : Type) where
  fill : (len : ℕ) → W → Vector UInt8 len × W

/-- The crates `chacha20poly1305`, `aes_gcm` and `aes_gcm_siv`: key, nonce, associated data,
    message. -/
class AeadCrates (W : Type) where
  encrypt : AeadKind → Vector UInt8 32 → Bytes → Bytes → Bytes → W → Option Bytes × W
  decrypt : W → AeadKind → Vector UInt8 32 → Bytes → Bytes → Bytes → Option Bytes

/-! ## Envelopes -/

/-- `NonceBytes`. -/
inductive NonceBytes
  | x24 (bytes : Vector UInt8 24)
  | short12 (bytes : Vector UInt8 12)
  deriving DecidableEq, Repr

/-- `NonceBytes::expected_len`. -/
def NonceBytes.expectedLen : AeadKind → ℕ
  | .xChaCha20Poly1305 => 24
  | .aes256Gcm => 12
  | .aes256GcmSiv => 12

/-- `NonceBytes::as_slice`. -/
def NonceBytes.asSlice : NonceBytes → Bytes
  | .x24 bytes => bytes.toList
  | .short12 bytes => bytes.toList

theorem NonceBytes.asSlice_injective : Function.Injective NonceBytes.asSlice := by
  intro nonce nonce' h
  have hlength := congrArg List.length h
  cases nonce with
  | x24 bytes =>
      cases nonce' with
      | x24 bytes' => exact congrArg NonceBytes.x24 (Vector.toList_inj.mp h)
      | short12 bytes' => simp [asSlice] at hlength
  | short12 bytes =>
      cases nonce' with
      | x24 bytes' => simp [asSlice] at hlength
      | short12 bytes' => exact congrArg NonceBytes.short12 (Vector.toList_inj.mp h)

/-- `EncryptedPii<T>`. -/
structure EncryptedPii (T : Type) where
  dekId : DekId
  piiCode : UInt16
  aeadKind : AeadKind
  nonce : NonceBytes
  ciphertext : Bytes
  deriving DecidableEq, Repr

/-- `EncryptedPii::new`. -/
def EncryptedPii.new {T : Type} [PiiType T] (dekId : DekId) (aeadKind : AeadKind)
    (nonce : NonceBytes) (ciphertext : Bytes) : EncryptedPii T where
  dekId := dekId
  piiCode := PiiType.piiCode T
  aeadKind := aeadKind
  nonce := nonce
  ciphertext := ciphertext

/-- `CryptoCoordinator`, its nonce source being part of the world. -/
structure CryptoCoordinator where
  manifestCipher : AeadKind
  deriving DecidableEq, Repr

/-- What an encryption works on. -/
structure Sealer (W : Type) where
  dek : Dek
  world : W

namespace CryptoCoordinator

/-! ## Encryption -/

section

variable {W : Type} [NonceSource W] [AeadCrates W]

/-- A call of a crate under the key of the `Dek`. -/
def sealWith (kind : AeadKind) (nonce aad plaintext : Bytes) : Fallible (Sealer W) PiiError Bytes := do
  let s ← get
  let (ciphertext, world) := AeadCrates.encrypt kind s.dek.material nonce aad plaintext s.world
  set { s with world := world }
  match ciphertext with
  | some ciphertext => pure ciphertext
  | none => throw .encryptFailed

/-- `CryptoCoordinator::encrypt_xchacha`. -/
def encryptXchacha (aad plaintext : Bytes) : Fallible (Sealer W) PiiError (NonceBytes × Bytes) := do
  let s ← get
  let (nonceBuf, world) := NonceSource.fill 24 s.world
  set { s with world := world }
  let ciphertext ← sealWith .xChaCha20Poly1305 nonceBuf.toList aad plaintext
  pure (.x24 nonceBuf, ciphertext)

/-- The body that the two counter ciphers share. -/
def encryptCounted (kind : AeadKind) (aad plaintext : Bytes) :
    Fallible (Sealer W) PiiError (NonceBytes × Bytes) := do
  let counter ← zoom Sealer.dek (fun dek s => { s with dek := dek }) id Dek.advanceCounter
  let nonceBuf := aesGcmNonceFromCounter (← get).dek.replicaId counter
  let ciphertext ← sealWith kind nonceBuf.toList aad plaintext
  pure (.short12 nonceBuf, ciphertext)

/-- `CryptoCoordinator::encrypt_aes_gcm`. -/
def encryptAesGcm (aad plaintext : Bytes) : Fallible (Sealer W) PiiError (NonceBytes × Bytes) := do
  if (← get).dek.lifecycle = .longLived then throw .nonceReuseRisk
  encryptCounted .aes256Gcm aad plaintext

/-- `CryptoCoordinator::encrypt_aes_gcm_siv`. -/
def encryptAesGcmSiv (aad plaintext : Bytes) :
    Fallible (Sealer W) PiiError (NonceBytes × Bytes) :=
  encryptCounted .aes256GcmSiv aad plaintext

/-- `CryptoCoordinator::encrypt_raw`. -/
def encryptRaw (coordinator : CryptoCoordinator) (aad plaintext : Bytes) :
    Fallible (Sealer W) PiiError (NonceBytes × Bytes) :=
  match coordinator.manifestCipher with
  | .xChaCha20Poly1305 => encryptXchacha aad plaintext
  | .aes256Gcm => encryptAesGcm aad plaintext
  | .aes256GcmSiv => encryptAesGcmSiv aad plaintext

/-- `CryptoCoordinator::encrypt`. -/
def encrypt {T : Type} [PiiType T] [Postcard T] (coordinator : CryptoCoordinator) (plaintext : T)
    (dekId : DekId) : Fallible (Sealer W) PiiError (EncryptedPii T) := do
  let aad := computeAad dekId (PiiType.piiCode T) coordinator.manifestCipher
  match Postcard.toStdvec plaintext with
  | .error _ => throw .encryptFailed
  | .ok ptBytes =>
    let (nonce, ciphertext) ← coordinator.encryptRaw aad ptBytes
    pure (.new dekId coordinator.manifestCipher nonce ciphertext)

end

/-! ## Decryption -/

section

variable {W : Type} [AeadCrates W]

/-- A decryption by a crate under the key of the `Dek`. -/
def openWith (w : W) (dek : Dek) (kind : AeadKind) (nonce aad ciphertext : Bytes) :
    Except PiiError Bytes :=
  match AeadCrates.decrypt w kind dek.material nonce aad ciphertext with
  | some plaintext => .ok plaintext
  | none => .error .aadMismatch

/-- `CryptoCoordinator::decrypt_xchacha`. -/
def decryptXchacha (w : W) (dek : Dek) (nonce : NonceBytes) (aad ciphertext : Bytes) :
    Except PiiError Bytes :=
  match nonce with
  | .x24 bytes => openWith w dek .xChaCha20Poly1305 bytes.toList aad ciphertext
  | .short12 _ => .error .aadMismatch

/-- The body that the two ciphers with a 12-byte nonce share. -/
def decryptShort (kind : AeadKind) (w : W) (dek : Dek) (nonce : NonceBytes)
    (aad ciphertext : Bytes) : Except PiiError Bytes :=
  match nonce with
  | .short12 bytes => openWith w dek kind bytes.toList aad ciphertext
  | .x24 _ => .error .aadMismatch

/-- `CryptoCoordinator::decrypt_aes_gcm`. -/
def decryptAesGcm (w : W) (dek : Dek) (nonce : NonceBytes) (aad ciphertext : Bytes) :
    Except PiiError Bytes :=
  decryptShort .aes256Gcm w dek nonce aad ciphertext

/-- `CryptoCoordinator::decrypt_aes_gcm_siv`. -/
def decryptAesGcmSiv (w : W) (dek : Dek) (nonce : NonceBytes) (aad ciphertext : Bytes) :
    Except PiiError Bytes :=
  decryptShort .aes256GcmSiv w dek nonce aad ciphertext

/-- `CryptoCoordinator::decrypt_raw`. -/
def decryptRaw (w : W) (dek : Dek) (kind : AeadKind) (nonce : NonceBytes)
    (aad ciphertext : Bytes) : Except PiiError Bytes :=
  match kind with
  | .xChaCha20Poly1305 => decryptXchacha w dek nonce aad ciphertext
  | .aes256Gcm => decryptAesGcm w dek nonce aad ciphertext
  | .aes256GcmSiv => decryptAesGcmSiv w dek nonce aad ciphertext

variable {T : Type}

/-- `CryptoCoordinator::decrypt_raw_under`. -/
def decryptRawUnder (w : W) (dek : Dek) (envelope : EncryptedPii T) : Except PiiError Bytes :=
  let aad := computeAad envelope.dekId envelope.piiCode envelope.aeadKind
  decryptRaw w dek envelope.aeadKind envelope.nonce aad envelope.ciphertext

/-- `CryptoCoordinator::decrypt`. -/
def decrypt [PiiType T] [Postcard T] (coordinator : CryptoCoordinator) (w : W) (dek : Dek)
    (envelope : EncryptedPii T) : Except PiiError T :=
  if envelope.piiCode ≠ PiiType.piiCode T then .error .typeMismatch
  else if envelope.aeadKind ≠ coordinator.manifestCipher then .error .cipherDowngrade
  else
    let aad := computeAad envelope.dekId envelope.piiCode envelope.aeadKind
    match decryptRaw w dek envelope.aeadKind envelope.nonce aad envelope.ciphertext with
    | .error e => .error e
    | .ok plaintext =>
      match Postcard.fromBytes plaintext with
      | .ok x => .ok x
      | .error _ => .error .decodeFailed

end

/-! ## What a decryption accepts -/

section

variable {W : Type} [AeadCrates W]

theorem openWith_eq_ok {w : W} {dek : Dek} {kind : AeadKind} {nonce aad ciphertext : Bytes}
    {plaintext : Bytes} : openWith w dek kind nonce aad ciphertext = .ok plaintext ↔
      AeadCrates.decrypt w kind dek.material nonce aad ciphertext = some plaintext := by
  unfold openWith
  cases AeadCrates.decrypt w kind dek.material nonce aad ciphertext with
  | none => simp
  | some pt => simp

/-- Every cipher asks for a nonce of its length and leaves the rest to its crate. -/
theorem decryptRaw_eq_ok {w : W} {dek : Dek} {kind : AeadKind} {nonce : NonceBytes}
    {aad ciphertext plaintext : Bytes} :
    decryptRaw w dek kind nonce aad ciphertext = .ok plaintext ↔
      nonce.asSlice.length = NonceBytes.expectedLen kind ∧
        AeadCrates.decrypt w kind dek.material nonce.asSlice aad ciphertext = some plaintext := by
  have hlong : ∀ bytes : Vector UInt8 24, (NonceBytes.x24 bytes).asSlice.length = 24 :=
    fun bytes => bytes.size_toArray
  have hshort : ∀ bytes : Vector UInt8 12, (NonceBytes.short12 bytes).asSlice.length = 12 :=
    fun bytes => bytes.size_toArray
  cases nonce with
  | x24 bytes =>
      rw [hlong]
      cases kind with
      | xChaCha20Poly1305 => exact ⟨fun h => ⟨rfl, openWith_eq_ok.mp h⟩, fun h => openWith_eq_ok.mpr h.2⟩
      | aes256Gcm => simp [decryptRaw, decryptAesGcm, decryptShort, NonceBytes.expectedLen]
      | aes256GcmSiv => simp [decryptRaw, decryptAesGcmSiv, decryptShort, NonceBytes.expectedLen]
  | short12 bytes =>
      rw [hshort]
      cases kind with
      | xChaCha20Poly1305 => simp [decryptRaw, decryptXchacha, NonceBytes.expectedLen]
      | aes256Gcm => exact ⟨fun h => ⟨rfl, openWith_eq_ok.mp h⟩, fun h => openWith_eq_ok.mpr h.2⟩
      | aes256GcmSiv => exact ⟨fun h => ⟨rfl, openWith_eq_ok.mp h⟩, fun h => openWith_eq_ok.mpr h.2⟩

theorem decrypt_eq_ok {T : Type} [PiiType T] [Postcard T] {coordinator : CryptoCoordinator}
    {w : W} {dek : Dek} {envelope : EncryptedPii T} {x : T} :
    coordinator.decrypt w dek envelope = .ok x ↔
      envelope.piiCode = PiiType.piiCode T ∧ envelope.aeadKind = coordinator.manifestCipher ∧
        ∃ plaintext, decryptRawUnder w dek envelope = .ok plaintext ∧
          Postcard.fromBytes plaintext = .ok x := by
  unfold decrypt decryptRawUnder
  by_cases hcode : envelope.piiCode = PiiType.piiCode T
  · by_cases hkind : envelope.aeadKind = coordinator.manifestCipher
    · simp only [hcode, hkind, ne_eq, not_true_eq_false, if_false, true_and]
      cases decryptRaw w dek coordinator.manifestCipher envelope.nonce
          (computeAad envelope.dekId (PiiType.piiCode T) coordinator.manifestCipher)
          envelope.ciphertext with
      | error e => simp
      | ok plaintext =>
          cases hdecode : (Postcard.fromBytes plaintext : Except PostcardError T) with
          | error e => simp [hdecode]
          | ok y => simp [hdecode]
    · simp [hcode, hkind]
  · simp [hcode]

end

/-! ## What an encryption does -/

section

variable {W : Type} [NonceSource W]

/-- The nonce of one encryption, with the `Dek` and the world it leaves. -/
inductive Draws (kind : AeadKind) (s : Sealer W) : NonceBytes → Dek → W → Prop
  | filled (hkind : kind = .xChaCha20Poly1305) (nonceBuf : Vector UInt8 24) (w : W)
      (hfill : NonceSource.fill 24 s.world = (nonceBuf, w)) :
      Draws kind s (.x24 nonceBuf) s.dek w
  | counted (hkind : kind ≠ .xChaCha20Poly1305)
      (hlifecycle : kind = .aes256Gcm → s.dek.lifecycle ≠ .longLived)
      (hcounter : s.dek.counter ≠ maxCounter) :
      Draws kind s (.short12 (aesGcmNonceFromCounter s.dek.replicaId s.dek.counter))
        { s.dek with counter := s.dek.counter + 1 } s.world

/-- The nonce has the length of the cipher. -/
theorem Draws.length {kind : AeadKind} {s : Sealer W} {nonce : NonceBytes} {dek : Dek} {w : W}
    (h : Draws kind s nonce dek w) : nonce.asSlice.length = NonceBytes.expectedLen kind := by
  cases h with
  | filled hkind nonceBuf w hfill =>
      rw [hkind]
      exact nonceBuf.size_toArray
  | counted hkind hlifecycle hcounter =>
      have hlength : NonceBytes.expectedLen kind = 12 := by
        cases kind with
        | xChaCha20Poly1305 => exact absurd rfl hkind
        | aes256Gcm => rfl
        | aes256GcmSiv => rfl
      rw [hlength]
      exact (aesGcmNonceFromCounter s.dek.replicaId s.dek.counter).size_toArray

end

theorem exec_sealWith {W : Type} [AeadCrates W] (kind : AeadKind) (nonce aad plaintext : Bytes)
    (s : Sealer W) :
    (sealWith kind nonce aad plaintext).exec s =
      match AeadCrates.encrypt kind s.dek.material nonce aad plaintext s.world with
      | (some ciphertext, w) => (.ok ciphertext, { s with world := w })
      | (none, w) => (.error .encryptFailed, { s with world := w }) := by
  unfold sealWith
  simp only [exec_bind, exec_get]
  rcases AeadCrates.encrypt kind s.dek.material nonce aad plaintext s.world with ⟨_ | c, w⟩
  · rfl
  · rfl

section

variable {W : Type} [NonceSource W] [AeadCrates W]

/-- The outcomes of `encrypt_raw`: two refusals before a nonce is drawn, and what the crate
    makes of the drawn nonce. -/
inductive EncryptedRaw (kind : AeadKind) (aad plaintext : Bytes) (s : Sealer W) :
    Except PiiError (NonceBytes × Bytes) → Sealer W → Prop
  | refused (hkind : kind = .aes256Gcm) (hlifecycle : s.dek.lifecycle = .longLived) :
      EncryptedRaw kind aad plaintext s (.error .nonceReuseRisk) s
  | exhausted (hkind : kind ≠ .xChaCha20Poly1305)
      (hlifecycle : kind = .aes256Gcm → s.dek.lifecycle ≠ .longLived)
      (hcounter : s.dek.counter = maxCounter) :
      EncryptedRaw kind aad plaintext s (.error .dekExhausted) s
  | failed (nonce : NonceBytes) (dek : Dek) (w w' : W) (hdraws : Draws kind s nonce dek w)
      (hcrate : AeadCrates.encrypt kind s.dek.material nonce.asSlice aad plaintext w = (none, w')) :
      EncryptedRaw kind aad plaintext s (.error .encryptFailed) ⟨dek, w'⟩
  | sealed (nonce : NonceBytes) (ciphertext : Bytes) (dek : Dek) (w w' : W)
      (hdraws : Draws kind s nonce dek w)
      (hcrate : AeadCrates.encrypt kind s.dek.material nonce.asSlice aad plaintext w =
        (some ciphertext, w')) :
      EncryptedRaw kind aad plaintext s (.ok (nonce, ciphertext)) ⟨dek, w'⟩

theorem encryptedRaw_counted {kind : AeadKind} (hkind : kind ≠ .xChaCha20Poly1305)
    {s : Sealer W} (hlifecycle : kind = .aes256Gcm → s.dek.lifecycle ≠ .longLived)
    (aad plaintext : Bytes) :
    EncryptedRaw kind aad plaintext s ((encryptCounted kind aad plaintext).exec s).1
      ((encryptCounted kind aad plaintext).exec s).2 := by
  unfold encryptCounted
  simp only [exec_bind, exec_zoom, Dek.exec_advanceCounter]
  by_cases hcounter : s.dek.counter = maxCounter
  · simp only [hcounter, if_true, Except.mapError]
    exact .exhausted hkind hlifecycle hcounter
  · simp only [hcounter, if_false, Except.mapError, exec_get, exec_sealWith]
    have hdraws := Draws.counted (s := s) hkind hlifecycle hcounter
    cases hcrate : AeadCrates.encrypt kind s.dek.material
        (aesGcmNonceFromCounter s.dek.replicaId s.dek.counter).toList aad plaintext s.world with
    | mk ciphertext w =>
        cases ciphertext with
        | none => exact .failed _ _ _ w hdraws hcrate
        | some ciphertext => exact .sealed _ ciphertext _ _ w hdraws hcrate

theorem encryptedRaw_encryptRaw (coordinator : CryptoCoordinator) (aad plaintext : Bytes)
    (s : Sealer W) :
    EncryptedRaw coordinator.manifestCipher aad plaintext s
      ((coordinator.encryptRaw aad plaintext).exec s).1
      ((coordinator.encryptRaw aad plaintext).exec s).2 := by
  unfold encryptRaw
  cases coordinator.manifestCipher with
  | xChaCha20Poly1305 =>
      unfold encryptXchacha
      simp only [exec_bind, exec_get]
      cases hfill : NonceSource.fill 24 s.world with
      | mk nonceBuf w =>
          simp only [exec_set, exec_sealWith]
          have hdraws := Draws.filled (s := s) rfl nonceBuf w hfill
          cases hcrate : AeadCrates.encrypt .xChaCha20Poly1305 s.dek.material nonceBuf.toList aad
              plaintext w with
          | mk ciphertext w' =>
              cases ciphertext with
              | none => exact .failed _ _ _ w' hdraws hcrate
              | some ciphertext => exact .sealed _ ciphertext _ _ w' hdraws hcrate
  | aes256Gcm =>
      unfold encryptAesGcm
      simp only [exec_bind, exec_get]
      by_cases hlifecycle : s.dek.lifecycle = .longLived
      · simp only [hlifecycle, if_true, exec_bind, exec_throw]
        exact .refused rfl hlifecycle
      · simp only [hlifecycle, if_false]
        exact encryptedRaw_counted (by decide) (fun _ => hlifecycle) aad plaintext
  | aes256GcmSiv =>
      exact encryptedRaw_counted (by decide) (by intro hkind; cases hkind) aad plaintext

/-- An encryption that returns an envelope sealed the encoded payload. -/
theorem exec_encrypt_ok {T : Type} [PiiType T] [Postcard T] {coordinator : CryptoCoordinator}
    {x : T} {dekId : DekId} {s s' : Sealer W} {envelope : EncryptedPii T}
    (h : (coordinator.encrypt x dekId).exec s = (.ok envelope, s')) :
    ∃ plaintext nonce ciphertext w, Postcard.toStdvec x = .ok plaintext ∧
      envelope = .new dekId coordinator.manifestCipher nonce ciphertext ∧
      Draws coordinator.manifestCipher s nonce s'.dek w ∧
      AeadCrates.encrypt coordinator.manifestCipher s.dek.material nonce.asSlice
        (computeAad dekId (PiiType.piiCode T) coordinator.manifestCipher) plaintext w =
          (some ciphertext, s'.world) := by
  unfold encrypt at h
  cases hencode : (Postcard.toStdvec x : Except PostcardError Bytes) with
  | error e =>
      simp only [hencode, exec_throw, Prod.mk.injEq, reduceCtorEq, false_and] at h
  | ok plaintext =>
      simp only [hencode, exec_bind] at h
      have hraw := encryptedRaw_encryptRaw coordinator
        (computeAad dekId (PiiType.piiCode T) coordinator.manifestCipher) plaintext s
      generalize (coordinator.encryptRaw (computeAad dekId (PiiType.piiCode T)
        coordinator.manifestCipher) plaintext).exec s = result at h hraw
      obtain ⟨outcome, after⟩ := result
      cases hraw with
      | refused => cases h
      | exhausted => cases h
      | failed => cases h
      | sealed nonce ciphertext dek w w' hdraws hcrate =>
          obtain ⟨henvelope, rfl⟩ := Prod.mk.inj h
          exact ⟨plaintext, nonce, ciphertext, w, rfl, (Except.ok.inj henvelope).symm, hdraws,
            hcrate⟩

end

end CryptoCoordinator

end ArkheForge.Platform
