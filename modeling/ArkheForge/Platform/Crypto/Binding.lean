/-
  What an envelope is bound to.

  An ideal AEAD keeps a history of what was sealed and opens that and nothing else
  (`IdealAead`). The coordinator seals under associated data that spell the DEK id, the
  PII code and the cipher, so one entry of the history belongs to one envelope
  (`EnvelopeSeal.record_injective`): an envelope that decrypts was sealed as it is.
-/
import ArkheForge.Core.PostcardWire
import ArkheForge.Platform.Crypto.Coordinator

namespace ArkheForge.Platform

open ArkheForge.Core BigEndian Fallible

/-! ## Ideal AEADs -/

/-- One seal: everything the crate was given and what it returned. -/
structure SealRecord where
  kind : AeadKind
  key : Vector UInt8 32
  nonce : Bytes
  aad : Bytes
  plaintext : Bytes
  ciphertext : Bytes
  deriving DecidableEq, Repr

/-- Opening succeeds exactly on what was sealed together, and returns what was sealed. -/
class IdealAead (W : Type) [NonceSource W] [AeadCrates W] where
  /-- The seals so far. -/
  history : W → List SealRecord
  decrypt_eq_some : ∀ {w : W} {kind : AeadKind} {key : Vector UInt8 32}
    {nonce aad plaintext ciphertext : Bytes},
    AeadCrates.decrypt w kind key nonce aad ciphertext = some plaintext ↔
      ⟨kind, key, nonce, aad, plaintext, ciphertext⟩ ∈ history w
  history_encrypt : ∀ {kind : AeadKind} {key : Vector UInt8 32}
    {nonce aad plaintext ciphertext : Bytes} {w w' : W},
    AeadCrates.encrypt kind key nonce aad plaintext w = (some ciphertext, w') →
      history w' = history w ++ [⟨kind, key, nonce, aad, plaintext, ciphertext⟩]
  history_encrypt_none : ∀ {kind : AeadKind} {key : Vector UInt8 32}
    {nonce aad plaintext : Bytes} {w w' : W},
    AeadCrates.encrypt kind key nonce aad plaintext w = (none, w') → history w' = history w
  history_fill : ∀ (len : ℕ) (w : W), history (NonceSource.fill len w).2 = history w

/-! ## Seals of envelopes -/

/-- A seal with the fields its associated data stand for. -/
structure EnvelopeSeal where
  key : Vector UInt8 32
  dekId : DekId
  piiCode : UInt16
  aeadKind : AeadKind
  nonce : NonceBytes
  plaintext : Bytes
  ciphertext : Bytes
  deriving DecidableEq, Repr

namespace EnvelopeSeal

/-- What the crate saw of it. -/
def record (e : EnvelopeSeal) : SealRecord where
  kind := e.aeadKind
  key := e.key
  nonce := e.nonce.asSlice
  aad := computeAad e.dekId e.piiCode e.aeadKind
  plaintext := e.plaintext
  ciphertext := e.ciphertext

/-- The seal that an envelope under a key claims to be, for a plaintext. -/
def ofEnvelope {T : Type} (key : Vector UInt8 32) (envelope : EncryptedPii T)
    (plaintext : Bytes) : EnvelopeSeal where
  key := key
  dekId := envelope.dekId
  piiCode := envelope.piiCode
  aeadKind := envelope.aeadKind
  nonce := envelope.nonce
  plaintext := plaintext
  ciphertext := envelope.ciphertext

theorem record_injective : Function.Injective record := by
  intro e e' h
  obtain ⟨hkind, hkey, hnonce, haad, hplaintext, hciphertext⟩ := SealRecord.mk.inj h
  obtain ⟨hdek, hcode, -⟩ := computeAad_inj.mp haad
  have hnonce' := NonceBytes.asSlice_injective hnonce
  cases e
  cases e'
  simp_all

end EnvelopeSeal

namespace CryptoCoordinator

section

variable {W : Type} [NonceSource W] [AeadCrates W] [IdealAead W] {T : Type}

theorem history_draws {kind : AeadKind} {s : Sealer W} {nonce : NonceBytes} {dek : Dek} {w : W}
    (h : Draws kind s nonce dek w) : IdealAead.history w = IdealAead.history s.world := by
  cases h with
  | filled hkind nonceBuf w hfill =>
      have hkept := IdealAead.history_fill 24 s.world
      rw [hfill] at hkept
      exact hkept
  | counted => rfl

/-- Opening an envelope, whatever its type, is finding its seal. -/
theorem decryptRawUnder_eq_ok {w : W} {dek : Dek} {envelope : EncryptedPii T}
    {plaintext : Bytes} : decryptRawUnder w dek envelope = .ok plaintext ↔
      envelope.nonce.asSlice.length = NonceBytes.expectedLen envelope.aeadKind ∧
        (EnvelopeSeal.ofEnvelope dek.material envelope plaintext).record ∈ IdealAead.history w :=
  decryptRaw_eq_ok.trans (and_congr_right fun _ => IdealAead.decrypt_eq_some)

variable [PiiType T] [Postcard T]

/-- An encryption leaves the seal of its envelope in the history. -/
theorem history_encrypt {coordinator : CryptoCoordinator} {x : T} {dekId : DekId}
    {s s' : Sealer W} {envelope : EncryptedPii T}
    (h : (coordinator.encrypt x dekId).exec s = (.ok envelope, s')) :
    ∃ plaintext, Postcard.toStdvec x = .ok plaintext ∧
      IdealAead.history s'.world = IdealAead.history s.world ++
        [(EnvelopeSeal.ofEnvelope s.dek.material envelope plaintext).record] := by
  obtain ⟨plaintext, nonce, ciphertext, w, hencode, rfl, hdraws, hcrate⟩ := exec_encrypt_ok h
  refine ⟨plaintext, hencode, ?_⟩
  rw [IdealAead.history_encrypt hcrate, history_draws hdraws]
  rfl

/-- The envelope of an encryption decrypts to its payload, then and later. -/
theorem decrypt_encrypt (hround : Postcard.RoundTrip T) {coordinator : CryptoCoordinator} {x : T}
    {dekId : DekId} {s s' : Sealer W} {envelope : EncryptedPii T}
    (h : (coordinator.encrypt x dekId).exec s = (.ok envelope, s')) {w : W}
    (hlater : IdealAead.history s'.world ⊆ IdealAead.history w) {dek : Dek}
    (hkey : dek.material = s.dek.material) : coordinator.decrypt w dek envelope = .ok x := by
  obtain ⟨plaintext, hencode, hhistory⟩ := history_encrypt h
  obtain ⟨-, nonce, ciphertext, w', -, henvelope, hdraws, -⟩ := exec_encrypt_ok h
  rw [decrypt_eq_ok]
  refine ⟨by rw [henvelope]; rfl, by rw [henvelope]; rfl, plaintext, ?_, hround x _ hencode⟩
  rw [decryptRawUnder_eq_ok, hkey]
  refine ⟨?_, hlater ?_⟩
  · rw [henvelope]
    exact hdraws.length
  · rw [hhistory]
    exact List.mem_append_right _ (List.mem_singleton.mpr rfl)

/-- Every envelope is bound to one seal under the key, and every encryption round-trips. -/
theorem envelope_binding (hround : Postcard.RoundTrip T) (coordinator : CryptoCoordinator) :
    (∀ (x : T) (dekId : DekId) (s s' : Sealer W) (envelope : EncryptedPii T),
      (coordinator.encrypt x dekId).exec s = (.ok envelope, s') →
      ∀ (w : W) (dek : Dek), IdealAead.history s'.world ⊆ IdealAead.history w →
        dek.material = s.dek.material → coordinator.decrypt w dek envelope = .ok x) ∧
    (∀ (w : W) (dek : Dek) (envelope : EncryptedPii T) (x : T),
      coordinator.decrypt w dek envelope = .ok x →
        envelope.piiCode = PiiType.piiCode T ∧
        envelope.aeadKind = coordinator.manifestCipher ∧
        envelope.nonce.asSlice.length = NonceBytes.expectedLen coordinator.manifestCipher ∧
        ∃ e : EnvelopeSeal, e.record ∈ IdealAead.history w ∧ e.key = dek.material ∧
          e.dekId = envelope.dekId ∧ e.piiCode = envelope.piiCode ∧
          e.aeadKind = envelope.aeadKind ∧ e.nonce = envelope.nonce ∧
          e.ciphertext = envelope.ciphertext) ∧
    Function.Injective EnvelopeSeal.record ∧
    ∀ (dekId dekId' : DekId) (piiCode piiCode' : UInt16) (kind kind' : AeadKind),
      (computeAad dekId piiCode kind).length = 19 ∧
        (computeAad dekId piiCode kind = computeAad dekId' piiCode' kind' →
          dekId = dekId' ∧ piiCode = piiCode' ∧ kind = kind') := by
  refine ⟨?_, ?_, EnvelopeSeal.record_injective, ?_⟩
  · intro x dekId s s' envelope h w dek hlater hkey
    exact decrypt_encrypt hround h hlater hkey
  · intro w dek envelope x h
    obtain ⟨hcode, hkind, plaintext, hopen, -⟩ := decrypt_eq_ok.mp h
    obtain ⟨hlength, hmem⟩ := decryptRawUnder_eq_ok.mp hopen
    rw [hkind] at hlength
    exact ⟨hcode, hkind, hlength, _, hmem, rfl, rfl, rfl, rfl, rfl, rfl⟩
  · intro dekId dekId' piiCode piiCode' kind kind'
    exact ⟨computeAad_length dekId piiCode kind, computeAad_inj.mp⟩

end

end CryptoCoordinator

/-! ## An ideal AEAD as a table -/

/-- The tag that every ciphertext of the table ends with. -/
def tableTag : Bytes := .replicate 16 0

/-- A table of seals. -/
structure AeadTable where
  seals : List SealRecord
  tagged : ∀ r ∈ seals, r.ciphertext = r.plaintext ++ tableTag

namespace AeadTable

theorem tagged_concat {seals : List SealRecord}
    (h : ∀ r ∈ seals, r.ciphertext = r.plaintext ++ tableTag) (kind : AeadKind)
    (key : Vector UInt8 32) (nonce aad plaintext : Bytes) :
    ∀ r ∈ seals ++ [⟨kind, key, nonce, aad, plaintext, plaintext ++ tableTag⟩],
      r.ciphertext = r.plaintext ++ tableTag := by
  intro r hr
  rcases List.mem_append.mp hr with hold | hnew
  · exact h r hold
  · rw [List.mem_singleton.mp hnew]

/-- The table with one more seal. -/
def add (kind : AeadKind) (key : Vector UInt8 32) (nonce aad plaintext : Bytes) (t : AeadTable) :
    AeadTable where
  seals := t.seals ++ [⟨kind, key, nonce, aad, plaintext, plaintext ++ tableTag⟩]
  tagged := tagged_concat t.tagged kind key nonce aad plaintext

instance : NonceSource AeadTable where
  fill len t := (.replicate len 0, t)

instance : AeadCrates AeadTable where
  encrypt kind key nonce aad plaintext t :=
    (some (plaintext ++ tableTag), t.add kind key nonce aad plaintext)
  decrypt t kind key nonce aad ciphertext :=
    let plaintext := ciphertext.take (ciphertext.length - tableTag.length)
    if ⟨kind, key, nonce, aad, plaintext, ciphertext⟩ ∈ t.seals then some plaintext else none

theorem decrypt_eq_some {t : AeadTable} {kind : AeadKind} {key : Vector UInt8 32}
    {nonce aad plaintext ciphertext : Bytes} :
    AeadCrates.decrypt t kind key nonce aad ciphertext = some plaintext ↔
      ⟨kind, key, nonce, aad, plaintext, ciphertext⟩ ∈ t.seals := by
  show (if _ then _ else _) = some plaintext ↔ _
  constructor
  · intro h
    split at h
    · next hmem =>
      obtain rfl := Option.some.inj h
      exact hmem
    · cases h
  · intro hmem
    have htagged : ciphertext = plaintext ++ tableTag := t.tagged _ hmem
    have htake : ciphertext.take (ciphertext.length - tableTag.length) = plaintext := by
      rw [htagged, List.length_append, Nat.add_sub_cancel, List.take_left']
      rfl
    rw [htake, if_pos hmem]

instance : IdealAead AeadTable where
  history := seals
  decrypt_eq_some := decrypt_eq_some
  history_encrypt := by
    intro kind key nonce aad plaintext ciphertext t t' h
    obtain ⟨hciphertext, rfl⟩ := Prod.mk.inj h
    rw [← Option.some.inj hciphertext]
    rfl
  history_encrypt_none := by
    intro kind key nonce aad plaintext t t' h
    cases h
  history_fill := fun _ _ => rfl

end AeadTable

namespace CryptoCoordinator

section

/-- The postcard format of a handle. -/
abbrev postcardActorHandle : Postcard ActorHandle := .ofCodec Wire.actorHandle

attribute [local instance] postcardActorHandle

/-- A fresh key and an empty table. -/
def freshSealer : Sealer AeadTable where
  dek := Dek.fromBytes (.replicate 32 0x11)
  world := ⟨[], List.forall_mem_nil _⟩

theorem shortHandle_lt : ([0x61, 0x62] : Bytes).length < UInt64.size := by decide

def shortHandle : ActorHandle := ⟨⟨[0x61, 0x62], shortHandle_lt⟩⟩

def handleDek : DekId := ⟨.replicate 16 0x07⟩

/-- A handle under AES-256-GCM goes out and comes back. -/
theorem envelope_binding_handle :
    ∃ envelope s', ((⟨.aes256Gcm⟩ : CryptoCoordinator).encrypt shortHandle handleDek).exec
        freshSealer = (.ok envelope, s') ∧
      (⟨.aes256Gcm⟩ : CryptoCoordinator).decrypt s'.world freshSealer.dek envelope =
        .ok shortHandle := by
  obtain ⟨hround, -⟩ := envelope_binding (W := AeadTable)
    (Postcard.ofCodec_roundTrip Wire.actorHandle) ⟨.aes256Gcm⟩
  have hencrypt : ((⟨.aes256Gcm⟩ : CryptoCoordinator).encrypt shortHandle handleDek).exec
      freshSealer = (.ok _, _) := rfl
  exact ⟨_, _, hencrypt,
    hround shortHandle handleDek freshSealer _ _ hencrypt _ _ (List.Subset.refl _) rfl⟩

end

end CryptoCoordinator

end ArkheForge.Platform
