/-
  The type of an envelope across a rotation.

  `decrypt` refuses an envelope whose wire PII code is not that of `T`. `rotate_dek`
  opens envelopes through `decrypt_raw_under`, which takes the wire code as it finds it,
  and seals them again under the code of `T`. So a rotation that returns gives an
  envelope of another type the code of `T` (`typeKept_iff`).
-/
import ArkheForge.Lib.Pointwise
import ArkheForge.Platform.Crypto.Binding
import ArkheForge.Platform.Crypto.Rotation

namespace ArkheForge.Platform

open ArkheForge.Core BigEndian Fallible

/-! ## Ciphers that are functions -/

/-- What a crate makes of key, nonce, associated data and message depends on nothing else. It
    seals every message up to a length, it opens what sealing makes and nothing else, and it
    opens a ciphertext under one key only. -/
class PureAead (W : Type) [NonceSource W] [AeadCrates W] where
  sealed : AeadKind → Vector UInt8 32 → Bytes → Bytes → Bytes → Option Bytes
  maxPlaintext : AeadKind → ℕ
  encrypt_fst : ∀ (kind : AeadKind) (key : Vector UInt8 32) (nonce aad plaintext : Bytes) (w : W),
    (AeadCrates.encrypt kind key nonce aad plaintext w).1 = sealed kind key nonce aad plaintext
  decrypt_eq_some : ∀ {w : W} {kind : AeadKind} {key : Vector UInt8 32}
    {nonce aad plaintext ciphertext : Bytes},
    AeadCrates.decrypt w kind key nonce aad ciphertext = some plaintext ↔
      sealed kind key nonce aad plaintext = some ciphertext
  sealed_isSome : ∀ {kind : AeadKind} {key : Vector UInt8 32} {nonce aad plaintext : Bytes},
    (sealed kind key nonce aad plaintext).isSome ↔ plaintext.length ≤ maxPlaintext kind
  sealed_key : ∀ {kind : AeadKind} {key key' : Vector UInt8 32}
    {nonce aad plaintext plaintext' ciphertext : Bytes},
    sealed kind key nonce aad plaintext = some ciphertext →
      sealed kind key' nonce aad plaintext' = some ciphertext → key = key'

namespace Rotation

section

variable {T W : Type} [AeadCrates W] [PiiType T] [Postcard T] {coordinator : CryptoCoordinator}
  {oldDek : Dek} {newDekId : DekId} {s : Sealer W}

/-- Where the plaintext of the old envelope decodes, the new one decrypts under the new key. -/
theorem Resealed.decrypt_new {old new : EncryptedPii T}
    (h : Resealed coordinator oldDek newDekId s old new) {plaintext : Bytes} {x : T}
    (hopen : CryptoCoordinator.decryptRawUnder s.world oldDek old = .ok plaintext)
    (hdecode : Postcard.fromBytes plaintext = .ok x) :
    coordinator.decrypt s.world s.dek new = .ok x := by
  obtain ⟨pt, hold, hnew⟩ := h.plaintext
  rw [hopen] at hold
  obtain rfl := Except.ok.inj hold
  exact CryptoCoordinator.decrypt_eq_ok.mpr ⟨h.piiCode, h.aeadKind, plaintext, hnew, hdecode⟩

end

end Rotation

section

variable {W : Type} [NonceSource W] [AeadCrates W] [PureAead W] {T : Type}

/-- Whether an envelope opens does not depend on the world. -/
theorem PureAead.staysOpen (w w' : W) : StaysOpen w w' := by
  intro kind key nonce aad ciphertext plaintext h
  exact PureAead.decrypt_eq_some.mpr (PureAead.decrypt_eq_some.mp h)

instance : KeepsSeals W where
  decrypt_encrypt := by
    intro kind key nonce aad plaintext ciphertext w w' h
    rw [PureAead.decrypt_eq_some, ← PureAead.encrypt_fst kind key nonce aad plaintext w, h]
  staysOpen_encrypt := by
    intro kind key nonce aad plaintext w w' sealed h
    exact PureAead.staysOpen w w'
  staysOpen_fill len w := PureAead.staysOpen w (NonceSource.fill len w).2

namespace CryptoCoordinator

variable {kind : AeadKind} {aad plaintext : Bytes} {s s' : Sealer W}

/-- What was sealed was short enough. -/
theorem EncryptedRaw.length_le {nonce : NonceBytes} {ciphertext : Bytes}
    (h : EncryptedRaw kind aad plaintext s (.ok (nonce, ciphertext)) s') :
    plaintext.length ≤ PureAead.maxPlaintext W kind := by
  have hsealed := PureAead.decrypt_eq_some.mp (decryptRaw_eq_ok.mp h.opens).2
  rw [← PureAead.sealed_isSome (W := W), hsealed]
  rfl

/-- Whatever keys open one envelope, they open it to the same plaintext. -/
theorem open_unique {w : W} {dek dek' : Dek} {envelope : EncryptedPii T} {plaintext' : Bytes}
    (h : decryptRawUnder w dek envelope = .ok plaintext)
    (h' : decryptRawUnder w dek' envelope = .ok plaintext') : plaintext = plaintext' := by
  have hcrate := (decryptRaw_eq_ok.mp h).2
  have hcrate' := (decryptRaw_eq_ok.mp h').2
  have hkey : dek.material = dek'.material :=
    PureAead.sealed_key (PureAead.decrypt_eq_some.mp hcrate) (PureAead.decrypt_eq_some.mp hcrate')
  rw [hkey, hcrate'] at hcrate
  exact (Option.some.inj hcrate).symm

end CryptoCoordinator

namespace Rotation

/-! ## When a rotation returns -/

/-- Everything opens under the old key and is short enough for the coordinator's cipher, and the
    new `Dek` has a nonce for each element. -/
structure Rotatable (coordinator : CryptoCoordinator) (oldDek : Dek) (s : Sealer W)
    (es : List (EncryptedPii T)) : Prop where
  opens : ∀ e ∈ es, ∃ plaintext, CryptoCoordinator.decryptRawUnder s.world oldDek e =
    .ok plaintext ∧ plaintext.length ≤ PureAead.maxPlaintext W coordinator.manifestCipher
  admitted : coordinator.manifestCipher = .aes256Gcm → s.dek.lifecycle = .longLived → es = []
  numbered : coordinator.manifestCipher ≠ .xChaCha20Poly1305 →
    s.dek.counter.toNat + es.length ≤ maxCounter.toNat

variable {coordinator : CryptoCoordinator} {oldDek : Dek} {newDekId : DekId} {aad : Bytes}
  {s s' : Sealer W}

/-- An element that is sealed again takes one nonce and leaves the rest as it was. -/
theorem rotatable_cons {envelope : EncryptedPii T} {rest : List (EncryptedPii T)}
    {plaintext : Bytes} {nonce : NonceBytes} {newCt : Bytes}
    (hopen : CryptoCoordinator.decryptRawUnder s.world oldDek envelope = .ok plaintext)
    (hseal : CryptoCoordinator.EncryptedRaw coordinator.manifestCipher aad plaintext s
      (.ok (nonce, newCt)) s') :
    Rotatable coordinator oldDek s (envelope :: rest) ↔ Rotatable coordinator oldDek s' rest := by
  obtain ⟨hkept, hadmitted, hcount⟩ := hseal.dek_of_ok
  constructor
  · intro h
    refine ⟨?_, ?_, ?_⟩
    · intro e he
      obtain ⟨pt, hpt, hlength⟩ := h.opens e (List.mem_cons_of_mem _ he)
      exact ⟨pt, hseal.staysOpen.envelope hpt, hlength⟩
    · intro hkind hlifecycle
      rw [hkept] at hlifecycle
      exact absurd hlifecycle (hadmitted hkind)
    · intro hkind
      have hnumbered := h.numbered hkind
      have hnext := hcount hkind
      rw [List.length_cons] at hnumbered
      omega
  · intro h
    refine ⟨?_, ?_, ?_⟩
    · intro e he
      rcases List.mem_cons.mp he with rfl | hrest
      · exact ⟨plaintext, hopen, hseal.length_le⟩
      · obtain ⟨pt, hpt, hlength⟩ := h.opens e hrest
        exact ⟨pt, (PureAead.staysOpen s'.world s.world).envelope hpt, hlength⟩
    · intro hkind hlifecycle
      exact absurd hlifecycle (hadmitted hkind)
    · intro hkind
      have hnumbered := h.numbered hkind
      have hnext := hcount hkind
      rw [List.length_cons]
      omega

variable [PiiType T]

/-- A rotation returns exactly where it can take every element. -/
theorem rotated_ok_iff {es : List (EncryptedPii T)}
    {outcome : Except PiiError (List (EncryptedPii T))}
    (h : Rotated coordinator oldDek newDekId aad s es outcome s') :
    (∃ news, outcome = .ok news) ↔ Rotatable coordinator oldDek s es := by
  have herror : ∀ err, ¬ ∃ news : List (EncryptedPii T), (.error err : Except PiiError _) = .ok news := by
    rintro err ⟨news, hnews⟩
    cases hnews
  induction h with
  | done s =>
      have hbound := s.dek.counter.toNat_lt
      have hmax : maxCounter.toNat = 2 ^ 64 - 1 := rfl
      refine ⟨fun _ => ⟨by simp, fun _ _ => rfl, ?_⟩, fun _ => ⟨[], rfl⟩⟩
      intro hkind
      rw [List.length_nil]
      omega
  | unopened s envelope rest err hopen =>
      refine iff_of_false (herror err) ?_
      intro hrotatable
      obtain ⟨plaintext, hpt, -⟩ := hrotatable.opens envelope List.mem_cons_self
      rw [hopen] at hpt
      cases hpt
  | unsealed s s' envelope rest plaintext err hopen hseal =>
      refine iff_of_false (herror err) ?_
      intro hrotatable
      cases hseal with
      | refused hkind hlifecycle => cases hrotatable.admitted hkind hlifecycle
      | exhausted hkind hlifecycle hcounter =>
          have hnumbered := hrotatable.numbered hkind
          rw [hcounter, List.length_cons] at hnumbered
          omega
      | failed nonce dek w w' hdraws hcrate =>
          obtain ⟨pt, hpt, hlength⟩ := hrotatable.opens envelope List.mem_cons_self
          rw [hopen] at hpt
          obtain rfl := Except.ok.inj hpt
          have hnone := PureAead.encrypt_fst coordinator.manifestCipher s.dek.material
            nonce.asSlice aad plaintext w
          have hsome : (PureAead.sealed W coordinator.manifestCipher s.dek.material nonce.asSlice
              aad plaintext).isSome := PureAead.sealed_isSome.mpr hlength
          rw [← hnone, hcrate] at hsome
          cases hsome
  | resealed s s' s'' envelope rest plaintext nonce newCt outcome hopen hseal hrest ih =>
      rw [rotatable_cons hopen hseal]
      refine Iff.trans ?_ ih
      cases outcome with
      | error err => exact iff_of_false (herror err) (herror err)
      | ok news => exact ⟨fun _ => ⟨news, rfl⟩, fun _ => ⟨_, rfl⟩⟩

/-! ## The type of a rotated envelope -/

variable [Postcard T]

/-- An envelope of another type decrypts as `T` under neither key once the slice was rotated. -/
def TypeKept (coordinator : CryptoCoordinator) (oldDek : Dek) (newDekId : DekId)
    (r : Rotation T W) : Prop :=
  let after := ((rotateDek coordinator oldDek newDekId).exec r).2
  ∀ (i : ℕ) (envelope : EncryptedPii T), r.ciphertexts[i]? = some envelope →
    envelope.piiCode ≠ PiiType.piiCode T →
      ∃ envelope', after.ciphertexts[i]? = some envelope' ∧ ∀ x : T,
        coordinator.decrypt after.world oldDek envelope' ≠ .ok x ∧
        coordinator.decrypt after.world after.newDek envelope' ≠ .ok x

/-- An envelope of another type holds the encoding of a `T`. -/
def Launders (oldDek : Dek) (w : W) (es : List (EncryptedPii T)) : Prop :=
  ∃ envelope ∈ es, envelope.piiCode ≠ PiiType.piiCode T ∧ ∃ (plaintext : Bytes) (x : T),
    CryptoCoordinator.decryptRawUnder w oldDek envelope = .ok plaintext ∧
      Postcard.fromBytes plaintext = .ok x

/-- Under whatever key the new envelope decrypts, the plaintext of the old one decodes. -/
theorem Resealed.decodes {old new : EncryptedPii T}
    (h : Resealed coordinator oldDek newDekId s old new) {dek : Dek} {x : T}
    (hdecrypt : coordinator.decrypt s.world dek new = .ok x) :
    ∃ plaintext, CryptoCoordinator.decryptRawUnder s.world oldDek old = .ok plaintext ∧
      Postcard.fromBytes plaintext = .ok x := by
  obtain ⟨plaintext, hold, hnew⟩ := h.plaintext
  obtain ⟨-, -, pt, hopen, hdecode⟩ := CryptoCoordinator.decrypt_eq_ok.mp hdecrypt
  refine ⟨plaintext, hold, ?_⟩
  rw [CryptoCoordinator.open_unique hnew hopen]
  exact hdecode

/-- A rotation that returns launders whatever it can. -/
theorem not_typeKept_of_launders {r : Rotation T W}
    (hrotatable : Rotatable coordinator oldDek r.sealer r.ciphertexts)
    (hlaunders : Launders oldDek r.world r.ciphertexts) :
    ¬ TypeKept coordinator oldDek newDekId r := by
  intro hkept
  obtain ⟨outcome, s, hrotated, hleft⟩ := dekRotated_rotateDek coordinator oldDek newDekId r
  obtain ⟨news, rfl⟩ := (rotated_ok_iff hrotated).mpr hrotatable
  obtain ⟨envelope, hmem, hcode, plaintext, x, hopen, hdecode⟩ := hlaunders
  obtain ⟨i, hi⟩ := List.mem_iff_getElem?.mp hmem
  obtain ⟨envelope', hi', hrejected⟩ := hkept i envelope hi hcode
  generalize (rotateDek coordinator oldDek newDekId).exec r = result at hleft hi' hrejected
  cases hleft with
  | ok =>
      have hresealed := Pointwise.getElem?_rel (hrotated.resealed_all news rfl) hi hi'
      exact (hrejected x).2
        (hresealed.decrypt_new ((PureAead.staysOpen r.world s.world).envelope hopen) hdecode)

/-- A rotation keeps the types apart exactly if it fails or finds no envelope of another type that
    holds a `T`. -/
theorem typeKept_iff (coordinator : CryptoCoordinator) (oldDek : Dek) (newDekId : DekId)
    (r : Rotation T W) :
    TypeKept coordinator oldDek newDekId r ↔
      ¬ (Rotatable coordinator oldDek r.sealer r.ciphertexts ∧
        Launders oldDek r.world r.ciphertexts) := by
  constructor
  · rintro hkept ⟨hrotatable, hlaunders⟩
    exact not_typeKept_of_launders hrotatable hlaunders hkept
  · intro hnot i envelope hi hcode
    obtain ⟨outcome, s, hrotated, hleft⟩ := dekRotated_rotateDek coordinator oldDek newDekId r
    have hrotatable := rotated_ok_iff hrotated
    generalize (rotateDek coordinator oldDek newDekId).exec r = result at hleft ⊢
    cases hleft with
    | error err =>
        -- the slice is as it was, and the wire code gives the envelope away
        have hrejected : ∀ dek x, coordinator.decrypt s.world dek envelope ≠ .ok x := by
          intro dek x hdecrypt
          exact hcode (CryptoCoordinator.decrypt_eq_ok.mp hdecrypt).1
        exact ⟨envelope, hi, fun x => ⟨hrejected oldDek x, hrejected s.dek x⟩⟩
    | ok news =>
        obtain ⟨envelope', hi', hresealed⟩ :=
          Pointwise.getElem?_left (hrotated.resealed_all news rfl) hi
        have hrejected : ∀ dek x, coordinator.decrypt s.world dek envelope' ≠ .ok x := by
          intro dek x hdecrypt
          obtain ⟨plaintext, hopen, hdecode⟩ := hresealed.decodes hdecrypt
          exact hnot ⟨hrotatable.mp ⟨news, rfl⟩, envelope, List.mem_of_getElem? hi, hcode,
            plaintext, x, (PureAead.staysOpen s.world r.world).envelope hopen, hdecode⟩
        exact ⟨envelope', hi', fun x => ⟨hrejected oldDek x, hrejected s.dek x⟩⟩

end Rotation

end

/-! ## Ciphertexts that spell what they are bound to -/

/-- What a ciphertext is bound to, in front of the message. -/
def sealHeader (kind : AeadKind) (key : Vector UInt8 32) (nonce aad : Bytes) : Bytes :=
  key.toList ++ (kind.toByte :: nonce ++ aad)

/-- A world in which every ciphertext starts with what it is bound to. -/
structure HeaderAead where
  deriving DecidableEq

namespace HeaderAead

/-- The longest message. -/
def maxMessage : ℕ := 2 ^ 36 - 31

instance : NonceSource HeaderAead where
  fill len w := (.replicate len 0, w)

def sealMessage (kind : AeadKind) (key : Vector UInt8 32) (nonce aad plaintext : Bytes) :
    Option Bytes :=
  if plaintext.length ≤ maxMessage then some (sealHeader kind key nonce aad ++ plaintext) else none

instance : AeadCrates HeaderAead where
  encrypt kind key nonce aad plaintext w := (sealMessage kind key nonce aad plaintext, w)
  decrypt _ kind key nonce aad ciphertext :=
    let plaintext := ciphertext.drop (sealHeader kind key nonce aad).length
    if sealMessage kind key nonce aad plaintext = some ciphertext then some plaintext else none

theorem sealMessage_eq_some {kind : AeadKind} {key : Vector UInt8 32}
    {nonce aad plaintext ciphertext : Bytes} :
    sealMessage kind key nonce aad plaintext = some ciphertext ↔
      plaintext.length ≤ maxMessage ∧ ciphertext = sealHeader kind key nonce aad ++ plaintext := by
  unfold sealMessage
  by_cases hlength : plaintext.length ≤ maxMessage
  · simp [hlength, eq_comm]
  · simp [hlength]

theorem decrypt_eq_some {w : HeaderAead} {kind : AeadKind} {key : Vector UInt8 32}
    {nonce aad plaintext ciphertext : Bytes} :
    AeadCrates.decrypt w kind key nonce aad ciphertext = some plaintext ↔
      sealMessage kind key nonce aad plaintext = some ciphertext := by
  show (if _ then _ else _) = some plaintext ↔ _
  constructor
  · intro h
    split at h
    · next hsealed =>
      obtain rfl := Option.some.inj h
      exact hsealed
    · cases h
  · intro h
    have hdrop : ciphertext.drop (sealHeader kind key nonce aad).length = plaintext := by
      rw [(sealMessage_eq_some.mp h).2, List.drop_left]
    rw [hdrop, if_pos h]

instance : PureAead HeaderAead where
  sealed := sealMessage
  maxPlaintext _ := maxMessage
  encrypt_fst _ _ _ _ _ _ := rfl
  decrypt_eq_some := decrypt_eq_some
  sealed_isSome := by
    intro kind key nonce aad plaintext
    unfold sealMessage
    by_cases hlength : plaintext.length ≤ maxMessage
    · simp [hlength]
    · simp [hlength]
  sealed_key := by
    intro kind key key' nonce aad plaintext plaintext' ciphertext h h'
    have hsame := (sealMessage_eq_some.mp h).2.symm.trans (sealMessage_eq_some.mp h').2
    unfold sealHeader at hsame
    simp only [List.append_assoc] at hsame
    exact (toList_append_inj.mp hsame).1

end HeaderAead

namespace Rotation

section

/-- The postcard format of an entry body. -/
abbrev postcardEntryBody : Postcard EntryBody := .ofCodec Wire.entryBody

attribute [local instance] CryptoCoordinator.postcardActorHandle postcardEntryBody

/-- An envelope that went over the wire as one of another type. -/
def rewired {T U : Type} (envelope : EncryptedPii T) : EncryptedPii U :=
  ⟨envelope.dekId, envelope.piiCode, envelope.aeadKind, envelope.nonce, envelope.ciphertext⟩

def oldSealer : Sealer HeaderAead where
  dek := Dek.fromBytes (.replicate 32 0x11)
  world := ⟨⟩

def bodyDek : DekId := ⟨.replicate 16 0x08⟩

/-- A slice with a handle in it, and a fresh key. -/
def handleSlice (envelope : EncryptedPii ActorHandle) (w : HeaderAead) :
    Rotation EntryBody HeaderAead where
  newDek := Dek.fromBytes (.replicate 32 0x22)
  world := w
  ciphertexts := [rewired envelope]
  counter := DekMessageCounter.new bodyDek

/-- A handle that was sealed under AES-256-GCM comes out of a rotation as an entry body. -/
theorem typeKept_fails_handle :
    ∃ envelope s', ((⟨.aes256Gcm⟩ : CryptoCoordinator).encrypt CryptoCoordinator.shortHandle
        CryptoCoordinator.handleDek).exec oldSealer = (.ok envelope, s') ∧
      ¬ TypeKept ⟨.aes256Gcm⟩ s'.dek bodyDek (handleSlice envelope s'.world) := by
  have hencrypt : ((⟨.aes256Gcm⟩ : CryptoCoordinator).encrypt CryptoCoordinator.shortHandle
      CryptoCoordinator.handleDek).exec oldSealer = (.ok _, _) := rfl
  refine ⟨_, _, hencrypt, not_typeKept_of_launders ?_ ?_⟩
  · refine ⟨?_, ?_, ?_⟩
    · intro e he
      rw [List.mem_singleton.mp he]
      exact ⟨[2, 0x61, 0x62], rfl, by decide⟩
    · intro _ hlifecycle
      cases hlifecycle
    · intro _
      decide
  · refine ⟨_, List.mem_singleton_self _, by decide, [2, 0x61, 0x62],
      ⟨CryptoCoordinator.shortHandle.bytes⟩, rfl, ?_⟩
    exact Postcard.ofCodec_roundTrip Wire.entryBody _ _ rfl

end

end Rotation

end ArkheForge.Platform
