/-
  `rotate_dek` (`crypto.rs`): open each envelope of a slice under the old key, seal it
  again under the new one, and put everything back where one element fails.

  The loop writes the slice in place; `Rotated` says what it makes of the elements from
  one position on, and `rotated_rotateFrom` that the loop does that. The rollback gives
  the slice and the message counter back, but neither the nonces nor the seals.

  Where seals stay open (`KeepsSeals`), a rotation that returns leaves a slice that holds
  under the new key what it held under the old one (`Rotated.resealed`).
-/
import ArkheForge.Platform.Crypto.Coordinator

namespace ArkheForge.Platform

open ArkheForge.Core BigEndian Fallible

/-- What a rotation works on. The old key is only read. -/
structure Rotation (T W : Type) where
  newDek : Dek
  world : W
  ciphertexts : List (EncryptedPii T)
  counter : DekMessageCounter

namespace Rotation

variable {T W : Type}

/-- The part an encryption under the new key works on. -/
def sealer (r : Rotation T W) : Sealer W := ⟨r.newDek, r.world⟩

/-- The rotation after an encryption under the new key. -/
def withSealer (s : Sealer W) (r : Rotation T W) : Rotation T W :=
  { r with newDek := s.dek, world := s.world }

variable [NonceSource W] [AeadCrates W] [PiiType T]

/-- The body of the loop of `rotate_dek`. -/
def rotateStep (coordinator : CryptoCoordinator) (oldDek : Dek) (newDekId : DekId) (aad : Bytes)
    (idx : ℕ) : Fallible (Rotation T W) PiiError Unit := do
  let r ← get
  match r.ciphertexts[idx]? with
  | none => pure () -- the loop stays below the length of the slice
  | some envelope =>
    let plaintext ← ofExcept (CryptoCoordinator.decryptRawUnder r.world oldDek envelope)
    let (nonce, newCt) ← zoom sealer withSealer id (coordinator.encryptRaw aad plaintext)
    modify fun r =>
      { r with
        ciphertexts := r.ciphertexts.set idx
          (.new newDekId coordinator.manifestCipher nonce newCt)
        counter := r.counter.recordMessage }

/-- The loop of `rotate_dek` over the indices that are left. -/
def rotateFrom (coordinator : CryptoCoordinator) (oldDek : Dek) (newDekId : DekId) (aad : Bytes) :
    List ℕ → Fallible (Rotation T W) PiiError Unit
  | [] => pure ()
  | idx :: rest => do
    rotateStep coordinator oldDek newDekId aad idx
    rotateFrom coordinator oldDek newDekId aad rest

/-- `rotate_dek`. -/
def rotateDek (coordinator : CryptoCoordinator) (oldDek : Dek) (newDekId : DekId) :
    Fallible (Rotation T W) PiiError Unit := do
  let originals := (← get).ciphertexts
  let counterSnapshot := (← get).counter
  let aad := computeAad newDekId (PiiType.piiCode T) coordinator.manifestCipher
  match ← attempt (rotateFrom coordinator oldDek newDekId aad (List.range originals.length)) with
  | .ok () => pure ()
  | .error err =>
    modify fun r => { r with ciphertexts := originals, counter := counterSnapshot }
    throw err

/-! ## What the loop does -/

/-- What becomes of a list of envelopes: the new ones, or the first error. -/
inductive Rotated (coordinator : CryptoCoordinator) (oldDek : Dek) (newDekId : DekId)
    (aad : Bytes) :
    Sealer W → List (EncryptedPii T) → Except PiiError (List (EncryptedPii T)) → Sealer W → Prop
  | done (s : Sealer W) : Rotated coordinator oldDek newDekId aad s [] (.ok []) s
  | unopened (s : Sealer W) (envelope : EncryptedPii T) (rest : List (EncryptedPii T))
      (err : PiiError)
      (hopen : CryptoCoordinator.decryptRawUnder s.world oldDek envelope = .error err) :
      Rotated coordinator oldDek newDekId aad s (envelope :: rest) (.error err) s
  | unsealed (s s' : Sealer W) (envelope : EncryptedPii T) (rest : List (EncryptedPii T))
      (plaintext : Bytes) (err : PiiError)
      (hopen : CryptoCoordinator.decryptRawUnder s.world oldDek envelope = .ok plaintext)
      (hseal : CryptoCoordinator.EncryptedRaw coordinator.manifestCipher aad plaintext s
        (.error err) s') :
      Rotated coordinator oldDek newDekId aad s (envelope :: rest) (.error err) s'
  | resealed (s s' s'' : Sealer W) (envelope : EncryptedPii T) (rest : List (EncryptedPii T))
      (plaintext : Bytes) (nonce : NonceBytes) (newCt : Bytes)
      (outcome : Except PiiError (List (EncryptedPii T)))
      (hopen : CryptoCoordinator.decryptRawUnder s.world oldDek envelope = .ok plaintext)
      (hseal : CryptoCoordinator.EncryptedRaw coordinator.manifestCipher aad plaintext s
        (.ok (nonce, newCt)) s')
      (hrest : Rotated coordinator oldDek newDekId aad s' rest outcome s'') :
      Rotated coordinator oldDek newDekId aad s (envelope :: rest)
        (outcome.map (.new newDekId coordinator.manifestCipher nonce newCt :: ·)) s''

/-- The outcome of the loop and what it leaves, in terms of the elements it had left. -/
inductive LoopEnds (done : List (EncryptedPii T)) (counter : DekMessageCounter) (s : Sealer W) :
    Except PiiError (List (EncryptedPii T)) → Except PiiError Unit × Rotation T W → Prop
  | ok (news : List (EncryptedPii T)) :
      LoopEnds done counter s (.ok news)
        (.ok (), ⟨s.dek, s.world, done ++ news,
          DekMessageCounter.recordMessage^[news.length] counter⟩)
  | error (err : PiiError) (ciphertexts : List (EncryptedPii T)) (counter' : DekMessageCounter) :
      LoopEnds done counter s (.error err) (.error err, ⟨s.dek, s.world, ciphertexts, counter'⟩)

theorem rotated_rotateFrom (coordinator : CryptoCoordinator) (oldDek : Dek) (newDekId : DekId)
    (aad : Bytes) (rest : List (EncryptedPii T)) :
    ∀ (done : List (EncryptedPii T)) (s : Sealer W) (counter : DekMessageCounter),
      ∃ outcome s', Rotated coordinator oldDek newDekId aad s rest outcome s' ∧
        LoopEnds done counter s' outcome
          ((rotateFrom coordinator oldDek newDekId aad (List.range' done.length rest.length)).exec
            ⟨s.dek, s.world, done ++ rest, counter⟩) := by
  induction rest with
  | nil =>
      intro done s counter
      refine ⟨_, s, .done s, ?_⟩
      exact .ok []
  | cons envelope rest ih =>
      intro done s counter
      have hget : (done ++ envelope :: rest)[done.length]? = some envelope := by simp
      have hset : ∀ e, (done ++ envelope :: rest).set done.length e = (done ++ [e]) ++ rest := by
        intro e
        simp
      rw [List.length_cons, List.range'_succ]
      unfold rotateFrom rotateStep
      simp only [exec_bind, exec_get, hget, exec_ofExcept]
      cases hopen : CryptoCoordinator.decryptRawUnder s.world oldDek envelope with
      | error err => exact ⟨_, s, .unopened s envelope rest err hopen, .error err _ _⟩
      | ok plaintext =>
          simp only [exec_zoom]
          have hraw := CryptoCoordinator.encryptedRaw_encryptRaw coordinator aad plaintext s
          have hsealer : sealer ⟨s.dek, s.world, done ++ envelope :: rest, counter⟩ = s := rfl
          rw [hsealer]
          generalize (coordinator.encryptRaw aad plaintext).exec s = result at hraw ⊢
          obtain ⟨outcome, s'⟩ := result
          cases outcome with
          | error err =>
              exact ⟨_, s', .unsealed s s' envelope rest plaintext err hopen hraw, .error err _ _⟩
          | ok sealedPair =>
              obtain ⟨nonce, newCt⟩ := sealedPair
              have hlength : done.length + 1 = (done ++
                  [EncryptedPii.new newDekId coordinator.manifestCipher nonce newCt]).length := by
                simp
              simp only [Except.mapError, withSealer, exec_modify, hset, hlength]
              obtain ⟨outcome, s'', hrest, hends⟩ := ih
                (done ++ [.new newDekId coordinator.manifestCipher nonce newCt]) s'
                counter.recordMessage
              refine ⟨_, s'', .resealed s s' s'' envelope rest plaintext nonce newCt outcome hopen
                hraw hrest, ?_⟩
              generalize (rotateFrom (T := T) (W := W) coordinator oldDek newDekId aad _).exec _ = result
                at hends ⊢
              cases hends with
              | error err ciphertexts counter' => exact .error err ciphertexts counter'
              | ok news =>
                  have hall : LoopEnds done counter s'' _ _ :=
                    .ok ((.new newDekId coordinator.manifestCipher nonce newCt : EncryptedPii T)
                      :: news)
                  rw [List.append_assoc]
                  exact hall

/-- What `rotate_dek` leaves, in terms of what became of the slice. -/
inductive DekRotated (r : Rotation T W) (s : Sealer W) :
    Except PiiError (List (EncryptedPii T)) → Except PiiError Unit × Rotation T W → Prop
  | ok (news : List (EncryptedPii T)) :
      DekRotated r s (.ok news)
        (.ok (), ⟨s.dek, s.world, news, DekMessageCounter.recordMessage^[news.length] r.counter⟩)
  | error (err : PiiError) :
      DekRotated r s (.error err) (.error err, ⟨s.dek, s.world, r.ciphertexts, r.counter⟩)

theorem dekRotated_rotateDek (coordinator : CryptoCoordinator) (oldDek : Dek) (newDekId : DekId)
    (r : Rotation T W) :
    ∃ outcome s, Rotated coordinator oldDek newDekId
        (computeAad newDekId (PiiType.piiCode T) coordinator.manifestCipher) r.sealer
        r.ciphertexts outcome s ∧
      DekRotated r s outcome ((rotateDek coordinator oldDek newDekId).exec r) := by
  obtain ⟨outcome, s, hrotated, hends⟩ := rotated_rotateFrom coordinator oldDek newDekId
    (computeAad newDekId (PiiType.piiCode T) coordinator.manifestCipher) r.ciphertexts [] r.sealer
    r.counter
  refine ⟨outcome, s, hrotated, ?_⟩
  unfold rotateDek
  simp only [exec_bind, exec_get, exec_attempt, List.range_eq_range']
  have hstart : (⟨r.sealer.dek, r.sealer.world, [] ++ r.ciphertexts, r.counter⟩ : Rotation T W) = r :=
    rfl
  rw [hstart, List.length_nil] at hends
  generalize (rotateFrom (T := T) coordinator oldDek newDekId _ _).exec r = result at hends ⊢
  cases hends with
  | ok news => exact .ok news
  | error err ciphertexts counter' => exact .error err

end Rotation

/-! ## What a rotated slice holds -/

section

variable {T W : Type} [AeadCrates W]

/-- What opens in the one world opens in the other. -/
def StaysOpen (w w' : W) : Prop :=
  ∀ kind key nonce aad ciphertext plaintext,
    AeadCrates.decrypt w kind key nonce aad ciphertext = some plaintext →
      AeadCrates.decrypt w' kind key nonce aad ciphertext = some plaintext

theorem StaysOpen.refl (w : W) : StaysOpen w w := by
  intro kind key nonce aad ciphertext plaintext h
  exact h

theorem StaysOpen.trans {w w' w'' : W} (h : StaysOpen w w') (h' : StaysOpen w' w'') :
    StaysOpen w w'' := by
  intro kind key nonce aad ciphertext plaintext hopen
  exact h' kind key nonce aad ciphertext plaintext
    (h kind key nonce aad ciphertext plaintext hopen)

theorem StaysOpen.envelope {w w' : W} (h : StaysOpen w w') {dek : Dek}
    {envelope : EncryptedPii T} {plaintext : Bytes}
    (hopen : CryptoCoordinator.decryptRawUnder w dek envelope = .ok plaintext) :
    CryptoCoordinator.decryptRawUnder w' dek envelope = .ok plaintext := by
  obtain ⟨hlength, hcrate⟩ := CryptoCoordinator.decryptRaw_eq_ok.mp hopen
  exact CryptoCoordinator.decryptRaw_eq_ok.mpr ⟨hlength, h _ _ _ _ _ _ hcrate⟩

end

/-- What a crate seals opens from then on. -/
class KeepsSeals (W : Type) [NonceSource W] [AeadCrates W] : Prop where
  decrypt_encrypt : ∀ {kind : AeadKind} {key : Vector UInt8 32}
    {nonce aad plaintext ciphertext : Bytes} {w w' : W},
    AeadCrates.encrypt kind key nonce aad plaintext w = (some ciphertext, w') →
      AeadCrates.decrypt w' kind key nonce aad ciphertext = some plaintext
  staysOpen_encrypt : ∀ {kind : AeadKind} {key : Vector UInt8 32} {nonce aad plaintext : Bytes}
    {w w' : W} {sealed : Option Bytes},
    AeadCrates.encrypt kind key nonce aad plaintext w = (sealed, w') → StaysOpen w w'
  staysOpen_fill : ∀ (len : ℕ) (w : W), StaysOpen w (NonceSource.fill len w).2

section

variable {T W : Type} [NonceSource W] [AeadCrates W]

namespace CryptoCoordinator

variable {kind : AeadKind} {aad plaintext : Bytes} {s s' : Sealer W}

/-- An encryption leaves the key as it is. -/
theorem EncryptedRaw.material {outcome : Except PiiError (NonceBytes × Bytes)}
    (h : EncryptedRaw kind aad plaintext s outcome s') :
    s'.dek.material = s.dek.material := by
  have hdek : ∀ {nonce dek w}, Draws kind s nonce dek w → dek.material = s.dek.material := by
    intro nonce dek w hdraws
    cases hdraws with
    | filled => rfl
    | counted => rfl
  cases h with
  | refused => rfl
  | exhausted => rfl
  | failed nonce dek w w' hdraws hcrate => exact hdek hdraws
  | sealed nonce ciphertext dek w w' hdraws hcrate => exact hdek hdraws

/-- What an encryption that returned found and left of the `Dek`. -/
theorem EncryptedRaw.dek_of_ok {nonce : NonceBytes} {ciphertext : Bytes}
    (h : EncryptedRaw kind aad plaintext s (.ok (nonce, ciphertext)) s') :
    s'.dek.lifecycle = s.dek.lifecycle ∧
      (kind = .aes256Gcm → s.dek.lifecycle ≠ .longLived) ∧
      (kind ≠ .xChaCha20Poly1305 → s'.dek.counter.toNat = s.dek.counter.toNat + 1) := by
  cases h with
  | sealed nonce ciphertext dek w w' hdraws hcrate =>
      cases hdraws with
      | filled hkind nonceBuf w hfill =>
          refine ⟨rfl, ?_, fun hother => absurd hkind hother⟩
          intro hgcm
          rw [hkind] at hgcm
          cases hgcm
      | counted hkind hlifecycle hcounter =>
          exact ⟨rfl, hlifecycle, fun _ => Dek.counter_add_one hcounter⟩

variable [KeepsSeals W]

theorem Draws.staysOpen {nonce : NonceBytes} {dek : Dek} {w : W} (h : Draws kind s nonce dek w) :
    StaysOpen s.world w := by
  cases h with
  | filled hkind nonceBuf w hfill =>
      have hafter := KeepsSeals.staysOpen_fill 24 s.world
      rw [hfill] at hafter
      exact hafter
  | counted => exact StaysOpen.refl s.world

theorem EncryptedRaw.staysOpen {outcome : Except PiiError (NonceBytes × Bytes)}
    (h : EncryptedRaw kind aad plaintext s outcome s') : StaysOpen s.world s'.world := by
  cases h with
  | refused => exact StaysOpen.refl s.world
  | exhausted => exact StaysOpen.refl s.world
  | failed nonce dek w w' hdraws hcrate =>
      exact hdraws.staysOpen.trans (KeepsSeals.staysOpen_encrypt hcrate)
  | sealed nonce ciphertext dek w w' hdraws hcrate =>
      exact hdraws.staysOpen.trans (KeepsSeals.staysOpen_encrypt hcrate)

/-- What was sealed opens under the key it was sealed under. -/
theorem EncryptedRaw.opens {nonce : NonceBytes} {ciphertext : Bytes}
    (h : EncryptedRaw kind aad plaintext s (.ok (nonce, ciphertext)) s') :
    decryptRaw s'.world s.dek kind nonce aad ciphertext = .ok plaintext := by
  cases h with
  | sealed nonce ciphertext dek w w' hdraws hcrate =>
      exact decryptRaw_eq_ok.mpr ⟨hdraws.length, KeepsSeals.decrypt_encrypt hcrate⟩

end CryptoCoordinator

namespace Rotation

variable [PiiType T]

/-- The new envelope holds, under the new key, what the old one held under the old key. -/
structure Resealed (coordinator : CryptoCoordinator) (oldDek : Dek) (newDekId : DekId)
    (s : Sealer W) (old new : EncryptedPii T) : Prop where
  dekId : new.dekId = newDekId
  piiCode : new.piiCode = PiiType.piiCode T
  aeadKind : new.aeadKind = coordinator.manifestCipher
  plaintext : ∃ plaintext, CryptoCoordinator.decryptRawUnder s.world oldDek old = .ok plaintext ∧
    CryptoCoordinator.decryptRawUnder s.world s.dek new = .ok plaintext

variable {coordinator : CryptoCoordinator} {oldDek : Dek} {newDekId : DekId} {aad : Bytes}
  {s s' : Sealer W} {es : List (EncryptedPii T)} {outcome : Except PiiError (List (EncryptedPii T))}

theorem Rotated.material (h : Rotated coordinator oldDek newDekId aad s es outcome s') :
    s'.dek.material = s.dek.material := by
  induction h with
  | done => rfl
  | unopened => rfl
  | unsealed s s' envelope rest plaintext err hopen hseal => exact hseal.material
  | resealed s s' s'' envelope rest plaintext nonce newCt outcome hopen hseal hrest ih =>
      exact ih.trans hseal.material

variable [KeepsSeals W]

theorem Rotated.staysOpen (h : Rotated coordinator oldDek newDekId aad s es outcome s') :
    StaysOpen s.world s'.world := by
  induction h with
  | done s => exact StaysOpen.refl s.world
  | unopened s => exact StaysOpen.refl s.world
  | unsealed s s' envelope rest plaintext err hopen hseal => exact hseal.staysOpen
  | resealed s s' s'' envelope rest plaintext nonce newCt outcome hopen hseal hrest ih =>
      exact hseal.staysOpen.trans ih

/-- A rotation that returns has sealed every envelope again. -/
theorem Rotated.resealed_all
    (h : Rotated coordinator oldDek newDekId
      (computeAad newDekId (PiiType.piiCode T) coordinator.manifestCipher) s es outcome s') :
    ∀ news, outcome = .ok news →
      List.Forall₂ (Resealed coordinator oldDek newDekId s') es news := by
  induction h with
  | done s =>
      intro news hnews
      rw [← Except.ok.inj hnews]
      exact .nil
  | unopened => exact fun news hnews => nomatch hnews
  | unsealed => exact fun news hnews => nomatch hnews
  | resealed s s' s'' envelope rest plaintext nonce newCt outcome hopen hseal hrest ih =>
      intro news hnews
      cases outcome with
      | error err => cases hnews
      | ok tail =>
          rw [← Except.ok.inj hnews]
          refine .cons ⟨rfl, rfl, rfl, plaintext, ?_, ?_⟩ (ih tail rfl)
          · exact (hseal.staysOpen.trans hrest.staysOpen).envelope hopen
          · -- the new envelope's own fields spell the associated data it was sealed under
            have hunder : CryptoCoordinator.decryptRawUnder s'.world s.dek
                (EncryptedPii.new newDekId coordinator.manifestCipher nonce newCt :
                  EncryptedPii T) = .ok plaintext := hseal.opens
            have hfinal := hrest.staysOpen.envelope hunder
            obtain ⟨hlength, hcrate⟩ := CryptoCoordinator.decryptRaw_eq_ok.mp hfinal
            refine CryptoCoordinator.decryptRaw_eq_ok.mpr ⟨hlength, ?_⟩
            rw [hrest.material, hseal.material]
            exact hcrate

end Rotation

end

end ArkheForge.Platform
