/-
  When a DEK is to be rotated (`RotationTrigger`, `pii.rs`; `rotation_advice`, `crypto.rs`).

  The advice is read off the message counter that `rotate_dek` ticks. Over any rotations with one
  counter, failed ones among them, it is the advice for the number of envelopes that were
  moved (`advice_counts_moved`): the counter that saturates and the rollback of a failure
  never show in it. Each rotation brings its own type, slice and keys.
-/
import ArkheForge.Platform.Crypto.AllOrNothing

namespace ArkheForge.Core

/-- `RotationTrigger`. -/
inductive RotationTrigger
  | healthy
  | warnApproachingLimit
  | mustRotate
  deriving DecidableEq, Repr

/-- `DekMessageCounter::rotation_trigger`. -/
def DekMessageCounter.rotationTrigger (counter : DekMessageCounter) : RotationTrigger :=
  if 0x80000000 ≤ counter.count then .mustRotate
  else if 0x40000000 ≤ counter.count then .warnApproachingLimit
  else .healthy

end ArkheForge.Core

namespace ArkheForge.Platform

open ArkheForge.Core Fallible

/-- `rotation_advice`. -/
def rotationAdvice (counter : DekMessageCounter) : RotationTrigger := counter.rotationTrigger

/-- The advice for a number of messages. -/
def adviceFor (messages : ℕ) : RotationTrigger :=
  if 2 ^ 31 ≤ messages then .mustRotate
  else if 2 ^ 30 ≤ messages then .warnApproachingLimit
  else .healthy

/-- The saturation of the counter is far beyond the last threshold. -/
theorem rotationAdvice_of_count {counter : DekMessageCounter} {messages : ℕ}
    (h : counter.count.toNat = min messages maxCounter.toNat) :
    rotationAdvice counter = adviceFor messages := by
  have hmax : maxCounter.toNat = 2 ^ 64 - 1 := rfl
  have hforce : (0x80000000 : UInt64) ≤ counter.count ↔ 2 ^ 31 ≤ messages := by
    rw [UInt64.le_iff_toNat_le, h]
    have hbound : (0x80000000 : UInt64).toNat = 2 ^ 31 := rfl
    omega
  have hwarn : (0x40000000 : UInt64) ≤ counter.count ↔ 2 ^ 30 ≤ messages := by
    rw [UInt64.le_iff_toNat_le, h]
    have hbound : (0x40000000 : UInt64).toNat = 2 ^ 30 := rfl
    omega
  unfold rotationAdvice DekMessageCounter.rotationTrigger adviceFor
  simp only [hforce, hwarn]

theorem adviceFor_mono {n m : ℕ} (hle : n ≤ m) (h : adviceFor n = .mustRotate) :
    adviceFor m = .mustRotate := by
  unfold adviceFor at h ⊢
  by_cases hforce : 2 ^ 31 ≤ n
  · rw [if_pos (hforce.trans hle)]
  · rw [if_neg hforce] at h
    split at h
    · cases h
    · cases h

section

variable {T W : Type} [NonceSource W] [AeadCrates W] [PiiType T]

/-- A loop that returns has an envelope for each one it was given. -/
theorem Rotation.Rotated.length_eq {coordinator : CryptoCoordinator} {oldDek : Dek}
    {newDekId : DekId} {aad : List UInt8} {s s' : Sealer W} {es : List (EncryptedPii T)}
    {outcome : Except PiiError (List (EncryptedPii T))}
    (h : Rotated coordinator oldDek newDekId aad s es outcome s') :
    ∀ news, outcome = .ok news → news.length = es.length := by
  induction h with
  | done s =>
      intro news hnews
      obtain rfl := Except.ok.inj hnews
      rfl
  | unopened =>
      intro news hnews
      cases hnews
  | unsealed =>
      intro news hnews
      cases hnews
  | resealed s s' s'' envelope rest plaintext nonce newCt outcome hopen hseal hrest ih =>
      intro news hnews
      cases outcome with
      | error err => cases hnews
      | ok news' =>
          obtain rfl := Except.ok.inj hnews
          rw [List.length_cons, List.length_cons, ih news' rfl]

end

section

variable {W : Type} [NonceSource W] [AeadCrates W]

/-- One call of `rotate_dek`, for any type. -/
structure RotateCall where
  T : Type
  piiType : PiiType T
  coordinator : CryptoCoordinator
  oldDek : Dek
  newDek : Dek
  newDekId : DekId
  ciphertexts : List (EncryptedPii T)

instance RotateCall.instPiiType (c : RotateCall) : PiiType c.T := c.piiType

/-- The world and the counter, with the number of envelopes moved so far. -/
structure Rotations (W : Type) where
  world : W
  counter : DekMessageCounter
  moved : ℕ

/-- The call made; a failed one has moved nothing. -/
def RotateCall.apply (c : RotateCall) (s : Rotations W) : Rotations W :=
  let (outcome, r) := (Rotation.rotateDek c.coordinator c.oldDek c.newDekId).exec
    ⟨c.newDek, s.world, c.ciphertexts, s.counter⟩
  ⟨r.world, r.counter, s.moved + if outcome = .ok () then c.ciphertexts.length else 0⟩

/-- The calls in turn, with one counter. -/
def Rotations.run (calls : List RotateCall) (s : Rotations W) : Rotations W :=
  calls.foldl (fun s c => c.apply s) s

/-- The counter has what was moved, as far as it goes. -/
def Rotations.Counted (s : Rotations W) : Prop :=
  s.counter.count.toNat = min s.moved maxCounter.toNat

theorem Rotations.Counted.apply {s : Rotations W} (h : s.Counted) (c : RotateCall) :
    (c.apply s).Counted := by
  obtain ⟨outcome, s', hrotated, hends⟩ := Rotation.dekRotated_rotateDek c.coordinator c.oldDek
    c.newDekId ⟨c.newDek, s.world, c.ciphertexts, s.counter⟩
  unfold Counted at h ⊢
  unfold RotateCall.apply
  generalize (Rotation.rotateDek c.coordinator c.oldDek c.newDekId).exec
    (⟨c.newDek, s.world, c.ciphertexts, s.counter⟩ : Rotation c.T W) = result at hends ⊢
  cases hends with
  | ok news =>
      have hlength := hrotated.length_eq news rfl
      show (DekMessageCounter.recordMessage^[news.length] s.counter).count.toNat = _
      rw [recordMessage_iterate, h, hlength]
      simp only [if_true]
      omega
  | error err => simpa using h

/-- Over any rotations with one counter, failed ones among them: the advice is the one for
    the envelopes that were moved, and a DEK that must be rotated stays so. -/
theorem advice_counts_moved (dekId : DekId) (w : W) (calls : List RotateCall) :
    let start : Rotations W := ⟨w, .new dekId, 0⟩
    rotationAdvice (start.run calls).counter = adviceFor (start.run calls).moved ∧
    ∀ more, rotationAdvice (start.run calls).counter = .mustRotate →
      rotationAdvice (start.run (calls ++ more)).counter = .mustRotate := by
  intro start
  have hcounted : ∀ (calls : List RotateCall) (s : Rotations W), s.Counted →
      (s.run calls).Counted := by
    intro calls
    induction calls with
    | nil => exact fun s h => h
    | cons c calls ih => exact fun s h => ih (c.apply s) (h.apply c)
  have hgrows : ∀ (calls : List RotateCall) (s : Rotations W),
      s.moved ≤ (s.run calls).moved := by
    intro calls
    induction calls with
    | nil => exact fun s => le_rfl
    | cons c calls ih => exact fun s => (Nat.le_add_right _ _).trans (ih (c.apply s))
  have hstart : start.Counted := rfl
  have hadvice := fun calls => rotationAdvice_of_count (hcounted calls start hstart)
  refine ⟨hadvice calls, fun more h => ?_⟩
  rw [hadvice] at h ⊢
  refine adviceFor_mono ?_ h
  unfold Rotations.run
  rw [List.foldl_append]
  exact hgrows more _

end

end ArkheForge.Platform
