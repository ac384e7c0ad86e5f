/-
  `Dek` (`crypto.rs`): 32 bytes of key material, the message counter that numbers its
  nonces, and the lifetime that decides which cipher may use it.
-/
import ArkheForge.Core.Pii
import ArkheForge.Lib.Fallible

namespace ArkheForge.Platform

open ArkheForge.Core BigEndian Fallible

/-- `DekConfig`. -/
structure DekConfig where
  replicaId : UInt32
  deriving DecidableEq, Repr

/-- `DekConfig::default`. -/
def DekConfig.default : DekConfig where
  replicaId := 0

/-- `DekLifecycle`. -/
inductive DekLifecycle
  | ephemeral
  | longLived
  deriving DecidableEq, Repr

/-- `Dek`. -/
structure Dek where
  material : Vector UInt8 32
  counter : UInt64
  replicaId : UInt32
  lifecycle : DekLifecycle
  deriving DecidableEq, Repr

/-- `u64::MAX`. -/
def maxCounter : UInt64 := 0xFFFFFFFFFFFFFFFF

namespace Dek

/-- `Dek::with_config`. -/
def withConfig (material : Vector UInt8 32) (config : DekConfig) : Dek where
  material := material
  counter := 0
  replicaId := config.replicaId
  lifecycle := .ephemeral

/-- `Dek::from_bytes`. -/
def fromBytes (material : Vector UInt8 32) : Dek := withConfig material DekConfig.default

/-- `Dek::from_unwrapped`. -/
def fromUnwrapped (material : Vector UInt8 32) (config : DekConfig) : Dek where
  material := material
  counter := 0
  replicaId := config.replicaId
  lifecycle := .longLived

/-- `Dek::advance_counter`: the counter before the call. -/
def advanceCounter : Fallible Dek PiiError UInt64 := do
  let n := (← get).counter
  if n = maxCounter then throw .dekExhausted
  modify fun dek => { dek with counter := n + 1 }
  pure n

theorem exec_advanceCounter (dek : Dek) :
    advanceCounter.exec dek =
      if dek.counter = maxCounter then (.error .dekExhausted, dek)
      else (.ok dek.counter, { dek with counter := dek.counter + 1 }) := by
  unfold advanceCounter
  simp only [exec_bind, exec_get]
  by_cases hmax : dek.counter = maxCounter
  · simp only [hmax, if_true, exec_bind, exec_throw]
  · simp only [hmax, if_false, exec_bind, exec_pure, exec_modify]

/-- The counter does not wrap where it advances. -/
theorem counter_add_one {n : UInt64} (h : n ≠ maxCounter) : (n + 1).toNat = n.toNat + 1 := by
  have hbound := n.toNat_lt
  have hne : n.toNat ≠ maxCounter.toNat := by
    intro heq
    exact h (UInt64.toNat_inj.mp heq)
  have hmax : maxCounter.toNat = 2 ^ 64 - 1 := rfl
  rw [UInt64.toNat_add]
  have hone : (1 : UInt64).toNat = 1 := rfl
  omega

end Dek

theorem gcmNonce_size (replicaId counter : ℕ) :
    (toBe 4 replicaId ++ toBe 8 counter).toArray.size = 12 := by
  simp

/-- `aes_gcm_nonce_from_counter`. -/
def aesGcmNonceFromCounter (replicaId : UInt32) (counter : UInt64) : Vector UInt8 12 :=
  ⟨(toBe 4 replicaId.toNat ++ toBe 8 counter.toNat).toArray,
    gcmNonce_size replicaId.toNat counter.toNat⟩

theorem aesGcmNonceFromCounter_toList (replicaId : UInt32) (counter : UInt64) :
    (aesGcmNonceFromCounter replicaId counter).toList =
      toBe 4 replicaId.toNat ++ toBe 8 counter.toNat := rfl

/-- The nonce determines the replica and the counter. -/
theorem aesGcmNonceFromCounter_inj {r r' : UInt32} {n n' : UInt64}
    (h : aesGcmNonceFromCounter r n = aesGcmNonceFromCounter r' n') : r = r' ∧ n = n' := by
  have hlist := congrArg Vector.toList h
  rw [aesGcmNonceFromCounter_toList, aesGcmNonceFromCounter_toList] at hlist
  obtain ⟨hreplica, hcounter⟩ := List.append_inj hlist (by simp)
  refine ⟨UInt32.toNat_inj.mp ?_, UInt64.toNat_inj.mp ?_⟩
  · exact toBe_injective r.toNat_lt r'.toNat_lt hreplica
  · exact toBe_injective n.toNat_lt n'.toNat_lt hcounter

end ArkheForge.Platform
