/-
  The log of shreds (`crypto_erasure.rs`): what the in-memory shredder and the signing
  one that wraps it hand out over a run, and what a failing shred leaves behind.

  A call on either is one step on the in-memory shredder (`ShredStep`): a cached
  attestation again, a failure, or the next index of the log, so both keep one invariant
  (`ShredsLogged`) from which the laws of the log follow. The step leaves out what a failure
  does to the live DEKs. A shred takes the DEK out before it asks for an index, and with
  the log full the DEK is lost (`shredKeepsOnError_iff`).

  The signing shredder is that of a build with `tier-2-pqc-receipts`.
-/
import ArkheForge.Core.Blake3
import ArkheForge.Platform.Erasure.Backends
import ArkheForge.Platform.Verifier

namespace ArkheForge.Platform

open ArkheForge.Core BigEndian Fallible

/-! ## The signing shredder -/

/-- `ReceiptSigner`: the crate's signing under the held key, which takes no randomness. -/
structure ReceiptSigner where
  trySign : Bytes → Bytes
  verifyingKeyBytes : Bytes

/-- `ReceiptSigner::sign`. -/
def ReceiptSigner.sign (signer : ReceiptSigner) (message : Bytes) : Bytes :=
  signer.trySign (domainSeparated message)

/-- `dek_shred_message`. -/
def dekShredMessage (dekId : DekId) (logIndex : UInt64) : Bytes :=
  dekId.bytes.toList ++ toBe 8 logIndex.toNat

/-- The attestation that a signer gives one DEK at one log index. -/
def ReceiptSigner.attestationAt (signer : ReceiptSigner) (dekId : DekId) (logIndex : UInt64) :
    DekShredAttestation where
  attestationClass := .mlDsa65
  attestationBytes := signer.sign (dekShredMessage dekId logIndex)
  logIndex := some logIndex

/-- `InMemoryDekShredder::set_cached_attestation`. -/
def InMemoryDekShredder.setCachedAttestation (dekId : DekId) (att : DekShredAttestation)
    (s : InMemoryDekShredder) : InMemoryDekShredder :=
  { s with shredded := Function.update s.shredded dekId (some att) }

/-- `SigningDekShredder`. -/
structure SigningDekShredder where
  inner : InMemoryDekShredder
  signer : ReceiptSigner

namespace SigningDekShredder

/-- `SigningDekShredder::new`. -/
def new (inner : InMemoryDekShredder) (signer : ReceiptSigner) : SigningDekShredder :=
  ⟨inner, signer⟩

/-- `SigningDekShredder::register`. -/
def register (dekId : DekId) (s : SigningDekShredder) : SigningDekShredder :=
  { s with inner := s.inner.register dekId }

variable [Blake3]

/-- `SigningDekShredder::shred`. -/
def shred (dekId : DekId) : Fallible SigningDekShredder DekShredError DekShredAttestation := do
  let placeholder ← zoom inner (fun inner s => { s with inner := inner }) id
    (InMemoryDekShredder.shred dekId)
  match placeholder.logIndex with
  | none => pure placeholder
  | some logIndex =>
    let signed := (← get).signer.attestationAt dekId logIndex
    modify fun s => { s with inner := s.inner.setCachedAttestation dekId signed }
    pure signed

instance dekShredder : DekShredder SigningDekShredder where
  shred := shred

end SigningDekShredder

/-! ## Histories -/

/-- A shred that was asked for, and what it returned. -/
abbrev ShredOutcome : Type := DekId × Except DekShredError DekShredAttestation

/-- A first shred is one that returns an attestation for a DEK that has none yet. -/
def noteShred (firsts : List (DekId × DekShredAttestation)) :
    ShredOutcome → List (DekId × DekShredAttestation)
  | (_, .error _) => firsts
  | (dekId, .ok a) => if dekId ∈ firsts.map Prod.fst then firsts else firsts ++ [(dekId, a)]

/-- The first shreds of a history, in their order. -/
def firstShreds (history : List ShredOutcome) : List (DekId × DekShredAttestation) :=
  history.foldl noteShred []

theorem firstShreds_concat (history : List ShredOutcome) (outcome : ShredOutcome) :
    firstShreds (history ++ [outcome]) = noteShred (firstShreds history) outcome := by
  unfold firstShreds
  rw [List.foldl_concat]

/-- What the transparency layer may rely on, for a history and the counter after it. -/
structure ShredLogLaws (history : List ShredOutcome) (nextLogIndex : UInt64) : Prop where
  /-- The first shreds have the indices 0, 1, 2, … in their order. -/
  indices : (firstShreds history).map (fun first => first.2.logIndex) =
    (List.range (firstShreds history).length).map fun i => some (UInt64.ofNat i)
  /-- Two DEKs do not share an index. -/
  distinct : ∀ dekId dekId' a a', (dekId, .ok a) ∈ history → (dekId', .ok a') ∈ history →
    a.logIndex = a'.logIndex → dekId = dekId'
  /-- Once shredded, a DEK gets its first attestation again. -/
  repeated : ∀ before dekId outcome after a, history = before ++ (dekId, outcome) :: after →
    (dekId, .ok a) ∈ before → outcome = .ok a
  /-- Only first shreds take an index. -/
  consumed : nextLogIndex.toNat = (firstShreds history).length

/-- A call on a shredder. -/
inductive ShredCall
  | register (dekId : DekId)
  | shred (dekId : DekId)
  deriving DecidableEq, Repr

section

variable {W : Type} [DekShredder W] (register : DekId → W → W)

/-- A call, its outcome put to the history. -/
def ShredCall.apply (run : List ShredOutcome × W) : ShredCall → List ShredOutcome × W
  | .register dekId => (run.1, register dekId run.2)
  | .shred dekId =>
    (run.1 ++ [(dekId, ((DekShredder.shred dekId).exec run.2).1)],
      ((DekShredder.shred dekId).exec run.2).2)

/-- The calls one after the other: the history of the shreds, and the receiver left. -/
def runShreds (calls : List ShredCall) (w : W) : List ShredOutcome × W :=
  calls.foldl (ShredCall.apply register) ([], w)

theorem runShreds_concat (calls : List ShredCall) (call : ShredCall) (w : W) :
    runShreds register (calls ++ [call]) w = call.apply register (runShreds register calls w) := by
  unfold runShreds
  rw [List.foldl_concat]

end

/-! ## One step -/

/-- What a shred does to the cache and the counter, `attest` being the attestation it
    hands out at an index. -/
inductive ShredStep (attest : DekId → UInt64 → DekShredAttestation) (dekId : DekId)
    (s : InMemoryDekShredder) :
    Except DekShredError DekShredAttestation → InMemoryDekShredder → Prop
  | replayed (a : DekShredAttestation) (hcached : s.shredded dekId = some a) :
      ShredStep attest dekId s (.ok a) s
  | failed (e : DekShredError) (live : Finset DekId) (hcached : s.shredded dekId = none) :
      ShredStep attest dekId s (.error e) { s with live := live }
  | issued (live : Finset DekId) (hcached : s.shredded dekId = none)
      (hroom : s.nextLogIndex.toNat + 1 < UInt64.size) :
      ShredStep attest dekId s (.ok (attest dekId s.nextLogIndex))
        { live := live
          shredded := Function.update s.shredded dekId (some (attest dekId s.nextLogIndex))
          nextLogIndex := s.nextLogIndex + 1 }

section

variable [Blake3]

theorem InMemoryDekShredder.shredStep (dekId : DekId) (s : InMemoryDekShredder) :
    ShredStep attestationAt dekId s ((shred dekId).exec s).1 ((shred dekId).exec s).2 := by
  rw [exec_shred]
  cases hcached : s.shredded dekId with
  | some cached => exact .replayed cached hcached
  | none =>
      by_cases hlive : dekId ∈ s.live
      · simp only [hlive, not_true_eq_false, if_false]
        unfold checkedSucc
        by_cases hroom : s.nextLogIndex.toNat + 1 < UInt64.size
        · rw [if_pos hroom]
          exact .issued (s.live.erase dekId) hcached hroom
        · rw [if_neg hroom]
          exact .failed _ (s.live.erase dekId) hcached
      · simp only [hlive, not_false_eq_true, if_true]
        exact .failed .unknownDek s.live hcached

namespace SigningDekShredder

/-- What the wrapper makes of a call that returned: the attestation, signed. -/
theorem exec_shred_ok {dekId : DekId} {s : SigningDekShredder} {inner : InMemoryDekShredder}
    {a : DekShredAttestation} {logIndex : UInt64}
    (h : (InMemoryDekShredder.shred dekId).exec s.inner = (.ok a, inner))
    (hindex : a.logIndex = some logIndex) :
    (shred dekId).exec s = (.ok (s.signer.attestationAt dekId logIndex),
      { s with inner :=
          inner.setCachedAttestation dekId (s.signer.attestationAt dekId logIndex) }) := by
  have hinner : (zoom SigningDekShredder.inner (fun inner s => { s with inner := inner }) id
      (InMemoryDekShredder.shred dekId)).exec s = (.ok a, { s with inner := inner }) := by
    rw [exec_zoom, h]
    rfl
  unfold shred
  rw [exec_bind_ok hinner, hindex]
  rfl

theorem exec_shred_error {dekId : DekId} {s : SigningDekShredder} {inner : InMemoryDekShredder}
    {e : DekShredError} (h : (InMemoryDekShredder.shred dekId).exec s.inner = (.error e, inner)) :
    (shred dekId).exec s = (.error e, { s with inner := inner }) := by
  have hinner : (zoom SigningDekShredder.inner (fun inner s => { s with inner := inner }) id
      (InMemoryDekShredder.shred dekId)).exec s = (.error e, { s with inner := inner }) := by
    rw [exec_zoom, h]
    rfl
  unfold shred
  rw [exec_bind_error hinner]

/-- With a cache of signed attestations the wrapper makes the step of the shredder inside,
    its own attestations in the place of the digests. -/
theorem shredStep (dekId : DekId) (s : SigningDekShredder)
    (hsigned : ∀ d a, s.inner.shredded d = some a → ∃ i, a = s.signer.attestationAt d i) :
    ShredStep s.signer.attestationAt dekId s.inner ((shred dekId).exec s).1
      ((shred dekId).exec s).2.inner := by
  have hinside := InMemoryDekShredder.shredStep dekId s.inner
  cases hexec : (InMemoryDekShredder.shred dekId).exec s.inner with
  | mk outcome inner =>
      rw [hexec] at hinside
      cases hinside with
      | replayed a hcached =>
          obtain ⟨i, rfl⟩ := hsigned dekId a hcached
          rw [exec_shred_ok hexec rfl]
          have hsame : s.inner.setCachedAttestation dekId (s.signer.attestationAt dekId i) =
              s.inner := by
            unfold InMemoryDekShredder.setCachedAttestation
            rw [← hcached, Function.update_eq_self]
          show ShredStep _ _ _ _ (s.inner.setCachedAttestation dekId _)
          rw [hsame]
          exact .replayed _ hcached
      | failed e live hcached =>
          rw [exec_shred_error hexec]
          exact .failed e live hcached
      | issued live hcached hroom =>
          rw [exec_shred_ok hexec rfl]
          unfold InMemoryDekShredder.setCachedAttestation
          rw [Function.update_idem]
          exact .issued live hcached hroom

theorem signer_shred (dekId : DekId) (s : SigningDekShredder) :
    ((shred dekId).exec s).2.signer = s.signer := by
  cases hexec : (InMemoryDekShredder.shred dekId).exec s.inner with
  | mk outcome inner =>
      cases outcome with
      | error e => rw [exec_shred_error hexec]
      | ok a =>
          cases hindex : a.logIndex with
          | some logIndex => rw [exec_shred_ok hexec hindex]
          | none =>
              unfold shred
              rw [exec_bind, exec_zoom, hexec]
              simp only [Except.mapError, hindex, exec_pure]

end SigningDekShredder

end

/-! ## The invariant of a run -/

/-- The cache and the counter are those of the first shreds of the history, the attestation
    of each being that of its index. -/
structure ShredsLogged (attest : DekId → UInt64 → DekShredAttestation) (history : List ShredOutcome)
    (s : InMemoryDekShredder) : Prop where
  counted : s.nextLogIndex.toNat = (firstShreds history).length
  numbered : ∀ i dekId a, (firstShreds history)[i]? = some (dekId, a) →
    a = attest dekId (UInt64.ofNat i)
  cached : ∀ dekId a, s.shredded dekId = some a ↔ (dekId, a) ∈ firstShreds history
  answered : ∀ dekId a, (dekId, .ok a) ∈ history → (dekId, a) ∈ firstShreds history
  repeated : ∀ before dekId outcome after a, history = before ++ (dekId, outcome) :: after →
    (dekId, .ok a) ∈ before → outcome = .ok a

section

variable {attest : DekId → UInt64 → DekShredAttestation} {history : List ShredOutcome}
  {s s' : InMemoryDekShredder} {dekId : DekId}

theorem ShredsLogged.new : ShredsLogged attest [] InMemoryDekShredder.new where
  counted := rfl
  numbered := by
    intro i dekId a h
    cases h
  cached := by
    intro dekId a
    constructor
    · intro h
      cases h
    · intro h
      cases h
  answered := by
    intro dekId a h
    cases h
  repeated := by
    intro before dekId outcome after a h
    simp at h

/-- Every cached attestation is one of the log. -/
theorem ShredsLogged.attested (h : ShredsLogged attest history s) {a : DekShredAttestation}
    (hcached : s.shredded dekId = some a) : ∃ i, a = attest dekId i := by
  obtain ⟨i, hi⟩ := List.mem_iff_getElem?.mp ((h.cached dekId a).mp hcached)
  exact ⟨UInt64.ofNat i, h.numbered i dekId a hi⟩

theorem ShredsLogged.mem_keys_iff (h : ShredsLogged attest history s) :
    dekId ∈ (firstShreds history).map Prod.fst ↔ ∃ a, s.shredded dekId = some a := by
  constructor
  · intro hmem
    obtain ⟨⟨d, a⟩, hfirst, rfl⟩ := List.mem_map.mp hmem
    exact ⟨a, (h.cached d a).mpr hfirst⟩
  · rintro ⟨a, hcached⟩
    exact List.mem_map.mpr ⟨(dekId, a), (h.cached dekId a).mp hcached, rfl⟩

/-- A shred of a DEK that has an attestation answers with it. -/
theorem ShredsLogged.repeated_concat (h : ShredsLogged attest history s)
    {outcome : Except DekShredError DekShredAttestation}
    (hstep : ShredStep attest dekId s outcome s') :
    ∀ before d r after a, history ++ [(dekId, outcome)] = before ++ (d, r) :: after →
      (d, .ok a) ∈ before → r = .ok a := by
  intro before d r after a hsplit hmem
  rcases List.eq_nil_or_concat after with rfl | ⟨earlier, last, rfl⟩
  · obtain ⟨rfl, hlast⟩ := List.append_inj' hsplit rfl
    obtain ⟨rfl, rfl⟩ := Prod.mk.inj (List.head_eq_of_cons_eq hlast)
    have hcached := (h.cached dekId a).mpr (h.answered dekId a hmem)
    cases hstep with
    | replayed a' hcached' =>
        rw [hcached] at hcached'
        rw [Option.some.inj hcached']
    | failed e live hnone =>
        rw [hcached] at hnone
        cases hnone
    | issued live hnone hroom =>
        rw [hcached] at hnone
        cases hnone
  · rw [List.concat_eq_append, ← List.cons_append, ← List.append_assoc] at hsplit
    obtain ⟨hearlier, -⟩ := List.append_inj' hsplit rfl
    exact h.repeated before d r earlier a hearlier hmem

/-- A call that adds no first shred keeps the invariant. -/
theorem ShredsLogged.step_same (h : ShredsLogged attest history s)
    {outcome : Except DekShredError DekShredAttestation}
    (hstep : ShredStep attest dekId s outcome s')
    (hfirst : firstShreds (history ++ [(dekId, outcome)]) = firstShreds history)
    (hcache : s'.shredded = s.shredded) (hindex : s'.nextLogIndex = s.nextLogIndex)
    (hanswer : ∀ a, outcome = .ok a → s.shredded dekId = some a) :
    ShredsLogged attest (history ++ [(dekId, outcome)]) s' where
  counted := by rw [hfirst, hindex, h.counted]
  numbered := by
    rw [hfirst]
    exact h.numbered
  cached := by
    rw [hfirst, hcache]
    exact h.cached
  answered := by
    intro d a hmem
    rw [hfirst]
    rcases List.mem_append.mp hmem with hmem | hmem
    · exact h.answered d a hmem
    · obtain ⟨rfl, houtcome⟩ := Prod.mk.inj (List.mem_singleton.mp hmem)
      exact (h.cached d a).mp (hanswer a houtcome.symm)
  repeated := h.repeated_concat hstep

/-- A DEK without an attestation has no first shred yet. -/
theorem ShredsLogged.firstShreds_issued (h : ShredsLogged attest history s)
    (hnone : s.shredded dekId = none) (a : DekShredAttestation) :
    firstShreds (history ++ [(dekId, .ok a)]) = firstShreds history ++ [(dekId, a)] := by
  have hfresh : dekId ∉ (firstShreds history).map Prod.fst := by
    rw [h.mem_keys_iff, hnone]
    simp
  rw [firstShreds_concat]
  exact if_neg hfresh

/-- The entry of an empty slot joins those that a map has. -/
theorem update_eq_some_iff {cache : DekId → Option DekShredAttestation}
    (hnone : cache dekId = none) {d : DekId} {a a' : DekShredAttestation} :
    Function.update cache dekId (some a) d = some a' ↔ cache d = some a' ∨ (d, a') = (dekId, a) := by
  rw [Prod.mk.injEq]
  by_cases heq : d = dekId
  · subst heq
    rw [Function.update_self, hnone, Option.some.injEq]
    simp [eq_comm]
  · rw [Function.update_of_ne heq]
    simp [heq]

/-- A first shred takes the next index. -/
theorem ShredsLogged.step_issued (h : ShredsLogged attest history s)
    (hstep : ShredStep attest dekId s (.ok (attest dekId s.nextLogIndex)) s')
    (hnone : s.shredded dekId = none)
    (hcache : s'.shredded =
      Function.update s.shredded dekId (some (attest dekId s.nextLogIndex)))
    (hindex : s'.nextLogIndex.toNat = s.nextLogIndex.toNat + 1) :
    ShredsLogged attest (history ++ [(dekId, .ok (attest dekId s.nextLogIndex))]) s' where
  counted := by
    rw [h.firstShreds_issued hnone, List.length_append, List.length_singleton, ← h.counted]
    exact hindex
  numbered := by
    intro i d a hi
    rw [h.firstShreds_issued hnone] at hi
    rcases Nat.lt_or_ge i (firstShreds history).length with hlt | hge
    · rw [List.getElem?_append_left hlt] at hi
      exact h.numbered i d a hi
    · rw [List.getElem?_append_right hge, List.getElem?_singleton] at hi
      split at hi
      · next hlast =>
          obtain ⟨rfl, rfl⟩ := Prod.mk.inj (Option.some.inj hi)
          have hi : i = s.nextLogIndex.toNat := by
            have := h.counted
            omega
          rw [hi, UInt64.ofNat_toNat]
      · cases hi
  cached := by
    intro d a
    rw [h.firstShreds_issued hnone, List.mem_append, List.mem_singleton, ← h.cached, hcache]
    exact update_eq_some_iff hnone
  answered := by
    intro d a hmem
    rw [h.firstShreds_issued hnone, List.mem_append, List.mem_singleton]
    rcases List.mem_append.mp hmem with hmem | hmem
    · exact .inl (h.answered d a hmem)
    · obtain ⟨rfl, houtcome⟩ := Prod.mk.inj (List.mem_singleton.mp hmem)
      exact .inr (by rw [Except.ok.inj houtcome])
  repeated := h.repeated_concat hstep

theorem ShredsLogged.step {outcome : Except DekShredError DekShredAttestation}
    (h : ShredsLogged attest history s) (hstep : ShredStep attest dekId s outcome s') :
    ShredsLogged attest (history ++ [(dekId, outcome)]) s' := by
  cases hstep with
  | replayed a hcached =>
      refine h.step_same (.replayed a hcached) ?_ rfl rfl ?_
      · rw [firstShreds_concat]
        exact if_pos (h.mem_keys_iff.mpr ⟨a, hcached⟩)
      · intro a' heq
        rw [hcached, Except.ok.inj heq]
  | failed e live hnone =>
      refine h.step_same (.failed e live hnone) ?_ rfl rfl ?_
      · rw [firstShreds_concat]
        rfl
      · intro a heq
        cases heq
  | issued live hnone hroom =>
      refine h.step_issued (.issued live hnone hroom) hnone rfl ?_
      rw [UInt64.toNat_add]
      exact Nat.mod_eq_of_lt hroom

/-- The index of a first shred tells its DEK. -/
theorem ShredsLogged.dek_of_index (h : ShredsLogged attest history s)
    (hindex : ∀ dekId i, (attest dekId i).logIndex = some i) {d d' : DekId}
    {a a' : DekShredAttestation} (hmem : (d, a) ∈ firstShreds history)
    (hmem' : (d', a') ∈ firstShreds history) (hsame : a.logIndex = a'.logIndex) : d = d' := by
  obtain ⟨i, hi⟩ := List.mem_iff_getElem?.mp hmem
  obtain ⟨j, hj⟩ := List.mem_iff_getElem?.mp hmem'
  rw [h.numbered i d a hi, h.numbered j d' a' hj, hindex, hindex] at hsame
  have hbound := s.nextLogIndex.toNat_lt_size
  have hilt := (List.getElem?_eq_some_iff.mp hi).1
  have hjlt := (List.getElem?_eq_some_iff.mp hj).1
  have hcounted := h.counted
  have hnat := congrArg UInt64.toNat (Option.some.inj hsame)
  rw [UInt64.toNat_ofNat_of_lt' (by omega), UInt64.toNat_ofNat_of_lt' (by omega)] at hnat
  rw [hnat, hj] at hi
  exact (congrArg Prod.fst (Option.some.inj hi)).symm

/-- The laws of the log follow. -/
theorem ShredsLogged.laws (h : ShredsLogged attest history s)
    (hindex : ∀ dekId i, (attest dekId i).logIndex = some i) :
    ShredLogLaws history s.nextLogIndex where
  indices := by
    refine List.ext_getElem (by simp) fun i hi _ => ?_
    have hlt : i < (firstShreds history).length := by simpa using hi
    have hfirst : (firstShreds history)[i].2 =
        attest (firstShreds history)[i].1 (UInt64.ofNat i) :=
      h.numbered i _ _ (List.getElem?_eq_getElem hlt)
    rw [List.getElem_map, List.getElem_map, List.getElem_range, hfirst, hindex]
  distinct := by
    intro d d' a a' hmem hmem' hsame
    exact h.dek_of_index hindex (h.answered d a hmem) (h.answered d' a' hmem') hsame
  repeated := h.repeated
  consumed := h.counted

/-! ## Runs -/

/-- A receiver whose calls are steps on an in-memory shredder. `Fit` is what its other parts
    keep. -/
structure LogsAs {W : Type} [DekShredder W] (attest : DekId → UInt64 → DekShredAttestation)
    (register : DekId → W → W) (inner : W → InMemoryDekShredder) (Fit : W → Prop) : Prop where
  register : ∀ dekId w, Fit w →
    Fit (register dekId w) ∧ inner (register dekId w) = (inner w).register dekId
  shred : ∀ dekId w, Fit w → (∀ d a, (inner w).shredded d = some a → ∃ i, a = attest d i) →
    Fit ((DekShredder.shred dekId).exec w).2 ∧
      ShredStep attest dekId (inner w) ((DekShredder.shred dekId).exec w).1
        (inner ((DekShredder.shred dekId).exec w).2)

/-- Every run keeps the invariant. -/
theorem LogsAs.run {W : Type} [DekShredder W] {register : DekId → W → W}
    {inner : W → InMemoryDekShredder} {Fit : W → Prop} (h : LogsAs attest register inner Fit)
    {w : W} (hfit : Fit w) (hnew : inner w = InMemoryDekShredder.new) (calls : List ShredCall) :
    Fit (runShreds register calls w).2 ∧
      ShredsLogged attest (runShreds register calls w).1 (inner (runShreds register calls w).2) := by
  induction calls using List.reverseRecOn with
  | nil =>
      refine ⟨hfit, ?_⟩
      show ShredsLogged attest [] (inner w)
      rw [hnew]
      exact .new
  | append_singleton calls call ih =>
      obtain ⟨hfit, hlogged⟩ := ih
      rw [runShreds_concat]
      cases call with
      | register dekId =>
          obtain ⟨hfit', hinner⟩ := h.register dekId _ hfit
          refine ⟨hfit', ?_⟩
          show ShredsLogged attest _ (inner (register dekId _))
          rw [hinner]
          exact ⟨hlogged.counted, hlogged.numbered, hlogged.cached, hlogged.answered,
            hlogged.repeated⟩
      | shred dekId =>
          obtain ⟨hfit', hstep⟩ := h.shred dekId _ hfit fun _ _ => hlogged.attested
          exact ⟨hfit', hlogged.step hstep⟩

variable [Blake3]

theorem InMemoryDekShredder.logsAs :
    LogsAs attestationAt InMemoryDekShredder.register id fun _ => True where
  register := fun _ _ _ => ⟨trivial, rfl⟩
  shred := fun dekId s _ _ => ⟨trivial, shredStep dekId s⟩

theorem SigningDekShredder.logsAs (signer : ReceiptSigner) :
    LogsAs signer.attestationAt SigningDekShredder.register inner fun s => s.signer = signer where
  register := fun _ _ hsigner => ⟨hsigner, rfl⟩
  shred := by
    rintro dekId s rfl hsigned
    exact ⟨signer_shred dekId s, shredStep dekId s hsigned⟩

/-- **The log of shreds.** In every run of registrations and shreds on a fresh in-memory
    shredder the first shreds take the indices 0, 1, 2, … in their order, no two DEKs share
    one, a repeated shred answers as the first did, and no other call takes an index. The
    same holds of the signing shredder, whose cache holds signed attestations only. -/
theorem shred_log_indices (calls : List ShredCall) :
    (let run := runShreds InMemoryDekShredder.register calls InMemoryDekShredder.new
     ShredLogLaws run.1 run.2.nextLogIndex) ∧
    ∀ signer : ReceiptSigner,
      let run := runShreds SigningDekShredder.register calls
        (SigningDekShredder.new InMemoryDekShredder.new signer)
      ShredLogLaws run.1 run.2.inner.nextLogIndex ∧
        ∀ dekId a, run.2.inner.shredded dekId = some a →
          ∃ logIndex, a = signer.attestationAt dekId logIndex := by
  constructor
  · have hrun := InMemoryDekShredder.logsAs.run trivial rfl calls
    exact hrun.2.laws fun _ _ => rfl
  · intro signer
    have hrun := (SigningDekShredder.logsAs signer).run
      (w := SigningDekShredder.new .new signer) rfl rfl calls
    exact ⟨hrun.2.laws fun _ _ => rfl, fun _ _ => hrun.2.attested⟩

end

section

attribute [local instance] oneBlockBlake3

/-- Two DEKs are shredded, the first of them twice, and one that is not registered. -/
def twoShreds : List ShredCall :=
  let first : DekId := ⟨.replicate 16 0x01⟩
  let second : DekId := ⟨.replicate 16 0x02⟩
  [.register first, .register second, .shred first, .shred ⟨.replicate 16 0x03⟩, .shred second,
    .shred first]

/-- The two first shreds take the indices 0 and 1, and the other calls none. -/
theorem shred_log_indices_twoShreds :
    let run := runShreds InMemoryDekShredder.register twoShreds InMemoryDekShredder.new
    run.1.length = 4 ∧
      (firstShreds run.1).map (fun first => first.2.logIndex) = [some 0, some 1] ∧
      run.2.nextLogIndex.toNat = 2 := by
  intro run
  have hfirst : (firstShreds run.1).length = 2 := by decide +kernel
  obtain ⟨hlaws, -⟩ := shred_log_indices twoShreds
  have hindices := hlaws.indices
  have hconsumed := hlaws.consumed
  rw [show (firstShreds (runShreds InMemoryDekShredder.register twoShreds
    InMemoryDekShredder.new).1).length = 2 from hfirst] at hindices hconsumed
  exact ⟨rfl, hindices, hconsumed⟩

end

/-! ## A failing shred -/

namespace InMemoryDekShredder

/-- `u64::MAX`, where the log has no index left. -/
def lastLogIndex : UInt64 := 0xFFFFFFFFFFFFFFFF

theorem checkedSucc_eq_none_iff {n : UInt64} : checkedSucc n = none ↔ n = lastLogIndex := by
  have hbound := n.toNat_lt_size
  unfold checkedSucc
  split
  · next hroom =>
      constructor
      · intro h
        cases h
      · rintro rfl
        exact absurd hroom (by decide)
  · next hfull =>
      refine ⟨fun _ => UInt64.toNat_inj.mp ?_, fun _ => rfl⟩
      show n.toNat = UInt64.size - 1
      omega

variable [Blake3]

/-- A shred that fails changes nothing, so that a retry fails as it did, and none loses the
    DEK. -/
structure KeepsOnError (dekId : DekId) (s : InMemoryDekShredder) : Prop where
  unchanged : ∀ e s', (shred dekId).exec s = (.error e, s') → s' = s
  retried : ∀ e s', (shred dekId).exec s = (.error e, s') →
    ((shred dekId).exec s').1 = .error e
  kept : dekId ∈ s.live ∨ s.isShredded dekId = true →
    dekId ∈ ((shred dekId).exec s).2.live ∨ ((shred dekId).exec s).2.isShredded dekId = true

/-- The DEK can be shredded and the log has no index for it. -/
def LogFullFor (dekId : DekId) (s : InMemoryDekShredder) : Prop :=
  dekId ∈ s.live ∧ s.isShredded dekId = false ∧ s.nextLogIndex = lastLogIndex

variable {dekId : DekId} {s : InMemoryDekShredder}

/-- A full log is noticed once the DEK has been taken out. -/
theorem exec_shred_full (h : LogFullFor dekId s) :
    (shred dekId).exec s =
      (.error (.backend "DEK shred log index overflow"),
        { s with live := s.live.erase dekId }) := by
  obtain ⟨hlive, hcached, hfull⟩ := h
  have hnone : s.shredded dekId = none :=
    Option.isNone_iff_eq_none.mp (Option.isSome_eq_false_iff.mp hcached)
  rw [exec_shred, hnone]
  simp only [hlive, not_true_eq_false, if_false, checkedSucc_eq_none_iff.mpr hfull]

/-- Otherwise a shred that fails does so before it takes anything. -/
theorem exec_shred_error (h : ¬ LogFullFor dekId s) {e : DekShredError}
    {s' : InMemoryDekShredder} (hexec : (shred dekId).exec s = (.error e, s')) : s' = s := by
  rw [exec_shred] at hexec
  cases hcached : s.shredded dekId with
  | some cached =>
      rw [hcached] at hexec
      cases hexec
  | none =>
      simp only [hcached] at hexec
      split at hexec
      · exact (congrArg Prod.snd hexec).symm
      · next hlive =>
          cases hnext : checkedSucc s.nextLogIndex with
          | some next =>
              rw [hnext] at hexec
              cases hexec
          | none =>
              have hshredded : s.isShredded dekId = false := by
                unfold isShredded
                rw [hcached]
                rfl
              exact absurd ⟨not_not.mp hlive, hshredded, checkedSucc_eq_none_iff.mp hnext⟩ h

/-- A shred that returns has put the DEK among the shredded ones. -/
theorem isShredded_of_exec_ok {a : DekShredAttestation} {s' : InMemoryDekShredder}
    (hexec : (shred dekId).exec s = (.ok a, s')) : s'.isShredded dekId = true := by
  have hstep := shredStep dekId s
  rw [hexec] at hstep
  cases hstep with
  | replayed _ hcached =>
      unfold isShredded
      rw [hcached]
      rfl
  | issued live hcached hroom =>
      exact congrArg Option.isSome (Function.update_self dekId _ s.shredded)

theorem not_keepsOnError (h : LogFullFor dekId s) : ¬ KeepsOnError dekId s := by
  intro hkeeps
  have hlost := hkeeps.unchanged _ _ (exec_shred_full h)
  have hlive : s.live.erase dekId = s.live := congrArg InMemoryDekShredder.live hlost
  have hlost : dekId ∉ s.live.erase dekId := Finset.notMem_erase dekId s.live
  rw [hlive] at hlost
  exact hlost h.1

/-- **When a failing shred is atomic.** In every state and for every DEK: exactly where the
    log has an index left, or the shred needs none. -/
theorem keepsOnError_iff (dekId : DekId) (s : InMemoryDekShredder) :
    KeepsOnError dekId s ↔ ¬ LogFullFor dekId s := by
  constructor
  · intro h hfull
    exact not_keepsOnError hfull h
  · intro h
    refine ⟨fun e s' => exec_shred_error h, ?_, ?_⟩
    · intro e s' hexec
      rw [exec_shred_error h hexec, hexec]
    · intro hkept
      cases hexec : (shred dekId).exec s with
      | mk outcome s' =>
          cases outcome with
          | ok a => exact .inr (isShredded_of_exec_ok hexec)
          | error e =>
              rw [exec_shred_error h hexec]
              exact hkept

end InMemoryDekShredder

/-- A DEK. -/
def lateDek : DekId := ⟨.replicate 16 2⟩

/-- A shredder with one DEK left and a full log. -/
def fullLog : InMemoryDekShredder where
  live := {lateDek}
  shredded := fun _ => none
  nextLogIndex := InMemoryDekShredder.lastLogIndex

section

attribute [local instance] oneBlockBlake3

/-- The full log loses its DEK. -/
theorem not_keepsOnError_fullLog :
    ¬ ∀ (dekId : DekId) (s : InMemoryDekShredder), s.KeepsOnError dekId := by
  intro hclaim
  refine InMemoryDekShredder.not_keepsOnError ?_ (hclaim lateDek fullLog)
  exact ⟨Finset.mem_singleton_self lateDek, rfl, rfl⟩

end

end ArkheForge.Platform
