/-
  The nonces of every `Dek` that the mock KMS hands out.

  A session holds the KMS, the `Dek` objects its calls returned, the world of the crates
  and the list of seals, each under the number of its object. Every call is a sequence of
  small steps (`steps_call`): the KMS changes, an object is added, or one nonce is drawn
  and sealed with. What the sessions keep (`Sound`) is read off these steps, so it does
  not matter which call a seal belongs to or whether that call returns.
-/
import ArkheForge.Platform.Crypto.Binding
import ArkheForge.Platform.Crypto.SealLog
import ArkheForge.Platform.Hf2Kms.MockKms

namespace ArkheForge.Platform

open ArkheForge.Core BigEndian Fallible

/-! ## Sessions -/

/-- The call that returned a `Dek`; a generated one with what it was derived from. -/
inductive DekOrigin
  | generated (kekRef : KekRef) (counter : UInt64)
  | unwrapped
  deriving DecidableEq

/-- The counter a DEK was derived from. -/
def DekOrigin.counter? : DekOrigin → Option ℕ
  | .generated _ counter => some counter.toNat
  | .unwrapped => none

/-- Where both were derived, the one was derived before the other. -/
def DekOrigin.Before (a b : DekOrigin) : Prop :=
  ∀ n m, a.counter? = some n → b.counter? = some m → n < m

/-- A `Dek` object. -/
structure DekObject where
  origin : DekOrigin
  dek : Dek
  deriving DecidableEq

/-- The nonce that the counter of a `Dek` numbers. -/
def nonceAt (replicaId : UInt32) (counter : ℕ) : Bytes :=
  (aesGcmNonceFromCounter replicaId (UInt64.ofNat counter)).toList

theorem nonceAt_inj {replicaId : UInt32} {n m : ℕ} (hn : n < 2 ^ 64) (hm : m < 2 ^ 64)
    (h : nonceAt replicaId n = nonceAt replicaId m) : n = m := by
  have hcounter := (aesGcmNonceFromCounter_inj (Vector.toList_inj.mp h)).2
  have hnat := congrArg UInt64.toNat hcounter
  rwa [UInt64.toNat_ofNat_of_lt' hn, UInt64.toNat_ofNat_of_lt' hm] at hnat

/-- A seal and the object it was made under. -/
structure ObjectSeal where
  object : ℕ
  call : SealCall
  deriving DecidableEq

/-- A coordinator of a cipher that numbers its nonces. -/
structure CountedCoordinator extends CryptoCoordinator where
  counted : manifestCipher ≠ .xChaCha20Poly1305

/-- A KMS, the `Dek` objects it returned, and what was sealed under them. -/
structure KeySession (W : Type) where
  kms : MockKmsBackend
  objects : List DekObject
  world : W
  seals : List ObjectSeal

/-- A call of the KMS, or of a coordinator over the objects by their number. -/
inductive KeyCall : Type 1
  | registerKek (kekRef : KekRef)
  | generateDek (kekRef : KekRef)
  | wrapDek (i : ℕ) (kekRef : KekRef)
  | unwrapDek (wrapped : Bytes) (kekRef : KekRef)
  | deleteKey (kekRef : KekRef)
  | rotateKek (old new : KekRef)
  | encrypt {T : Type} [PiiType T] [Postcard T] (coordinator : CountedCoordinator) (x : T)
      (dekId : DekId) (i : ℕ)
  | rotateDek {T : Type} [PiiType T] (coordinator : CountedCoordinator) (old i : ℕ)
      (newDekId : DekId) (ciphertexts : List (EncryptedPii T)) (counter : DekMessageCounter)

/-- Whether a call is one of `generate_dek`. -/
def KeyCall.Generates : KeyCall → Prop
  | .generateDek _ => True
  | _ => False

namespace KeySession

variable {W : Type}

/-- An empty KMS and no object. -/
def new (w : W) : KeySession W where
  kms := .new
  objects := []
  world := w
  seals := []

/-- The session with one more object. -/
def push (object : DekObject) (s : KeySession W) : KeySession W :=
  { s with objects := s.objects ++ [object] }

/-- A `Dek` and an empty list of seals. -/
def sealer (s : KeySession W) (dek : Dek) : Sealer (Logged W) := ⟨dek, s.world, []⟩

/-- The session after the seals that were made under an object. -/
def withSealer (i : ℕ) (object : DekObject) (after : Sealer (Logged W)) (s : KeySession W) :
    KeySession W where
  kms := s.kms
  objects := s.objects.set i { object with dek := after.dek }
  world := after.world.world
  seals := s.seals ++ after.world.calls.map (ObjectSeal.mk i)

/-- The nonces drawn from an object, in order. -/
def noncesOf (s : KeySession W) (i : ℕ) : List Bytes :=
  (s.seals.filter fun e => e.object = i).map fun e => e.call.nonce

section

variable [NonceSource W] [AeadCrates W] {T : Type} [PiiType T]

/-- `encrypt` under an object. -/
def encryptUnder [Postcard T] (s : KeySession W) (coordinator : CountedCoordinator) (x : T)
    (dekId : DekId) (i : ℕ) : KeySession W :=
  match s.objects[i]? with
  | none => s
  | some object =>
    withSealer i object ((coordinator.encrypt x dekId).exec (s.sealer object.dek)).2 s

/-- `rotate_dek` from an object to an object, which may be the same. -/
def rotateUnder (s : KeySession W) (coordinator : CountedCoordinator) (old i : ℕ)
    (newDekId : DekId) (ciphertexts : List (EncryptedPii T)) (counter : DekMessageCounter) :
    KeySession W :=
  match s.objects[old]?, s.objects[i]? with
  | some oldObject, some object =>
    let r : Rotation T (Logged W) := ⟨object.dek, ⟨s.world, []⟩, ciphertexts, counter⟩
    withSealer i object
      ((Rotation.rotateDek coordinator.toCryptoCoordinator oldObject.dek newDekId).exec r).2.sealer s
  | _, _ => s

end

/-- `wrap_dek` of an object. -/
def wrap (s : KeySession W) (i : ℕ) (kekRef : KekRef) : KeySession W :=
  match s.objects[i]? with
  | none => s
  | some object => { s with kms := ((MockKmsBackend.wrapDek object.dek kekRef).exec s.kms).2 }

/-- `unwrap_dek`, and the object it returns. -/
def unwrap (s : KeySession W) (wrapped : Bytes) (kekRef : KekRef) : KeySession W :=
  match (MockKmsBackend.unwrapDek wrapped kekRef).exec s.kms with
  | (.ok dek, kms) => push ⟨.unwrapped, dek⟩ { s with kms := kms }
  | (.error _, kms) => { s with kms := kms }

section

variable [Blake3Hash]

/-- `generate_dek`, and the object it returns. -/
def generate (s : KeySession W) (kekRef : KekRef) : KeySession W :=
  match (MockKmsBackend.generateDek kekRef).exec s.kms with
  | (.ok (_, dek), kms) => push ⟨.generated kekRef kms.counter, dek⟩ { s with kms := kms }
  | (.error _, kms) => { s with kms := kms }

variable [NonceSource W] [AeadCrates W]

/-- One call. -/
def call (s : KeySession W) : KeyCall → KeySession W
  | .registerKek kekRef => { s with kms := s.kms.registerKek kekRef }
  | .generateDek kekRef => s.generate kekRef
  | .wrapDek i kekRef => s.wrap i kekRef
  | .unwrapDek wrapped kekRef => s.unwrap wrapped kekRef
  | .deleteKey kekRef => { s with kms := ((MockKmsBackend.deleteKey kekRef).exec s.kms).2 }
  | .rotateKek old new => { s with kms := ((MockKmsBackend.rotateKek old new).exec s.kms).2 }
  | @KeyCall.encrypt _ _ _ coordinator x dekId i => s.encryptUnder coordinator x dekId i
  | @KeyCall.rotateDek _ _ coordinator old i newDekId ciphertexts counter =>
    s.rotateUnder coordinator old i newDekId ciphertexts counter

/-- A run of calls. -/
def after (s : KeySession W) (run : List KeyCall) : KeySession W := run.foldl call s

/-- No `generate_dek` of the run finds the KMS's counter at its end. -/
def Unsaturated : KeySession W → List KeyCall → Prop
  | _, [] => True
  | s, c :: rest => (c.Generates → s.kms.counter ≠ maxCounter) ∧ Unsaturated (s.call c) rest

end

/-! ## Small steps -/

section

variable [Blake3Hash]

/-- What a session can do. -/
inductive Step : KeySession W → KeySession W → Prop
  | kms (s : KeySession W) (kms : MockKmsBackend) (hcounter : kms.counter = s.kms.counter) :
      Step s { s with kms := kms }
  | generated (s : KeySession W) (kekRef : KekRef) (hcounter : s.kms.counter ≠ maxCounter) :
      Step s (push
        ⟨.generated kekRef (s.kms.counter + 1),
          Dek.fromBytes (MockKmsBackend.dekMaterial kekRef (s.kms.counter + 1))⟩
        { s with kms := { s.kms with counter := s.kms.counter + 1 } })
  | unwrapped (s : KeySession W) (material : Vector UInt8 32) :
      Step s (push ⟨.unwrapped, Dek.fromUnwrapped material DekConfig.default⟩ s)
  | sealed (s : KeySession W) (i : ℕ) (object : DekObject) (call : SealCall) (w : W)
      (hobject : s.objects[i]? = some object)
      (hadmitted : call.kind = .aes256Gcm → object.dek.lifecycle ≠ .longLived)
      (hcounter : object.dek.counter ≠ maxCounter) (hkey : call.key = object.dek.material)
      (hnonce : call.nonce =
        (aesGcmNonceFromCounter object.dek.replicaId object.dek.counter).toList) :
      Step s
        { s with
          objects := s.objects.set i
            { object with dek := { object.dek with counter := object.dek.counter + 1 } }
          world := w
          seals := s.seals ++ [⟨i, call⟩] }

/-- Any number of them. -/
abbrev Steps : KeySession W → KeySession W → Prop := Relation.ReflTransGen Step

/-- The seals of one call are steps of the session. -/
theorem steps_withSealer {s : KeySession W} {i : ℕ} {object : DekObject}
    (hobject : s.objects[i]? = some object) {kind : AeadKind} {after : Sealer (Logged W)}
    (hsteps : SealSteps kind (s.sealer object.dek) after) :
    Steps s (withSealer i object after s) := by
  obtain ⟨hi, hget⟩ := List.getElem?_eq_some_iff.mp hobject
  induction hsteps with
  | refl =>
      have hstart : withSealer i object (s.sealer object.dek) s = s := by
        unfold withSealer sealer
        rw [← hget, List.set_getElem_self]
        simp
      rw [hstart]
  | @tail before after _ hstep ih =>
      refine ih.tail ?_
      cases hstep with
      | drawn call w hadmitted hcounter hkind hkey hnonce =>
          have hset : (withSealer i object before s).objects[i]? =
              some { object with dek := before.dek } := by
            simp [withSealer, hi]
          have hsealed := Step.sealed (withSealer i object before s) i
            { object with dek := before.dek } call w hset (by rw [hkind]; exact hadmitted) hcounter
            hkey hnonce
          simpa [withSealer] using hsealed

theorem steps_generate (s : KeySession W) (kekRef : KekRef)
    (hcounter : s.kms.counter ≠ maxCounter) : Steps s (s.generate kekRef) := by
  unfold generate
  rw [MockKmsBackend.exec_generateDek, saturatingSucc_of_ne hcounter]
  cases s.kms.keks kekRef with
  | none => exact .refl
  | some kek => exact .single (.generated s kekRef hcounter)

theorem steps_wrap (s : KeySession W) (i : ℕ) (kekRef : KekRef) : Steps s (s.wrap i kekRef) := by
  unfold wrap
  cases s.objects[i]? with
  | none => exact .refl
  | some object =>
      have hkms := MockKmsBackend.exec_wrapDek_kms object.dek kekRef s.kms
      exact .single (.kms s _ (congrArg MockKmsBackend.counter hkms))

theorem steps_unwrap (s : KeySession W) (wrapped : Bytes) (kekRef : KekRef) :
    Steps s (s.unwrap wrapped kekRef) := by
  unfold unwrap
  have hkms := MockKmsBackend.exec_unwrapDek_kms wrapped kekRef s.kms
  cases hunwrap : (MockKmsBackend.unwrapDek wrapped kekRef).exec s.kms with
  | mk outcome kms =>
      rw [hunwrap] at hkms
      subst hkms
      cases outcome with
      | error e => exact .refl
      | ok dek =>
          obtain ⟨material, rfl⟩ := MockKmsBackend.exec_unwrapDek_ok hunwrap
          exact .single (.unwrapped s material)

variable [NonceSource W] [AeadCrates W]

theorem steps_encryptUnder {T : Type} [PiiType T] [Postcard T] (s : KeySession W)
    (coordinator : CountedCoordinator) (x : T) (dekId : DekId) (i : ℕ) :
    Steps s (s.encryptUnder coordinator x dekId i) := by
  unfold encryptUnder
  cases hobject : s.objects[i]? with
  | none => exact .refl
  | some object => exact steps_withSealer hobject (sealSteps_encrypt coordinator.counted x dekId _)

theorem steps_rotateUnder {T : Type} [PiiType T] (s : KeySession W)
    (coordinator : CountedCoordinator) (old i : ℕ) (newDekId : DekId)
    (ciphertexts : List (EncryptedPii T)) (counter : DekMessageCounter) :
    Steps s (s.rotateUnder coordinator old i newDekId ciphertexts counter) := by
  unfold rotateUnder
  cases s.objects[old]? with
  | none => exact .refl
  | some oldObject =>
      cases hobject : s.objects[i]? with
      | none => exact .refl
      | some object =>
          have hsteps := sealSteps_rotateDek coordinator.counted oldObject.dek newDekId
            (⟨object.dek, ⟨s.world, []⟩, ciphertexts, counter⟩ : Rotation T (Logged W))
          exact steps_withSealer hobject hsteps

/-- A call is a sequence of steps. -/
theorem steps_call (s : KeySession W) (c : KeyCall)
    (hcounter : c.Generates → s.kms.counter ≠ maxCounter) : Steps s (s.call c) := by
  cases c with
  | registerKek kekRef =>
      have hkept := MockKmsBackend.registerKek_counter kekRef s.kms
      exact .single (.kms s _ hkept)
  | generateDek kekRef => exact steps_generate s kekRef (hcounter trivial)
  | wrapDek i kekRef => exact steps_wrap s i kekRef
  | unwrapDek wrapped kekRef => exact steps_unwrap s wrapped kekRef
  | deleteKey kekRef =>
      have hkept := MockKmsBackend.exec_deleteKey_counter kekRef s.kms
      exact .single (.kms s _ hkept)
  | rotateKek old new =>
      have hkept := MockKmsBackend.exec_rotateKek_counter old new s.kms
      exact .single (.kms s _ hkept)
  | encrypt coordinator x dekId i => exact steps_encryptUnder s coordinator x dekId i
  | rotateDek coordinator old i newDekId ciphertexts counter =>
      exact steps_rotateUnder s coordinator old i newDekId ciphertexts counter

end

/-! ## What every session keeps -/

/-- Replacing the `Dek` of an object leaves the origins alone. -/
theorem map_origin_set {objects : List DekObject} {i : ℕ} {object : DekObject}
    (hobject : objects[i]? = some object) (dek : Dek) :
    (objects.set i { object with dek := dek }).map DekObject.origin =
      objects.map DekObject.origin := by
  obtain ⟨hi, rfl⟩ := List.getElem?_eq_some_iff.mp hobject
  have hi' : i < (objects.map DekObject.origin).length := by simpa using hi
  have hat : objects[i].origin = (objects.map DekObject.origin)[i] := by simp
  rw [List.map_set, hat, List.set_getElem_self]

/-- What is at a place of the objects after one was replaced. -/
theorem getElem?_set_cases {objects : List DekObject} {i j : ℕ} {object object' new : DekObject}
    (hobject : objects[i]? = some object) (hj : (objects.set i new)[j]? = some object') :
    j = i ∧ object' = new ∨ j ≠ i ∧ objects[j]? = some object' := by
  obtain ⟨hi, -⟩ := List.getElem?_eq_some_iff.mp hobject
  by_cases heq : j = i
  · subst heq
    rw [List.getElem?_set_self hi] at hj
    exact .inl ⟨rfl, (Option.some.inj hj).symm⟩
  · rw [List.getElem?_set_ne (Ne.symm heq)] at hj
    exact .inr ⟨heq, hj⟩

/-- The nonces of the objects after one more seal. -/
theorem noncesOf_concat (s : KeySession W) (objects : List DekObject) (w : W) (i j : ℕ)
    (call : SealCall) :
    noncesOf { s with objects := objects, world := w, seals := s.seals ++ [⟨i, call⟩] } j =
      s.noncesOf j ++ if i = j then [call.nonce] else [] := by
  unfold noncesOf
  rw [List.filter_append, List.map_append]
  by_cases heq : i = j
  · simp [heq]
  · simp [heq]

section

variable [Blake3Hash]

/-- A generated object has the material of its KEK and counter; an unwrapped one is long-lived. -/
def Genuine (object : DekObject) : Prop :=
  match object.origin with
  | .generated kekRef counter =>
    object.dek.material = MockKmsBackend.dekMaterial kekRef counter ∧
      object.dek.lifecycle = .ephemeral
  | .unwrapped => object.dek.lifecycle = .longLived

/-- The invariant. -/
structure Sound (s : KeySession W) : Prop where
  genuine : ∀ object ∈ s.objects, Genuine object
  counters : (s.objects.map DekObject.origin).Pairwise DekOrigin.Before
  counters_le : ∀ origin ∈ s.objects.map DekObject.origin, ∀ n, origin.counter? = some n →
    n ≤ s.kms.counter.toNat
  nonces : ∀ (i : ℕ) (object : DekObject), s.objects[i]? = some object →
    s.noncesOf i = (List.range object.dek.counter.toNat).map (nonceAt object.dek.replicaId)
  keys : ∀ e ∈ s.seals, ∃ object, s.objects[e.object]? = some object ∧
    e.call.key = object.dek.material ∧
    (e.call.kind = .aes256Gcm → object.dek.lifecycle ≠ .longLived)

theorem sound_new (w : W) : Sound (new w) where
  genuine _ hobject := nomatch hobject
  counters := .nil
  counters_le _ horigin := nomatch horigin
  nonces _ _ hobject := nomatch hobject
  keys _ he := nomatch he

/-- A new object has no seal. -/
theorem Sound.noncesOf_length {s : KeySession W} (h : Sound s) :
    s.noncesOf s.objects.length = [] := by
  unfold noncesOf
  rw [List.map_eq_nil_iff, List.filter_eq_nil_iff]
  intro e he hlast
  obtain ⟨object, hobject, -⟩ := h.keys e he
  obtain ⟨hi, -⟩ := List.getElem?_eq_some_iff.mp hobject
  have heq : e.object = s.objects.length := of_decide_eq_true hlast
  omega

theorem Sound.kms {s : KeySession W} (h : Sound s) {kms : MockKmsBackend}
    (hcounter : s.kms.counter.toNat ≤ kms.counter.toNat) : Sound { s with kms := kms } where
  genuine := h.genuine
  counters := h.counters
  counters_le origin horigin n hn := (h.counters_le origin horigin n hn).trans hcounter
  nonces := h.nonces
  keys := h.keys

theorem Sound.push {s : KeySession W} (h : Sound s) {object : DekObject}
    (hgenuine : Genuine object) (hfresh : object.dek.counter = 0)
    (hcounter : ∀ n, object.origin.counter? = some n →
      (∀ origin ∈ s.objects.map DekObject.origin, ∀ m, origin.counter? = some m → m < n) ∧
        n ≤ s.kms.counter.toNat) : Sound (push object s) where
  genuine := by
    intro object' hobject'
    rcases List.mem_append.mp hobject' with hold | hnew
    · exact h.genuine object' hold
    · rw [List.mem_singleton.mp hnew]
      exact hgenuine
  counters := by
    show ((s.objects ++ [object]).map DekObject.origin).Pairwise DekOrigin.Before
    rw [List.map_append, List.pairwise_append]
    refine ⟨h.counters, List.pairwise_singleton _ _, ?_⟩
    intro origin horigin origin' horigin' n m hn hm
    rw [List.mem_singleton.mp horigin'] at hm
    exact (hcounter m hm).1 origin horigin n hn
  counters_le := by
    intro origin horigin n hn
    have hmem : origin ∈ (s.objects ++ [object]).map DekObject.origin := horigin
    rw [List.map_append] at hmem
    rcases List.mem_append.mp hmem with hold | hnew
    · exact h.counters_le origin hold n hn
    · rw [List.mem_singleton.mp hnew] at hn
      exact (hcounter n hn).2
  nonces := by
    intro i object' hobject'
    have hat : (s.objects ++ [object])[i]? = some object' := hobject'
    rcases Nat.lt_trichotomy i s.objects.length with hlt | heq | hgt
    · rw [List.getElem?_append_left hlt] at hat
      exact h.nonces i object' hat
    · subst heq
      obtain rfl : object = object' := by simpa using hat
      rw [hfresh]
      exact h.noncesOf_length
    · rw [List.getElem?_eq_none (by simp; omega)] at hat
      cases hat
  keys := by
    intro e he
    obtain ⟨object', hobject', hkey⟩ := h.keys e he
    obtain ⟨hi, -⟩ := List.getElem?_eq_some_iff.mp hobject'
    refine ⟨object', ?_, hkey⟩
    show (s.objects ++ [object])[e.object]? = some object'
    rw [List.getElem?_append_left hi]
    exact hobject'

theorem Sound.sealed {s : KeySession W} (h : Sound s) {i : ℕ} {object : DekObject}
    {call : SealCall} {w : W} (hobject : s.objects[i]? = some object)
    (hadmitted : call.kind = .aes256Gcm → object.dek.lifecycle ≠ .longLived)
    (hcounter : object.dek.counter ≠ maxCounter) (hkey : call.key = object.dek.material)
    (hnonce : call.nonce = nonceAt object.dek.replicaId object.dek.counter.toNat) :
    Sound
      { s with
        objects := s.objects.set i
          { object with dek := { object.dek with counter := object.dek.counter + 1 } }
        world := w
        seals := s.seals ++ [⟨i, call⟩] } where
  genuine := by
    intro object' hobject'
    obtain ⟨j, hj⟩ := List.mem_iff_getElem?.mp hobject'
    rcases getElem?_set_cases hobject hj with ⟨-, rfl⟩ | ⟨-, hold⟩
    · exact h.genuine object (List.mem_of_getElem? hobject)
    · exact h.genuine object' (List.mem_of_getElem? hold)
  counters := by
    show ((s.objects.set i _).map DekObject.origin).Pairwise DekOrigin.Before
    rw [map_origin_set hobject]
    exact h.counters
  counters_le := by
    show ∀ origin ∈ (s.objects.set i _).map DekObject.origin, _
    rw [map_origin_set hobject]
    exact h.counters_le
  nonces := by
    intro j object' hobject'
    rw [noncesOf_concat]
    rcases getElem?_set_cases hobject hobject' with ⟨rfl, rfl⟩ | ⟨hne, hold⟩
    · rw [if_pos rfl, h.nonces j object hobject, Dek.counter_add_one hcounter, List.range_succ,
        List.map_append, hnonce]
      rfl
    · rw [if_neg (Ne.symm hne), List.append_nil]
      exact h.nonces j object' hold
  keys := by
    intro e he
    obtain ⟨hi, -⟩ := List.getElem?_eq_some_iff.mp hobject
    rcases List.mem_append.mp he with hold | hnew
    · obtain ⟨object', hobject', hkey', hadmitted'⟩ := h.keys e hold
      by_cases heq : e.object = i
      · rw [heq, hobject] at hobject'
        obtain rfl := Option.some.inj hobject'
        rw [heq]
        exact ⟨_, List.getElem?_set_self hi, hkey', hadmitted'⟩
      · exact ⟨object', (List.getElem?_set_ne (Ne.symm heq)).trans hobject', hkey', hadmitted'⟩
    · rw [List.mem_singleton.mp hnew]
      exact ⟨_, List.getElem?_set_self hi, hkey, hadmitted⟩

theorem Sound.step {s s' : KeySession W} (h : Sound s) (hstep : Step s s') : Sound s' := by
  cases hstep with
  | kms kms hcounter =>
      apply h.kms
      rw [hcounter]
  | generated kekRef hcounter =>
      have hnext := Dek.counter_add_one hcounter
      have hkms : Sound { s with kms := { s.kms with counter := s.kms.counter + 1 } } := by
        apply h.kms
        show s.kms.counter.toNat ≤ (s.kms.counter + 1).toNat
        omega
      refine hkms.push ⟨rfl, rfl⟩ rfl ?_
      intro n hn
      obtain rfl := Option.some.inj hn
      refine ⟨?_, le_refl _⟩
      intro origin horigin m hm
      have hle := h.counters_le origin horigin m hm
      omega
  | unwrapped material => exact h.push rfl rfl fun n hn => nomatch hn
  | sealed i object call w hobject hadmitted hcounter hkey hnonce =>
      refine h.sealed hobject hadmitted hcounter hkey ?_
      rw [hnonce, nonceAt, UInt64.ofNat_toNat]

theorem Sound.steps {s s' : KeySession W} (h : Sound s) (hsteps : Steps s s') : Sound s' := by
  induction hsteps with
  | refl => exact h
  | tail _ hstep ih => exact ih.step hstep

/-! ## What follows for the nonces -/

/-- The derivation of the DEKs of a session is injective. -/
def DerivationSeparates (s : KeySession W) : Prop :=
  ∀ object ∈ s.objects, ∀ object' ∈ s.objects, ∀ kekRef counter kekRef' counter',
    object.origin = .generated kekRef counter → object'.origin = .generated kekRef' counter' →
    MockKmsBackend.dekMaterial kekRef counter = MockKmsBackend.dekMaterial kekRef' counter' →
      MockKmsBackend.derivation "arkhe-forge-mock-kms-dek-material" kekRef counter =
        MockKmsBackend.derivation "arkhe-forge-mock-kms-dek-material" kekRef' counter'

/-- The nonces drawn from one object are distinct. -/
theorem Sound.nonces_nodup {s : KeySession W} (h : Sound s) {i : ℕ} {object : DekObject}
    (hobject : s.objects[i]? = some object) : (s.noncesOf i).Nodup := by
  rw [h.nonces i object hobject]
  apply List.Nodup.map_on
  · intro n hn m hm heq
    have hbound := object.dek.counter.toNat_lt
    rw [List.mem_range] at hn hm
    exact nonceAt_inj (by omega) (by omega) heq
  · exact List.nodup_range

/-- Two generated objects have different material. -/
theorem Sound.material_ne {s : KeySession W} (h : Sound s) (hhash : DerivationSeparates s)
    {i j : ℕ} {object object' : DekObject} (hij : i < j) (hobject : s.objects[i]? = some object)
    (hobject' : s.objects[j]? = some object') (hfresh : object.dek.lifecycle ≠ .longLived)
    (hfresh' : object'.dek.lifecycle ≠ .longLived) :
    object.dek.material ≠ object'.dek.material := by
  intro hmaterial
  have hmem := List.mem_of_getElem? hobject
  have hmem' := List.mem_of_getElem? hobject'
  have hgenuine := h.genuine object hmem
  have hgenuine' := h.genuine object' hmem'
  cases horigin : object.origin with
  | unwrapped =>
      unfold Genuine at hgenuine
      rw [horigin] at hgenuine
      exact hfresh hgenuine
  | generated kekRef counter =>
      cases horigin' : object'.origin with
      | unwrapped =>
          unfold Genuine at hgenuine'
          rw [horigin'] at hgenuine'
          exact hfresh' hgenuine'
      | generated kekRef' counter' =>
          unfold Genuine at hgenuine hgenuine'
          rw [horigin] at hgenuine
          rw [horigin'] at hgenuine'
          have hsame := hhash object hmem object' hmem' kekRef counter kekRef' counter' horigin
            horigin' (hgenuine.1.symm.trans (hmaterial.trans hgenuine'.1))
          have hcounter := MockKmsBackend.derivation_counter hsame
          have hbefore := List.pairwise_map.mp h.counters
          rw [List.pairwise_iff_getElem] at hbefore
          obtain ⟨hi, rfl⟩ := List.getElem?_eq_some_iff.mp hobject
          obtain ⟨hj, rfl⟩ := List.getElem?_eq_some_iff.mp hobject'
          have hlt := hbefore i j hi hj hij counter.toNat counter'.toNat
            (by rw [horigin]; rfl) (by rw [horigin']; rfl)
          rw [hcounter] at hlt
          exact lt_irrefl _ hlt

/-- No two seals under plain AES-256-GCM share key and nonce. -/
theorem Sound.gcm_pairwise {s : KeySession W} (h : Sound s) (hhash : DerivationSeparates s) :
    s.seals.Pairwise fun e e' => e.call.kind = .aes256Gcm → e'.call.kind = .aes256Gcm →
      e.call.key = e'.call.key → e.call.nonce ≠ e'.call.nonce := by
  rw [List.pairwise_iff_getElem]
  intro p q hp hq hpq hkind hkind' hkey
  obtain ⟨object, hobject, hmaterial, hadmitted⟩ := h.keys _ (List.getElem_mem hp)
  obtain ⟨object', hobject', hmaterial', hadmitted'⟩ := h.keys _ (List.getElem_mem hq)
  have hfresh := hadmitted hkind
  have hfresh' := hadmitted' hkind'
  have hsame : object.dek.material = object'.dek.material := by
    rw [← hmaterial, ← hmaterial', hkey]
  rcases Nat.lt_trichotomy s.seals[p].object s.seals[q].object with hlt | heq | hgt
  · exact absurd hsame (h.material_ne hhash hlt hobject hobject' hfresh hfresh')
  · -- the same object: its nonces are distinct
    have hnodup := h.nonces_nodup hobject
    unfold noncesOf List.Nodup at hnodup
    rw [List.pairwise_map, List.pairwise_filter, List.pairwise_iff_getElem] at hnodup
    exact hnodup p q hp hq hpq (decide_eq_true rfl) (decide_eq_true heq.symm)
  · exact absurd hsame.symm (h.material_ne hhash hgt hobject' hobject hfresh' hfresh)

end

/-! ## Draws that fail -/

section

variable [NonceSource W] [AeadCrates W]

/-- Every draw from this `Dek` fails and leaves it as it is. -/
def Exhausted (W : Type) [NonceSource W] [AeadCrates W] (dek : Dek) : Prop :=
  Dek.advanceCounter.exec dek = (.error .dekExhausted, dek) ∧
    ∀ (coordinator : CountedCoordinator) (aad plaintext : Bytes) (w : W),
      (coordinator.encryptRaw aad plaintext).exec ⟨dek, w⟩ =
        (.error (if coordinator.manifestCipher = .aes256Gcm ∧ dek.lifecycle = .longLived then
          .nonceReuseRisk else .dekExhausted), ⟨dek, w⟩)

/-- Plain AES-256-GCM takes nothing under this `Dek`, and draws nothing. -/
def RefusesGcm (W : Type) [NonceSource W] [AeadCrates W] (dek : Dek) : Prop :=
  ∀ coordinator : CryptoCoordinator, coordinator.manifestCipher = .aes256Gcm →
    ∀ (aad plaintext : Bytes) (w : W),
      (coordinator.encryptRaw aad plaintext).exec ⟨dek, w⟩ = (.error .nonceReuseRisk, ⟨dek, w⟩)

/-- A seal that can draw no nonce changes nothing. AES-256-GCM is refused under a long-lived
    `Dek`; everything else finds the counter spent. -/
theorem encryptRaw_of_noDraws (coordinator : CryptoCoordinator) (aad plaintext : Bytes)
    (s : Sealer W) (hnodraw : ∀ nonce dek w,
      ¬ CryptoCoordinator.Draws coordinator.manifestCipher s nonce dek w) :
    (coordinator.encryptRaw aad plaintext).exec s =
      (.error (if coordinator.manifestCipher = .aes256Gcm ∧ s.dek.lifecycle = .longLived then
        .nonceReuseRisk else .dekExhausted), s) := by
  have hraw := CryptoCoordinator.encryptedRaw_encryptRaw coordinator aad plaintext s
  generalize (coordinator.encryptRaw aad plaintext).exec s = result at hraw ⊢
  obtain ⟨outcome, after⟩ := result
  cases hraw with
  | refused hkind hlifecycle => rw [if_pos ⟨hkind, hlifecycle⟩]
  | exhausted _ hlifecycle =>
      rw [if_neg]
      rintro ⟨hkind, hlong⟩
      exact hlifecycle hkind hlong
  | failed nonce dek w _ hdraws => exact absurd hdraws (hnodraw nonce dek w)
  | sealed nonce _ dek w _ hdraws => exact absurd hdraws (hnodraw nonce dek w)

theorem exhausted_of_max {dek : Dek} (h : dek.counter = maxCounter) : Exhausted W dek := by
  constructor
  · rw [Dek.exec_advanceCounter, if_pos h]
  · intro coordinator aad plaintext w
    refine encryptRaw_of_noDraws coordinator.toCryptoCoordinator aad plaintext ⟨dek, w⟩ ?_
    intro nonce dek' w' hdraws
    cases hdraws with
    | filled hkind => exact coordinator.counted hkind
    | counted _ _ hcounter => exact hcounter h

theorem refusesGcm_of_longLived {dek : Dek} (h : dek.lifecycle = .longLived) :
    RefusesGcm W dek := by
  intro coordinator hkind aad plaintext w
  rw [encryptRaw_of_noDraws coordinator aad plaintext ⟨dek, w⟩, if_pos ⟨hkind, h⟩]
  intro nonce dek' w' hdraws
  cases hdraws with
  | filled hfilled => simp [hkind] at hfilled
  | counted _ hlifecycle => exact hlifecycle hkind h

end

/-! ## Objects over time -/

/-- The same object at a later time: its counter has not gone back, and not gone on from its
    end. -/
structure Later (object object' : DekObject) : Prop where
  origin : object'.origin = object.origin
  material : object'.dek.material = object.dek.material
  replicaId : object'.dek.replicaId = object.dek.replicaId
  counter_le : object.dek.counter.toNat ≤ object'.dek.counter.toNat
  stuck : object.dek.counter = maxCounter → object' = object

theorem Later.refl (object : DekObject) : Later object object :=
  ⟨rfl, rfl, rfl, le_refl _, fun _ => rfl⟩

theorem Later.trans {a b c : DekObject} (h : Later a b) (h' : Later b c) : Later a c where
  origin := h'.origin.trans h.origin
  material := h'.material.trans h.material
  replicaId := h'.replicaId.trans h.replicaId
  counter_le := h.counter_le.trans h'.counter_le
  stuck := by
    intro hmax
    obtain rfl := h.stuck hmax
    exact h'.stuck hmax

theorem later_push {s : KeySession W} {i : ℕ} {object : DekObject}
    (hobject : s.objects[i]? = some object) (new : DekObject) :
    ∃ object', (push new s).objects[i]? = some object' ∧ Later object object' := by
  obtain ⟨hi, -⟩ := List.getElem?_eq_some_iff.mp hobject
  exact ⟨object, (List.getElem?_append_left hi).trans hobject, Later.refl object⟩

section

variable [Blake3Hash] {s s' : KeySession W} {i : ℕ} {object : DekObject}

theorem later_step (hobject : s.objects[i]? = some object) (hstep : Step s s') :
    ∃ object', s'.objects[i]? = some object' ∧ Later object object' := by
  cases hstep with
  | kms => exact ⟨object, hobject, Later.refl object⟩
  | generated => exact later_push hobject _
  | unwrapped => exact later_push hobject _
  | sealed j object' call w hobject' hadmitted hcounter hkey hnonce =>
      obtain ⟨hj, -⟩ := List.getElem?_eq_some_iff.mp hobject'
      by_cases heq : j = i
      · subst heq
        rw [hobject] at hobject'
        obtain rfl := Option.some.inj hobject'
        have hnext := Dek.counter_add_one hcounter
        refine ⟨_, List.getElem?_set_self hj, rfl, rfl, rfl, ?_, fun hmax => absurd hmax hcounter⟩
        show object.dek.counter.toNat ≤ (object.dek.counter + 1).toNat
        omega
      · exact ⟨object, (List.getElem?_set_ne heq).trans hobject, Later.refl object⟩

theorem later_steps (hobject : s.objects[i]? = some object) (hsteps : Steps s s') :
    ∃ object', s'.objects[i]? = some object' ∧ Later object object' := by
  induction hsteps with
  | refl => exact ⟨object, hobject, Later.refl object⟩
  | tail _ hstep ih =>
      obtain ⟨middle, hmiddle, hlater⟩ := ih
      obtain ⟨object', hobject', hlater'⟩ := later_step hmiddle hstep
      exact ⟨object', hobject', hlater.trans hlater'⟩

/-! ## Runs -/

variable [NonceSource W] [AeadCrates W]

theorem steps_after {s : KeySession W} {run : List KeyCall} (h : Unsaturated s run) :
    Steps s (after s run) := by
  induction run generalizing s with
  | nil => exact .refl
  | cons c rest ih => exact (steps_call s c h.1).trans (ih h.2)

theorem unsaturated_append {s : KeySession W} {pre rest : List KeyCall} :
    Unsaturated s (pre ++ rest) ↔ Unsaturated s pre ∧ Unsaturated (after s pre) rest := by
  induction pre generalizing s with
  | nil => exact ⟨fun h => ⟨trivial, h⟩, fun h => h.2⟩
  | cons c pre ih =>
      show (_ ∧ Unsaturated (s.call c) (pre ++ rest)) ↔ (_ ∧ _) ∧ Unsaturated _ rest
      rw [ih, and_assoc]
      rfl

/-- DEK nonces never repeat. -/
theorem dek_nonces_never_repeat (w : W) (run : List KeyCall)
    (hcounter : Unsaturated (new w) run) (hhash : DerivationSeparates (after (new w) run)) :
    ((after (new w) run).seals.Pairwise fun e e' =>
      e.call.kind = .aes256Gcm → e'.call.kind = .aes256Gcm →
        e.call.key = e'.call.key → e.call.nonce ≠ e'.call.nonce) ∧
    (∀ (i : ℕ) (object : DekObject), (after (new w) run).objects[i]? = some object →
      (after (new w) run).noncesOf i =
        (List.range object.dek.counter.toNat).map (nonceAt object.dek.replicaId) ∧
      ((after (new w) run).noncesOf i).Nodup ∧
      (object.dek.counter = maxCounter → Exhausted W object.dek) ∧
      (object.origin = .unwrapped → RefusesGcm W object.dek ∧
        ∀ e ∈ (after (new w) run).seals, e.object = i → e.call.kind ≠ .aes256Gcm)) ∧
    ∀ pre, pre <+: run → ∀ (i : ℕ) (object : DekObject),
      (after (new w) pre).objects[i]? = some object →
        ∃ object', (after (new w) run).objects[i]? = some object' ∧ Later object object' := by
  have hsound : Sound (after (new w) run) := (sound_new w).steps (steps_after hcounter)
  refine ⟨hsound.gcm_pairwise hhash, ?_, ?_⟩
  · intro i object hobject
    refine ⟨hsound.nonces i object hobject, hsound.nonces_nodup hobject, exhausted_of_max, ?_⟩
    intro horigin
    have hlong := hsound.genuine object (List.mem_of_getElem? hobject)
    unfold Genuine at hlong
    rw [horigin] at hlong
    refine ⟨refusesGcm_of_longLived hlong, ?_⟩
    intro e he hei hkind
    obtain ⟨object', hobject', -, hadmitted⟩ := hsound.keys e he
    rw [hei, hobject] at hobject'
    obtain rfl := Option.some.inj hobject'
    exact hadmitted hkind hlong
  · rintro pre ⟨rest, rfl⟩ i object hobject
    rw [unsaturated_append] at hcounter
    have hsteps := steps_after hcounter.2
    unfold after at hsteps hobject ⊢
    rw [List.foldl_append]
    exact later_steps hobject hsteps

end

/-! ## A generated key and an unwrapped one -/

section

attribute [local instance] oneChunkBlake3Hash CryptoCoordinator.postcardActorHandle

def gcmCoordinator : CountedCoordinator := ⟨⟨.aes256Gcm⟩, by decide⟩

def sivCoordinator : CountedCoordinator := ⟨⟨.aes256GcmSiv⟩, by decide⟩

def testKek : KekRef := ⟨"kek-1"⟩

/-- The KMS with its KEK. -/
def testKms : MockKmsBackend := MockKmsBackend.new.registerKek testKek

/-- A wrapped DEK with some material. -/
def testWrapped : Bytes :=
  match (MockKmsBackend.wrapDek (Dek.fromBytes (.replicate 32 0x33)) testKek).exec testKms with
  | (.ok wrapped, _) => wrapped
  | (.error _, _) => []

def testTable : AeadTable := CryptoCoordinator.freshSealer.world

/-- Two handles under a generated key, one under an unwrapped key, and a refused one. -/
def testRun : List KeyCall :=
  [.registerKek testKek, .generateDek testKek, .unwrapDek testWrapped testKek,
    .encrypt gcmCoordinator CryptoCoordinator.shortHandle CryptoCoordinator.handleDek 0,
    .encrypt gcmCoordinator CryptoCoordinator.shortHandle CryptoCoordinator.handleDek 0,
    .encrypt sivCoordinator CryptoCoordinator.shortHandle CryptoCoordinator.handleDek 1,
    .encrypt gcmCoordinator CryptoCoordinator.shortHandle CryptoCoordinator.handleDek 1]

theorem origins_testRun : (after (new testTable) testRun).objects.map DekObject.origin =
    [.generated testKek 1, .unwrapped] := by decide +kernel

theorem counters_testRun : (after (new testTable) testRun).objects.map (fun object =>
    (object.dek.counter, object.dek.replicaId)) = [(2, 0), (1, 0)] := by decide +kernel

theorem unsaturated_testRun : Unsaturated (new testTable) testRun := by
  refine ⟨False.elim, fun _ => ?_, False.elim, False.elim, False.elim, False.elim, False.elim,
    trivial⟩
  decide +kernel

/-- Only one key was derived. -/
theorem derivationSeparates_testRun : DerivationSeparates (after (new testTable) testRun) := by
  have hderived : ∀ object ∈ (after (new testTable) testRun).objects, ∀ kekRef counter,
      object.origin = .generated kekRef counter → kekRef = testKek ∧ counter = 1 := by
    intro object hobject kekRef counter horigin
    have hmem := List.mem_map_of_mem (f := DekObject.origin) hobject
    rw [origins_testRun, horigin] at hmem
    simpa using hmem
  intro object hobject object' hobject' kekRef counter kekRef' counter' horigin horigin' _
  obtain ⟨rfl, rfl⟩ := hderived object hobject kekRef counter horigin
  obtain ⟨rfl, rfl⟩ := hderived object' hobject' kekRef' counter' horigin'
  rfl

/-- The two handles under the generated key have the first two nonces. -/
theorem dek_nonces_never_repeat_handles :
    ((after (new testTable) testRun).seals.Pairwise fun e e' =>
      e.call.kind = .aes256Gcm → e'.call.kind = .aes256Gcm →
        e.call.key = e'.call.key → e.call.nonce ≠ e'.call.nonce) ∧
    (after (new testTable) testRun).noncesOf 0 = [nonceAt 0 0, nonceAt 0 1] := by
  obtain ⟨hpairwise, hobjects, -⟩ := dek_nonces_never_repeat testTable testRun unsaturated_testRun
    derivationSeparates_testRun
  refine ⟨hpairwise, ?_⟩
  have hcounters := congrArg (fun l => l[0]?) counters_testRun
  simp only [List.getElem?_map, List.getElem?_cons_zero, Option.map_eq_some_iff,
    Prod.mk.injEq] at hcounters
  obtain ⟨object, hobject, hcounter, hreplica⟩ := hcounters
  rw [(hobjects 0 object hobject).1, hcounter, hreplica]
  rfl

end

end KeySession

end ArkheForge.Platform
