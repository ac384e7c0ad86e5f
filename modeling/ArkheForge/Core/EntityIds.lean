/-
  Entity ids over the life of one instance.

  The bridge starts the id sequence at zero for every action, so the id an action
  derives depends on nothing but the instance, the type code and the tick. Two
  accepted actions of one kind at one tick derive the same id: the second spawns
  the entity of the first again and writes over its components
  (`same_tick_registrations_share_an_id`). `bridge_ids_distinct_iff` is the exact
  condition: with a hash that separates the preimages of the run, the ids of a run
  are distinct, and no action writes to an entity another one created, exactly
  when no two accepted actions share kind and tick. The status write of an erasure
  is meant to reach an entity some registration created and is left out of the
  second half.
-/
import ArkheForge.Core.Bridge
import ArkheForge.Lib.Distinct

namespace ArkheForge.Core

open BigEndian Fallible

/-! ## The derivation separates its arguments -/

theorem idPreimage_inj {instanceId : InstanceId} {tc tc' : TypeCode} {tick tick' : Tick}
    {seq seq' : UInt32} {bump bump' : ℕ}
    (h : idPreimage instanceId tc tick seq bump = idPreimage instanceId tc' tick' seq' bump') :
    tc = tc' ∧ tick = tick' ∧ seq = seq' := by
  have h64 : ∀ n : UInt64, n.toNat < 256 ^ 8 := fun n => n.toNat_lt
  have h32 : ∀ n : UInt32, n.toNat < 256 ^ 4 := fun n => n.toNat_lt
  simp only [idPreimage, List.append_assoc] at h
  obtain ⟨_, h⟩ := (toBe_append_inj (h64 _) (h64 _)).mp h
  obtain ⟨htc, h⟩ := (toBe_append_inj (h32 _) (h32 _)).mp h
  obtain ⟨htick, h⟩ := (toBe_append_inj (h64 _) (h64 _)).mp h
  obtain ⟨hseq, _⟩ := (toBe_append_inj (h32 _) (h32 _)).mp h
  exact ⟨UInt32.toNat_inj.mp htc, UInt64.toNat_inj.mp htick, UInt32.toNat_inj.mp hseq⟩

section

variable [Blake3]

/-- Where the first attempt is not zero it is the id. -/
theorem deriveEntityId_of_ne_zero {seed : Vector UInt8 32} {instanceId : InstanceId}
    {tc : TypeCode} {tick : Tick} {seq : UInt32}
    (h : rawId seed (idPreimage instanceId tc tick seq 0) ≠ 0) :
    deriveEntityId seed instanceId tc tick seq =
      some ⟨rawId seed (idPreimage instanceId tc tick seq 0), h⟩ := by
  have hnew : EntityId.new (rawId seed (idPreimage instanceId tc tick seq 0)) =
      some ⟨rawId seed (idPreimage instanceId tc tick seq 0), h⟩ :=
    EntityId.new_eq_some.mpr rfl
  unfold deriveEntityId
  rw [maxIdDeriveRetries, List.range_succ_eq_map, List.findSome?_cons, hnew]

end

/-! ## Runs of one instance -/

/-- One action submitted to the kernel. -/
structure Submission where
  action : ShippedAction
  tick : Tick
  actor : Option EntityId
  deriving DecidableEq, Repr

section

variable [Blake3] [CoreWire] (instanceId : InstanceId)

/-- The batch the kernel gets for it. -/
def Submission.ops (s : Submission) : List Op :=
  kernelComputeInner s.action instanceId s.tick s.actor

/-- The entities a run spawns, in order. -/
def spawnedBy (run : List Submission) : List EntityId :=
  run.flatMap fun s => spawned (s.ops instanceId)

/-- The kind and the tick under which an accepted submission derives its id. -/
def Submission.slot (s : Submission) : Option (TypeCode × Tick) :=
  if s.action.Accepted (bridgeContext instanceId s.tick s.actor) then
    s.action.spawnCode.map fun tc => (tc, s.tick)
  else none

/-- The preimage of the first attempt for a slot. -/
def slotPreimage (slot : TypeCode × Tick) : Bytes := idPreimage instanceId slot.1 slot.2 0 0

/-- The id derived for a slot. -/
def slotId (slot : TypeCode × Tick) : Option EntityId :=
  deriveEntityId zeroSeed instanceId slot.1 slot.2 0

/-- The preimages a run may hash. -/
def preimages (run : List Submission) : List Bytes :=
  run.filterMap fun s => s.action.spawnCode.map fun tc => slotPreimage instanceId (tc, s.tick)

/-- On the preimages of the run, the first eight bytes of the hash are never zero and
    tell them apart. -/
def HashSeparates (run : List Submission) : Prop :=
  ∀ p ∈ preimages instanceId run, rawId zeroSeed p ≠ 0 ∧
    ∀ q ∈ preimages instanceId run, rawId zeroSeed p = rawId zeroSeed q → p = q

instance (run : List Submission) : Decidable (HashSeparates instanceId run) :=
  inferInstanceAs (Decidable (∀ p ∈ preimages instanceId run, _))

/-- No action writes to an entity another action spawned, an erasure's status write
    aside. -/
def WritesStayHome (run : List Submission) : Prop :=
  ∀ (j k : ℕ) (s s' : Submission), run[j]? = some s → run[k]? = some s' →
    (∀ a, s.action ≠ .gdprEraseUser a) →
    ∀ w ∈ writes (s.ops instanceId), w.1 ∈ spawned (s'.ops instanceId) → j = k

end

section

variable [Blake3] [CoreWire] {instanceId : InstanceId}

omit [CoreWire] in
theorem slot_mem_preimages {run : List Submission} {slot : TypeCode × Tick}
    (h : slot ∈ run.filterMap (Submission.slot instanceId)) :
    slotPreimage instanceId slot ∈ preimages instanceId run := by
  obtain ⟨s, hs, hslot⟩ := List.mem_filterMap.mp h
  refine List.mem_filterMap.mpr ⟨s, hs, ?_⟩
  unfold Submission.slot at hslot
  split at hslot
  · obtain ⟨tc, htc, rfl⟩ := Option.map_eq_some_iff.mp hslot
    rw [htc]
    rfl
  · simp at hslot

/-- A submission spawns the entity of its slot. -/
theorem spawned_ops (hT : CoreWire.Serializes) (s : Submission)
    (hid : ∀ slot, s.slot instanceId = some slot → (slotId instanceId slot).isSome) :
    spawned (s.ops instanceId) = ((s.slot instanceId).bind (slotId instanceId)).toList := by
  have hops := kernelComputeInner_cases hT s.action instanceId s.tick s.actor
  unfold Submission.slot at hid ⊢
  by_cases hacc : s.action.Accepted (bridgeContext instanceId s.tick s.actor)
  · rw [if_pos hacc] at hid ⊢
    have hsome : ∀ tc, s.action.spawnCode = some tc →
        ((bridgeContext instanceId s.tick s.actor).upcomingId tc).isSome :=
      fun tc htc => hid (tc, s.tick) (by rw [htc]; rfl)
    obtain ⟨ops, hbatch⟩ := ShippedAction.bridge_batch_ok_iff.mpr ⟨hacc, hsome⟩
    have heq : s.ops instanceId = ops := by
      unfold Submission.ops
      rw [kernelComputeInner_eq hT, hbatch]
    rw [heq, ShippedAction.batch_spawned hbatch]
    cases s.action.spawnCode <;> rfl
  · rw [if_neg hacc]
    rcases hops with hnil | hbatch
    · unfold Submission.ops
      rw [hnil]
      rfl
    · exact absurd (ShippedAction.bridge_batch_ok_iff.mp ⟨_, hbatch⟩).1 hacc

omit [CoreWire] in
/-- With a separating hash every slot of the run has an id, and no two the same. -/
theorem slotId_of_separates {run : List Submission} (hhash : HashSeparates instanceId run)
    {slot : TypeCode × Tick} (h : slot ∈ run.filterMap (Submission.slot instanceId)) :
    ∃ id, slotId instanceId slot = some id ∧
      id.get = rawId zeroSeed (slotPreimage instanceId slot) := by
  have hne := (hhash _ (slot_mem_preimages h)).1
  exact ⟨_, deriveEntityId_of_ne_zero hne, rfl⟩

omit [CoreWire] in
theorem slotId_inj_of_separates {run : List Submission} (hhash : HashSeparates instanceId run)
    {slot slot' : TypeCode × Tick} (h : slot ∈ run.filterMap (Submission.slot instanceId))
    (h' : slot' ∈ run.filterMap (Submission.slot instanceId))
    (heq : slotId instanceId slot = slotId instanceId slot') : slot = slot' := by
  obtain ⟨id, hid, hraw⟩ := slotId_of_separates hhash h
  obtain ⟨id', hid', hraw'⟩ := slotId_of_separates hhash h'
  have hsame : id = id' := by
    rw [hid, hid'] at heq
    exact Option.some.inj heq
  have hpre : slotPreimage instanceId slot = slotPreimage instanceId slot' := by
    refine (hhash _ (slot_mem_preimages h)).2 _ (slot_mem_preimages h') ?_
    rw [← hraw, ← hraw', hsame]
  obtain ⟨htc, htick, _⟩ := idPreimage_inj hpre
  exact Prod.ext htc htick

/-- The entities of a run are the ids of its slots. -/
theorem spawnedBy_eq (hT : CoreWire.Serializes) {run : List Submission}
    (hhash : HashSeparates instanceId run) :
    spawnedBy instanceId run =
      (run.filterMap (Submission.slot instanceId)).filterMap (slotId instanceId) := by
  have hid : ∀ s ∈ run, ∀ slot, s.slot instanceId = some slot →
      (slotId instanceId slot).isSome := by
    intro s hs slot hslot
    have hmem := List.mem_filterMap.mpr ⟨s, hs, hslot⟩
    obtain ⟨id, hid, _⟩ := slotId_of_separates hhash hmem
    rw [hid]
    rfl
  unfold spawnedBy
  clear hhash
  induction run with
  | nil => rfl
  | cons s run ih =>
      have hrest := ih fun s' hs' => hid s' (by simp [hs'])
      rw [List.flatMap_cons, hrest, spawned_ops hT s (hid s (by simp))]
      cases hslot : s.slot instanceId with
      | none => simp [hslot]
      | some slot =>
          cases hslotId : slotId instanceId slot with
          | none => simp [hslot, hslotId]
          | some id => simp [hslot, hslotId]

/-- What an action other than an erasure writes to, it has spawned. -/
theorem writes_subset_spawned (hT : CoreWire.Serializes) {s : Submission}
    (herase : ∀ a, s.action ≠ .gdprEraseUser a) {w : EntityId × TypeCode × Bytes}
    (hw : w ∈ writes (s.ops instanceId)) : w.1 ∈ spawned (s.ops instanceId) := by
  unfold Submission.ops at hw ⊢
  rcases kernelComputeInner_cases hT s.action instanceId s.tick s.actor with hnil | hbatch
  · rw [hnil] at hw
    simp [writes] at hw
  · have hself := (ShippedAction.batch_writesOwn hT hbatch).selfContained herase
    exact hself.mem_spawned hw

/-- **When ids are unique.** Given a hash that separates the preimages of a run: no entity
    is spawned twice and no action writes to an entity another one created, if and only
    if no two accepted actions of the run share kind and tick. -/
theorem bridge_ids_distinct_iff (hT : CoreWire.Serializes) (instanceId : InstanceId)
    (run : List Submission) (hhash : HashSeparates instanceId run) :
    (spawnedBy instanceId run).Nodup ∧ WritesStayHome instanceId run ↔
      (run.filterMap (Submission.slot instanceId)).Nodup := by
  have hiff : (spawnedBy instanceId run).Nodup ↔
      (run.filterMap (Submission.slot instanceId)).Nodup := by
    rw [spawnedBy_eq hT hhash]
    refine Distinct.nodup_filterMap_iff (fun slot h => ?_) fun slot h slot' h' heq =>
      slotId_inj_of_separates hhash h h' heq
    obtain ⟨id, hid, _⟩ := slotId_of_separates hhash h
    rw [hid]
    rfl
  constructor
  · rintro ⟨hnodup, _⟩
    exact hiff.mp hnodup
  · intro hslots
    have hnodup := hiff.mpr hslots
    refine ⟨hnodup, ?_⟩
    intro j k s s' hj hk herase w hw hspawned
    exact Distinct.index_eq_of_mem hnodup hj hk (writes_subset_spawned hT herase hw) hspawned

end

/-! ## Two registrations -/

/-- A registration the KDF floor admits. -/
def someRegistration : RegisterUser where
  schemaVersion := 1
  profile := { schemaVersion := 1, createdTick := 1, primaryAuthKind := .passkey }
  credential :=
    { schemaVersion := 1, kind := .passkey, kdf := .argon2id, salt := Vector.replicate 16 0
      credentialHash := Vector.replicate 32 0
      kdfParams := { mCost := 19456, tCost := 2, pCost := 1 }
      expiresTick := none, boundTick := 1 }

/-- Two registrations at ticks `t₁` and `t₂`. -/
def twoRegistrations (t₁ t₂ : Tick) : List Submission :=
  [⟨.registerUser someRegistration, t₁, none⟩, ⟨.registerUser someRegistration, t₂, none⟩]

/-- **The bridge spawns one entity twice.** Two registrations at one tick: the hash
    separates their preimages, of which there is one, and both users are one entity. -/
theorem same_tick_registrations_share_an_id :
    letI := postcardWire
    letI := oneBlockBlake3
    let run := twoRegistrations 1 1
    (run.map Submission.tick).Pairwise (· ≤ ·) ∧ HashSeparates firstInstance run ∧
      ¬ (spawnedBy firstInstance run).Nodup ∧ ¬ WritesStayHome firstInstance run := by
  intro run
  refine ⟨by decide, by decide +kernel, by decide +kernel, ?_⟩
  intro hhome
  have hhit : ∃ w ∈ writes (@Submission.ops oneBlockBlake3 postcardWire firstInstance
      ⟨.registerUser someRegistration, 1, none⟩),
      w.1 ∈ spawned (@Submission.ops oneBlockBlake3 postcardWire firstInstance
        ⟨.registerUser someRegistration, 1, none⟩) := by decide +kernel
  obtain ⟨w, hw, hspawned⟩ := hhit
  have hsame := hhome 1 0 _ _ rfl rfl (fun a => by simp) w hw hspawned
  omega

/-- At two ticks the users are two. -/
theorem bridge_ids_distinct_two_ticks :
    letI := postcardWire
    letI := oneBlockBlake3
    let run := twoRegistrations 1 2
    CoreWire.Serializes ∧ HashSeparates firstInstance run ∧
      ((spawnedBy firstInstance run).Nodup ∧ WritesStayHome firstInstance run) := by
  intro run
  have hhash : @HashSeparates oneBlockBlake3 firstInstance run := by decide +kernel
  have hslots : (run.filterMap (@Submission.slot oneBlockBlake3 firstInstance)).Nodup := by
    decide +kernel
  exact ⟨postcard_serializes, hhash, (@bridge_ids_distinct_iff oneBlockBlake3 postcardWire
    postcard_serializes firstInstance run hhash).mpr hslots⟩

end ArkheForge.Core
