/-
  The spaces of an instance refine the entries of the specification.

  The specification says of its entries that spaces follow the same pattern. Here the
  stored spaces are those entries: an entity with its parent and its cached depth. A
  turn of `CreateSpace` bound to a view is the step `CreateEntry`, every other turn a
  stutter, up to the ceilings (`spaces_refine_entries`). As the ids that a turn spawns are
  new, no id gets a second entry, which is what the specification leaves open
  (`r4_parents_of_ids`).
-/
import ArkheForge.Core.SpaceTree
import ArkheForge.Formal.RuntimeCore

namespace ArkheForge.Formal

open ArkheForge.Core

section

variable [CoreWire] {state : InstanceState}

/-- A space stored at the id of an entry, with its parent and the depth cached for it. -/
def StoredEntry (state : InstanceState) (e : Entry EntityId) : Prop :=
  ∃ config, componentOf SpaceConfig state e.id = some config ∧
    e.parentEntry = config.parentSpace.map SpaceId.get ∧ cachedDepth state e.id = some e.depth

theorem StoredEntry.isSpace {e : Entry EntityId} (h : StoredEntry state e) :
    IsSpace state e.id := by
  obtain ⟨config, hconfig, -, -⟩ := h
  exact Option.isSome_iff_exists.mpr ⟨config, hconfig⟩

/-- An id tells the entry stored for it. -/
theorem StoredEntry.unique {e e' : Entry EntityId} (h : StoredEntry state e)
    (h' : StoredEntry state e') (hid : e.id = e'.id) : e = e' := by
  obtain ⟨id, parentEntry, depth⟩ := e
  obtain ⟨id', parentEntry', depth'⟩ := e'
  obtain rfl : id = id' := hid
  obtain ⟨config, hconfig, rfl, hdepth⟩ := h
  obtain ⟨config', hconfig', rfl, hdepth'⟩ := h'
  obtain rfl := Option.some.inj (hconfig.symm.trans hconfig')
  obtain rfl : depth = depth' := Option.some.inj (hdepth.symm.trans hdepth')
  rfl

theorem storedEntry_of_isSpace (h : SpaceTree state) {x : EntityId} (hspace : IsSpace state x) :
    ∃ e, StoredEntry state e ∧ e.id = x := by
  obtain ⟨config, hconfig⟩ := Option.isSome_iff_exists.mp hspace
  exact ⟨⟨x, config.parentSpace.map SpaceId.get, rank state x⟩,
    ⟨config, hconfig, rfl, h.cachedDepth_eq hspace⟩, rfl⟩

/-! ## What a batch does to the entries -/

theorem storedEntry_of_spares {ops : List Op}
    (hconfig : Spares (ArkheComponent.typeCode SpaceConfig) ops)
    (hdepth : Spares (ArkheComponent.typeCode ParentChainDepth) ops) (e : Entry EntityId) :
    StoredEntry (state.commit ops) e ↔ StoredEntry state e := by
  unfold StoredEntry cachedDepth
  rw [componentOf_congr (C := SpaceConfig) (hconfig.component state e.id),
    componentOf_congr (C := ParentChainDepth) (hdepth.component state e.id)]

/-- The entry of a new space. -/
def entryOf (id : EntityId) (config : SpaceConfig) (depth : UInt8) : Entry EntityId where
  id := id
  parentEntry := config.parentSpace.map SpaceId.get
  depth := depth.toNat

theorem storedEntry_spaceOps (hT : CoreWire.Serializes) (hconfig : Postcard.RoundTrip SpaceConfig)
    (hdepth : Postcard.RoundTrip ParentChainDepth) {id : EntityId} (hfresh : state.known id = false)
    (owner : Principal) (config : SpaceConfig) (depth : UInt8) (e : Entry EntityId) :
    StoredEntry (state.commit (spaceOps id owner config depth)) e ↔
      e = entryOf id config depth ∨ StoredEntry state e := by
  have hnew : StoredEntry (state.commit (spaceOps id owner config depth))
      (entryOf id config depth) := by
    refine ⟨config, ?_, rfl, ?_⟩
    · rw [spaceOps_config hT hconfig]
      exact if_pos rfl
    · rw [spaceOps_cachedDepth hT hdepth]
      exact if_pos rfl
  by_cases hid : e.id = id
  · constructor
    · intro h
      exact .inl (h.unique hnew hid)
    · rintro (rfl | hold)
      · exact hnew
      · exact absurd hid (hold.isSpace.ne_of_not_known hfresh)
  · have hsame : StoredEntry (state.commit (spaceOps id owner config depth)) e ↔
        StoredEntry state e := by
      unfold StoredEntry
      rw [spaceOps_config hT hconfig, if_neg hid, spaceOps_cachedDepth hT hdepth, if_neg hid]
    rw [hsame]
    constructor
    · exact .inr
    · rintro (rfl | hold)
      · exact absurd rfl hid
      · exact hold

/-- What was checked of the depth is the guard of `CreateEntry`. -/
theorem entryOf_ready (h : SpaceTree state) {entries : Finset (Entry EntityId)}
    (hentries : ∀ e, e ∈ entries ↔ StoredEntry state e) (id : EntityId) {config : SpaceConfig}
    {depth : UInt8} (hfits : DepthFits state config.parentSpace depth) :
    IsEntry (entryOf id config depth) ∧ ParentReady entries (entryOf id config depth) := by
  refine ⟨UInt8.le_iff_toNat_le.mp hfits.1, ?_⟩
  cases hparent : config.parentSpace with
  | none =>
      rw [hparent] at hfits
      refine .inl ⟨?_, ?_⟩
      · show config.parentSpace.map SpaceId.get = none
        rw [hparent]
        rfl
      · show depth.toNat = 0
        rw [hfits.2]
        rfl
  | some parent =>
      rw [hparent] at hfits
      obtain ⟨hspace, above, habove, hsucc⟩ := h.parent_of_fits hfits
      obtain ⟨p, hp, hpid⟩ := storedEntry_of_isSpace h hspace
      have hdepth : p.depth = above := by
        obtain ⟨_, _, _, hcached⟩ := hp
        rw [hpid] at hcached
        exact Option.some.inj (hcached.symm.trans habove)
      have hnamed : (entryOf id config depth).parentEntry = some p.id := by
        show config.parentSpace.map SpaceId.get = some p.id
        rw [hparent, hpid]
        rfl
      refine .inr ⟨by simp [hnamed], p, (hentries p).mpr hp, hnamed, ?_⟩
      rw [hdepth]
      exact hsucc.symm

end

section

variable [Blake3] [CoreWire]

/-- What a turn bound to a view of a state hands over. -/
theorem BoundTurn.ops_cases (hT : CoreWire.Serializes) (turn : BoundTurn) (state : InstanceState) :
    (∃ id owner config depth, turn.ops state = spaceOps id owner config depth ∧
      DepthFits state config.parentSpace depth) ∨
    Spares (ArkheComponent.typeCode SpaceConfig) (turn.ops state) ∧
      Spares (ArkheComponent.typeCode ParentChainDepth) (turn.ops state) := by
  have hbuffer : (turn.ctx.withView state.view).ops = [] := turn.fresh
  have hops : turn.ops state = _ := drained_eq hT turn.action hbuffer
  cases hbatch : turn.action.batch (turn.ctx.withView state.view) with
  | error e =>
      rw [hbatch] at hops
      rw [hops]
      exact .inr ⟨Spares.nil _, Spares.nil _⟩
  | ok ops =>
      rw [hbatch] at hops
      obtain rfl : turn.ops state = ops := hops
      rcases ShippedAction.batch_space_cases hbatch with ⟨id, config, depth, hchild, heq⟩ | hspares
      · exact .inl ⟨id, _, config, depth, heq, childDepth_fits hchild⟩
      · exact .inr hspares

/-- An instance that commits one turn after the other, none of which spawns an id it knows. -/
def boundTurns : Machine InstanceState where
  init state := state = InstanceState.empty
  next state state' := ∃ turn : BoundTurn,
    (∀ e ∈ spawned (turn.ops state), state.known e = false) ∧ state' = state.commit (turn.ops state)

/-- A run whose spawned ids are new and distinct is one of its behaviours. -/
theorem boundTurns_next_of_distinct (run : List BoundTurn) {state : InstanceState}
    (hdistinct : (spawnedFrom state run).Nodup)
    (hfresh : ∀ e ∈ spawnedFrom state run, state.known e = false) {i : ℕ} (hi : i < run.length) :
    boundTurns.next (runFrom state (run.take i)) (runFrom state (run.take (i + 1))) := by
  induction run generalizing state i with
  | nil => exact absurd hi (Nat.not_lt_zero i)
  | cons turn run ih =>
      unfold spawnedFrom at hdistinct hfresh
      obtain ⟨_, hrest, hdisjoint⟩ := List.nodup_append.mp hdistinct
      cases i with
      | zero => exact ⟨turn, fun e he => hfresh e (List.mem_append_left _ he), rfl⟩
      | succ i =>
          refine ih hrest ?_ (Nat.lt_of_succ_lt_succ hi)
          intro e he
          by_contra hknown
          have hknown' := (InstanceState.commit_known state (turn.ops state) e).mp
            (by simpa using hknown)
          rcases hknown' with hold | hnew
          · have hunknown := hfresh e (List.mem_append_right _ he)
            rw [hold] at hunknown
            simp at hunknown
          · exact hdisjoint e hnew e he rfl

theorem boundTurns_behaviour (run : List BoundTurn)
    (hdistinct : (spawnedFrom InstanceState.empty run).Nodup) :
    boundTurns.Behaviour run.length fun i => runFrom InstanceState.empty (run.take i) :=
  ⟨rfl, fun _ hi => .inl (boundTurns_next_of_distinct run hdistinct (fun _ _ => rfl) hi)⟩

variable {Actor User Shell Verb : Type}

omit [Blake3] in
/-- The entries of the specification are the stored spaces, `k` steps from its start. -/
structure Reads (start : R4 Actor User Shell Verb EntityId) (k : ℕ) (state : InstanceState)
    (s : R4 Actor User Shell Verb EntityId) : Prop where
  tree : SpaceTree state
  entries : ∀ e, e ∈ s.r4Entries ↔ StoredEntry state e
  tick : s.tick ≤ k
  card : s.r4Entries.card ≤ k
  rest : s = { start with r4Entries := s.r4Entries, tick := s.tick }

omit [Blake3] in
/-- An empty instance has no spaces, and the start no entries. -/
theorem reads_empty {start : R4 Actor User Shell Verb EntityId} (hstart : InitR4 start) :
    Reads start 0 InstanceState.empty start := by
  have hstored : ∀ e, ¬ StoredEntry InstanceState.empty e := by
    rintro e ⟨config, hstored, -⟩
    rw [componentOf_of_not_known rfl] at hstored
    simp at hstored
  refine ⟨spaceTree_empty, ?_, hstart.tick.le, ?_, rfl⟩
  · intro e
    rw [hstart.r4Entries]
    exact iff_of_false (Finset.notMem_empty e) (hstored e)
  · rw [hstart.r4Entries]
    exact Nat.le_refl 0

variable [DecidableEq Actor] [DecidableEq Verb]

/-- The specification with no step but `CreateEntry` for an entry that is new. -/
def newEntries (c : Ceilings) : Machine (R4 Actor User Shell Verb EntityId) where
  init := InitR4
  next s s' := ∃ e ∉ s.r4Entries, s' = s.withEntry e ∧ NextR4 c s s'

/-- **One turn.** -/
theorem reads_simulation (hT : CoreWire.Serializes) (hconfig : Postcard.RoundTrip SpaceConfig)
    (hdepth : Postcard.RoundTrip ParentChainDepth) {c : Ceilings} {n : ℕ}
    (hentries : n ≤ c.maxEntries) (hticks : n ≤ c.maxTicks) (start : R4 Actor User Shell Verb EntityId) :
    Machine.Simulation boundTurns (newEntries c) n (Reads start) where
  step k hk state state' s h hnext := by
    obtain ⟨turn, hfresh, rfl⟩ := hnext
    have htree := h.tree.turn hT hconfig hdepth turn hfresh
    rcases BoundTurn.ops_cases hT turn state with
      ⟨id, owner, config, depth, hops, hfits⟩ | ⟨hspares, hspares'⟩
    · rw [hops] at hfresh htree ⊢
      have hid : state.known id = false := hfresh id (by simp [spaceOps])
      obtain ⟨hentry, hready⟩ := entryOf_ready h.tree h.entries id hfits
      have hcard := h.card
      have htick := h.tick
      have hnew : entryOf id config depth ∉ s.r4Entries := fun hold =>
        ((h.entries _).mp hold).isSpace.ne_of_not_known hid rfl
      refine ⟨s.withEntry (entryOf id config depth), .inl ⟨_, hnew, rfl, ?_⟩, htree, ?_, ?_, ?_, ?_⟩
      · exact .createEntry s _ hentry hready (by omega) (by omega)
      · intro e
        rw [storedEntry_spaceOps hT hconfig hdepth hid, ← h.entries]
        exact Finset.mem_insert
      · exact Nat.succ_le_succ htick
      · exact (Finset.card_insert_le _ _).trans (Nat.succ_le_succ hcard)
      · rw [R4.withEntry, h.rest]
    · refine ⟨s, .inr rfl, htree, ?_, h.tick.trans (Nat.le_succ k), h.card.trans (Nat.le_succ k),
        h.rest⟩
      intro e
      rw [storedEntry_of_spares hspares hspares']
      exact h.entries e
  stutter k _ _ _ h :=
    ⟨h.tree, h.entries, h.tick.trans (Nat.le_succ k), h.card.trans (Nat.le_succ k), h.rest⟩

/-- **Spaces refine entries.** Beside every run of an instance there is a behaviour of the
    specification, for ceilings no lower than the run is long and from any start of it: in each
    of its states the entries are the spaces stored then, with their parents and cached depths,
    one for each space, and nothing else of the start but the tick has changed. Where a turn
    stores no new space it stutters, and where it does it creates that entry. -/
theorem spaces_refine_entries (hT : CoreWire.Serializes)
    (hconfig : Postcard.RoundTrip SpaceConfig) (hdepth : Postcard.RoundTrip ParentChainDepth)
    {c : Ceilings} {n : ℕ} (hentries : n ≤ c.maxEntries) (hticks : n ≤ c.maxTicks)
    {states : ℕ → InstanceState} (hstates : boundTurns.Behaviour n states)
    {start : R4 Actor User Shell Verb EntityId} (hstart : InitR4 start) :
    ∃ above : ℕ → R4 Actor User Shell Verb EntityId, above 0 = start ∧
      (specR4 Actor User Shell Verb EntityId c).Behaviour n above ∧
      (∀ i ≤ n, (∀ e, e ∈ (above i).r4Entries ↔ StoredEntry (states i) e) ∧
        OneEntryPerId (above i) ∧
        (∀ x, IsSpace (states i) x ↔ ∃ e ∈ (above i).r4Entries, e.id = x) ∧
        above i = { start with r4Entries := (above i).r4Entries, tick := (above i).tick }) ∧
      ∀ i < n, above (i + 1) = above i ∨
        ∃ e, ¬ StoredEntry (states i) e ∧ StoredEntry (states (i + 1)) e ∧
          above (i + 1) = (above i).withEntry e := by
  have hempty : Reads start 0 (states 0) start := by
    rw [hstates.starts]
    exact reads_empty hstart
  obtain ⟨above, hzero, hbehaviour, hreads⟩ :=
    (reads_simulation hT hconfig hdepth hentries hticks start).behaviour hstates hstart hempty
  have hspec : (specR4 Actor User Shell Verb EntityId c).Behaviour n above := by
    refine hbehaviour.mono ?_ ?_
    · exact fun _ hinit => hinit
    · rintro s s' ⟨_, _, _, hnext⟩
      exact hnext
  refine ⟨above, hzero, hspec, ?_, ?_⟩
  · intro i hi
    have h := hreads i hi
    refine ⟨h.entries, ?_, ?_, h.rest⟩
    · intro e he e' he' hid
      exact ((h.entries e).mp he).unique ((h.entries e').mp he') hid
    · intro x
      constructor
      · intro hspace
        obtain ⟨e, he, hid⟩ := storedEntry_of_isSpace h.tree hspace
        exact ⟨e, (h.entries e).mpr he, hid⟩
      · rintro ⟨e, he, rfl⟩
        exact ((h.entries e).mp he).isSpace
  · intro i hi
    rcases hbehaviour.steps i hi with ⟨e, hnew, hentry, -⟩ | hstutter
    · have hadded : e ∈ (above (i + 1)).r4Entries := hentry ▸ Finset.mem_insert_self _ _
      exact .inr ⟨e, fun hold => hnew (((hreads i hi.le).entries e).mpr hold),
        ((hreads (i + 1) hi).entries e).mp hadded, hentry⟩
    · exact .inl hstutter

end

/-! ## A root and its child -/

/-- A root, and a space below it. -/
def twoCreations : List BoundTurn := [creationAt 1 none, creationAt 2 (some rootSpace)]

theorem spaces_refine_entries_child_of_root :
    letI := postcardWire
    letI := oneBlockBlake3
    ∃ above : ℕ → R4 Unit Unit Unit Unit EntityId,
      (specR4 Unit Unit Unit Unit EntityId twoOfEach).Behaviour 2 above ∧
      ∃ e ∈ (above 2).r4Entries, e.id = rootSpace.get := by
  have hdistinct : (@spawnedFrom oneBlockBlake3 postcardWire InstanceState.empty
      twoCreations).Nodup := by decide +kernel
  have hroot : @IsSpace postcardWire (@runFrom oneBlockBlake3 postcardWire InstanceState.empty
      twoCreations) rootSpace.get := by
    show Option.isSome _ = true
    decide +kernel
  obtain ⟨above, -, hbehaviour, hreads, -⟩ := @spaces_refine_entries oneBlockBlake3 postcardWire
    Unit Unit Unit Unit _ _ postcard_serializes (Postcard.ofCodec_roundTrip Wire.spaceConfig)
    (Postcard.ofCodec_roundTrip Wire.parentChainDepth) twoOfEach 2 (Nat.le_refl 2) (Nat.le_refl 2) _
    (@boundTurns_behaviour oneBlockBlake3 postcardWire twoCreations hdistinct) _
    (initR4_start (fun _ : Unit => ()) fun _ => ())
  obtain ⟨-, -, hspaces, -⟩ := hreads 2 (Nat.le_refl 2)
  exact ⟨above, hbehaviour, (hspaces rootSpace.get).mp hroot⟩

end ArkheForge.Formal
