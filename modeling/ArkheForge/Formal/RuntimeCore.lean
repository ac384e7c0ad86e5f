/-
  The specification of the layer and entry invariants (`formal/tla-plus/runtime_core.tla`
  and `formal/tla-plus/r4_implementation_refinement.tla`).

  The identifier sets of the specification are types here, its finite sets `Finset`s, and
  the sentinel `"NONE"` of a root entry is `none`. `MaxDagDepth` and `MaxMetaVerbDepth` are
  fixed by its assumptions; the ceilings of the model checker stay parameters.

  * `r4_safe`: `TypeOK_R4` and the five invariants, for every size of the ceilings, and what
    they come to along chains: imports only descend, and the parents of an entry lead to a root.
  * `r4_parents_of_ids`: what `EntryParentDagAcyclic` says of the ids. The specification may
    give one id two entries, and then its parents can run in a circle; where every id has
    one entry they cannot.
-/
import ArkheForge.Lib.Machine
import ArkheForge.Lib.StepPath
import Mathlib.Data.Finset.Card

namespace ArkheForge.Formal

/-! ## Constants -/

/-- `MaxDagDepth`. -/
def maxDagDepth : ℕ := 64

/-- `MaxMetaVerbDepth`. -/
def maxMetaVerbDepth : ℕ := 8

/-- The ceilings of the model checker, none of them zero. -/
structure Ceilings where
  maxTicks : ℕ
  maxWalLen : ℕ
  maxEntries : ℕ
  maxMetaActivities : ℕ
  maxImports : ℕ
  maxTicks_pos : 0 < maxTicks
  maxWalLen_pos : 0 < maxWalLen
  maxEntries_pos : 0 < maxEntries
  maxMetaActivities_pos : 0 < maxMetaActivities
  maxImports_pos : 0 < maxImports

/-- `SignatureClasses`. -/
inductive SignatureClass
  | ed25519
  | hybrid
  deriving DecidableEq

/-- `Layers`. -/
inductive Layer
  | l0
  | l1
  | l2
  deriving DecidableEq

/-- `LayerOrder`. -/
def Layer.order : Layer → ℕ
  | .l0 => 0
  | .l1 => 1
  | .l2 => 2

/-! ## The state -/

/-- `walRecord`. -/
structure WalRecord where
  seq : ℤ
  tick : ℤ
  payload : List ℤ
  deriving DecidableEq

/-- `Import`. -/
structure Import where
  source : Layer
  target : Layer
  deriving DecidableEq

/-- `Entry`. -/
structure Entry (EntryId : Type) where
  id : EntryId
  parentEntry : Option EntryId
  depth : ℕ
  deriving DecidableEq

/-- `MetaActivity`. -/
structure MetaActivity (Actor Verb : Type) where
  actor : Actor
  target : Actor
  verb : Verb
  metaVerbDepth : ℕ
  deriving DecidableEq

/-- The variables of `runtime_core`, the tick apart. -/
structure Base (Actor User Shell : Type) where
  chainTip : List ℤ
  wal : List WalRecord
  actorUserBinding : Actor → User
  actorShellBinding : Actor → Shell
  authenticatedActors : Finset Actor
  runtimeBootstrap : String
  signatureClassPolicy : Shell → SignatureClass

/-- `vars_r4`. -/
structure R4 (Actor User Shell Verb EntryId : Type) where
  base : Base Actor User Shell
  tick : ℕ
  layerImports : Finset Import
  r4Entries : Finset (Entry EntryId)
  r4Activities : Finset (MetaActivity Actor Verb)

section

variable {Actor User Shell Verb EntryId : Type}

/-- `e \in Entry`. -/
def IsEntry (e : Entry EntryId) : Prop := e.depth ≤ maxDagDepth

/-- `a \in MetaActivity`. -/
def IsMetaActivity (a : MetaActivity Actor Verb) : Prop := a.metaVerbDepth ≤ maxMetaVerbDepth

/-! ## Invariants -/

/-- `TypeOK`. -/
structure TypeOK (c : Ceilings) (s : R4 Actor User Shell Verb EntryId) : Prop where
  tick : s.tick ≤ c.maxTicks
  wal : s.base.wal.length ≤ c.maxWalLen

/-- `TypeOK_R4`. -/
structure TypeOKR4 (c : Ceilings) (s : R4 Actor User Shell Verb EntryId) : Prop where
  base : TypeOK c s
  entries : ∀ e ∈ s.r4Entries, IsEntry e
  activities : ∀ a ∈ s.r4Activities, IsMetaActivity a
  card_imports : s.layerImports.card ≤ c.maxImports
  card_entries : s.r4Entries.card ≤ c.maxEntries
  card_activities : s.r4Activities.card ≤ c.maxMetaActivities

/-- `LayerImportStrictlyDownward`. -/
def LayerImportStrictlyDownward (s : R4 Actor User Shell Verb EntryId) : Prop :=
  ∀ imp ∈ s.layerImports, imp.target.order < imp.source.order

/-- `EntryParentDagDepthBounded`. -/
def EntryParentDagDepthBounded (s : R4 Actor User Shell Verb EntryId) : Prop :=
  ∀ e ∈ s.r4Entries, e.depth ≤ maxDagDepth

/-- The entry `p` is the parent that `e` names, one level up (`p.depth = e.depth - 1`). -/
def ParentEntry (p e : Entry EntryId) : Prop := e.parentEntry = some p.id ∧ p.depth + 1 = e.depth

/-- `EntryParentDagAcyclic`. -/
def EntryParentDagAcyclic (s : R4 Actor User Shell Verb EntryId) : Prop :=
  ∀ e ∈ s.r4Entries, e.parentEntry ≠ none → ∃ p ∈ s.r4Entries, ParentEntry p e

/-- `ActivitySelfLoopBlocked`. -/
def ActivitySelfLoopBlocked (s : R4 Actor User Shell Verb EntryId) : Prop :=
  ∀ a ∈ s.r4Activities, a.actor ≠ a.target

/-- `MetaVerbDepthBounded`. -/
def MetaVerbDepthBounded (s : R4 Actor User Shell Verb EntryId) : Prop :=
  ∀ a ∈ s.r4Activities, a.metaVerbDepth ≤ maxMetaVerbDepth

/-! ## Guards and starts -/

/-- The guard of `CreateEntry` on the parent: a root, or one level below an entry. -/
def ParentReady (entries : Finset (Entry EntryId)) (e : Entry EntryId) : Prop :=
  e.parentEntry = none ∧ e.depth = 0 ∨
    e.parentEntry ≠ none ∧ ∃ p ∈ entries, ParentEntry p e

/-- `InitR4`. -/
structure InitR4 (s : R4 Actor User Shell Verb EntryId) : Prop where
  chainTip : s.base.chainTip = []
  wal : s.base.wal = []
  authenticatedActors : s.base.authenticatedActors = ∅
  runtimeBootstrap : s.base.runtimeBootstrap = "BOOTSTRAP_PLACEHOLDER"
  signatureClassPolicy : s.base.signatureClassPolicy = fun _ => .ed25519
  tick : s.tick = 0
  layerImports : s.layerImports = ∅
  r4Entries : s.r4Entries = ∅
  r4Activities : s.r4Activities = ∅

/-- The start with these bindings of the actors. -/
def R4.start (users : Actor → User) (shells : Actor → Shell) :
    R4 Actor User Shell Verb EntryId where
  base :=
    { chainTip := []
      wal := []
      actorUserBinding := users
      actorShellBinding := shells
      authenticatedActors := ∅
      runtimeBootstrap := "BOOTSTRAP_PLACEHOLDER"
      signatureClassPolicy := fun _ => .ed25519 }
  tick := 0
  layerImports := ∅
  r4Entries := ∅
  r4Activities := ∅

theorem initR4_start (users : Actor → User) (shells : Actor → Shell) :
    InitR4 (R4.start users shells : R4 Actor User Shell Verb EntryId) :=
  ⟨rfl, rfl, rfl, rfl, rfl, rfl, rfl, rfl, rfl⟩

/-! ## What the steps keep -/

theorem ParentReady.depth_root {entries : Finset (Entry EntryId)} {e : Entry EntryId}
    (h : ParentReady entries e) (hroot : e.parentEntry = none) : e.depth = 0 := by
  rcases h with ⟨_, hzero⟩ | ⟨hchild, _⟩
  · exact hzero
  · exact absurd hroot hchild

/-- What the steps keep. -/
structure Kept (c : Ceilings) (s : R4 Actor User Shell Verb EntryId) : Prop where
  typed : TypeOKR4 c s
  downward : LayerImportStrictlyDownward s
  acyclic : EntryParentDagAcyclic s
  loopless : ActivitySelfLoopBlocked s
  roots : ∀ e ∈ s.r4Entries, e.parentEntry = none → e.depth = 0

variable {c : Ceilings} {s s' : R4 Actor User Shell Verb EntryId}

theorem InitR4.kept (h : InitR4 s) : Kept c s := by
  have hentries : ∀ e, e ∉ s.r4Entries := by simp [h.r4Entries]
  have hactivities : ∀ a, a ∉ s.r4Activities := by simp [h.r4Activities]
  have himports : ∀ imp, imp ∉ s.layerImports := by simp [h.layerImports]
  refine ⟨⟨⟨?_, ?_⟩, ?_, ?_, ?_, ?_, ?_⟩, ?_, ?_, ?_, ?_⟩
  · rw [h.tick]
    exact Nat.zero_le _
  · rw [h.wal]
    exact Nat.zero_le _
  · exact fun e he => absurd he (hentries e)
  · exact fun a ha => absurd ha (hactivities a)
  · rw [h.layerImports]
    exact Nat.zero_le _
  · rw [h.r4Entries]
    exact Nat.zero_le _
  · rw [h.r4Activities]
    exact Nat.zero_le _
  · exact fun imp himp => absurd himp (himports imp)
  · exact fun e he => absurd he (hentries e)
  · exact fun a ha => absurd ha (hactivities a)
  · exact fun e he => absurd he (hentries e)

/-- The id `x` has an entry whose parent is `y`. -/
def ParentId (s : R4 Actor User Shell Verb EntryId) (x y : EntryId) : Prop :=
  ∃ e ∈ s.r4Entries, e.id = x ∧ e.parentEntry = some y

/-- No id has two entries. -/
def OneEntryPerId (s : R4 Actor User Shell Verb EntryId) : Prop :=
  ∀ e ∈ s.r4Entries, ∀ e' ∈ s.r4Entries, e.id = e'.id → e = e'

/-- Up the parents, one level a step. -/
theorem Kept.depth_of_path (h : Kept c s) (hids : OneEntryPerId s) {k : ℕ} {x y : EntryId}
    (hpath : StepPath (ParentId s) k x y) {e : Entry EntryId} (he : e ∈ s.r4Entries)
    (hid : e.id = x) : ∃ p ∈ s.r4Entries, p.id = y ∧ p.depth + k = e.depth := by
  induction hpath generalizing e with
  | nil x => exact ⟨e, he, hid, rfl⟩
  | cons hedge _ ih =>
      obtain ⟨e', he', hid', hparent⟩ := hedge
      obtain rfl := hids e he e' he' (hid.trans hid'.symm)
      obtain ⟨q, hq, hnamed, hdepth⟩ := h.acyclic e he (by simp [hparent])
      have hnext : q.id = _ := (Option.some.inj (hnamed.symm.trans hparent))
      obtain ⟨p, hp, hpid, hlevels⟩ := ih hq hnext
      refine ⟨p, hp, hpid, ?_⟩
      omega

/-- A chain of parents that has a step starts at an entry. -/
theorem exists_entry_of_path {k : ℕ} {x y : EntryId} (hpath : StepPath (ParentId s) k x y)
    (hk : 0 < k) : ∃ e ∈ s.r4Entries, e.id = x := by
  cases hpath with
  | nil => exact absurd hk (Nat.lt_irrefl 0)
  | cons hedge _ =>
      obtain ⟨e, he, hid, _⟩ := hedge
      exact ⟨e, he, hid⟩

/-- So it does not come back, and the depth of its start bounds it. -/
theorem Kept.parents_of_ids (h : Kept c s) (hids : OneEntryPerId s) {k : ℕ} {x y : EntryId}
    (hpath : StepPath (ParentId s) k x y) (hk : 0 < k) : x ≠ y ∧ k ≤ maxDagDepth := by
  obtain ⟨e, he, hid⟩ := exists_entry_of_path hpath hk
  obtain ⟨p, hp, hpid, hlevels⟩ := h.depth_of_path hids hpath he hid
  constructor
  · rintro rfl
    obtain rfl := hids e he p hp (hid.trans hpid.symm)
    omega
  · have hbound := h.typed.entries e he
    unfold IsEntry at hbound
    omega

/-- A layer imports another. -/
def Imports (s : R4 Actor User Shell Verb EntryId) (upper lower : Layer) : Prop :=
  ⟨upper, lower⟩ ∈ s.layerImports

/-- Along imports a layer is left behind at every step. -/
theorem Kept.order_of_path (h : Kept c s) {k : ℕ} {upper lower : Layer}
    (hpath : StepPath (Imports s) k upper lower) : lower.order + k ≤ upper.order := by
  induction hpath with
  | nil layer => exact Nat.le_refl _
  | @cons upper middle lower k hedge _ ih =>
      have hdown : middle.order < upper.order := h.downward _ hedge
      omega

/-- An entry and its parent, both present. -/
def HasParent (s : R4 Actor User Shell Verb EntryId) (e p : Entry EntryId) : Prop :=
  e ∈ s.r4Entries ∧ p ∈ s.r4Entries ∧ ParentEntry p e

/-- The parents of an entry end at a root, as many as its depth. -/
theorem Kept.root_of_entry (h : Kept c s) {e : Entry EntryId} (he : e ∈ s.r4Entries) :
    ∃ r ∈ s.r4Entries, r.parentEntry = none ∧ StepPath (HasParent s) e.depth e r := by
  induction hdepth : e.depth generalizing e with
  | zero =>
      refine ⟨e, he, ?_, .nil e⟩
      by_contra hchild
      obtain ⟨p, -, -, hlevel⟩ := h.acyclic e he hchild
      omega
  | succ depth ih =>
      have hchild : e.parentEntry ≠ none := by
        intro hroot
        have hzero := h.roots e he hroot
        omega
      obtain ⟨p, hp, hparent⟩ := h.acyclic e he hchild
      obtain ⟨r, hr, hroot, hpath⟩ := ih hp (by have := hparent.2; omega)
      exact ⟨r, hr, hroot, .cons ⟨he, hp, hparent⟩ hpath⟩

/-! ## The machine -/

variable [DecidableEq Actor] [DecidableEq Verb] [DecidableEq EntryId]

/-- `r4_entries \cup {e}`, one tick on. -/
def R4.withEntry (s : R4 Actor User Shell Verb EntryId) (e : Entry EntryId) :
    R4 Actor User Shell Verb EntryId :=
  { s with r4Entries := insert e s.r4Entries, tick := s.tick + 1 }

/-- `NextR4`. -/
inductive NextR4 (c : Ceilings) :
    R4 Actor User Shell Verb EntryId → R4 Actor User Shell Verb EntryId → Prop
  /-- `RecordLayerImport`. -/
  | recordLayerImport (s : R4 Actor User Shell Verb EntryId) (imp : Import) :
      imp.target.order < imp.source.order →
      s.layerImports.card < c.maxImports → s.tick + 1 ≤ c.maxTicks →
      NextR4 c s { s with layerImports := insert imp s.layerImports, tick := s.tick + 1 }
  /-- `CreateEntry`. -/
  | createEntry (s : R4 Actor User Shell Verb EntryId) (e : Entry EntryId) :
      IsEntry e → ParentReady s.r4Entries e →
      s.r4Entries.card < c.maxEntries → s.tick + 1 ≤ c.maxTicks →
      NextR4 c s (s.withEntry e)
  /-- `CreateMetaActivity`. -/
  | createMetaActivity (s : R4 Actor User Shell Verb EntryId) (a : MetaActivity Actor Verb) :
      IsMetaActivity a → a.actor ≠ a.target →
      s.r4Activities.card < c.maxMetaActivities → s.tick + 1 ≤ c.maxTicks →
      NextR4 c s { s with r4Activities := insert a s.r4Activities, tick := s.tick + 1 }

variable (Actor User Shell Verb EntryId) in
/-- `SpecR4`. -/
def specR4 (c : Ceilings) : Machine (R4 Actor User Shell Verb EntryId) where
  init := InitR4
  next := NextR4 c

/-! ## Every reachable state -/

theorem card_insert_le_of_lt {α : Type} [DecidableEq α] {xs : Finset α} {x : α} {n : ℕ}
    (h : xs.card < n) : (insert x xs).card ≤ n :=
  (Finset.card_insert_le x xs).trans h

/-- **One step.** -/
theorem Kept.next (h : Kept c s) (hnext : NextR4 c s s') : Kept c s' := by
  obtain ⟨⟨⟨htick, hwal⟩, hentries, hactivities, himports, hcard, hmeta⟩, hdown, hup, hloop,
    hroots⟩ := h
  cases hnext with
  | recordLayerImport imp hdownward hroom hticks =>
      refine ⟨⟨⟨hticks, hwal⟩, hentries, hactivities, card_insert_le_of_lt hroom, hcard, hmeta⟩,
        ?_, hup, hloop, hroots⟩
      exact Finset.forall_mem_insert _ _ _ |>.mpr ⟨hdownward, hdown⟩
  | createEntry e hentry hready hroom hticks =>
      refine ⟨⟨⟨hticks, hwal⟩, ?_, hactivities, himports, card_insert_le_of_lt hroom, hmeta⟩,
        hdown, ?_, hloop, ?_⟩
      · exact Finset.forall_mem_insert _ _ _ |>.mpr ⟨hentry, hentries⟩
      · -- the parents of the old entries are still there
        refine Finset.forall_mem_insert _ _ _ |>.mpr ⟨?_, ?_⟩
        · intro hchild
          rcases hready with ⟨hroot, _⟩ | ⟨_, p, hp, hparent⟩
          · exact absurd hroot hchild
          · exact ⟨p, Finset.mem_insert_of_mem hp, hparent⟩
        · intro e' he' hchild
          obtain ⟨p, hp, hparent⟩ := hup e' he' hchild
          exact ⟨p, Finset.mem_insert_of_mem hp, hparent⟩
      · exact Finset.forall_mem_insert _ _ _ |>.mpr ⟨hready.depth_root, hroots⟩
  | createMetaActivity a hactivity hne hroom hticks =>
      refine ⟨⟨⟨hticks, hwal⟩, hentries, ?_, himports, hcard, card_insert_le_of_lt hroom⟩, hdown,
        hup, ?_, hroots⟩
      · exact Finset.forall_mem_insert _ _ _ |>.mpr ⟨hactivity, hactivities⟩
      · exact Finset.forall_mem_insert _ _ _ |>.mpr ⟨hne, hloop⟩

theorem kept_of_reachable (h : (specR4 Actor User Shell Verb EntryId c).Reachable s) : Kept c s :=
  h.invariant (fun _ => InitR4.kept) (fun _ _ hnext hkept => hkept.next hnext)

/-- **The specification is safe**, whatever the ceilings are: the invariants hold, every chain of
    imports descends, and every entry is as deep as its chain of parents up to a root is long. -/
theorem r4_safe (h : (specR4 Actor User Shell Verb EntryId c).Reachable s) :
    TypeOKR4 c s ∧ LayerImportStrictlyDownward s ∧ EntryParentDagDepthBounded s ∧
      EntryParentDagAcyclic s ∧ ActivitySelfLoopBlocked s ∧ MetaVerbDepthBounded s ∧
      (∀ k upper lower, StepPath (Imports s) k upper lower → lower.order + k ≤ upper.order) ∧
      ∀ e ∈ s.r4Entries, ∃ r ∈ s.r4Entries, r.parentEntry = none ∧
        StepPath (HasParent s) e.depth e r := by
  have hkept := kept_of_reachable h
  exact ⟨hkept.typed, hkept.downward, hkept.typed.entries, hkept.acyclic, hkept.loopless,
    hkept.typed.activities, fun _ _ _ => hkept.order_of_path, fun _ => hkept.root_of_entry⟩

/-- Ceilings of two. -/
def twoOfEach : Ceilings :=
  ⟨2, 2, 2, 2, 2, Nat.two_pos, Nat.two_pos, Nat.two_pos, Nat.two_pos, Nat.two_pos⟩

/-- The same with time for two entries, an import and an activity. -/
def fourTicks : Ceilings := { twoOfEach with maxTicks := 4, maxTicks_pos := by decide }

/-- A start with two actors, bound to the only user and shell. -/
def twoActors : R4 Bool Unit Unit Unit ℕ := R4.start (fun _ => ()) fun _ => ()

/-- A root, and its child. -/
def rootAndChild : R4 Bool Unit Unit Unit ℕ :=
  (twoActors.withEntry ⟨7, none, 0⟩).withEntry ⟨8, some 7, 1⟩

/-- An import besides. -/
def andImport : R4 Bool Unit Unit Unit ℕ :=
  { rootAndChild with
    layerImports := insert ⟨.l2, .l1⟩ rootAndChild.layerImports
    tick := rootAndChild.tick + 1 }

/-- And an activity as deep as one may be. -/
def andActivity : R4 Bool Unit Unit Unit ℕ :=
  { andImport with
    r4Activities := insert ⟨false, true, (), 8⟩ andImport.r4Activities
    tick := andImport.tick + 1 }

theorem reachable_rootAndChild :
    (specR4 Bool Unit Unit Unit ℕ fourTicks).Reachable rootAndChild := by
  have hroot : NextR4 fourTicks twoActors (twoActors.withEntry ⟨7, none, 0⟩) :=
    .createEntry _ _ (Nat.zero_le _) (.inl ⟨rfl, rfl⟩) (by decide) (by decide)
  have hchild : NextR4 fourTicks (twoActors.withEntry ⟨7, none, 0⟩) rootAndChild :=
    .createEntry _ _ (Nat.le_of_ble_eq_true rfl)
      (.inr ⟨by simp, ⟨7, none, 0⟩, Finset.mem_insert_self _ _, rfl, rfl⟩) (by decide) (by decide)
  exact .next (.next (.init (initR4_start _ _)) hroot) hchild

theorem reachable_andActivity :
    (specR4 Bool Unit Unit Unit ℕ fourTicks).Reachable andActivity := by
  have himport : NextR4 fourTicks rootAndChild andImport :=
    .recordLayerImport _ _ (by decide) (by decide) (by decide)
  have hactivity : NextR4 fourTicks andImport andActivity :=
    .createMetaActivity _ _ (Nat.le_refl 8) (by simp) (by decide) (by decide)
  exact .next (.next reachable_rootAndChild himport) hactivity

/-- All of it at once: the child is one level below the root, the import descends, and the
    activity is about another actor. -/
theorem r4_safe_populated :
    (specR4 Bool Unit Unit Unit ℕ fourTicks).Reachable andActivity ∧
      (∃ p ∈ andActivity.r4Entries, ParentEntry p ⟨8, some 7, 1⟩) ∧
      Layer.l1.order < Layer.l2.order ∧ (false : Bool) ≠ true ∧
      ∃ r ∈ andActivity.r4Entries, r.parentEntry = none ∧
        StepPath (HasParent andActivity) 1 ⟨8, some 7, 1⟩ r := by
  obtain ⟨-, hdown, -, hacyclic, hloop, -, -, hroots⟩ := r4_safe reachable_andActivity
  have hchild : (⟨8, some 7, 1⟩ : Entry ℕ) ∈ andActivity.r4Entries := Finset.mem_insert_self _ _
  exact ⟨reachable_andActivity, hacyclic _ hchild (by simp),
    hdown ⟨.l2, .l1⟩ (Finset.mem_insert_self _ _), hloop ⟨false, true, (), 8⟩
      (Finset.mem_insert_self _ _), hroots _ hchild⟩

/-! ## Parents of ids -/

/-- A second entry for the id of a root may name that id. -/
theorem own_parent_reachable {c : Ceilings} {s : R4 Actor User Shell Verb EntryId}
    (hentries : 2 ≤ c.maxEntries) (hticks : 2 ≤ c.maxTicks) (hinit : InitR4 s) (x : EntryId) :
    ∃ s', (specR4 Actor User Shell Verb EntryId c).Reachable s' ∧
      StepPath (ParentId s') 1 x x := by
  have hroot : NextR4 c s (s.withEntry ⟨x, none, 0⟩) := by
    refine .createEntry s _ (Nat.zero_le _) (.inl ⟨rfl, rfl⟩) ?_ ?_
    · rw [hinit.r4Entries, Finset.card_empty]
      omega
    · rw [hinit.tick]
      omega
  have hbelow : NextR4 c (s.withEntry ⟨x, none, 0⟩)
      ((s.withEntry ⟨x, none, 0⟩).withEntry ⟨x, some x, 1⟩) := by
    refine .createEntry _ _ (Nat.le_of_ble_eq_true rfl)
      (.inr ⟨by simp, ⟨x, none, 0⟩, ?_, rfl, rfl⟩) ?_ ?_
    · exact Finset.mem_insert_self _ _
    · show (insert _ s.r4Entries).card < c.maxEntries
      rw [hinit.r4Entries]
      exact (Finset.card_insert_le _ _).trans_lt hentries
    · show s.tick + 1 + 1 ≤ c.maxTicks
      rw [hinit.tick]
      exact hticks
  refine ⟨_, .next (.next (.init hinit) hroot) hbelow, ?_⟩
  exact .cons ⟨⟨x, some x, 1⟩, Finset.mem_insert_self _ _, rfl, rfl⟩ (.nil x)

/-- **Ids.** Where no id has two entries, no chain of parents comes back to its start or is
    longer than `MaxDagDepth`. But the specification gives an id a second entry, so that, from
    every start and with ceilings of two, it reaches a state in which an id is its own parent. -/
theorem r4_parents_of_ids (c : Ceilings) :
    (∀ s : R4 Actor User Shell Verb EntryId,
      (specR4 Actor User Shell Verb EntryId c).Reachable s → OneEntryPerId s →
      ∀ k x y, StepPath (ParentId s) k x y → (0 < k → x ≠ y) ∧ k ≤ maxDagDepth) ∧
    (2 ≤ c.maxEntries → 2 ≤ c.maxTicks → ∀ s : R4 Actor User Shell Verb EntryId, InitR4 s →
      ∀ x : EntryId, ∃ s', (specR4 Actor User Shell Verb EntryId c).Reachable s' ∧
        StepPath (ParentId s') 1 x x) := by
  refine ⟨?_, ?_⟩
  · intro s hreachable hids k x y hpath
    have hkept := kept_of_reachable hreachable
    refine ⟨fun hk => (hkept.parents_of_ids hids hpath hk).1, ?_⟩
    rcases Nat.eq_zero_or_pos k with rfl | hk
    · exact Nat.zero_le _
    · exact (hkept.parents_of_ids hids hpath hk).2
  · intro hentries hticks s hinit x
    exact own_parent_reachable hentries hticks hinit x

/-- The child's id is below the root's, and not the same. -/
theorem r4_parents_of_ids_child :
    OneEntryPerId rootAndChild ∧ StepPath (ParentId rootAndChild) 1 8 7 ∧ (8 : ℕ) ≠ 7 := by
  have hids : OneEntryPerId rootAndChild := by
    unfold OneEntryPerId
    decide
  have hpath : StepPath (ParentId rootAndChild) 1 8 7 :=
    .cons ⟨⟨8, some 7, 1⟩, Finset.mem_insert_self _ _, rfl, rfl⟩ (.nil 7)
  have hparents := (r4_parents_of_ids fourTicks).1 rootAndChild reachable_rootAndChild hids
  exact ⟨hids, hpath, (hparents 1 8 7 hpath).1 Nat.one_pos⟩

end

end ArkheForge.Formal
