/-
  Chains of activities that target activities.

  Ids are derivable in advance, so a submission may name an activity that does not
  exist yet, and `SubmitActivity::compute` refuses only a target equal to its own id.
  `APPEAL_MAX_DEPTH_CAP` is declared and never read. Two submissions that name each
  other close a cycle (`future_target_closes_cycle`).

  A state is a graph: an activity names the activity it targets. Committing an
  accepted submission adds one vertex with at most one outgoing edge, so
  `StepPath.Bounded.add_iff` says what the submission has to meet in the state
  before it, and `chains_bounded_iff` carries that over runs: every state reached is
  bounded and acyclic exactly when every step meets it.
-/
import ArkheForge.Core.Commit
import ArkheForge.Lib.StepPath

namespace ArkheForge.Core

open BigEndian Fallible

/-! ## The graph of a state -/

section

variable [CoreWire]

/-- The record stored at `x` targets the activity `y`. -/
def Names (state : InstanceState) (x y : EntityId) : Prop :=
  ∃ record, componentOf ActivityRecord state x = some record ∧ record.target = .activity ⟨y⟩

/-- An activity is stored at `x`. -/
def Live (state : InstanceState) (x : EntityId) : Prop :=
  (componentOf ActivityRecord state x).isSome = true

/-- Following targets from stored activity to stored activity ends after at most
    `APPEAL_MAX_DEPTH_CAP` steps and never comes back. -/
def ChainsBounded (state : InstanceState) : Prop :=
  StepPath.Bounded (Names state) (Live state) appealMaxDepthCap

theorem not_names_empty (x y : EntityId) : ¬ Names InstanceState.empty x y := by
  rintro ⟨record, hrecord, _⟩
  rw [componentOf_of_not_known rfl] at hrecord
  simp at hrecord

/-- Storing one activity on an entity that held none adds it to the graph. -/
theorem names_store {state state' : InstanceState} {id : EntityId} {record : ActivityRecord}
    (hfresh : componentOf ActivityRecord state id = none)
    (hstored : ∀ e, componentOf ActivityRecord state' e =
      if e = id then some record else componentOf ActivityRecord state e) (x y : EntityId) :
    Names state' x y ↔ Names state x y ∨ x = id ∧ record.target = .activity ⟨y⟩ := by
  unfold Names
  rw [hstored]
  by_cases hx : x = id
  · subst hx
    simp [hfresh]
  · simp [hx]

theorem live_store {state state' : InstanceState} {id : EntityId} {record : ActivityRecord}
    (hstored : ∀ e, componentOf ActivityRecord state' e =
      if e = id then some record else componentOf ActivityRecord state e) (y : EntityId) :
    Live state' y ↔ Live state y ∨ y = id := by
  unfold Live
  rw [hstored]
  by_cases hy : y = id
  · simp [hy]
  · simp [hy]

end

/-! ## Turns -/

/-- The two actions on activities. -/
inductive ActivityAction
  | submit (a : SubmitActivity)
  | retract (a : RetractActivity)
  deriving DecidableEq, Repr

def ActivityAction.shipped : ActivityAction → ShippedAction
  | .submit a => .submitActivity a
  | .retract a => .retractActivity a

/-- One compute in a context whose buffer is empty. -/
structure Turn where
  action : ActivityAction
  ctx : ActionContext
  fresh : ctx.ops = []

section

variable [Blake3] [CoreWire]

/-- The ops it hands over. -/
def Turn.ops (turn : Turn) : List Op := drained turn.action.shipped turn.ctx

/-- The state once the turns of a run have been committed one after the other. -/
def stateAfter (run : List Turn) : InstanceState :=
  run.foldl (fun state turn => state.commit turn.ops) InstanceState.empty

/-- The checks of `SubmitActivity::compute` pass and `id` is the id it previews. -/
def SubmitActivity.Admits (a : SubmitActivity) (ctx : ActionContext) (id : EntityId) : Prop :=
  (a.Valid ∧ ∃ actor, ctx.actingActor = some actor ∧
    ctx.ensureActorEligible actor ctx.tick = .ok () ∧
    checkIdempotency ctx a.idempotencyKey = .ok ()) ∧
  (checkedSucc ctx.idSeq).isSome ∧
  ctx.upcomingId (ArkheComponent.typeCode ActivityRecord) = some id ∧
  a.draft.target ≠ .activity ⟨id⟩

/-- What a turn has to meet in the state before it: a submission that will be accepted
    under `id` targets no activity whose chain leads to `id`, and what already names
    `id`, what it targets and itself make no chain longer than the cap. -/
def Turn.Meets (state : InstanceState) (turn : Turn) : Prop :=
  ∀ a id, turn.action = .submit a → a.Admits turn.ctx id →
    StepPath.Addable (Names state) (Live state) appealMaxDepthCap id
      fun y => a.draft.target = .activity ⟨y⟩

/-- A turn hands over nothing, or the activity its submission was admitted to create. -/
theorem Turn.ops_cases (hT : CoreWire.Serializes) (turn : Turn) :
    (turn.ops = [] ∧ ∀ a id, turn.action = .submit a → ¬ a.Admits turn.ctx id) ∨
    ∃ a id actor, turn.action = .submit a ∧ a.Admits turn.ctx id ∧
      turn.ops = createOps id turn.ctx.principal [stored (a.draft.intoRecord actor)] := by
  have hdrained := drained_eq hT turn.action.shipped turn.fresh
  unfold Turn.ops
  cases haction : turn.action with
  | retract a =>
      left
      refine ⟨?_, by simp⟩
      rw [haction] at hdrained
      cases hbatch : (ActivityAction.retract a).shipped.batch turn.ctx with
      | error e => rw [hdrained, hbatch]
      | ok ops =>
          rw [hdrained, hbatch]
          exact (retractActivity_batch_eq_ok.mp hbatch).2
  | submit a =>
      rw [haction] at hdrained
      cases hbatch : (ActivityAction.submit a).shipped.batch turn.ctx with
      | error e =>
          left
          refine ⟨by rw [hdrained, hbatch], ?_⟩
          intro a' id ha hadmits
          obtain rfl : a = a' := ActivityAction.submit.inj ha
          obtain ⟨⟨hvalid, actor, hactor, hgate, hkey⟩, hseq, hid, hloop⟩ := hadmits
          have hok := submitActivity_batch_eq_ok.mpr
            ⟨hvalid, actor, ⟨hactor, hgate, hkey⟩, hseq, id, hid, hloop, rfl⟩
          rw [ActivityAction.shipped] at hbatch
          rw [hbatch] at hok
          cases hok
      | ok ops =>
          right
          obtain ⟨hvalid, actor, ⟨hactor, hgate, hkey⟩, hseq, id, hid, hloop, rfl⟩ :=
            submitActivity_batch_eq_ok.mp hbatch
          exact ⟨a, id, actor, rfl, ⟨⟨hvalid, actor, hactor, hgate, hkey⟩, hseq, hid, hloop⟩,
            by rw [hdrained, hbatch]⟩

omit [Blake3] in
/-- Committing an admitted submission stores its record and no other. -/
theorem componentOf_commit_submission (hT : CoreWire.Serializes)
    (hround : Postcard.RoundTrip ActivityRecord) (state : InstanceState) (id : EntityId)
    (owner : Principal) (record : ActivityRecord) (e : EntityId) :
    componentOf ActivityRecord (state.commit (createOps id owner [stored record])) e =
      if e = id then some record else componentOf ActivityRecord state e := by
  have hslot := commit_createOps_component state id owner [stored record] e
    (ArkheComponent.typeCode ActivityRecord)
  by_cases he : e = id
  · rw [if_pos he] at hslot ⊢
    exact componentOf_of_stored hT.activityRecord hround hslot
  · rw [if_neg he] at hslot ⊢
    exact componentOf_congr hslot

/-- **One step.** From a bounded state, a turn that spawns no known entity leads to a
    bounded state exactly when it meets the condition. -/
theorem Turn.chainsBounded_iff (hT : CoreWire.Serializes)
    (hround : Postcard.RoundTrip ActivityRecord) {state : InstanceState} {turn : Turn}
    (hbounded : ChainsBounded state)
    (hfresh : ∀ e ∈ spawned turn.ops, state.known e = false) :
    ChainsBounded (state.commit turn.ops) ↔ turn.Meets state := by
  rcases Turn.ops_cases hT turn with ⟨hnil, hnone⟩ | ⟨a, id, actor, haction, hadmits, hops⟩
  · rw [hnil, InstanceState.commit_nil]
    constructor
    · intro _ a id haction hadmits
      exact absurd hadmits (hnone a id haction)
    · intro _
      exact hbounded
  · have hnew : componentOf ActivityRecord state id = none :=
      componentOf_of_not_known (hfresh id (by rw [hops]; simp))
    have hstored := componentOf_commit_submission hT hround state id turn.ctx.principal
      (a.draft.intoRecord actor)
    rw [← hops] at hstored
    have hadd := StepPath.Bounded.add_iff (names_store hnew hstored) (live_store hstored) hbounded
    unfold ChainsBounded
    rw [hadd]
    constructor
    · intro haddable a' id' haction' hadmits'
      obtain rfl : a = a' := ActivityAction.submit.inj (haction.symm.trans haction')
      obtain rfl : id = id' := Option.some.inj (hadmits.2.2.1.symm.trans hadmits'.2.2.1)
      exact haddable
    · intro hmeets
      exact hmeets a id haction hadmits

/-! ## Runs -/

theorem stateAfter_concat (run : List Turn) (turn : Turn) :
    stateAfter (run ++ [turn]) = (stateAfter run).commit turn.ops := by
  unfold stateAfter
  rw [List.foldl_append]
  rfl

/-- What a run knows is what it spawned. -/
theorem stateAfter_known (run : List Turn) (e : EntityId) :
    (stateAfter run).known e = true ↔ e ∈ run.flatMap fun turn => spawned turn.ops := by
  induction run using List.reverseRecOn with
  | nil => simp [stateAfter, InstanceState.empty]
  | append_singleton run turn ih =>
      rw [stateAfter_concat, InstanceState.commit_known, ih]
      simp

/-- With distinct ids a turn spawns nothing that is known before it. -/
theorem spawned_not_known {earlier later : List Turn} {turn : Turn}
    (hdistinct : ((earlier ++ turn :: later).flatMap fun turn => spawned turn.ops).Nodup) :
    ∀ e ∈ spawned turn.ops, (stateAfter earlier).known e = false := by
  intro e he
  rw [List.flatMap_append, List.flatMap_cons] at hdistinct
  have hdisjoint := (List.nodup_append.mp hdistinct).2.2
  by_contra hknown
  have hmem := (stateAfter_known earlier e).mp (by simpa using hknown)
  exact hdisjoint e hmem e (List.mem_append_left _ he) rfl

/-- **When chains stay bounded.** For every run whose spawned ids are distinct: in every
    state it reaches, following targets ends within the cap and never comes back, if and
    only if every step meets the condition in the state before it. -/
theorem chains_bounded_iff (hT : CoreWire.Serializes)
    (hround : Postcard.RoundTrip ActivityRecord) (run : List Turn)
    (hdistinct : (run.flatMap fun turn => spawned turn.ops).Nodup) :
    (∀ earlier later, run = earlier ++ later → ChainsBounded (stateAfter earlier)) ↔
      ∀ earlier turn later, run = earlier ++ turn :: later →
        turn.Meets (stateAfter earlier) := by
  constructor
  · intro hbounded earlier turn later hrun
    have hafter := hbounded (earlier ++ [turn]) later (by rw [hrun]; simp)
    rw [stateAfter_concat] at hafter
    rw [hrun] at hdistinct
    exact (Turn.chainsBounded_iff hT hround (hbounded earlier _ hrun)
      (spawned_not_known hdistinct)).mp hafter
  · intro hmeets earlier
    induction earlier using List.reverseRecOn with
    | nil =>
        intro _ _
        exact StepPath.bounded_of_no_edges not_names_empty
    | append_singleton earlier turn ih =>
        intro later hrun
        have hsplit : run = earlier ++ turn :: later := by rw [hrun]; simp
        rw [stateAfter_concat]
        have hfresh := spawned_not_known (hsplit ▸ hdistinct)
        exact (Turn.chainsBounded_iff hT hround (ih _ hsplit) hfresh).mpr
          (hmeets earlier turn later hsplit)

/-- Two submissions that name each other leave a state whose chains are not bounded. -/
theorem mutual_targets_close_cycle (hT : CoreWire.Serializes)
    (hround : Postcard.RoundTrip ActivityRecord) {first second : Turn} {x y : EntityId}
    {record record' : ActivityRecord} (hne : x ≠ y)
    (hfirst : first.ops = createOps x .system [stored record])
    (hsecond : second.ops = createOps y .system [stored record'])
    (htarget : record.target = .activity ⟨y⟩) (htarget' : record'.target = .activity ⟨x⟩) :
    ([first, second].flatMap fun turn => spawned turn.ops).Nodup ∧
      ¬ ChainsBounded (stateAfter [first, second]) := by
  have hstate : stateAfter [first, second] =
      (InstanceState.empty.commit (createOps x .system [stored record])).commit
        (createOps y .system [stored record']) := by
    show (InstanceState.empty.commit first.ops).commit second.ops = _
    rw [hfirst, hsecond]
  have hx : componentOf ActivityRecord (stateAfter [first, second]) x = some record := by
    rw [hstate, componentOf_commit_submission hT hround, if_neg hne,
      componentOf_commit_submission hT hround, if_pos rfl]
  have hy : componentOf ActivityRecord (stateAfter [first, second]) y = some record' := by
    rw [hstate, componentOf_commit_submission hT hround, if_pos rfl]
  constructor
  · simp [hfirst, hsecond, hne]
  · intro hbounded
    exact hbounded.acyclic 2 x (by omega)
      (.cons ⟨record, hx, htarget⟩ (.cons ⟨record', hy, htarget'⟩ (.nil x)))

end

/-! ## Two submissions -/

/-- The activity of tick one, and the activity of tick two. -/
def firstActivity : EntityId := ⟨0x3f7c49af936c7a32, by decide⟩

def secondActivity : EntityId := ⟨0xa3deab6d44c5f90a, by decide⟩

/-- A submission about `target`, through the bridge. -/
def submissionAt (tick : Tick) (target : TargetKind) : Turn where
  action := .submit (SubmitActivity.about target)
  ctx := bridgeContext firstInstance tick (some someActor.get)
  fresh := rfl

/-- The record such a submission stores. -/
def recordAbout (target : TargetKind) : ActivityRecord :=
  (SubmitActivity.about target).draft.intoRecord someActor

theorem submissionAt_first_ops :
    letI := postcardWire
    letI := oneBlockBlake3
    (submissionAt 1 (.activity ⟨secondActivity⟩)).ops =
      createOps firstActivity .system [stored (recordAbout (.activity ⟨secondActivity⟩))] := by
  decide +kernel

theorem submissionAt_second_ops :
    letI := postcardWire
    letI := oneBlockBlake3
    (submissionAt 2 (.activity ⟨firstActivity⟩)).ops =
      createOps secondActivity .system [stored (recordAbout (.activity ⟨firstActivity⟩))] := by
  decide +kernel

/-- **A cycle of two.** The first submission targets the id the second will get, the
    second targets the first. -/
theorem future_target_closes_cycle :
    letI := postcardWire
    letI := oneBlockBlake3
    let run := [submissionAt 1 (.activity ⟨secondActivity⟩),
      submissionAt 2 (.activity ⟨firstActivity⟩)]
    (run.map fun turn => turn.ctx.tick).Pairwise (· < ·) ∧
      (run.flatMap fun turn => spawned turn.ops).Nodup ∧ ¬ ChainsBounded (stateAfter run) := by
  intro run
  refine ⟨by decide, ?_⟩
  exact @mutual_targets_close_cycle oneBlockBlake3 postcardWire postcard_serializes
    (Postcard.ofCodec_roundTrip Wire.activityRecord) _ _ _ _ _ _ (by decide)
    submissionAt_first_ops submissionAt_second_ops rfl rfl

/-! ## A chain of three -/

/-- The activity of tick three. -/
def thirdActivity : EntityId := ⟨0x7776f313a9f4a37c, by decide⟩

/-- Three submissions, the second and the third targeting the one before. -/
def chainRun : List Turn :=
  [submissionAt 1 (.actor someActor), submissionAt 2 (.activity ⟨firstActivity⟩),
    submissionAt 3 (.activity ⟨secondActivity⟩)]

section

attribute [local instance] oneBlockBlake3 postcardWire

theorem submissionAt_one_ops : (submissionAt 1 (.actor someActor)).ops =
    createOps firstActivity .system [stored (recordAbout (.actor someActor))] := by
  decide +kernel

theorem submissionAt_three_ops : (submissionAt 3 (.activity ⟨secondActivity⟩)).ops =
    createOps thirdActivity .system [stored (recordAbout (.activity ⟨secondActivity⟩))] := by
  decide +kernel

theorem chainRun_nodup : (chainRun.flatMap fun turn => spawned turn.ops).Nodup := by
  have hspawned : (chainRun.flatMap fun turn => spawned turn.ops) =
      [firstActivity, secondActivity, thirdActivity] := by
    simp [chainRun, submissionAt_one_ops, submissionAt_second_ops, submissionAt_three_ops]
  rw [hspawned]
  decide

/-- What a submission of the chain adds to the graph. -/
theorem names_chain (earlier : List Turn) {later : List Turn} {turn : Turn} {id : EntityId}
    {target : TargetKind} (hrun : chainRun = earlier ++ turn :: later)
    (hops : turn.ops = createOps id .system [stored (recordAbout target)]) (x y : EntityId) :
    Names (stateAfter (earlier ++ [turn])) x y ↔
      Names (stateAfter earlier) x y ∨ x = id ∧ target = .activity ⟨y⟩ := by
  have hfresh := spawned_not_known (hrun ▸ chainRun_nodup) id (by rw [hops]; simp)
  rw [stateAfter_concat, hops]
  exact names_store (componentOf_of_not_known hfresh)
    (componentOf_commit_submission postcard_serializes
      (Postcard.ofCodec_roundTrip Wire.activityRecord) (stateAfter earlier) id .system
      (recordAbout target)) x y

theorem not_names_chain_one (x y : EntityId) : ¬ Names (stateAfter (chainRun.take 1)) x y := by
  intro h
  rcases (names_chain [] rfl submissionAt_one_ops x y).mp h with h | ⟨-, h⟩
  · exact not_names_empty x y h
  · cases h

theorem names_chain_two (x y : EntityId) :
    Names (stateAfter (chainRun.take 2)) x y ↔ x = secondActivity ∧ y = firstActivity := by
  refine (names_chain (chainRun.take 1) rfl submissionAt_second_ops x y).trans ?_
  simp [not_names_chain_one, eq_comm]

theorem names_chain_three (x y : EntityId) :
    Names (stateAfter chainRun) x y ↔
      x = secondActivity ∧ y = firstActivity ∨ x = thirdActivity ∧ y = secondActivity := by
  refine (names_chain (chainRun.take 2) rfl submissionAt_three_ops x y).trans ?_
  simp [names_chain_two, eq_comm]

/-- A submission that targets what is there, under an id nothing names, meets the condition. -/
theorem meets_of_target_below {state : InstanceState} {tick : Tick} {target : TargetKind}
    (id : EntityId) (hid : (submissionAt tick target).ctx.upcomingId
      (ArkheComponent.typeCode ActivityRecord) = some id)
    (hunnamed : ∀ x, ¬ Names state x id)
    (hbelow : ∀ y, target = .activity ⟨y⟩ →
      ∀ k z, StepPath (Names state) k y z → k < appealMaxDepthCap) :
    (submissionAt tick target).Meets state := by
  intro a id' haction hadmits
  obtain rfl : SubmitActivity.about target = a := ActivityAction.submit.inj haction
  obtain rfl : id = id' := Option.some.inj (hid.symm.trans hadmits.2.2.1)
  exact StepPath.addable_of_no_edge_into hunnamed hadmits.2.2.2 hbelow

/-- Below the second activity lies one more. -/
theorem chain_below_second {k : ℕ} {z : EntityId}
    (h : StepPath (Names (stateAfter (chainRun.take 2))) k secondActivity z) :
    k < appealMaxDepthCap := by
  have hranked : StepPath.Ranked (Names (stateAfter (chainRun.take 2)))
      fun e => if e = secondActivity then 1 else 0 := by
    intro x y hedge
    obtain ⟨rfl, rfl⟩ := (names_chain_two x y).mp hedge
    decide
  have hrank := hranked.rank_eq h
  rw [if_pos rfl] at hrank
  have hcap : 1 < appealMaxDepthCap := by decide
  omega

theorem chainRun_meets {earlier later : List Turn} {turn : Turn}
    (hrun : chainRun = earlier ++ turn :: later) : turn.Meets (stateAfter earlier) := by
  rcases earlier with _ | ⟨t₁, _ | ⟨t₂, _ | ⟨t₃, rest⟩⟩⟩
  · obtain rfl := (List.cons.inj hrun).1
    exact meets_of_target_below firstActivity (by decide +kernel)
      (fun x => not_names_empty x _) (by simp)
  · obtain ⟨rfl, htail⟩ := List.cons.inj hrun
    obtain rfl := (List.cons.inj htail).1
    refine meets_of_target_below secondActivity (by decide +kernel)
      (fun x => not_names_chain_one x _) ?_
    rintro y - k z hpath
    rw [(StepPath.eq_of_no_edges not_names_chain_one hpath).1]
    decide
  · obtain ⟨rfl, htail⟩ := List.cons.inj hrun
    obtain ⟨rfl, hlast⟩ := List.cons.inj htail
    obtain rfl := (List.cons.inj hlast).1
    refine meets_of_target_below thirdActivity (by decide +kernel) ?_ ?_
    · intro x hedge
      exact absurd ((names_chain_two x _).mp hedge).2 (by decide)
    · rintro y htarget k z hpath
      obtain rfl : secondActivity = y := by simpa using htarget
      exact chain_below_second hpath
  · simp [chainRun] at hrun

end

/-- Three submissions that each target the one before make a chain of two steps, which is
    bounded. -/
theorem chains_bounded_iff_chain :
    letI := postcardWire
    letI := oneBlockBlake3
    CoreWire.Serializes ∧ Postcard.RoundTrip ActivityRecord ∧
      (chainRun.flatMap fun turn => spawned turn.ops).Nodup ∧
      StepPath (Names (stateAfter chainRun)) 2 thirdActivity firstActivity ∧
      ChainsBounded (stateAfter chainRun) := by
  have hround := Postcard.ofCodec_roundTrip Wire.activityRecord
  have hiff := @chains_bounded_iff oneBlockBlake3 postcardWire postcard_serializes hround chainRun
    chainRun_nodup
  refine ⟨postcard_serializes, hround, chainRun_nodup, ?_, ?_⟩
  · exact .cons ((names_chain_three _ _).mpr (.inr ⟨rfl, rfl⟩))
      (.cons ((names_chain_three _ _).mpr (.inl ⟨rfl, rfl⟩)) (.nil firstActivity))
  · exact hiff.mpr (fun earlier turn later => chainRun_meets) chainRun [] (by simp)

end ArkheForge.Core
