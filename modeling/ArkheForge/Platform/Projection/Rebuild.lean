/-
  Routers that are built anew over projections that outlive them.

  A router keeps its cursor in memory. After a crash a fresh one is built over the
  projections, whose `last_applied` is stored with what they hold, and takes the first
  position it is given as its anchor. `Consumer` is the caller the stream-order contract
  of `dispatch` asks for: it delivers an event again as often as it likes, and the next
  one only once the one before was acknowledged; it changes the state of the router, and
  it rebuilds it at any time to resume at or before the event it had come to. The
  projections may fail at any call. What each of them has accepted is what it observes of
  a first part of the stream, once each and in order, and that part has every acknowledged
  event (`rebuilt_routers_lose_nothing`).
-/
import ArkheForge.Platform.Projection.Stream

namespace ArkheForge.Platform

open ArkheForge.Core BigEndian Fallible

/-! ## Places in an ordered stream -/

section

variable {stream : List EventRecord} {event other : EventRecord} {i j : ℕ}

/-- An event follows the event before it in the stream. -/
theorem follows_of_getElem? {last : Option ProjectionCursor} (h : Ordered last stream)
    (hi : stream[i]? = some event) :
    Follows (cursorAfter last (stream.take i)) (position event) := by
  have hlt : i < stream.length := (List.getElem?_eq_some_iff.mp hi).1
  have hsplit : stream.take i ++ event :: stream.drop (i + 1) = stream := by
    obtain ⟨_, rfl⟩ := List.getElem?_eq_some_iff.mp hi
    rw [← List.drop_eq_getElem_cons hlt, List.take_append_drop]
  rw [← hsplit, ordered_append] at h
  exact h.2.1

theorem cursorAfter_take_succ (last : Option ProjectionCursor) (hi : stream[i]? = some event) :
    cursorAfter last (stream.take (i + 1)) = some (position event) := by
  rw [List.take_add_one, hi]
  exact cursorAfter_concat last (stream.take i) event

theorem ordered_ascending {last : Option ProjectionCursor} (h : Ordered last stream) :
    (∀ cursor, last = some cursor → ∀ event ∈ stream, cursor < position event) ∧
      (stream.map position).Pairwise (· < ·) := by
  induction stream generalizing last with
  | nil => exact ⟨fun _ _ event hevent => absurd hevent List.not_mem_nil, List.Pairwise.nil⟩
  | cons first rest ih =>
      obtain ⟨hfollows, hrest⟩ := h
      obtain ⟨hbelow, hpairwise⟩ := ih hrest
      refine ⟨?_, ?_⟩
      · intro cursor hcursor event hevent
        have hfirst := (hfollows cursor hcursor).1
        rcases List.mem_cons.mp hevent with rfl | hmem
        · exact hfirst
        · exact hfirst.trans (hbelow _ rfl event hmem)
      · rw [List.map_cons, List.pairwise_cons]
        refine ⟨?_, hpairwise⟩
        intro cursor hcursor
        obtain ⟨event, hevent, rfl⟩ := List.mem_map.mp hcursor
        exact hbelow _ rfl event hevent

/-- Positions climb along the stream. -/
theorem position_lt (h : Ordered none stream) (hi : stream[i]? = some event)
    (hj : stream[j]? = some other) (hij : i < j) : position event < position other := by
  have hpairwise := (ordered_ascending h).2
  obtain ⟨hilt, rfl⟩ := List.getElem?_eq_some_iff.mp hi
  obtain ⟨hjlt, rfl⟩ := List.getElem?_eq_some_iff.mp hj
  have hlt := List.pairwise_iff_getElem.mp hpairwise i j (by simpa using hilt)
    (by simpa using hjlt) hij
  simpa using hlt

theorem index_eq_of_position_eq (h : Ordered none stream) (hi : stream[i]? = some event)
    (hj : stream[j]? = some other) (heq : position event = position other) : i = j := by
  rcases Nat.lt_trichotomy i j with hlt | rfl | hlt
  · exact absurd heq (position_lt h hi hj hlt).ne
  · rfl
  · exact absurd heq (position_lt h hj hi hlt).ne'

end

namespace ProjectionRouter

variable {P : Type} [Projection P]

/-! ## A router built anew -/

/-- A fresh router with these projections registered, in this order. -/
def rebuild (ps : List P) : ProjectionRouter P := ps.foldl (fun r p => r.register p) new

theorem rebuild_concat (ps : List P) (p : P) : rebuild (ps ++ [p]) = (rebuild ps).register p := by
  unfold rebuild
  rw [List.foldl_append]
  rfl

/-- What a fresh router over given projections looks like. -/
structure Rebuilt (ps : List P) (r : ProjectionRouter P) : Prop where
  projections : r.projections = ps
  indexed : Indexed r
  cursor : r.cursor = none
  pin : r.pendingRetry = none

theorem rebuilt_rebuild (ps : List P) : Rebuilt ps (rebuild ps) := by
  induction ps using List.reverseRecOn with
  | nil =>
      refine ⟨rfl, ?_, rfl, rfl⟩
      intro code i
      simp [rebuild, new]
  | append_singleton ps p ih =>
      rw [rebuild_concat]
      exact ⟨congrArg (· ++ [p]) ih.projections, indexed_register ih.indexed p, ih.cursor, ih.pin⟩

theorem erase_rebuild (qs : List (Recorded P)) :
    (rebuild qs).erase = rebuild (qs.map Recorded.projection) := by
  induction qs using List.reverseRecOn with
  | nil => rfl
  | append_singleton qs q ih =>
      rw [rebuild_concat, List.map_append, List.map_singleton, rebuild_concat, ← ih]
      simp [register, erase]

end ProjectionRouter

/-! ## The consumer -/

/-- A consumer of a stream: its router, and how many events it has had acknowledged since the
    place it resumed at, with those before it. -/
structure Consumer (P : Type) where
  router : ProjectionRouter P
  next : ℕ

inductive ConsumerStep
  | deliver (index : ℕ) (ctx : ProjectionContext)
  | transition (state : ObserverState)
  | rebuild (resume : ℕ)

namespace Consumer

open ProjectionRouter

section

variable {P : Type} [Projection P]

/-- The first consumer over the projections. -/
def start (ps : List P) : Consumer P := ⟨ProjectionRouter.rebuild ps, 0⟩

/-- One step. No index beyond the next one is delivered or resumed at. -/
def step (stream : List EventRecord) (s : Consumer P) : ConsumerStep → Consumer P
  | .deliver index ctx =>
    match stream[min index s.next]? with
    | none => s
    | some event =>
      match (dispatch event ctx).exec s.router with
      | (.ok _, r) => ⟨r, min index s.next + 1⟩
      | (.error _, r) => ⟨r, s.next⟩
  | .transition state => ⟨((ProjectionRouter.transition state).exec s.router).2, s.next⟩
  | .rebuild resume => ⟨ProjectionRouter.rebuild s.router.projections, min resume s.next⟩

def run (stream : List EventRecord) (steps : List ConsumerStep) (s : Consumer P) : Consumer P :=
  steps.foldl (step stream) s

variable {stream : List EventRecord} {s : Consumer P} {index : ℕ} {event : EventRecord}

theorem step_beyond (ctx : ProjectionContext) (h : stream[min index s.next]? = none) :
    s.step stream (.deliver index ctx) = s := by
  unfold step
  simp only [h]

theorem step_deliver (ctx : ProjectionContext) (h : stream[min index s.next]? = some event) :
    s.step stream (.deliver index ctx) =
      match (dispatch event ctx).exec s.router with
      | (.ok _, r) => ⟨r, min index s.next + 1⟩
      | (.error _, r) => ⟨r, s.next⟩ := by
  unfold step
  simp only [h]

/-- The consumer without the records of its projections. -/
def erase (s : Consumer (Recorded P)) : Consumer P := ⟨s.router.erase, s.next⟩

theorem erase_step (stream : List EventRecord) (s : Consumer (Recorded P)) (c : ConsumerStep) :
    (s.step stream c).erase = s.erase.step stream c := by
  cases c with
  | deliver index ctx =>
      cases h : stream[min index s.next]? with
      | none => rw [step_beyond ctx h, step_beyond (s := s.erase) ctx h]
      | some event =>
          have hdispatch : (dispatch event ctx).exec s.erase.router = _ :=
            erase_dispatch event ctx s.router
          rw [step_deliver ctx h, step_deliver (s := s.erase) ctx h, hdispatch]
          rcases (dispatch event ctx).exec s.router with ⟨err | applied, r⟩
          · rfl
          · rfl
  | transition state =>
      have htransition := erase_transition state s.router
      show (⟨_, s.next⟩ : Consumer P) = ⟨((transition state).exec s.router.erase).2, s.next⟩
      rw [htransition]
      rfl
  | rebuild resume =>
      show (⟨(ProjectionRouter.rebuild s.router.projections).erase, _⟩ : Consumer P) = _
      rw [erase_rebuild]
      rfl

theorem erase_run (stream : List EventRecord) (steps : List ConsumerStep)
    (s : Consumer (Recorded P)) : (s.run stream steps).erase = s.erase.run stream steps := by
  induction steps generalizing s with
  | nil => rfl
  | cons c steps ih =>
      show ((s.step stream c).run stream steps).erase = (s.erase.step stream c).run stream steps
      rw [ih, erase_step]

end

/-! ## The invariant -/

section

variable {P : Type} [Projection P]

/-- The projection has accepted what it observes of a first part of the stream, which has the
    first `next` events. -/
structure Tracks (stream : List EventRecord) (next : ℕ) (q : Recorded P) : Prop where
  climbs : Climb ⊥ (q.accepted.map position) (mark q.projection)
  accepted : ∃ k, next ≤ k ∧ q.accepted = observed q.projection (stream.take k)

/-- The cursor is at the last acknowledged event, the pin at the one after it. -/
structure Sound (stream : List EventRecord) (s : Consumer (Recorded P)) : Prop where
  indexed : Indexed s.router
  tracks : ∀ q ∈ s.router.projections, Tracks stream s.next q
  cursor : s.router.cursor = none ∨ ∃ i event, stream[i]? = some event ∧ s.next = i + 1 ∧
    s.router.cursor = some (position event)
  pin : s.router.pendingRetry = none ∨ ∃ event, stream[s.next]? = some event ∧
    s.router.pendingRetry = some (identity event)

variable {stream : List EventRecord} {next j : ℕ} {event : EventRecord} {q q' : Recorded P}

theorem Tracks.weaken {fewer : ℕ} (h : Tracks stream next q) (hle : fewer ≤ next) :
    Tracks stream fewer q := by
  obtain ⟨k, hk, haccepted⟩ := h.accepted
  exact ⟨h.climbs, k, hle.trans hk, haccepted⟩

theorem observed_take_succ (p : P) (hj : stream[j]? = some event) :
    observed p (stream.take (j + 1)) = observed p (stream.take j) ++
      if event.typeCode ∈ Projection.observes p then [event] else [] := by
  rw [List.take_add_one, hj]
  exact observed_concat p (stream.take j) event

theorem observed_congr {p p' : P} (h : Projection.observes p' = Projection.observes p)
    (events : List EventRecord) : observed p' events = observed p events := by
  unfold observed
  rw [h]

theorem mem_observed_take {k : ℕ} {p : P} (hj : stream[j]? = some event) (hlt : j < k)
    (hcode : event.typeCode ∈ Projection.observes p) : event ∈ observed p (stream.take k) := by
  refine List.mem_filter.mpr ⟨?_, decide_eq_true hcode⟩
  refine List.mem_of_getElem? (i := j) ?_
  rw [List.getElem?_take_of_lt hlt]
  exact hj

/-- What was accepted of a first part of the stream lies below the event after it. -/
theorem mark_lt_of_accepted (hordered : Ordered none stream) (hj : stream[j]? = some event)
    (hclimbs : Climb ⊥ (q.accepted.map position) (mark q.projection))
    (haccepted : q.accepted = observed q.projection (stream.take j)) :
    mark q.projection < position event := by
  rcases hclimbs.mark_mem with hbot | ⟨last, hlast, hmark⟩
  · rw [hbot]
    exact WithBot.bot_lt_coe _
  · obtain ⟨other, hother, rfl⟩ := List.mem_map.mp hlast
    rw [haccepted] at hother
    obtain ⟨i, hi⟩ := List.mem_iff_getElem?.mp (List.mem_filter.mp hother).1
    have hij : i < j := by
      have hlt := (List.getElem?_eq_some_iff.mp hi).1
      rw [List.length_take] at hlt
      omega
    rw [List.getElem?_take_of_lt hij] at hi
    rw [hmark]
    exact WithBot.coe_lt_coe.mpr (position_lt hordered hi hj hij)

/-- A projection that observes an event up to the next one has it behind it, or the event is
    the next one and the first that the projection lacks. -/
theorem Tracks.behind_or_lacks (hordered : Ordered none stream) (h : Tracks stream next q)
    (hj : stream[j]? = some event) (hle : j ≤ next)
    (hcode : event.typeCode ∈ Projection.observes q.projection) :
    (position event : WithBot ProjectionCursor) ≤ mark q.projection ∨
      mark q.projection < position event ∧ j = next ∧
        q.accepted = observed q.projection (stream.take j) := by
  obtain ⟨k, hk, haccepted⟩ := h.accepted
  rcases Nat.lt_or_ge j k with hlt | hge
  · have hmem : event ∈ q.accepted := haccepted ▸ mem_observed_take hj hlt hcode
    exact .inl (h.climbs.le_mark (List.mem_map_of_mem hmem))
  · obtain rfl : k = j := le_antisymm hge (hle.trans hk)
    exact .inr ⟨mark_lt_of_accepted hordered hj h.climbs haccepted, le_antisymm hle hk, haccepted⟩

/-- A projection that does not observe the event is past it once it is acknowledged. -/
theorem Tracks.pass (h : Tracks stream next q) (hj : stream[j]? = some event) (hle : j ≤ next)
    (hcode : event.typeCode ∉ Projection.observes q.projection) : Tracks stream (j + 1) q := by
  obtain ⟨k, hk, haccepted⟩ := h.accepted
  rcases Nat.lt_or_ge j k with hlt | hge
  · exact ⟨h.climbs, k, hlt, haccepted⟩
  · obtain rfl : k = j := le_antisymm hge (hle.trans hk)
    refine ⟨h.climbs, k + 1, le_rfl, ?_⟩
    rw [observed_take_succ q.projection hj, if_neg hcode, List.append_nil]
    exact haccepted

/-- So is one that has it behind it. -/
theorem Tracks.past (hordered : Ordered none stream) (h : Tracks stream next q)
    (hj : stream[j]? = some event) (hle : j ≤ next)
    (hbehind : (position event : WithBot ProjectionCursor) ≤ mark q.projection) :
    Tracks stream (j + 1) q := by
  obtain ⟨k, hk, haccepted⟩ := h.accepted
  rcases Nat.lt_or_ge j k with hlt | hge
  · exact ⟨h.climbs, k, hlt, haccepted⟩
  · obtain rfl : k = j := le_antisymm hge (hle.trans hk)
    exact absurd hbehind (not_le.mpr (mark_lt_of_accepted hordered hj h.climbs haccepted))

theorem Tracks.kept (h : Tracks stream next q) (hkept : Kept q q') : Tracks stream next q' := by
  obtain ⟨k, hk, haccepted⟩ := h.accepted
  refine ⟨?_, k, hk, ?_⟩
  · rw [hkept.accepted, hkept.mark]
    exact h.climbs
  · rw [hkept.accepted, observed_congr hkept.observes]
    exact haccepted

/-- One that takes it was the first to lack it. -/
theorem Tracks.took (hordered : Ordered none stream) (h : Tracks stream next q)
    (hj : stream[j]? = some event) (hle : j ≤ next)
    (hcode : event.typeCode ∈ Projection.observes q.projection) (htook : Took event q q') :
    Tracks stream (j + 1) q' := by
  rcases h.behind_or_lacks hordered hj hle hcode with hbehind | ⟨hlacks, _, haccepted⟩
  · exact absurd htook.beyond (not_lt.mpr hbehind)
  · refine ⟨?_, j + 1, le_rfl, ?_⟩
    · rw [htook.accepted, htook.mark, List.map_append]
      exact h.climbs.concat hlacks
    · rw [htook.accepted, observed_congr htook.observes, observed_take_succ q.projection hj,
        if_pos hcode, haccepted]

end

/-! ## One delivery -/

section

variable {P : Type} [Projection P] [LawfulProjection P] {stream : List EventRecord}
  {s : Consumer (Recorded P)} {j : ℕ} {event : EventRecord}

/-- A fan-out fails at the next event only: a router built anew has those before it passed by. -/
theorem Sound.failed_at_next (hordered : Ordered none stream) (h : Sound stream s)
    (hj : stream[j]? = some event) (hle : j ≤ s.next) {ctx : ProjectionContext}
    {err : ProjectionError} {qs : List (Recorded P)}
    (hfail : (fanOut event ctx 0 (s.router.observersByCode event.typeCode)).exec
      s.router.projections = (.error err, qs)) : j = s.next := by
  by_contra hne
  have hready : ∀ i ∈ s.router.observersByCode event.typeCode, ∀ q,
      s.router.projections[i]? = some q → Ready event ctx q := by
    intro i hi q hq
    obtain ⟨q₁, hq₁, hcode⟩ := (h.indexed _ _).mp hi
    obtain rfl := Option.some.inj (hq.symm.trans hq₁)
    have htracks := h.tracks q (List.mem_of_getElem? hq)
    rcases htracks.behind_or_lacks hordered hj hle hcode with hbehind | ⟨-, heq, -⟩
    · exact .inl hbehind
    · exact absurd heq hne
  obtain ⟨total, qs', hreturns⟩ := fanOut_returns 0 hready
  rw [hreturns] at hfail
  simp at hfail

/-- What a fan-out leaves of each projection. -/
theorem Sound.fanOut_tracks (hordered : Ordered none stream) (h : Sound stream s)
    (hj : stream[j]? = some event) (hle : j ≤ s.next) {ctx : ProjectionContext}
    {outcome : Except ProjectionError ℕ} {qs : List (Recorded P)}
    (hexec : (fanOut event ctx 0 (s.router.observersByCode event.typeCode)).exec
      s.router.projections = (outcome, qs)) :
    (∀ q' ∈ qs, Tracks stream (min s.next (j + 1)) q') ∧
      ((∃ total, outcome = .ok total) → ∀ q' ∈ qs, Tracks stream (j + 1) q') := by
  have hfan := fanOut_delivered event ctx (s.router.observersByCode event.typeCode) 0
    s.router.projections
  have hother : ∀ i, i ∉ s.router.observersByCode event.typeCode →
      qs[i]? = s.router.projections[i]? := by
    intro i hi
    have hsame : ((fanOut event ctx 0 (s.router.observersByCode event.typeCode)).exec
        s.router.projections).2[i]? = s.router.projections[i]? := fanOut_other event ctx 0 hi
    rwa [hexec] at hsame
  rw [hexec] at hfan
  have hone : ∀ (i : ℕ) (q' : Recorded P), qs[i]? = some q' →
      Tracks stream (min s.next (j + 1)) q' ∧
        ((∃ total, outcome = .ok total) → Tracks stream (j + 1) q') := by
    intro i q' hq'
    obtain ⟨q, hq, hdelivered⟩ := Pointwise.getElem?_right hfan hq'
    have htracks := h.tracks q (List.mem_of_getElem? hq)
    by_cases hcode : event.typeCode ∈ Projection.observes q.projection
    · have hindex : i ∈ s.router.observersByCode event.typeCode :=
        (h.indexed _ _).mpr ⟨q, hq, hcode⟩
      rcases hdelivered with hkept | htook
      · refine ⟨(htracks.kept hkept).weaken (Nat.min_le_left _ _), ?_⟩
        rintro ⟨total, rfl⟩
        have hreach := fanOut_reaches hexec hindex hq'
        exact (htracks.kept hkept).past hordered hj hle hreach
      · have htaken := htracks.took hordered hj hle hcode htook
        exact ⟨htaken.weaken (Nat.min_le_right _ _), fun _ => htaken⟩
    · have hmissing : i ∉ s.router.observersByCode event.typeCode := by
        intro hmem
        obtain ⟨q₁, hq₁, hcode₁⟩ := (h.indexed _ _).mp hmem
        obtain rfl := Option.some.inj (hq.symm.trans hq₁)
        exact hcode hcode₁
      rw [hother i hmissing] at hq'
      obtain rfl := Option.some.inj (hq.symm.trans hq')
      exact ⟨htracks.weaken (Nat.min_le_left _ _), fun _ => htracks.pass hj hle hcode⟩
  refine ⟨?_, ?_⟩
  · intro q' hq'
    obtain ⟨i, hi⟩ := List.mem_iff_getElem?.mp hq'
    exact (hone i q' hi).1
  · intro hok q' hq'
    obtain ⟨i, hi⟩ := List.mem_iff_getElem?.mp hq'
    exact (hone i q' hi).2 hok

omit [Projection P] [LawfulProjection P] in
theorem cursor_of_redelivery {r : ProjectionRouter P}
    (h : r.checkPosition event = .ok .redelivery) : r.cursor = some (position event) := by
  by_contra hcursor
  unfold checkPosition at h
  by_cases hstate : r.state = .active
  · simp only [hstate, hcursor, ne_eq, not_true_eq_false, if_false] at h
    cases hpin : r.pendingRetry with
    | some pin =>
        rw [hpin] at h
        unfold checkPin at h
        simp only at h
        split_ifs at h
        all_goals simp at h
    | none =>
        rw [hpin] at h
        unfold checkOrder at h
        cases hlast : r.cursor with
        | none =>
            rw [hlast] at h
            simp at h
        | some last =>
            rw [hlast] at h
            simp only at h
            split_ifs at h
            all_goals simp at h
  · simp [hstate] at h

theorem Sound.deliver (hordered : Ordered none stream) (h : Sound stream s) (index : ℕ)
    (ctx : ProjectionContext) : Sound stream (s.step stream (.deliver index ctx)) := by
  cases hj : stream[min index s.next]? with
  | none =>
      rw [step_beyond ctx hj]
      exact h
  | some event =>
      have hle : min index s.next ≤ s.next := Nat.min_le_right _ _
      have hdispatched := dispatch_cases event ctx s.router
      have hfan := fanOut_delivered event ctx (s.router.observersByCode event.typeCode) 0
        s.router.projections
      have hobserves : ∀ q q' : Recorded P, Delivered event q q' →
          Projection.observes q'.projection = Projection.observes q.projection :=
        fun _ _ => Delivered.observes
      rw [step_deliver ctx hj]
      generalize (dispatch event ctx).exec s.router = result at hdispatched ⊢
      cases hdispatched with
      | refused err _ => exact h
      | redelivered hagain =>
          -- the event at the cursor is the last acknowledged one
          rcases h.cursor with hnone | ⟨i, last, hi, hlast, hcursor⟩
          · rw [cursor_of_redelivery hagain] at hnone
            simp at hnone
          · have hsame : position last = position event :=
              Option.some.inj (hcursor.symm.trans (cursor_of_redelivery hagain))
            have hindex := index_eq_of_position_eq hordered hi hj hsame
            show Sound stream ⟨s.router, min index s.next + 1⟩
            rw [← hindex, ← hlast]
            exact h
      | failed err qs hnext hexec =>
          have hlast := h.failed_at_next hordered hj hle hexec
          obtain ⟨htracks, -⟩ := h.fanOut_tracks hordered hj hle hexec
          rw [hexec] at hfan
          rw [hlast] at hj htracks
          refine ⟨indexed_of_pointwise h.indexed hobserves hfan, ?_, h.cursor, .inr ⟨event, hj, rfl⟩⟩
          intro q hq
          exact (htracks q hq).weaken (le_min le_rfl (Nat.le_succ _))
      | advanced applied qs hnext hexec =>
          obtain ⟨-, htracks⟩ := h.fanOut_tracks hordered hj hle hexec
          rw [hexec] at hfan
          exact ⟨indexed_of_pointwise h.indexed hobserves hfan, htracks ⟨applied, rfl⟩,
            .inr ⟨_, event, hj, rfl, rfl⟩, .inl rfl⟩

theorem Sound.transition (h : Sound stream s) (state : ObserverState) :
    Sound stream (s.step stream (.transition state)) := by
  have hkept := notify_kept state s.router.projections
  have htracks : ∀ q' ∈ (notify state s.router.projections).2, Tracks stream s.next q' := by
    intro q' hq'
    obtain ⟨q, hq, hsame⟩ := Pointwise.mem_right hkept hq'
    exact (h.tracks q hq).kept hsame
  have hindexed := indexed_of_pointwise h.indexed (fun _ _ hsame => hsame.observes) hkept
  show Sound stream ⟨((ProjectionRouter.transition state).exec s.router).2, s.next⟩
  unfold ProjectionRouter.transition
  simp only [exec_bind, exec_get, exec_ite, exec_throw]
  split
  case isTrue => exact h
  case isFalse =>
      rcases hexec : notify state s.router.projections with ⟨err | _, qs⟩
      all_goals rw [hexec] at htracks hindexed
      all_goals exact ⟨hindexed, htracks, h.cursor, h.pin⟩

omit [LawfulProjection P] in
theorem Sound.rebuild (h : Sound stream s) (resume : ℕ) :
    Sound stream (s.step stream (.rebuild resume)) := by
  have hrebuilt := rebuilt_rebuild s.router.projections
  refine ⟨hrebuilt.indexed, ?_, .inl hrebuilt.cursor, .inl hrebuilt.pin⟩
  intro q hq
  have hold : q ∈ s.router.projections := hrebuilt.projections ▸ hq
  exact (h.tracks q hold).weaken (Nat.min_le_right _ _)

/-- **One step.** -/
theorem Sound.step (hordered : Ordered none stream) (h : Sound stream s) (c : ConsumerStep) :
    Sound stream (s.step stream c) := by
  cases c with
  | deliver index ctx => exact h.deliver hordered index ctx
  | transition state => exact h.transition state
  | rebuild resume => exact h.rebuild resume

/-- **A run.** -/
theorem Sound.run (hordered : Ordered none stream) (h : Sound stream s)
    (steps : List ConsumerStep) : Sound stream (s.run stream steps) := by
  induction steps generalizing s with
  | nil => exact h
  | cons c steps ih => exact ih (h.step hordered c)

omit [LawfulProjection P] in
theorem sound_start (stream : List EventRecord) {ps : List P}
    (hfresh : ∀ p ∈ ps, Projection.lastApplied p = none) :
    Sound stream (start (ps.map Recorded.fresh)) := by
  have hrebuilt := rebuilt_rebuild (ps.map Recorded.fresh)
  refine ⟨hrebuilt.indexed, ?_, .inl hrebuilt.cursor, .inl hrebuilt.pin⟩
  intro q hq
  have hmem : q ∈ ps.map Recorded.fresh := hrebuilt.projections ▸ hq
  obtain ⟨p, hp, rfl⟩ := List.mem_map.mp hmem
  have hmark : mark p = ⊥ := by
    unfold mark
    rw [hfresh p hp]
  refine ⟨?_, 0, le_rfl, rfl⟩
  show Climb ⊥ [] (mark p)
  rw [hmark]
  exact Climb.nil

/-- The next event is acknowledged as soon as every observer that lacks it takes it. -/
theorem Sound.acknowledged (hordered : Ordered none stream) (h : Sound stream s)
    (hj : stream[s.next]? = some event) (hactive : s.router.state = .active)
    {ctx : ProjectionContext}
    (hready : ∀ q ∈ s.router.projections, event.typeCode ∈ Projection.observes q.projection →
      Ready event ctx q) : (s.step stream (.deliver s.next ctx)).next = s.next + 1 := by
  have hfollows : Follows s.router.cursor (position event) := by
    rcases h.cursor with hnone | ⟨i, last, hi, hlast, hcursor⟩
    · intro cursor hsome
      rw [hnone] at hsome
      simp at hsome
    · have hafter := follows_of_getElem? hordered hj
      rw [hlast, cursorAfter_take_succ none hi, ← hcursor] at hafter
      exact hafter
  have hnext : s.router.checkPosition event = .ok .next := by
    rcases h.pin with hnone | ⟨pinned, hpinned, hpin⟩
    · exact checkPosition_follows hactive hnone hfollows
    · obtain rfl := Option.some.inj (hj.symm.trans hpinned)
      refine checkPosition_retry hactive hpin ?_
      unfold reached
      cases hcursor : s.router.cursor with
      | none => exact WithBot.bot_lt_coe _
      | some last => exact WithBot.coe_lt_coe.mpr (hfollows last hcursor).1
  have hindices : ∀ i ∈ s.router.observersByCode event.typeCode, ∀ q,
      s.router.projections[i]? = some q → Ready event ctx q := by
    intro i hi q hq
    obtain ⟨q₁, hq₁, hcode⟩ := (h.indexed _ _).mp hi
    obtain rfl := Option.some.inj (hq.symm.trans hq₁)
    exact hready q (List.mem_of_getElem? hq) hcode
  obtain ⟨total, qs, hreturns⟩ := fanOut_returns 0 hindices
  have hdispatched := dispatch_cases event ctx s.router
  have hself : min s.next s.next = s.next := Nat.min_self _
  rw [step_deliver ctx (by rw [hself]; exact hj), hself]
  generalize (dispatch event ctx).exec s.router = result at hdispatched ⊢
  cases hdispatched with
  | refused err hcheck =>
      rw [hnext] at hcheck
      simp at hcheck
  | redelivered _ => rfl
  | failed err qs' _ hfail =>
      rw [hreturns] at hfail
      simp at hfail
  | advanced applied qs' _ _ => rfl

end

/-! ## What every call keeps -/

section

variable {P : Type} [Projection P]

/-- A relation that every call of a projection keeps to. -/
structure KeptByCalls (R : Recorded P → Recorded P → Prop) : Prop where
  refl : ∀ q, R q q
  trans : ∀ q q' q'', R q q' → R q' q'' → R q q''
  onEvent : ∀ event ctx q, R q ((Projection.onEvent event ctx).exec q).2
  onStateChange : ∀ next q, R q ((Projection.onStateChange next).exec q).2

namespace KeptByCalls

variable {R : Recorded P → Recorded P → Prop} (hkept : KeptByCalls R) (event : EventRecord)
  (ctx : ProjectionContext)

include hkept

theorem visit (i : ℕ) (qs : List (Recorded P)) :
    List.Forall₂ R qs ((visit event ctx i).exec qs).2 := by
  rw [exec_visit]
  cases hi : qs[i]? with
  | none => exact Pointwise.refl hkept.refl qs
  | some q =>
      have hcall := hkept.onEvent event ctx q
      simp only
      split
      case isTrue => exact Pointwise.refl hkept.refl qs
      case isFalse =>
          rcases hexec : (Projection.onEvent event ctx).exec q with ⟨err | _, q'⟩
          all_goals rw [hexec] at hcall
          all_goals exact Pointwise.set hkept.refl hi hcall

theorem fanOut (indices : List ℕ) (applied : ℕ) (qs : List (Recorded P)) :
    List.Forall₂ R qs ((fanOut event ctx applied indices).exec qs).2 := by
  induction indices generalizing applied qs with
  | nil => exact Pointwise.refl hkept.refl qs
  | cons i rest ih =>
      have hvisit := hkept.visit event ctx i qs
      unfold ProjectionRouter.fanOut
      rw [exec_bind]
      rcases hexec : (ProjectionRouter.visit event ctx i).exec qs with ⟨err | count, qs'⟩
      all_goals rw [hexec] at hvisit
      · exact hvisit
      · exact Pointwise.trans hkept.trans hvisit (ih (applied + count) qs')

theorem notify (next : ObserverState) (qs : List (Recorded P)) :
    List.Forall₂ R qs (notify next qs).2 := by
  induction qs with
  | nil => exact List.Forall₂.nil
  | cons q rest ih =>
      have hcall := hkept.onStateChange next q
      unfold ProjectionRouter.notify
      rcases hexec : (Projection.onStateChange next).exec q with ⟨err | _, q'⟩
      all_goals rw [hexec] at hcall
      · exact List.Forall₂.cons hcall (Pointwise.refl hkept.refl rest)
      · exact List.Forall₂.cons hcall ih

theorem dispatch (r : ProjectionRouter (Recorded P)) :
    List.Forall₂ R r.projections ((dispatch event ctx).exec r).2.projections := by
  have hfan := hkept.fanOut event ctx (r.observersByCode event.typeCode) 0 r.projections
  have hdispatched := dispatch_cases event ctx r
  generalize (ProjectionRouter.dispatch event ctx).exec r = result at hdispatched ⊢
  cases hdispatched with
  | refused err _ => exact Pointwise.refl hkept.refl _
  | redelivered _ => exact Pointwise.refl hkept.refl _
  | failed err qs _ hexec =>
      rw [hexec] at hfan
      exact hfan
  | advanced applied qs _ hexec =>
      rw [hexec] at hfan
      exact hfan

theorem transition (next : ObserverState) (r : ProjectionRouter (Recorded P)) :
    List.Forall₂ R r.projections ((transition next).exec r).2.projections := by
  have hnotify := hkept.notify next r.projections
  unfold ProjectionRouter.transition
  simp only [exec_bind, exec_get, exec_ite, exec_throw]
  split
  case isTrue => exact Pointwise.refl hkept.refl _
  case isFalse =>
      rcases hexec : ProjectionRouter.notify next r.projections with ⟨err | _, qs⟩
      all_goals rw [hexec] at hnotify
      all_goals exact hnotify

/-- A step leaves each projection in its place, with what every call does to it. -/
theorem step (stream : List EventRecord) (s : Consumer (Recorded P)) (c : ConsumerStep) :
    List.Forall₂ R s.router.projections (s.step stream c).router.projections := by
  cases c with
  | deliver index ctx =>
      cases hj : stream[min index s.next]? with
      | none =>
          rw [step_beyond ctx hj]
          exact Pointwise.refl hkept.refl _
      | some event =>
          have hdispatch := hkept.dispatch event ctx s.router
          rw [step_deliver ctx hj]
          rcases hexec : (ProjectionRouter.dispatch event ctx).exec s.router with ⟨err | applied, r⟩
          all_goals rw [hexec] at hdispatch
          all_goals exact hdispatch
  | transition state => exact hkept.transition state s.router
  | rebuild resume =>
      show List.Forall₂ R _ (ProjectionRouter.rebuild s.router.projections).projections
      rw [(rebuilt_rebuild s.router.projections).projections]
      exact Pointwise.refl hkept.refl _

/-- So does a run. -/
theorem run (stream : List EventRecord) (s : Consumer (Recorded P)) (steps : List ConsumerStep) :
    List.Forall₂ R s.router.projections (s.run stream steps).router.projections := by
  induction steps generalizing s with
  | nil => exact Pointwise.refl hkept.refl _
  | cons c steps ih =>
      exact Pointwise.trans hkept.trans (hkept.step stream s c) (ih (s.step stream c))

end KeptByCalls

end

/-! ## What is never lost -/

section

variable {P : Type} [Projection P] [LawfulProjection P]

theorem codes_kept : KeptByCalls fun q q' : Recorded P =>
    Projection.observes q'.projection = Projection.observes q.projection where
  refl _ := rfl
  trans _ _ _ hxy hyz := hyz.trans hxy
  onEvent event ctx q := by
    have hobserves := LawfulProjection.observes_onEvent event ctx q.projection
    rw [Recorded.exec_onEvent]
    rcases hexec : (Projection.onEvent event ctx).exec q.projection with ⟨err | _, p⟩
    all_goals rw [hexec] at hobserves
    all_goals exact hobserves
  onStateChange next q := by
    rw [Recorded.exec_onStateChange]
    exact LawfulProjection.observes_onStateChange next q.projection

/-- The consumer after some steps over projections that are fresh, with their records. -/
def recorded (stream : List EventRecord) (ps : List P) (steps : List ConsumerStep) :
    Consumer (Recorded P) := (start (ps.map Recorded.fresh)).run stream steps

omit [LawfulProjection P] in
theorem erase_recorded (stream : List EventRecord) (ps : List P) (steps : List ConsumerStep) :
    (recorded stream ps steps).erase = (start ps).run stream steps := by
  have hmap : (ps.map Recorded.fresh).map Recorded.projection = ps := by
    rw [List.map_map]
    exact List.map_id ps
  have hstart : (start (ps.map Recorded.fresh)).erase = start ps := by
    show (⟨(ProjectionRouter.rebuild (ps.map Recorded.fresh)).erase, 0⟩ : Consumer P) = _
    rw [erase_rebuild, hmap]
    rfl
  unfold recorded
  rw [erase_run, hstart]

omit [LawfulProjection P] in
theorem kept_recorded {R : Recorded P → Recorded P → Prop} (hkept : KeptByCalls R)
    (stream : List EventRecord) (ps : List P) (steps : List ConsumerStep) :
    List.Forall₂ (fun p q => R (Recorded.fresh p) q) ps
      (recorded stream ps steps).router.projections := by
  have hrun := hkept.run stream (start (ps.map Recorded.fresh)) steps
  have hstart : (start (ps.map Recorded.fresh)).router.projections = ps.map Recorded.fresh :=
    (rebuilt_rebuild _).projections
  rw [hstart, List.forall₂_map_left_iff] at hrun
  exact hrun

theorem sound_recorded {stream : List EventRecord} (hordered : Ordered none stream) {ps : List P}
    (hfresh : ∀ p ∈ ps, Projection.lastApplied p = none) (steps : List ConsumerStep) :
    Sound stream (recorded stream ps steps) := (sound_start stream hfresh).run hordered steps

/-- The first `k` events have every one that was acknowledged, now or before a rebuild. -/
def Covers (stream : List EventRecord) (ps : List P) (steps : List ConsumerStep) (k : ℕ) : Prop :=
  ∀ earlier, earlier <+: steps → ((start ps).run stream earlier).next ≤ k

omit [LawfulProjection P] in
/-- No call takes back what was accepted. -/
theorem accepted_kept : KeptByCalls fun q q' : Recorded P => q.accepted <+: q'.accepted where
  refl q := List.prefix_refl q.accepted
  trans _ _ _ hxy hyz := hxy.trans hyz
  onEvent event ctx q := by
    rw [Recorded.exec_onEvent]
    rcases (Projection.onEvent event ctx).exec q.projection with ⟨err | _, p⟩
    · exact List.prefix_refl q.accepted
    · exact List.prefix_append q.accepted [event]
  onStateChange next q := by
    have hsame : ((Projection.onStateChange next).exec q).2.accepted = q.accepted := by
      rw [Recorded.exec_onStateChange]
    exact hsame ▸ List.prefix_refl q.accepted

omit [LawfulProjection P] in
theorem recorded_concat (stream : List EventRecord) (ps : List P) (steps : List ConsumerStep)
    (c : ConsumerStep) :
    recorded stream ps (steps ++ [c]) = (recorded stream ps steps).step stream c :=
  List.foldl_append

/-- After some steps each projection has accepted what it observes of a first part of the
    stream. -/
theorem tracked_recorded {stream : List EventRecord} (hordered : Ordered none stream)
    {ps : List P} (hfresh : ∀ p ∈ ps, Projection.lastApplied p = none)
    (steps : List ConsumerStep) {i : ℕ} {p : P} {q : Recorded P} (hp : ps[i]? = some p)
    (hq : (recorded stream ps steps).router.projections[i]? = some q) :
    ∃ k, ((start ps).run stream steps).next ≤ k ∧ q.accepted = observed p (stream.take k) := by
  have hsound := sound_recorded hordered hfresh steps
  have hcodes : Projection.observes q.projection = Projection.observes p :=
    Pointwise.getElem?_rel
      (Q := fun p q => Projection.observes q.projection = Projection.observes p)
      (kept_recorded codes_kept stream ps steps) hp hq
  obtain ⟨k, hk, haccepted⟩ := (hsound.tracks q (List.mem_of_getElem? hq)).accepted
  rw [← erase_recorded]
  exact ⟨k, hk, haccepted.trans (observed_congr hcodes _)⟩

omit [LawfulProjection P] in
/-- Of two first parts, what is observed of the one begins what is observed of the other, so the
    longer one will do for both. -/
theorem observed_take_max {stream : List EventRecord} {p : P} {k k' : ℕ}
    (h : observed p (stream.take k) <+: observed p (stream.take k')) :
    observed p (stream.take k') = observed p (stream.take (max k k')) := by
  rcases Nat.le_total k k' with hle | hle
  · rw [Nat.max_eq_right hle]
  · rw [Nat.max_eq_left hle]
    have hback : observed p (stream.take k') <+: observed p (stream.take k) :=
      (List.take_prefix_take_left hle).filter _
    exact hback.eq_of_length_le h.length_le

/-- Each projection has accepted what it observes of a first part of the stream that has every
    event ever acknowledged: what it accepted before the last step is still there after it. -/
theorem followers_recorded {stream : List EventRecord} (hordered : Ordered none stream)
    {ps : List P} (hfresh : ∀ p ∈ ps, Projection.lastApplied p = none)
    (steps : List ConsumerStep) :
    List.Forall₂ (fun p q => ∃ k, Covers stream ps steps k ∧
      q.accepted = observed p (stream.take k)) ps
      (recorded stream ps steps).router.projections := by
  refine Pointwise.of_getElem? (kept_recorded codes_kept stream ps steps).length_eq ?_
  intro i p q hp hq
  induction steps using List.reverseRecOn generalizing q with
  | nil =>
      obtain ⟨k, hk, haccepted⟩ := tracked_recorded hordered hfresh [] hp hq
      refine ⟨k, ?_, haccepted⟩
      intro earlier hearlier
      rw [List.prefix_nil.mp hearlier]
      exact hk
  | append_singleton steps c ih =>
      obtain ⟨k', hk', haccepted'⟩ := tracked_recorded hordered hfresh (steps ++ [c]) hp hq
      have hstep := accepted_kept.run stream (recorded stream ps steps) [c]
      rw [recorded_concat] at hq
      obtain ⟨q₀, hq₀, hgrown⟩ := Pointwise.getElem?_right hstep hq
      obtain ⟨k, hk, haccepted⟩ := ih q₀ hq₀
      rw [haccepted, haccepted'] at hgrown
      refine ⟨max k k', ?_, haccepted'.trans (observed_take_max hgrown)⟩
      intro earlier hearlier
      rcases List.prefix_concat_iff.mp hearlier with rfl | hbefore
      · exact hk'.trans (Nat.le_max_right k k')
      · exact (hk earlier hbefore).trans (Nat.le_max_left k k')

/-- **Rebuilt routers lose nothing and apply nothing twice.** After any steps of a consumer of an
    ordered stream: what each projection has accepted is what it observes of a first part of the
    stream, in which every event is that was ever acknowledged. Once all have been it has accepted
    what it observes of the whole. And the next event is acknowledged by an active router as soon as
    every observer that lacks it takes it. -/
theorem rebuilt_routers_lose_nothing {stream : List EventRecord} (hordered : Ordered none stream)
    {ps : List P} (hfresh : ∀ p ∈ ps, Projection.lastApplied p = none)
    (steps : List ConsumerStep) :
    (recorded stream ps steps).erase = (start ps).run stream steps ∧
    List.Forall₂ (fun p q => ∃ k, Covers stream ps steps k ∧
      q.accepted = observed p (stream.take k)) ps (recorded stream ps steps).router.projections ∧
    (∀ earlier, earlier <+: steps → ((start ps).run stream earlier).next = stream.length →
      (recorded stream ps steps).router.projections.map Recorded.accepted =
        ps.map fun p => observed p stream) ∧
    ∀ event ctx, stream[(recorded stream ps steps).next]? = some event →
      (recorded stream ps steps).router.state = .active →
      (∀ q ∈ (recorded stream ps steps).router.projections,
        event.typeCode ∈ Projection.observes q.projection → Ready event ctx q) →
      (recorded stream ps (steps ++ [.deliver (recorded stream ps steps).next ctx])).next =
        (recorded stream ps steps).next + 1 := by
  have hsound := sound_recorded hordered hfresh steps
  have hfollowers := followers_recorded hordered hfresh steps
  refine ⟨erase_recorded stream ps steps, hfollowers, ?_, ?_⟩
  · intro earlier hearlier hall
    refine List.ext_getElem? ?_
    intro i
    rw [List.getElem?_map, List.getElem?_map]
    cases hq : (recorded stream ps steps).router.projections[i]? with
    | none =>
        have hnone : ps[i]? = none := by
          rw [List.getElem?_eq_none_iff] at hq ⊢
          rw [hfollowers.length_eq]
          exact hq
        rw [hnone]
        rfl
    | some q =>
        have hlt : i < ps.length := by
          rw [hfollowers.length_eq]
          exact (List.getElem?_eq_some_iff.mp hq).1
        obtain ⟨p, hp⟩ : ∃ p, ps[i]? = some p := ⟨_, List.getElem?_eq_getElem hlt⟩
        obtain ⟨k, hk, haccepted⟩ := Pointwise.getElem?_rel hfollowers hp hq
        rw [List.take_of_length_le (hall ▸ hk earlier hearlier)] at haccepted
        rw [hp, Option.map_some, Option.map_some, haccepted]
  · intro event ctx hj hactive hready
    have hacknowledged := hsound.acknowledged hordered hj hactive hready
    show ((start (ps.map Recorded.fresh)).run stream (steps ++ _)).next = _
    unfold run
    rw [List.foldl_append]
    exact hacknowledged

end

end Consumer

/-! ## A crash after half a fan-out -/

/-- The second delivery fails on the later observer; the router is rebuilt and takes both
    events again. -/
def crashSteps : List ConsumerStep :=
  [.transition .active, .deliver 0 ⟨5, firstInstance⟩, .deliver 1 ⟨6, firstInstance⟩, .rebuild 0,
    .transition .active, .deliver 0 ⟨5, firstInstance⟩, .deliver 1 ⟨6, firstInstance⟩]

def crashStream : List EventRecord := [headEvent 5 [0x10], headEvent 6 [0x10]]

theorem rebuilt_routers_lose_nothing_crash :
    (Consumer.recorded crashStream [FailSecondProjection.called 2, .called 0] crashSteps).next = 2 ∧
    (Consumer.recorded crashStream [FailSecondProjection.called 2, .called 0]
      crashSteps).router.projections.map Recorded.accepted = [crashStream, crashStream] := by
  have hordered : Ordered none crashStream := ordered_heads rfl (by decide)
  have hfresh : ∀ p ∈ [FailSecondProjection.called 2, .called 0],
      Projection.lastApplied p = none := by decide
  have hnext : (Consumer.recorded crashStream [FailSecondProjection.called 2, .called 0]
      crashSteps).next = 2 := by decide +kernel
  obtain ⟨-, -, hall, -⟩ := Consumer.rebuilt_routers_lose_nothing hordered hfresh crashSteps
  refine ⟨hnext, hall crashSteps (List.prefix_refl _) ?_⟩
  rw [← Consumer.erase_recorded]
  exact hnext

end ArkheForge.Platform
