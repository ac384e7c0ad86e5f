/-
  The cross-shell notices (`CrossShellActivityFanout`, `projection.rs`).

  The fan-out decodes each `CrossShellActivity` event and queues the notice under its target
  shell. It is one projection among the others of a router (`Vec<Box<dyn Projection>>`:
  here a list of fan-outs and projections of any other kind), behind the consumer of
  `Rebuild`, which crashes, resumes and redelivers, with other projections that fail at any
  call. Every queue holds the notices of a first part of the stream for its own shell, in
  order and once each, and an event whose payload is no notice holds the consumer for good
  (`notices_reach_their_shells`).
-/
import ArkheForge.Core.PostcardWire
import ArkheForge.Platform.Projection.Places

namespace ArkheForge.Platform

open ArkheForge.Core BigEndian Consumer Fallible

/-! ## The fan-out of cross-shell activities -/

/-- `CrossShellActivity` (`event.rs`). -/
structure CrossShellActivity where
  schemaVersion : UInt16
  actor : ActorId
  targetShellId : ShellId
  recordShellId : ShellId
  detectedTick : Tick
  deriving DecidableEq, Repr

/-- `CrossShellActivityFanout`. The map is what `notifications_for` reads of it. -/
structure CrossShellActivityFanout where
  observes : Vector TypeCode 1
  byTargetShell : ShellId → List CrossShellActivity
  cursor : Option ProjectionCursor

namespace CrossShellActivityFanout

/-- `CrossShellActivityFanout::new`. -/
def new : CrossShellActivityFanout where
  observes := Vector.singleton crossShellActivityCode
  byTargetShell := fun _ => []
  cursor := none

/-- `CrossShellActivityFanout::notifications_for`. -/
def notificationsFor (fanout : CrossShellActivityFanout) (shell : ShellId) :
    List CrossShellActivity := fanout.byTargetShell shell

/-- `entry(notice.target_shell_id).or_default().push(notice)`. -/
def push (notice : CrossShellActivity) (fanout : CrossShellActivityFanout) :
    CrossShellActivityFanout :=
  { fanout with
    byTargetShell := Function.update fanout.byTargetShell notice.targetShellId
      (fanout.byTargetShell notice.targetShellId ++ [notice]) }

section

variable [Postcard CrossShellActivity]

/-- The payload decoded. -/
def decodeNotice (payload : Bytes) : Except ProjectionError CrossShellActivity :=
  match Postcard.fromBytes payload with
  | .ok notice => .ok notice
  | .error _ => .error (.decodeFailed "CrossShellActivity payload")

instance fanoutProjection : Projection CrossShellActivityFanout where
  observes fanout := fanout.observes.toList
  onEvent event _ := do
    let notice ← ofExcept (decodeNotice event.payload)
    modify (push notice)
    modify fun fanout => { fanout with cursor := some (position event) }
  lastApplied fanout := fanout.cursor.map fun c => (c.sequence, c.tick)

variable (event : EventRecord) (ctx : ProjectionContext) (fanout : CrossShellActivityFanout)

theorem exec_onEvent : (Projection.onEvent event ctx).exec fanout =
    match decodeNotice event.payload with
    | .ok notice => (.ok (), { fanout.push notice with cursor := some (position event) })
    | .error err => (.error err, fanout) := by
  show exec (ofExcept (decodeNotice event.payload) >>= _) fanout = _
  rw [exec_bind, exec_ofExcept]
  rcases decodeNotice event.payload with err | notice
  all_goals rfl

instance fanoutLawful : LawfulProjection CrossShellActivityFanout where
  observes_onEvent event ctx fanout := by
    rw [exec_onEvent]
    rcases decodeNotice event.payload with err | notice
    all_goals rfl
  observes_onStateChange next fanout := rfl
  lastApplied_of_ok event ctx fanout h := by
    rw [exec_onEvent] at h ⊢
    rcases hdecode : decodeNotice event.payload with err | notice
    · rw [hdecode] at h
      simp at h
    · rfl
  lastApplied_of_error event ctx fanout err h := by
    rw [exec_onEvent] at h ⊢
    rcases hdecode : decodeNotice event.payload with err | notice
    · rfl
    · rw [hdecode] at h
      simp at h
  lastApplied_onStateChange next fanout := rfl

end

end CrossShellActivityFanout

/-! ## What the queues hold -/

/-- The event is one the fan-out observes. -/
def Crossing (event : EventRecord) : Prop := event.typeCode = crossShellActivityCode

instance : DecidablePred Crossing := fun _ => inferInstanceAs (Decidable (_ = _))

section

variable [Postcard CrossShellActivity]

/-- What the event notifies of, if its payload is a notice. -/
def noticeOf (event : EventRecord) : Option CrossShellActivity :=
  (CrossShellActivityFanout.decodeNotice event.payload).toOption

/-- An event the fan-out observes and cannot decode. -/
def Undecodable (event : EventRecord) : Prop := Crossing event ∧ noticeOf event = none

/-- The notices for a shell among the events, in their order. -/
def noticesFor (shell : ShellId) (events : List EventRecord) : List CrossShellActivity :=
  ((events.filter fun event => Crossing event).filterMap noticeOf).filter
    fun notice => notice.targetShellId = shell

namespace CrossShellActivityFanout

variable {event : EventRecord} {shell : ShellId} {events : List EventRecord}

/-- The queues hold what was accepted, each notice under its target. -/
structure Holds (events : List EventRecord) (fanout : CrossShellActivityFanout) : Prop where
  observes : fanout.observes = Vector.singleton crossShellActivityCode
  decoded : ∀ event ∈ events, (noticeOf event).isSome
  queues : ∀ shell, fanout.notificationsFor shell =
    (events.filterMap noticeOf).filter fun notice => notice.targetShellId = shell

theorem holds_new : Holds [] new := ⟨rfl, by simp, fun _ => rfl⟩

theorem Holds.push {fanout : CrossShellActivityFanout} (h : Holds events fanout)
    {notice : CrossShellActivity} (hnotice : noticeOf event = some notice) :
    Holds (events ++ [event]) { fanout.push notice with cursor := some (position event) } := by
  refine ⟨h.observes, ?_, ?_⟩
  · intro other hother
    rcases List.mem_append.mp hother with hold | hlast
    · exact h.decoded other hold
    · rw [List.mem_singleton.mp hlast, hnotice]
      rfl
  · intro shell
    have hqueue := h.queues shell
    unfold notificationsFor at hqueue ⊢
    rw [List.filterMap_append, List.filter_append, ← hqueue]
    have hone : [event].filterMap noticeOf = [notice] := by simp [hnotice]
    rw [hone]
    unfold CrossShellActivityFanout.push
    by_cases htarget : notice.targetShellId = shell
    · subst htarget
      simp
    · simp [htarget, Function.update_of_ne (Ne.symm htarget)]

theorem accumulates : Accumulates Holds where
  accepted {events event ctx fanout fanout'} h hexec := by
    rw [exec_onEvent] at hexec
    cases hdecode : decodeNotice event.payload with
    | error err =>
        rw [hdecode] at hexec
        exact absurd hexec (by simp)
    | ok notice =>
        have hnotice : noticeOf event = some notice := by
          unfold noticeOf
          rw [hdecode]
          rfl
        rw [hdecode] at hexec
        rw [← (Prod.mk.inj hexec).2]
        exact h.push hnotice
  refused {events event ctx fanout fanout' err} h hexec := by
    rw [exec_onEvent] at hexec
    cases hdecode : decodeNotice event.payload with
    | error err' =>
        rw [hdecode] at hexec
        rw [← (Prod.mk.inj hexec).2]
        exact h
    | ok notice =>
        rw [hdecode] at hexec
        exact absurd hexec (by simp)
  onStateChange _ _ h := h

end CrossShellActivityFanout

theorem noticesFor_of_observed {fanout : CrossShellActivityFanout} {events : List EventRecord}
    (h : fanout.Holds (observed CrossShellActivityFanout.new events)) :
    (∀ event ∈ events, ¬ Undecodable event) ∧
      ∀ shell, fanout.notificationsFor shell = noticesFor shell events := by
  have hobserved : observed CrossShellActivityFanout.new events =
      events.filter fun event => Crossing event := by
    refine List.filter_congr ?_
    intro event _
    exact decide_eq_decide.mpr List.mem_singleton
  rw [hobserved] at h
  refine ⟨?_, h.queues⟩
  rintro event hevent ⟨hcrossing, hnone⟩
  have hsome := h.decoded event (List.mem_filter.mpr ⟨hevent, decide_eq_true hcrossing⟩)
  rw [hnone] at hsome
  simp at hsome

variable {Q : Type} [Projection Q]

/-- The projections of a deployment before anything was delivered. -/
structure Deployed (ps : List (CrossShellActivityFanout ⊕ Q)) : Prop where
  fanouts : ∀ fanout, .inl fanout ∈ ps → fanout = .new
  others : ∀ q, .inr q ∈ ps → Projection.lastApplied q = none

theorem Deployed.fresh {ps : List (CrossShellActivityFanout ⊕ Q)} (h : Deployed ps) :
    ∀ p ∈ ps, Projection.lastApplied p = none := by
  intro p hp
  cases p with
  | inl fanout =>
      rw [h.fanouts fanout hp]
      rfl
  | inr q => exact h.others q hp

/-- The consumer after some steps over what was deployed. -/
def consumed (stream : List EventRecord) (ps : List (CrossShellActivityFanout ⊕ Q))
    (steps : List ConsumerStep) : Consumer (CrossShellActivityFanout ⊕ Q) :=
  (start ps).run stream steps

variable [LawfulProjection Q]

/-- **Notices reach their shells.** However the consumer of an ordered stream has stepped,
    whatever the other projections are and wherever they failed: every fan-out is still in its
    place, and its queues hold, shell by shell, the notices of a first part of the stream that
    has every event ever acknowledged, in order and once each. All of that part decodes, so an
    event that does not is never acknowledged, nor anything behind it. -/
theorem notices_reach_their_shells {stream : List EventRecord} (hordered : Ordered none stream)
    {ps : List (CrossShellActivityFanout ⊕ Q)} (hdeployed : Deployed ps)
    (steps : List ConsumerStep) {i : ℕ} (hi : ps[i]? = some (.inl .new)) :
    (∃ fanout k, (consumed stream ps steps).router.projections[i]? = some (.inl fanout) ∧
      Covers stream ps steps k ∧ (∀ event ∈ stream.take k, ¬ Undecodable event) ∧
      ∀ shell, fanout.notificationsFor shell = noticesFor shell (stream.take k)) ∧
    ∀ (j : ℕ) (event : EventRecord), stream[j]? = some event → Undecodable event →
      (consumed stream ps steps).next ≤ j := by
  obtain ⟨fanout, k, hplace, hk, hholds⟩ := placed_holds CrossShellActivityFanout.accumulates
    hordered hdeployed.fresh steps hi CrossShellActivityFanout.holds_new
  obtain ⟨hdecoded, hqueues⟩ := noticesFor_of_observed hholds
  refine ⟨⟨fanout, k, hplace, hk, hdecoded, hqueues⟩, ?_⟩
  intro j event hj hundecodable
  by_contra hpassed
  have hlt : j < k := (not_le.mp hpassed).trans_le (hk steps (List.prefix_refl steps))
  refine hdecoded event (List.mem_of_getElem? (i := j) ?_) hundecodable
  rw [List.getElem?_take_of_lt hlt]
  exact hj

end

/-! ## A notice and a payload that is none -/

section

/-- The notice on the wire. -/
def crossShellActivityWire : Codec CrossShellActivity :=
  (Codec.u16.pair (Wire.actorId.pair (Wire.shellId.pair (Wire.shellId.pair Codec.u64)))).via
    (fun (v, a, t, r, d) => some ⟨v, a, t, r, d⟩)
    (fun n => (n.schemaVersion, n.actor, n.targetShellId, n.recordShellId, n.detectedTick))
    fun _ => rfl

abbrev crossShellActivityPostcard : Postcard CrossShellActivity :=
  .ofCodec crossShellActivityWire

attribute [local instance] crossShellActivityPostcard

/-- A notice for the shell of sevens. -/
def someNotice : CrossShellActivity where
  schemaVersion := 1
  actor := ⟨firstInstance.get, firstInstance.get_ne_zero⟩
  targetShellId := ⟨Vector.replicate 16 7⟩
  recordShellId := ⟨Vector.replicate 16 9⟩
  detectedTick := 5

def noticeStream : List EventRecord :=
  [headEvent 5 (crossShellActivityWire.encode someNotice), headEvent 6 [0x10]]

/-- The other observer fails at its second call, the first delivery of the payload. -/
def noticePlaces : List (CrossShellActivityFanout ⊕ FailSecondProjection) :=
  [.inr (.called 0), .inl .new]

def noticeSteps : List ConsumerStep :=
  [.transition .active, .deliver 0 ⟨5, firstInstance⟩, .deliver 1 ⟨6, firstInstance⟩, .rebuild 0,
    .transition .active, .deliver 0 ⟨5, firstInstance⟩, .deliver 1 ⟨6, firstInstance⟩]

theorem notices_reach_their_shells_poisoned :
    (∃ fanout, (consumed noticeStream noticePlaces noticeSteps).router.projections[1]? =
        some (.inl fanout) ∧
      fanout.notificationsFor ⟨Vector.replicate 16 7⟩ = [someNotice] ∧
      fanout.notificationsFor ⟨Vector.replicate 16 9⟩ = []) ∧
    (consumed noticeStream noticePlaces noticeSteps).next = 1 := by
  have hordered : Ordered none noticeStream := ordered_heads rfl (by decide)
  have hdeployed : Deployed noticePlaces := by
    refine ⟨?_, ?_⟩
    · intro fanout hfanout
      simpa [noticePlaces] using hfanout
    · intro q hq
      obtain rfl : q = FailSecondProjection.called 0 := by simpa [noticePlaces] using hq
      rfl
  have hnext : (consumed noticeStream noticePlaces noticeSteps).next = 1 := by decide +kernel
  obtain ⟨⟨fanout, k, hplace, hk, hdecoded, hqueues⟩, -⟩ :=
    notices_reach_their_shells hordered hdeployed noticeSteps (i := 1) rfl
  have hpoison : Undecodable (headEvent 6 [0x10]) := ⟨rfl, by decide +kernel⟩
  obtain rfl : k = 1 := by
    have hk := hk noticeSteps (List.prefix_refl _)
    rw [show ((start noticePlaces).run noticeStream noticeSteps).next = 1 from hnext] at hk
    by_contra hne
    refine hdecoded (headEvent 6 [0x10]) (List.mem_of_getElem? (i := 1) ?_) hpoison
    rw [List.getElem?_take_of_lt (by omega)]
    rfl
  refine ⟨⟨fanout, hplace, ?_, ?_⟩, hnext⟩
  · rw [hqueues]
    decide +kernel
  · rw [hqueues]
    decide +kernel

end

end ArkheForge.Platform
