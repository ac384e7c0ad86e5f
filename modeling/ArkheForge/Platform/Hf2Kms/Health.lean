/-
  The health of the KMS channels and what is promoted on it: `hf2_kms/health.rs` and
  `ProjectionRouter::evaluate_auto_promote` (`projection.rs`).

  A probe is what it returned, since how a socket answers is outside. The aggregator keeps
  a list of channels in which a channel may stand twice; the second cell is never set, so
  whatever list it was made from, its counts are over the channels by their last report
  (`promotes_on_last_reports`). The checker counts probes, not channels: two probes of one
  channel are two votes, which the aggregator fed with them merges
  (`aggregator_of_checked`). Durations are nanoseconds; of the manifest the policy alone is
  read, of the router nothing.
-/
import ArkheForge.Lib.Register

namespace ArkheForge.Platform

/-- `Channel`. -/
inductive Channel
  | default
  | dnsOverHttps
  | staticIp
  | alternateRegion
  deriving DecidableEq, Repr

namespace Channel

def all : List Channel := [.default, .dnsOverHttps, .staticIp, .alternateRegion]

theorem all_nodup : all.Nodup := by decide

theorem mem_all (c : Channel) : c ∈ all := by cases c <;> decide

instance fintype : Fintype Channel := ⟨⟨all, all_nodup⟩, mem_all⟩

end Channel

/-- `Status`. -/
inductive Status
  | healthy
  | failing
  | unknown
  deriving DecidableEq, Repr

/-- `HealthError`. -/
inductive HealthError
  | dnsResolution (hostport : String)
  | io (message : String)
  deriving DecidableEq, Repr

/-- `HealthChannel`: its id and what `probe` returns this time. -/
structure HealthChannel where
  channelId : Channel
  probe : Except HealthError Status

/-- `ConsensusResult`. -/
structure ConsensusResult where
  perChannel : List (Channel × Status)
  failingCount : ℕ
  total : ℕ
  isQuorumFailing : Bool
  deriving DecidableEq, Repr

/-- `ConsensusHealthChecker`. -/
structure ConsensusHealthChecker where
  channels : List HealthChannel
  threshold : ℕ

/-- `ch.probe().unwrap_or(Status::Failing)`. -/
def HealthChannel.vote (ch : HealthChannel) : Status :=
  match ch.probe with
  | .ok status => status
  | .error _ => .failing

namespace ConsensusHealthChecker

/-- `two_of_three`, `none` where the assertion fails. -/
def twoOfThree (channels : List HealthChannel) : Option ConsensusHealthChecker :=
  if channels.length = 3 then some ⟨channels, 2⟩ else none

/-- `total`. -/
def total (checker : ConsensusHealthChecker) : ℕ := checker.channels.length

/-- The loop of `check`. -/
def probeAll : List HealthChannel → List (Channel × Status) × ℕ → List (Channel × Status) × ℕ
  | [], acc => acc
  | ch :: rest, (perChannel, failingCount) =>
    let status := ch.vote
    let failingCount := if status = .failing then failingCount + 1 else failingCount
    probeAll rest (perChannel ++ [(ch.channelId, status)], failingCount)

/-- `check`. -/
def check (checker : ConsensusHealthChecker) : ConsensusResult :=
  let (perChannel, failingCount) := probeAll checker.channels ([], 0)
  { perChannel := perChannel
    failingCount := failingCount
    total := perChannel.length
    isQuorumFailing := decide (checker.threshold ≤ failingCount) }

/-- The votes of the channels, in order. -/
def votes (channels : List HealthChannel) : List (Channel × Status) :=
  channels.map fun ch => (ch.channelId, ch.vote)

theorem probeAll_eq (channels : List HealthChannel) (perChannel : List (Channel × Status))
    (failingCount : ℕ) : probeAll channels (perChannel, failingCount) =
      (perChannel ++ votes channels,
        failingCount + (votes channels).countP fun w => w.2 = .failing) := by
  induction channels generalizing perChannel failingCount with
  | nil => simp [probeAll, votes]
  | cons ch rest ih =>
      simp only [probeAll, ih, votes, List.map_cons, List.countP_cons, List.append_assoc,
        List.singleton_append, Prod.mk.injEq, true_and]
      by_cases hvote : ch.vote = .failing
      · simp only [hvote, decide_true, if_true]
        omega
      · simp [hvote]

/-- What a check returns: the votes and their count. -/
theorem check_eq (checker : ConsensusHealthChecker) :
    checker.check =
      { perChannel := votes checker.channels
        failingCount := (votes checker.channels).countP fun w => w.2 = .failing
        total := checker.total
        isQuorumFailing := decide
          (checker.threshold ≤ (votes checker.channels).countP fun w => w.2 = .failing) } := by
  simp [check, probeAll_eq, votes, total]

end ConsensusHealthChecker

/-- `MultiChannelHealth`. -/
structure MultiChannelHealth where
  channels : List (Channel × Status)

namespace MultiChannelHealth

/-- `MultiChannelHealth::new`. -/
def new (channels : List Channel) : MultiChannelHealth :=
  ⟨channels.map fun c => (c, .unknown)⟩

/-- `set_status`: the first entry of the channel, or a new one. -/
def setStatus (channel : Channel) (status : Status) (h : MultiChannelHealth) :
    MultiChannelHealth :=
  ⟨Register.write channel status h.channels⟩

/-- `is_quorum_failing`. -/
def isQuorumFailing (h : MultiChannelHealth) (threshold : ℕ) : Bool :=
  decide (threshold ≤ (h.channels.filter fun c => c.2 = .failing).length)

/-- `healthy_count`. -/
def healthyCount (h : MultiChannelHealth) : ℕ :=
  (h.channels.filter fun c => c.2 = .healthy).length

/-- The aggregator after a run of reports. -/
def run (reports : List (Channel × Status)) (h : MultiChannelHealth) : MultiChannelHealth :=
  reports.foldl (fun h report => h.setStatus report.1 report.2) h

theorem run_append (reports later : List (Channel × Status)) (h : MultiChannelHealth) :
    run (reports ++ later) h = run later (run reports h) := List.foldl_append

/-- The cells after a run of reports. -/
theorem channels_run (reports : List (Channel × Status)) (h : MultiChannelHealth) :
    (run reports h).channels =
      reports.foldl (fun cells w => Register.write w.1 w.2 cells) h.channels := by
  induction reports generalizing h with
  | nil => rfl
  | cons report later ih => exact ih _

/-- How many cells hold a status that is not the first one, after a run. -/
theorem length_filter_run {status : Status} (hstatus : status ≠ .unknown) (channels : List Channel)
    (reports : List (Channel × Status)) :
    (((run reports (new channels)).channels).filter fun c => c.2 = status).length =
      (Register.lastly status reports).card := by
  rw [channels_run, ← List.countP_eq_length_filter]
  exact Register.count_foldl_write hstatus channels reports

end MultiChannelHealth

/-! ## Promotion -/

/-- `HF2_HEALTH_QUORUM_MIN`. -/
def hf2HealthQuorumMin : ℕ := 2

/-- `Duration::from_secs`. -/
def fromSecs (secs : ℕ) : ℕ := secs * 1000000000

/-- `PromotionDecision`. -/
inductive PromotionDecision
  | promote
  | wait
  deriving DecidableEq, Repr

/-- `evaluate_auto_promote`. -/
def evaluateAutoPromote (kmsAutoPromote : String) (primaryDownDuration : ℕ)
    (health : MultiChannelHealth) (thresholdReady : Bool) : Option PromotionDecision :=
  match kmsAutoPromote with
  | "manual" => some .wait
  | "after_60min" =>
    let elapsedOk := decide (fromSecs (60 * 60) ≤ primaryDownDuration)
    let healthOk := decide (hf2HealthQuorumMin ≤ health.healthyCount)
    if elapsedOk && healthOk then some .promote else some .wait
  | "threshold_hsm" => if thresholdReady then some .promote else some .wait
  | _ => none

/-- The policies that are known. -/
def policies : List String := ["manual", "after_60min", "threshold_hsm"]

section

variable (kmsAutoPromote : String) (primaryDownDuration : ℕ) (health : MultiChannelHealth)
  (thresholdReady : Bool)

/-- No decision is made exactly on a policy that is not known. -/
theorem evaluateAutoPromote_eq_none :
    evaluateAutoPromote kmsAutoPromote primaryDownDuration health thresholdReady = none ↔
      kmsAutoPromote ∉ policies := by
  unfold evaluateAutoPromote policies
  split
  · simp
  · simp only [List.mem_cons, true_or, or_true, not_true_eq_false, iff_false]
    split <;> exact Option.some_ne_none _
  · simp only [List.mem_cons, true_or, or_true, not_true_eq_false, iff_false]
    split <;> exact Option.some_ne_none _
  · next hmanual hafter hhsm => simpa using ⟨hmanual, hafter, hhsm⟩

/-- The two ways to a promotion. -/
theorem evaluateAutoPromote_eq_promote :
    evaluateAutoPromote kmsAutoPromote primaryDownDuration health thresholdReady =
        some .promote ↔
      (kmsAutoPromote = "after_60min" ∧ fromSecs 3600 ≤ primaryDownDuration ∧
        hf2HealthQuorumMin ≤ health.healthyCount) ∨
      (kmsAutoPromote = "threshold_hsm" ∧ thresholdReady = true) := by
  unfold evaluateAutoPromote
  split
  · simp
  · simp
  · simp
  · next hmanual hafter hhsm =>
      refine iff_of_false (by simp) ?_
      rintro (⟨heq, _⟩ | ⟨heq, _⟩)
      · exact hafter heq
      · exact hhsm heq

end

/-- Whatever channels an aggregator was made from, one of them twice or not among them,
    and whatever was reported since: a quorum fails exactly if that many different channels
    were last reported failing. A promotion comes of a threshold that is ready, or of an
    hour's outage with two different channels last reported healthy, each under its own
    policy; an unknown policy decides nothing. -/
theorem promotes_on_last_reports (channels : List Channel) (reports : List (Channel × Status)) :
    let health := MultiChannelHealth.run reports (.new channels)
    let last := fun c => Register.latest c reports
    (∀ threshold, health.isQuorumFailing threshold = true ↔
      ∃ failing : Finset Channel, threshold = failing.card ∧
        ∀ c ∈ failing, last c = some .failing) ∧
    ∀ policy down ready,
      (evaluateAutoPromote policy down health ready = none ↔ policy ∉ policies) ∧
      (evaluateAutoPromote policy down health ready = some .promote ↔
        (policy = "after_60min" ∧ fromSecs 3600 ≤ down ∧
          ∃ c c', c ≠ c' ∧ last c = some .healthy ∧ last c' = some .healthy) ∨
        (policy = "threshold_hsm" ∧ ready = true)) := by
  intro health last
  have hfailing : ∀ threshold, health.isQuorumFailing threshold = true ↔
      threshold ≤ (Register.lastly .failing reports).card := by
    intro threshold
    rw [MultiChannelHealth.isQuorumFailing, decide_eq_true_iff,
      MultiChannelHealth.length_filter_run (by decide)]
  have hhealthy : hf2HealthQuorumMin ≤ health.healthyCount ↔
      ∃ c c', c ≠ c' ∧ last c = some .healthy ∧ last c' = some .healthy := by
    rw [MultiChannelHealth.healthyCount, MultiChannelHealth.length_filter_run (by decide)]
    constructor
    · intro h
      obtain ⟨c, hc, c', hc', hne⟩ := Finset.one_lt_card.mp h
      exact ⟨c, c', hne, Register.mem_lastly.mp hc, Register.mem_lastly.mp hc'⟩
    · rintro ⟨c, c', hne, hc, hc'⟩
      exact Finset.one_lt_card.mpr
        ⟨c, Register.mem_lastly.mpr hc, c', Register.mem_lastly.mpr hc', hne⟩
  refine ⟨fun threshold => ?_, fun policy down ready => ⟨?_, ?_⟩⟩
  · rw [hfailing]
    constructor
    · intro h
      obtain ⟨failing, hsub, hcard⟩ := Finset.exists_subset_card_eq h
      exact ⟨failing, hcard.symm, fun c hc => Register.mem_lastly.mp (hsub hc)⟩
    · rintro ⟨failing, rfl, hall⟩
      exact Finset.card_le_card fun c hc => Register.mem_lastly.mpr (hall c hc)
  · exact evaluateAutoPromote_eq_none policy down health ready
  · rw [evaluateAutoPromote_eq_promote, hhealthy]

example : (MultiChannelHealth.run [(.staticIp, .failing), (.staticIp, .failing)]
    (.new [.staticIp, .staticIp])).isQuorumFailing 2 = false := by decide

/-- A check fed into an aggregator with a past. The aggregator counts the failing channels of
    the check, which are no more than the votes of the checker and as many if the checker has
    no channel twice, and the channels that were not probed and were last reported failing. So
    it fires late at most, and it fires on time where the channels are distinct. -/
theorem aggregator_of_checked (checker : ConsensusHealthChecker) (channels : List Channel)
    (reports : List (Channel × Status)) :
    let result := checker.check
    let health := MultiChannelHealth.run result.perChannel (.run reports (.new channels))
    let others := Finset.univ.filter fun c =>
      c ∉ checker.channels.map HealthChannel.channelId ∧ Register.latest c reports = some .failing
    (∀ threshold, health.isQuorumFailing threshold = true →
      threshold ≤ result.failingCount + others.card) ∧
    ((checker.channels.map HealthChannel.channelId).Nodup →
      ∀ threshold, health.isQuorumFailing threshold = true ↔
        threshold ≤ result.failingCount + others.card) := by
  intro result health others
  have hchannels : checker.channels.map HealthChannel.channelId =
      result.perChannel.map Prod.fst := by
    simp [result, ConsensusHealthChecker.check_eq, ConsensusHealthChecker.votes]
  have hcount : result.failingCount = result.perChannel.countP fun w => w.2 = .failing := by
    simp [result, ConsensusHealthChecker.check_eq]
  have hothers : others.card = ((Register.lastly .failing reports).filter
      fun c => c ∉ result.perChannel.map Prod.fst).card := by
    refine congrArg Finset.card (Finset.ext fun c => ?_)
    simp only [others, hchannels, Finset.mem_filter, Finset.mem_univ, true_and,
      Register.mem_lastly]
    exact and_comm
  have hquorum : ∀ threshold, health.isQuorumFailing threshold = true ↔
      threshold ≤ (Register.lastly .failing result.perChannel).card + others.card := by
    intro threshold
    rw [hothers, ← Register.card_lastly_append, MultiChannelHealth.isQuorumFailing,
      decide_eq_true_iff, ← MultiChannelHealth.length_filter_run (by decide) channels,
      MultiChannelHealth.run_append]
  refine ⟨fun threshold h => ?_, fun hnodup threshold => ?_⟩
  · have hle := Register.card_lastly_le .failing result.perChannel
    have hfired := (hquorum threshold).mp h
    omega
  · rw [hquorum, Register.card_lastly (hchannels ▸ hnodup), hcount]

/-- Two probes of one channel fail: the checker fires, the aggregator does not. -/
example : let probes : List HealthChannel :=
      [⟨.dnsOverHttps, .ok .failing⟩, ⟨.dnsOverHttps, .error (.io "reset")⟩]
    (ConsensusHealthChecker.check ⟨probes, 2⟩).isQuorumFailing = true ∧
    (MultiChannelHealth.run (ConsensusHealthChecker.check ⟨probes, 2⟩).perChannel
      (.new [])).isQuorumFailing 2 = false := by decide

end ArkheForge.Platform
