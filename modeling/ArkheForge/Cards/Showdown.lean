/-
  The showdown action (`examples/card_primitives/src/forge_integration.rs`).

  `RecordHandShowdown` carries a commitment, the seed, the deck order and the bytes of a
  strength. Its body runs the audience's verifier and emits one event with the anchor. It
  records the bytes of the strength as they come: nothing evaluates the hand again.

  * `showdown_recorded_iff`: when the action is recorded and with which event, and what two
    recorded showdowns under one commitment share.
-/
import ArkheForge.Cards.ShuffleProof
import ArkheForge.Core.PostcardWire

namespace ArkheForge.Cards

open ArkheForge.Core ArkheForge.Rand BigEndian CommitReveal Fallible

/-! ## The action and its event -/

/-- `RecordHandShowdown`, with `DeckOrderBytes` as the array it wraps. -/
structure RecordHandShowdown where
  schemaVersion : UInt16
  commitment : Vector UInt8 32
  seed : Seed
  deckOrder : Vector UInt8 52
  handRankBytes : Vector UInt8 6
  deriving DecidableEq

/-- `HandShowdownLanded`. -/
structure HandShowdownLanded where
  schemaVersion : UInt16
  chainHash : Vector UInt8 32
  deriving DecidableEq

instance recordHandShowdownAction : ArkheAction RecordHandShowdown where
  typeCode := 0x01000001
  schemaVersion := 1
  band := 1
  idempotent := false

instance handShowdownLandedEvent : ArkheEvent HandShowdownLanded where
  typeCode := 0x01000002

section

variable [Blake3Hash] [DeriveKeyXof] (build : Build) (fuel : ℕ) (target : Target)

namespace RecordHandShowdown

/-- The call of `verify_shuffle_order`, whose errors all become one. -/
def verifyOrder (a : RecordHandShowdown) (recomputed : ShuffleCommitment) : Except Fault Unit := do
  match ← Fault.ofReplay (verifyShuffleOrder build fuel target recomputed a.seed a.deckOrder) with
  | .ok () => .ok ()
  | .error _ => invalid "shuffle order invalid"

/-- The stages of `compute` up to the event. -/
def checks (a : RecordHandShowdown) : Except Fault Unit := do
  Fault.ofAction (ensureSchemaVersion (ArkheAction.schemaVersion RecordHandShowdown) a.schemaVersion)
  let recomputed := ShuffleCommitment.fromSeed a.seed
  let provided := ShuffleCommitment.fromBytes a.commitment
  require (recomputed = provided) "commitment mismatch"
  a.verifyOrder build fuel target recomputed

omit [DeriveKeyXof] in
/-- The event `compute` emits. -/
def landed (a : RecordHandShowdown) : HandShowdownLanded :=
  ⟨1, digest (ShowdownReceipt.preimage a.deckOrder a.handRankBytes)⟩

variable [Postcard HandShowdownLanded] in
/-- `RecordHandShowdown::compute`. -/
def compute (a : RecordHandShowdown) : Fallible ActionContext Fault Unit :=
  checkThenEmit (a.checks build fuel target) fun _ => a.landed

end RecordHandShowdown

end

/-! ## What is recorded -/

section

variable [Blake3Hash] [DeriveKeyXof] {build : Build} {fuel : ℕ} {target : Target}

namespace RecordHandShowdown

theorem verifyOrder_eq_ok {a : RecordHandShowdown} {c : ShuffleCommitment} :
    a.verifyOrder build fuel target c = .ok () ↔
      verifyShuffleOrder build fuel target c a.seed a.deckOrder = .ok (.ok ()) := by
  unfold verifyOrder
  rw [except_bind_eq_ok]
  simp only [Fault.ofReplay_eq_ok]
  constructor
  · rintro ⟨verdict, hverdict, hanswer⟩
    cases verdict with
    | ok u => exact hverdict
    | error e => cases hanswer
  · intro hverdict
    exact ⟨.ok (), hverdict, rfl⟩

/-- All checks pass. -/
theorem checks_eq_ok {a : RecordHandShowdown} :
    a.checks build fuel target = .ok () ↔
      a.schemaVersion = 1 ∧ ShuffleCommitment.fromSeed a.seed = .fromBytes a.commitment ∧
        ∃ d, replay build fuel target a.seed = .ok d ∧ orderBytes d = a.deckOrder := by
  unfold checks
  simp only [except_seq_eq_ok, Fault.ofAction_eq_ok, ensureSchemaVersion_eq_ok, require_eq_ok,
    verifyOrder_eq_ok, verifyShuffleOrder_eq_ok, true_and]
  exact Iff.rfl

end RecordHandShowdown

variable [Postcard HandShowdownLanded] (build fuel target)

/-- **A showdown is recorded exactly when it verifies.** For every action and context: the body
    returns exactly when the schema is current, the seed is the committed one and the order
    is that of its shuffle, and then adds one event, whatever the bytes of the strength are;
    otherwise the context stays as it is. The event has the anchor of the receipt. Two showdowns
    recorded under one commitment are about one seed and one order, or the commitments to
    the two seeds collide. -/
theorem showdown_recorded_iff (hT : Postcard.Total HandShowdownLanded) (a : RecordHandShowdown)
    (ctx : ActionContext) :
    (∀ ctx', (a.compute build fuel target).exec ctx = (.ok (), ctx') ↔
      a.schemaVersion = 1 ∧ ShuffleCommitment.fromSeed a.seed = .fromBytes a.commitment ∧
        (∃ d, replay build fuel target a.seed = .ok d ∧ orderBytes d = a.deckOrder) ∧
        ctx' = withEvent ctx a.landed) ∧
    (∀ fault ctx', (a.compute build fuel target).exec ctx = (.error fault, ctx') → ctx' = ctx) ∧
    (∀ r : ShowdownReceipt, r.deckOrder = a.deckOrder →
      r.handRank.toChainHashBytes = a.handRankBytes → a.landed.chainHash = r.chainHash) ∧
    ∀ (a' : RecordHandShowdown) fuel', a'.commitment = a.commitment →
      a.checks build fuel target = .ok () → a'.checks build fuel' target = .ok () →
      a.seed = a'.seed ∧ a.deckOrder = a'.deckOrder ∨
        Collide digest (commitPreimage a.seed) (commitPreimage a'.seed) := by
  have hexec := exec_checkThenEmit hT
    (a.checks build fuel target) (fun _ => a.landed) ctx
  have hcompute : a.compute build fuel target =
      checkThenEmit (a.checks build fuel target) fun _ => a.landed := rfl
  refine ⟨?_, ?_, ?_, ?_⟩
  · intro ctx'
    rw [hcompute, hexec]
    constructor
    · intro h
      obtain ⟨hok, rfl⟩ := Prod.mk.inj h
      obtain ⟨hschema, hcommit, hreplay⟩ := RecordHandShowdown.checks_eq_ok.mp hok
      exact ⟨hschema, hcommit, hreplay, if_pos hok⟩
    · rintro ⟨hschema, hcommit, hreplay, rfl⟩
      have hok := RecordHandShowdown.checks_eq_ok.mpr ⟨hschema, hcommit, hreplay⟩
      rw [hok]
      rfl
  · intro fault ctx' h
    rw [hcompute, hexec] at h
    obtain ⟨herror, rfl⟩ := Prod.mk.inj h
    exact if_neg (by simp [herror])
  · rintro ⟨order, rank⟩ rfl hbytes
    unfold RecordHandShowdown.landed ShowdownReceipt.chainHash
    rw [hbytes]
  · intro a' fuel' hsame hok hok'
    obtain ⟨-, hcommit, d, hreplay, horder⟩ := RecordHandShowdown.checks_eq_ok.mp hok
    obtain ⟨-, hcommit', d', hreplay', horder'⟩ := RecordHandShowdown.checks_eq_ok.mp hok'
    have haccepts : (shuffleScheme build target).Accepts digest a.commitment a.seed a.deckOrder :=
      ⟨congrArg ShuffleCommitment.asBytes hcommit, fuel, d, hreplay, horder⟩
    have haccepts' :
        (shuffleScheme build target).Accepts digest a.commitment a'.seed a'.deckOrder :=
      ⟨(congrArg ShuffleCommitment.asBytes hcommit').trans hsame, fuel', d', hreplay', horder'⟩
    exact Scheme.accepts_unique haccepts haccepts'

end

/-- The showdown of a deck that an honest dealer shuffled. -/
def RecordHandShowdown.ofDeck [Blake3Hash] (seed : Seed) (d : Deck)
    (handRankBytes : Vector UInt8 6) : RecordHandShowdown where
  schemaVersion := 1
  commitment := (ShuffleCommitment.fromSeed seed).asBytes
  seed := seed
  deckOrder := orderBytes d
  handRankBytes := handRankBytes

/-- It meets what is checked. -/
theorem RecordHandShowdown.ofDeck_verifies [Blake3Hash] [DeriveKeyXof] {build : Build} {fuel : ℕ}
    {target : Target} {seed : Seed} {d : Deck} (h : replay build fuel target seed = .ok d)
    (handRankBytes : Vector UInt8 6) :
    (ofDeck seed d handRankBytes).schemaVersion = 1 ∧
      ShuffleCommitment.fromSeed (ofDeck seed d handRankBytes).seed =
        .fromBytes (ofDeck seed d handRankBytes).commitment ∧
      ∃ d', replay build fuel target (ofDeck seed d handRankBytes).seed = .ok d' ∧
        orderBytes d' = (ofDeck seed d handRankBytes).deckOrder :=
  ⟨rfl, rfl, d, h, rfl⟩

section

attribute [local instance] oneChunkBlake3Hash oneBlockXof

/-- The event on the wire. -/
def handShowdownLandedWire : Codec HandShowdownLanded :=
  (Codec.u16.pair (Codec.fixed 32)).via (fun (v, h) => some ⟨v, h⟩)
    (fun e => (e.schemaVersion, e.chainHash)) fun _ => rfl

abbrev handShowdownLandedPostcard : Postcard HandShowdownLanded := .ofCodec handShowdownLandedWire

theorem sixteen_le_pointer32 : 16 ≤ pointer32.bits := by decide

/-- A 32-bit target. -/
def target32 : Target := ⟨pointer32, sixteen_le_pointer32⟩

/-- The first words of the seed of zeros shuffle the deck. -/
theorem zeroSeed_replays : ∃ d, replay .release 0 target32 (.replicate 32 0) = .ok d := by
  refine replay_returns fun k hk => ?_
  have hfits : (k + 1) * (64 / 8) ≤ 7 * xofBlockLen := by
    unfold xofBlockLen
    omega
  rw [wordAt_fromSeed 64 k (.replicate 32 0) hfits]
  revert k
  decide +kernel

/-- The showdown of the deck they leave is recorded. -/
theorem showdown_recorded_iff_zeroSeed :
    letI := handShowdownLandedPostcard
    Postcard.Total HandShowdownLanded ∧
      ∃ d, replay .release 0 target32 (.replicate 32 0) = .ok d ∧ ∀ ctx : ActionContext,
        let a := RecordHandShowdown.ofDeck (.replicate 32 0) d (.replicate 6 0)
        (a.compute .release 0 target32).exec ctx = (.ok (), withEvent ctx a.landed) := by
  have hT := Postcard.ofCodec_total handShowdownLandedWire
  obtain ⟨d, hreplay⟩ := zeroSeed_replays
  refine ⟨hT, d, hreplay, fun ctx => ?_⟩
  obtain ⟨hschema, hcommit, horder⟩ :=
    RecordHandShowdown.ofDeck_verifies hreplay (.replicate 6 0)
  exact ((@showdown_recorded_iff oneChunkBlake3Hash oneBlockXof .release 0 target32
    handShowdownLandedPostcard hT (.ofDeck (.replicate 32 0) d (.replicate 6 0)) ctx).1 _).mpr
      ⟨hschema, hcommit, horder, rfl⟩

end

end ArkheForge.Cards
