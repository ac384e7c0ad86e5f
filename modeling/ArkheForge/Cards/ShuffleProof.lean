/-
  The commit-reveal shuffle (`examples/card_primitives/src/shuffle_proof.rs`).

  The dealer publishes the digest of a seed and shuffles a standard deck with the source of
  that seed; the seed is revealed after the deal, and anyone replays the shuffle. The replay
  draws from a stream and may draw for ever, so the verifiers take fuel; what a replay
  returns does not depend on it (`replay_unique`).

  * `order_accepted_iff`: an order passes exactly when the seed is the committed one and the
    order is that of its shuffle; the deck passes when, besides, no card was drawn.
  * `commitment_binds`: under one commitment one order passes, unless two commitments
    collide.
  * `chainHash_binds`: the anchor of a receipt tells its order and its strength, unless two
    receipts collide.
-/
import ArkheForge.Cards.Deck
import ArkheForge.Cards.HandRank
import ArkheForge.Lib.CommitReveal
import ArkheForge.Rand.Replay

namespace ArkheForge.Cards

open ArkheForge.Core ArkheForge.Rand BigEndian CommitReveal Fallible FisherYates Rejection

/-! ## The source functions -/

/-- `DOMAIN_COMMIT`. -/
def domainCommit : Bytes := textBytes "arkhe-forge::shuffle_proof::v1::commit::"

/-- `DOMAIN_SHOWDOWN`. -/
def domainShowdown : Bytes := textBytes "arkhe-forge::shuffle_proof::v1::showdown::"

/-- `ShuffleCommitment`. -/
structure ShuffleCommitment where
  asBytes : Vector UInt8 32
  deriving DecidableEq

/-- `ProofError`. -/
inductive ProofError
  | commitmentMismatch
  | deckMismatch
  deriving DecidableEq, Repr

/-- `ShowdownReceipt`. -/
structure ShowdownReceipt where
  deckOrder : Vector UInt8 52
  handRank : HandRank
  deriving DecidableEq

/-- The bytes of the cards, in order. -/
def orderBytes (d : Deck) : Vector UInt8 52 := d.cards.map Card.toByte

namespace ShowdownReceipt

/-- `ShowdownReceipt::from_deck_and_hand`. -/
def fromDeckAndHand (d : Deck) (handRank : HandRank) : ShowdownReceipt := ⟨orderBytes d, handRank⟩

/-- What `chain_hash` is over. -/
def preimage (deckOrder : Vector UInt8 52) (handRankBytes : Vector UInt8 6) : Bytes :=
  domainShowdown ++ deckOrder.toList ++ handRankBytes.toList

/-- `ShowdownReceipt::chain_hash`. -/
def chainHash [Blake3Hash] (r : ShowdownReceipt) : Vector UInt8 32 :=
  digest (preimage r.deckOrder r.handRank.toChainHashBytes)

end ShowdownReceipt

/-- What a commitment is over. -/
def commitPreimage (seed : Seed) : Bytes := domainCommit ++ seed.toList

/-- `ShuffleCommitment::from_seed`. -/
def ShuffleCommitment.fromSeed [Blake3Hash] (seed : Seed) : ShuffleCommitment :=
  ⟨digest (commitPreimage seed)⟩

/-- `ShuffleCommitment::from_bytes`. -/
def ShuffleCommitment.fromBytes (bytes : Vector UInt8 32) : ShuffleCommitment := ⟨bytes⟩

section

variable [Blake3Hash] [DeriveKeyXof] (build : Build) (fuel : ℕ) (target : Target)

/-- `verify_commitment`. -/
def verifyCommitment (commitment : ShuffleCommitment) (revealedSeed : Seed) :
    Except ProofError Unit :=
  if ShuffleCommitment.fromSeed revealedSeed ≠ commitment then .error .commitmentMismatch
  else .ok ()

omit [Blake3Hash] in
/-- A standard deck shuffled with the source of the seed. -/
def replay (seed : Seed) : Except Stop Deck :=
  match (Dealer.shuffle build fuel target).exec ⟨RngSource.fromSeed seed, .standard⟩ with
  | (.ok (), s) => .ok s.deck
  | (.error stopped, _) => .error stopped

/-- The two stages of a verifier: the commitment, and what is expected of the replay. -/
def verifyReplay (commitment : ShuffleCommitment) (revealedSeed : Seed) (expected : Deck → Bool) :
    Except Stop (Except ProofError Unit) :=
  match verifyCommitment commitment revealedSeed with
  | .error e => .ok (.error e)
  | .ok () => do
    let deck ← replay build fuel target revealedSeed
    if expected deck then .ok (.ok ()) else .ok (.error .deckMismatch)

/-- `verify_shuffle`. -/
def verifyShuffle (commitment : ShuffleCommitment) (revealedSeed : Seed) (expectedDeck : Deck) :
    Except Stop (Except ProofError Unit) :=
  verifyReplay build fuel target commitment revealedSeed fun deck => deck = expectedDeck

/-- `verify_shuffle_order`. -/
def verifyShuffleOrder (commitment : ShuffleCommitment) (revealedSeed : Seed)
    (expectedOrder : Vector UInt8 52) : Except Stop (Except ProofError Unit) :=
  verifyReplay build fuel target commitment revealedSeed fun deck =>
    orderBytes deck = expectedOrder

end

/-! ## The replay -/

section

variable [DeriveKeyXof] {build : Build} {fuel fuel' : ℕ} {target : Target} {seed : Seed}
  {d d' : Deck}

theorem replay_eq_ok :
    replay build fuel target seed = .ok d ↔
      ∃ s, (Dealer.shuffle build fuel target).exec ⟨RngSource.fromSeed seed, .standard⟩ =
        (.ok (), s) ∧ s.deck = d := by
  unfold replay
  split
  · next s heq =>
      rw [heq]
      constructor
      · intro h
        exact ⟨s, rfl, Except.ok.inj h⟩
      · rintro ⟨s', h, rfl⟩
        rw [(Prod.mk.inj h).2]
  · next stopped s heq =>
      rw [heq]
      constructor
      · intro h
        cases h
      · rintro ⟨s', h, -⟩
        cases h

/-- A replay returns where the first words of the source are accepted, one for each slot. -/
theorem replay_returns (haccepted : ∀ k < 51, (highPart (2 ^ 64) (52 - k)
      (wordAt (nextWord 64) k (RngSource.fromSeed seed)).toNat).isSome = true) :
    ∃ d, replay build fuel target seed = .ok d := by
  obtain ⟨d, hexec, -⟩ :=
    Dealer.exec_shuffle build fuel target (RngSource.fromSeed seed) Deck.standard
  have hsize : (Deck.standard.undrawnSlice target).items.size = 52 :=
    Deck.standard.size_undrawnSlice target
  have hreturns : ((Rand.shuffle build fuel).exec
      ⟨RngSource.fromSeed seed, Deck.standard.undrawnSlice target⟩).1 = .ok () := by
    rw [Rand.exec_shuffle, hsize]
    exact shuffleLoop_returns build fuel _ _ (by rw [hsize]) haccepted
  rw [hreturns] at hexec
  exact ⟨d, replay_eq_ok.mpr ⟨_, hexec, rfl⟩⟩

/-- A replayed deck is complete, and no card of it is drawn. -/
theorem replay_fresh (h : replay build fuel target seed = .ok d) :
    d.Complete ∧ d.cursor = 0 := by
  obtain ⟨s, hexec, rfl⟩ := replay_eq_ok.mp h
  obtain ⟨⟨hcursor, -, hcomplete, -⟩, -⟩ :=
    Deck.complete_standard.exec_shuffle build fuel target (RngSource.fromSeed seed)
  rw [hexec] at hcursor hcomplete
  exact ⟨hcomplete, hcursor⟩

/-- The replay of a seed is the same with any fuel. -/
theorem replay_unique (h : replay build fuel target seed = .ok d)
    (h' : replay build fuel' target seed = .ok d') : d = d' := by
  obtain ⟨s, hexec, rfl⟩ := replay_eq_ok.mp h
  obtain ⟨s', hexec', rfl⟩ := replay_eq_ok.mp h'
  obtain ⟨-, hok⟩ :=
    Deck.complete_standard.exec_shuffle build fuel target (RngSource.fromSeed seed)
  obtain ⟨-, hok'⟩ :=
    Deck.complete_standard.exec_shuffle build fuel' target (RngSource.fromSeed seed)
  obtain ⟨hcursor, hdrawn, v, hdraws, hundrawn⟩ := (hok s).mp hexec
  obtain ⟨hcursor', hdrawn', v', hdraws', hundrawn'⟩ := (hok' s').mp hexec'
  obtain ⟨rfl, -⟩ := hdraws.unique hdraws'
  exact Deck.ext_regions (hcursor.trans hcursor'.symm) (hdrawn.trans hdrawn'.symm)
    (congrArg Array.toList (hundrawn.trans hundrawn'.symm))

end

/-! ## Orders -/

theorem toList_orderBytes (d : Deck) : (orderBytes d).toList = d.cards.toList.map Card.toByte :=
  Vector.toList_map

/-- The order and the cursor tell a deck. -/
theorem eq_of_orderBytes {d d' : Deck} (horder : orderBytes d = orderBytes d')
    (hcursor : d.cursor = d'.cursor) : d = d' := by
  have hcards : d.cards.toList = d'.cards.toList := by
    have hlists := congrArg Vector.toList horder
    rw [toList_orderBytes, toList_orderBytes] at hlists
    exact Card.toByte_injective.list_map hlists
  obtain ⟨cards, cursor, hle⟩ := d
  obtain ⟨cards', cursor', hle'⟩ := d'
  obtain rfl : cards = cards' := Vector.toList_inj.mp hcards
  obtain rfl : cursor = cursor' := hcursor
  rfl

/-- A draw leaves the order as it is. -/
theorem orderBytes_draw (d : Deck) : orderBytes d.draw.2 = orderBytes d := by
  unfold Deck.draw
  split
  · rfl
  · rfl

theorem orderBytes_draws (d : Deck) (n : ℕ) :
    orderBytes ((fun d : Deck => d.draw.2)^[n] d) = orderBytes d := by
  induction n generalizing d with
  | zero => rfl
  | succ n ih => exact (ih d.draw.2).trans (orderBytes_draw d)

theorem commitPreimage_injective : Function.Injective commitPreimage :=
  fun _ _ h => Vector.toList_inj.mp (List.append_cancel_left h)

/-! ## The verdicts -/

section

variable [Blake3Hash] [DeriveKeyXof] {build : Build} {target : Target} {fuel : ℕ}
  {c : ShuffleCommitment} {seed : Seed} {order : Vector UInt8 52} {d : Deck}

omit [DeriveKeyXof] in
theorem verifyCommitment_eq_ok :
    verifyCommitment c seed = .ok () ↔ ShuffleCommitment.fromSeed seed = c := by
  unfold verifyCommitment
  split
  · next hne => exact ⟨fun h => (nomatch h), fun h => absurd h hne⟩
  · next heq => exact ⟨fun _ => not_not.mp heq, fun _ => rfl⟩

theorem verifyReplay_eq_ok {expected : Deck → Bool} :
    verifyReplay build fuel target c seed expected = .ok (.ok ()) ↔
      ShuffleCommitment.fromSeed seed = c ∧
        ∃ d, replay build fuel target seed = .ok d ∧ expected d = true := by
  rw [← verifyCommitment_eq_ok]
  unfold verifyReplay
  cases verifyCommitment c seed with
  | error e => exact ⟨fun h => (nomatch h), fun h => (nomatch h.1)⟩
  | ok u =>
      refine except_bind_eq_ok.trans ?_
      constructor
      · rintro ⟨deck, hreplay, hverdict⟩
        refine ⟨rfl, deck, hreplay, ?_⟩
        by_contra hne
        rw [if_neg hne] at hverdict
        cases hverdict
      · rintro ⟨-, deck, hreplay, hexpected⟩
        exact ⟨deck, hreplay, if_pos hexpected⟩

theorem verifyShuffleOrder_eq_ok :
    verifyShuffleOrder build fuel target c seed order = .ok (.ok ()) ↔
      ShuffleCommitment.fromSeed seed = c ∧
        ∃ d, replay build fuel target seed = .ok d ∧ orderBytes d = order := by
  simp only [verifyShuffleOrder, verifyReplay_eq_ok, decide_eq_true_eq]

theorem verifyShuffle_eq_ok :
    verifyShuffle build fuel target c seed d = .ok (.ok ()) ↔
      ShuffleCommitment.fromSeed seed = c ∧ replay build fuel target seed = .ok d := by
  simp only [verifyShuffle, verifyReplay_eq_ok, decide_eq_true_eq, exists_eq_right]

variable (build target)

omit [Blake3Hash] in
theorem outcome_unique (seed : Seed) (order order' : Vector UInt8 52)
    (h : ∃ fuel d, replay build fuel target seed = .ok d ∧ orderBytes d = order)
    (h' : ∃ fuel d, replay build fuel target seed = .ok d ∧ orderBytes d = order') :
    order = order' := by
  obtain ⟨fuel, d, hreplay, rfl⟩ := h
  obtain ⟨fuel', d', hreplay', rfl⟩ := h'
  rw [replay_unique hreplay hreplay']

/-- The shuffle as a commit-reveal scheme: what follows from a seed is the order of its deck. -/
def shuffleScheme : Scheme Bytes Seed (Vector UInt8 52) where
  preimage := commitPreimage
  preimage_injective := commitPreimage_injective
  outcome seed order := ∃ fuel d, replay build fuel target seed = .ok d ∧ orderBytes d = order
  outcome_unique := outcome_unique build target

theorem accepts_iff :
    (∃ fuel, verifyShuffleOrder build fuel target c seed order = .ok (.ok ())) ↔
      (shuffleScheme build target).Accepts digest c.asBytes seed order := by
  have hcommit : ShuffleCommitment.fromSeed seed = c ↔
      (shuffleScheme build target).commit digest seed = c.asBytes := by
    obtain ⟨bytes⟩ := c
    exact ⟨fun h => congrArg ShuffleCommitment.asBytes h, fun h => congrArg ShuffleCommitment.mk h⟩
  simp only [verifyShuffleOrder_eq_ok, hcommit, exists_and_left]
  exact Iff.rfl

/-- **What passes is the committed shuffle.** For every commitment, seed and order: the order
    passes exactly when the commitment is that of the seed and the order is the one the
    shuffle of the seed gives, and then it has every card once. A deck passes exactly when
    no card of it is drawn and its order does. However many cards an honest dealer has drawn
    from the shuffled deck, the order in the receipt passes. -/
theorem order_accepted_iff (c : ShuffleCommitment) (seed : Seed) (order : Vector UInt8 52) :
    ((∃ fuel, verifyShuffleOrder build fuel target c seed order = .ok (.ok ())) ↔
      ShuffleCommitment.fromSeed seed = c ∧ order.toList.Perm (standardOrder.map Card.toByte) ∧
        ∃ fuel d, replay build fuel target seed = .ok d ∧ orderBytes d = order) ∧
    (∀ fuel d, verifyShuffle build fuel target c seed d = .ok (.ok ()) ↔
      d.cursor = 0 ∧ verifyShuffleOrder build fuel target c seed (orderBytes d) = .ok (.ok ())) ∧
    ∀ fuel d, replay build fuel target seed = .ok d → ∀ n handRank,
      verifyShuffleOrder build fuel target (.fromSeed seed) seed
        (ShowdownReceipt.fromDeckAndHand ((fun d : Deck => d.draw.2)^[n] d) handRank).deckOrder =
          .ok (.ok ()) := by
  refine ⟨?_, ?_, ?_⟩
  · simp only [verifyShuffleOrder_eq_ok, exists_and_left]
    refine and_congr_right fun _ => ⟨?_, fun h => h.2⟩
    rintro ⟨fuel, d, hreplay, rfl⟩
    refine ⟨?_, fuel, d, hreplay, rfl⟩
    rw [toList_orderBytes]
    exact (replay_fresh hreplay).1.map _
  · intro fuel d
    rw [verifyShuffle_eq_ok, verifyShuffleOrder_eq_ok]
    constructor
    · rintro ⟨hcommit, hreplay⟩
      exact ⟨(replay_fresh hreplay).2, hcommit, d, hreplay, rfl⟩
    · rintro ⟨hcursor, hcommit, d', hreplay, horder⟩
      have hsame := eq_of_orderBytes horder ((replay_fresh hreplay).2.trans hcursor.symm)
      exact ⟨hcommit, hsame ▸ hreplay⟩
  · intro fuel d hreplay n handRank
    refine verifyShuffleOrder_eq_ok.mpr ⟨rfl, d, hreplay, ?_⟩
    exact (orderBytes_draws d n).symm

/-- **A commitment binds the dealer.** Two seeds and orders that pass under one commitment, each
    with any fuel, are the same, or the commitments of the two seeds collide. -/
theorem commitment_binds (c : ShuffleCommitment) :
    {revealed : Seed × Vector UInt8 52 | ∃ fuel,
      verifyShuffleOrder build fuel target c revealed.1 revealed.2 = .ok (.ok ())}.Pairwise
      fun revealed revealed' =>
        Collide digest (commitPreimage revealed.1) (commitPreimage revealed'.1) := by
  rintro ⟨seed, order⟩ h ⟨seed', order'⟩ h' hne
  have haccepts := (accepts_iff build target).mp h
  have haccepts' := (accepts_iff build target).mp h'
  rcases Scheme.accepts_unique haccepts haccepts' with ⟨rfl, rfl⟩ | hcollide
  · exact absurd rfl hne
  · exact hcollide

end

/-! ## Anchors -/

/-- Order and strength have fixed lengths. -/
theorem ShowdownReceipt.preimage_inj {order order' : Vector UInt8 52}
    {bytes bytes' : Vector UInt8 6} (h : preimage order bytes = preimage order' bytes') :
    order = order' ∧ bytes = bytes' := by
  unfold preimage at h
  rw [List.append_assoc, List.append_assoc] at h
  have hlength : order.toList.length = order'.toList.length := by
    rw [Vector.length_toList, Vector.length_toList]
  obtain ⟨horder, hbytes⟩ := List.append_inj (List.append_cancel_left h) hlength
  exact ⟨Vector.toList_inj.mp horder, Vector.toList_inj.mp hbytes⟩

/-- No message is both a commitment's and an anchor's. -/
theorem commitPreimage_ne (seed : Seed) (order : Vector UInt8 52) (bytes : Vector UInt8 6) :
    commitPreimage seed ≠ ShowdownReceipt.preimage order bytes := by
  intro h
  have hcommit : domainCommit.length = 40 := by decide +kernel
  have hshowdown : domainShowdown.length = 42 := by decide +kernel
  have hlengths := congrArg List.length h
  unfold commitPreimage ShowdownReceipt.preimage at hlengths
  simp only [List.length_append, Vector.length_toList, hcommit, hshowdown] at hlengths
  omega

/-- **An anchor tells its receipt.** For any two receipts: their anchors are equal exactly when
    order and strength are, or the two messages collide; and no message hashed for an anchor
    is one hashed for a commitment. -/
theorem chainHash_binds [Blake3Hash] (r r' : ShowdownReceipt) :
    (r.chainHash = r'.chainHash ↔
      r = r' ∨ Collide digest (ShowdownReceipt.preimage r.deckOrder r.handRank.toChainHashBytes)
        (ShowdownReceipt.preimage r'.deckOrder r'.handRank.toChainHashBytes)) ∧
    ∀ seed, commitPreimage seed ≠
      ShowdownReceipt.preimage r.deckOrder r.handRank.toChainHashBytes := by
  refine ⟨⟨fun hhash => ?_, ?_⟩, fun seed => commitPreimage_ne seed _ _⟩
  · have hdigest : digest (ShowdownReceipt.preimage r.deckOrder r.handRank.toChainHashBytes) =
        digest (ShowdownReceipt.preimage r'.deckOrder r'.handRank.toChainHashBytes) := hhash
    rcases eq_or_collide hdigest with heq | hcollide
    · obtain ⟨horder, hbytes⟩ := ShowdownReceipt.preimage_inj heq
      obtain ⟨order, rank⟩ := r
      obtain ⟨order', rank'⟩ := r'
      obtain rfl : order = order' := horder
      obtain rfl : rank = rank' := HandRank.toChainHashBytes_injective hbytes
      exact .inl rfl
    · exact .inr hcollide
  · rintro (rfl | hcollide)
    · rfl
    · exact hcollide.2

end ArkheForge.Cards
