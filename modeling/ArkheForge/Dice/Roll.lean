/-
  The dice action (`examples/dice/src/action.rs`).

  The server commits to a seed, the user adds an input, and the roll is what the source of
  the combined seed gives. `RecordDiceRoll` carries all of it, and its body derives every
  byte again.

  * `roll_recorded_iff`: when a roll is recorded and with which event, and that its faces
    are those of dice.
  * `roll_binds`: what two recorded rolls share under one commitment, one combined seed or
    one anchor.
  * `dice_fall_evenly`: three words that are accepted give each roll as often as any other.
-/
import ArkheForge.Core.PostcardWire
import ArkheForge.Lib.CommitReveal
import ArkheForge.Rand.Replay
import ArkheForge.Rand.Uniform
import ArkheForge.Rand.Xof

namespace ArkheForge.Dice

open ArkheForge.Core ArkheForge.Rand BigEndian CommitReveal Fallible Rejection

/-! ## The action and its event -/

/-- `DOMAIN_DICE_COMMIT`. -/
def domainDiceCommit : Bytes := textBytes "arkhe-forge::dice::v1::commit::"

/-- `DOMAIN_DICE_COMBINED`. -/
def domainDiceCombined : Bytes := textBytes "arkhe-forge::dice::v1::combined::"

/-- `DOMAIN_DICE_CHAIN`. -/
def domainDiceChain : Bytes := textBytes "arkhe-forge::dice::v1::chain::"

/-- The longest `String`: no allocation has more than `isize::MAX` bytes. -/
def maxTextLen : ℕ := 2 ^ 63 - 1

/-- A `String`. -/
abbrev Text := { s : String // s.utf8ByteSize ≤ maxTextLen }

/-- `as_bytes`. -/
def Text.asBytes (t : Text) : Bytes := textBytes t.1

/-- `RecordDiceRoll`. -/
structure RecordDiceRoll where
  schemaVersion : UInt16
  commitmentServer : Vector UInt8 32
  serverSeed : Seed
  userInput : Text
  nonce : UInt64
  combinedSeed : Seed
  dice : Vector UInt8 3
  deriving DecidableEq

/-- `DiceRollLanded`. -/
structure DiceRollLanded where
  schemaVersion : UInt16
  chainHash : Vector UInt8 32
  userInput : Text
  dice : Vector UInt8 3
  tick : Tick
  deriving DecidableEq

instance recordDiceRollAction : ArkheAction RecordDiceRoll where
  typeCode := 0x02000001
  schemaVersion := 2
  band := 1
  idempotent := false

instance diceRollLandedEvent : ArkheEvent DiceRollLanded where
  typeCode := 0x02000002

/-! ## What is hashed -/

/-- What the server commits to. -/
def commitPreimage (serverSeed : Seed) : Bytes := domainDiceCommit ++ serverSeed.toList

/-- `nonce.to_le_bytes()`. -/
def leBytes (nonce : UInt64) : Bytes := (toBe 8 nonce.toNat).reverse

/-- What the combined seed is the digest of. -/
def combinedPreimage (serverSeed : Seed) (userInput : Text) (nonce : UInt64) : Bytes :=
  domainDiceCombined ++ serverSeed.toList ++ userInput.asBytes ++ leBytes nonce

/-- What the anchor is the digest of. -/
def chainPreimage (dice : Vector UInt8 3) (userInput : Text) : Bytes :=
  domainDiceChain ++ dice.toList ++ userInput.asBytes

/-! ## The roll -/

section

variable (build : Build) (fuel : ℕ)

/-- `gen_range_inclusive(&mut rng, 1u32..=6) as u8`. -/
def rollDie : Fallible RngSource Stop UInt8 := do
  let face ← RandInt.u32.genRangeInclusive build fuel 1 6
  pure (UInt8.ofNat face.toNat)

/-- Three dice in a row. -/
def rollDice : Fallible RngSource Stop (Vector UInt8 3) := do
  let d1 ← rollDie build fuel
  let d2 ← rollDie build fuel
  let d3 ← rollDie build fuel
  pure #v[d1, d2, d3]

/-- The roll from the source of a seed. -/
def rollFrom [DeriveKeyXof] (combinedSeed : Seed) : Except Stop (Vector UInt8 3) :=
  ((rollDice build fuel).exec (RngSource.fromSeed combinedSeed)).1

namespace RecordDiceRoll

variable [Blake3Hash] [DeriveKeyXof]

/-- The stages of `compute` up to the event. -/
def checks (a : RecordDiceRoll) : Except Fault Unit := do
  Fault.ofAction (ensureSchemaVersion (ArkheAction.schemaVersion RecordDiceRoll) a.schemaVersion)
  require (digest (commitPreimage a.serverSeed) = a.commitmentServer) "server commitment mismatch"
  require (digest (combinedPreimage a.serverSeed a.userInput a.nonce) = a.combinedSeed)
    "combined seed mismatch"
  let dice ← Fault.ofReplay (rollFrom build fuel a.combinedSeed)
  require (dice = a.dice) "dice mismatch"

omit [DeriveKeyXof] in
/-- The event `compute` emits. -/
def landed (a : RecordDiceRoll) (tick : Tick) : DiceRollLanded :=
  ⟨2, digest (chainPreimage a.dice a.userInput), a.userInput, a.dice, tick⟩

/-- `RecordDiceRoll::compute`. -/
def compute [Postcard DiceRollLanded] (a : RecordDiceRoll) : Fallible ActionContext Fault Unit :=
  checkThenEmit (a.checks build fuel) a.landed

end RecordDiceRoll

end

/-! ## The faces of a word -/

/-- A face of a die. -/
def IsFace (d : UInt8) : Prop := 1 ≤ d ∧ d ≤ 6

/-- The face a word gives, if it is accepted. -/
def faceOf (x : BitVec 32) : Option UInt8 :=
  (RandInt.u32.rangeValue 1 6 x).map fun face : BitVec 32 => UInt8.ofNat face.toNat

theorem one_le_six : (1 : RandInt.u32.Value) ≤ 6 := by decide

section

variable (build : Build) (fuel : ℕ) (rng : RngSource)

/-- A die draws from the faces. -/
theorem exec_rollDie :
    (rollDie build fuel).exec rng = outcome (draw (nextWord 32) faceOf (fuel + 1) rng) := by
  have hrange := RandInt.u32.exec_genRangeInclusive build fuel one_le_six rng
  unfold rollDie
  refine (RandInt.exec_outcome_bind hrange (g := fun face => UInt8.ofNat face.toNat)
    fun _ _ => rfl).trans ?_
  rw [← draw_map]
  rfl

end

/-- Of the `2 ^ 32` words each face comes from as many. -/
theorem even_faceOf : Even faceOf IsFace 715827882 := by
  have hrange := RandInt.even_inclusive one_le_six
  refine hrange.map (g := fun face => UInt8.ofNat face.toNat) ?_ ?_
  · intro d
    constructor
    · rintro ⟨hlow, hhigh⟩
      have hlow : 1 ≤ d.toNat := hlow
      have hhigh : d.toNat ≤ 6 := hhigh
      have hvalue : (BitVec.ofNat 32 d.toNat).toNat = d.toNat :=
        Nat.mod_eq_of_lt (by omega)
      refine ⟨BitVec.ofNat 32 d.toNat, ⟨?_, ?_⟩, ?_⟩
      · show 1 ≤ (BitVec.ofNat 32 d.toNat).toNat
        omega
      · show (BitVec.ofNat 32 d.toNat).toNat ≤ 6
        omega
      · exact (congrArg UInt8.ofNat hvalue).trans UInt8.ofNat_toNat
    · rintro ⟨face, ⟨hlow, hhigh⟩, rfl⟩
      have hlow : 1 ≤ face.toNat := hlow
      have hhigh : face.toNat ≤ 6 := hhigh
      have hvalue : (UInt8.ofNat face.toNat).toNat = face.toNat := by
        rw [UInt8.toNat_ofNat']
        omega
      refine ⟨?_, ?_⟩
      · rw [UInt8.le_iff_toNat_le, hvalue]
        exact hlow
      · rw [UInt8.le_iff_toNat_le, hvalue]
        exact hhigh
  · rintro face face' ⟨-, hhigh⟩ ⟨-, hhigh'⟩ hsame
    have hhigh : face.toNat ≤ 6 := hhigh
    have hhigh' : face'.toNat ≤ 6 := hhigh'
    have hnat := congrArg UInt8.toNat hsame
    rw [UInt8.toNat_ofNat', UInt8.toNat_ofNat'] at hnat
    exact BitVec.eq_of_toNat_eq (by omega)

/-! ## The faces of a roll -/

/-- Three faces. -/
def IsRoll (v : Vector UInt8 3) : Prop := ∀ d ∈ v.toList, IsFace d

/-- The roll three words give, if all are accepted. -/
def diceOf (w : BitVec 32 × BitVec 32 × BitVec 32) : Option (Vector UInt8 3) :=
  ((faceOf w.1).bind fun d1 => ((faceOf w.2.1).bind fun d2 => (faceOf w.2.2).map fun d3 =>
    (d2, d3)).map fun ds => (d1, ds)).map fun ds => #v[ds.1, ds.2.1, ds.2.2]

theorem isRoll_of {d1 d2 d3 : UInt8} : IsRoll #v[d1, d2, d3] ↔ IsFace d1 ∧ IsFace d2 ∧ IsFace d3 := by
  unfold IsRoll
  simp

theorem diceOf_eq_some {w : BitVec 32 × BitVec 32 × BitVec 32} {v : Vector UInt8 3} :
    diceOf w = some v ↔ ∃ d1 d2 d3, faceOf w.1 = some d1 ∧ faceOf w.2.1 = some d2 ∧
      faceOf w.2.2 = some d3 ∧ #v[d1, d2, d3] = v := by
  simp only [diceOf, Option.map_eq_some_iff, Option.bind_eq_some_iff, Prod.exists, Prod.mk.injEq]
  constructor
  · rintro ⟨d1, d2, d3, ⟨_, h1, _, _, ⟨_, h2, _, h3, rfl, rfl⟩, rfl, rfl, rfl⟩, rfl⟩
    exact ⟨_, _, _, h1, h2, h3, rfl⟩
  · rintro ⟨d1, d2, d3, h1, h2, h3, rfl⟩
    exact ⟨d1, d2, d3, ⟨d1, h1, d2, d3, ⟨d2, h2, d3, h3, rfl, rfl⟩, rfl, rfl, rfl⟩, rfl⟩

theorem exists_three (v : Vector UInt8 3) : ∃ d1 d2 d3, #v[d1, d2, d3] = v := by
  obtain ⟨⟨items⟩, hsize⟩ := v
  obtain ⟨d1, d2, d3, rfl⟩ := List.length_eq_three.mp hsize
  exact ⟨d1, d2, d3, rfl⟩

/-- Each roll comes from as many triples of words. -/
theorem even_diceOf : Even diceOf IsRoll (715827882 ^ 3) := by
  have hpair := even_faceOf.pair (even_faceOf.pair even_faceOf)
  have hcount : 715827882 * (715827882 * 715827882) = 715827882 ^ 3 := by decide
  rw [← hcount]
  refine hpair.map (g := fun ds => #v[ds.1, ds.2.1, ds.2.2]) ?_ ?_
  · intro v
    constructor
    · intro hroll
      obtain ⟨d1, d2, d3, rfl⟩ := exists_three v
      exact ⟨(d1, d2, d3), isRoll_of.mp hroll, rfl⟩
    · rintro ⟨⟨d1, d2, d3⟩, hfaces, rfl⟩
      exact isRoll_of.mpr hfaces
  · rintro ⟨d1, d2, d3⟩ ⟨e1, e2, e3⟩ - - hsame
    simpa using hsame

section

variable {build : Build} {fuel fuel' : ℕ} {rng rng' : RngSource} {d : UInt8} {v v' : Vector UInt8 3}

theorem rollDie_eq_ok :
    (rollDie build fuel).exec rng = (.ok d, rng') ↔
      draw (nextWord 32) faceOf (fuel + 1) rng = (some d, rng') := by
  rw [exec_rollDie, outcome_eq_ok]

theorem rollDice_eq_ok :
    (rollDice build fuel).exec rng = (.ok v, rng') ↔
      ∃ d1 r1 d2 r2 d3, (rollDie build fuel).exec rng = (.ok d1, r1) ∧
        (rollDie build fuel).exec r1 = (.ok d2, r2) ∧
        (rollDie build fuel).exec r2 = (.ok d3, rng') ∧ #v[d1, d2, d3] = v := by
  unfold rollDice
  simp only [exec_bind_eq_ok]
  constructor
  · rintro ⟨d1, r1, h1, d2, r2, h2, d3, r3, h3, h⟩
    obtain ⟨hv, rfl⟩ := Prod.mk.inj h
    exact ⟨d1, r1, d2, r2, d3, h1, h2, h3, Except.ok.inj hv⟩
  · rintro ⟨d1, r1, d2, r2, d3, h1, h2, h3, rfl⟩
    exact ⟨d1, r1, h1, d2, r2, h2, d3, rng', h3, rfl⟩

/-- A roll is that of the first accepted words. -/
theorem rollDice_eq_ok_iff :
    (rollDice build fuel).exec rng = (.ok v, rng') ↔
      ∃ x r1 y r2 z, First (nextWord 32) faceOf (fuel + 1) rng x r1 ∧
        First (nextWord 32) faceOf (fuel + 1) r1 y r2 ∧
        First (nextWord 32) faceOf (fuel + 1) r2 z rng' ∧ diceOf (x, y, z) = some v := by
  simp only [rollDice_eq_ok, rollDie_eq_ok, draw_eq_some, diceOf_eq_some]
  constructor
  · rintro ⟨d1, r1, d2, r2, d3, ⟨x, hx, h1⟩, ⟨y, hy, h2⟩, ⟨z, hz, h3⟩, hv⟩
    exact ⟨x, r1, y, r2, z, hx, hy, hz, d1, d2, d3, h1, h2, h3, hv⟩
  · rintro ⟨x, r1, y, r2, z, hx, hy, hz, d1, d2, d3, h1, h2, h3, hv⟩
    exact ⟨d1, r1, d2, r2, d3, ⟨x, hx, h1⟩, ⟨y, hy, h2⟩, ⟨z, hz, h3⟩, hv⟩

/-- Where the next three words are accepted, the roll is theirs. -/
theorem rollDice_of_words (h : diceOf (wordAt (nextWord 32) 0 rng, wordAt (nextWord 32) 1 rng,
    wordAt (nextWord 32) 2 rng) = some v) :
    (rollDice build fuel).exec rng = (.ok v, skip (nextWord 32) 3 rng) := by
  have hfirst : ∀ r, First (nextWord 32) faceOf (fuel + 1) r (wordAt (nextWord 32) 0 r)
      (skip (nextWord 32) 1 r) := fun r =>
    ⟨0, Nat.succ_pos fuel, fun j hj => absurd hj (Nat.not_lt_zero j), rfl, rfl⟩
  exact rollDice_eq_ok_iff.mpr ⟨_, _, _, _, _, hfirst rng, hfirst (skip (nextWord 32) 1 rng),
    hfirst (skip (nextWord 32) 2 rng), h⟩

theorem isRoll_of_rollDice (h : (rollDice build fuel).exec rng = (.ok v, rng')) : IsRoll v := by
  obtain ⟨x, r1, y, r2, z, -, -, -, hdice⟩ := rollDice_eq_ok_iff.mp h
  by_contra hnot
  exact even_diceOf.outside v hnot _ hdice

theorem rollDie_of_more (hfuel : fuel ≤ fuel') (h : (rollDie build fuel).exec rng = (.ok d, rng')) :
    (rollDie build fuel').exec rng = (.ok d, rng') := by
  rw [rollDie_eq_ok] at h ⊢
  exact draw_of_more (Nat.succ_le_succ hfuel) h

theorem rollDice_of_more (hfuel : fuel ≤ fuel')
    (h : (rollDice build fuel).exec rng = (.ok v, rng')) :
    (rollDice build fuel').exec rng = (.ok v, rng') := by
  obtain ⟨d1, r1, d2, r2, d3, h1, h2, h3, hv⟩ := rollDice_eq_ok.mp h
  exact rollDice_eq_ok.mpr ⟨d1, r1, d2, r2, d3, rollDie_of_more hfuel h1,
    rollDie_of_more hfuel h2, rollDie_of_more hfuel h3, hv⟩

/-- A roll does not panic. -/
theorem rollDie_error {stopped : Stop} (h : (rollDie build fuel).exec rng = (.error stopped, rng')) :
    stopped = .outOfFuel := by
  rw [exec_rollDie] at h
  exact RandInt.outcome_error (congrArg Prod.fst h)

theorem rollDice_error {stopped : Stop}
    (h : (rollDice build fuel).exec rng = (.error stopped, rng')) : stopped = .outOfFuel := by
  unfold rollDice at h
  rcases exec_bind_eq_error.mp h with h1 | ⟨d1, r1, -, h⟩
  · exact rollDie_error h1
  rcases exec_bind_eq_error.mp h with h2 | ⟨d2, r2, -, h⟩
  · exact rollDie_error h2
  rcases exec_bind_eq_error.mp h with h3 | ⟨d3, r3, -, h⟩
  · exact rollDie_error h3
  · cases h

variable [DeriveKeyXof] {seed : Seed}

theorem rollFrom_eq_ok :
    rollFrom build fuel seed = .ok v ↔
      ∃ rng', (rollDice build fuel).exec (RngSource.fromSeed seed) = (.ok v, rng') := by
  unfold rollFrom
  constructor
  · intro h
    exact ⟨_, Prod.ext h rfl⟩
  · rintro ⟨rng', h⟩
    rw [h]

theorem rollFrom_of_more (hfuel : fuel ≤ fuel') (h : rollFrom build fuel seed = .ok v) :
    rollFrom build fuel' seed = .ok v := by
  obtain ⟨rng', hroll⟩ := rollFrom_eq_ok.mp h
  exact rollFrom_eq_ok.mpr ⟨rng', rollDice_of_more hfuel hroll⟩

/-- The roll of a seed is the same with any fuel. -/
theorem rollFrom_unique (h : rollFrom build fuel seed = .ok v)
    (h' : rollFrom build fuel' seed = .ok v') : v = v' := by
  have hmore := rollFrom_of_more (le_max_left fuel fuel') h
  have hmore' := rollFrom_of_more (le_max_right fuel fuel') h'
  exact Except.ok.inj (hmore.symm.trans hmore')

end

/-- **The dice fall evenly.** For every source: a roll returns exactly with what the first
    accepted words give, one for each die; otherwise it has run out of words, and it never
    panics. Every roll of three faces comes from `715827882 ^ 3` triples of words, and no
    other roll from any. -/
theorem dice_fall_evenly (build : Build) (fuel : ℕ) (rng : RngSource) :
    (∀ v rng', (rollDice build fuel).exec rng = (.ok v, rng') ↔
      ∃ x r1 y r2 z, First (nextWord 32) faceOf (fuel + 1) rng x r1 ∧
        First (nextWord 32) faceOf (fuel + 1) r1 y r2 ∧
        First (nextWord 32) faceOf (fuel + 1) r2 z rng' ∧ diceOf (x, y, z) = some v) ∧
    (∀ stopped rng', (rollDice build fuel).exec rng = (.error stopped, rng') →
      stopped = .outOfFuel) ∧
    (∀ v, IsRoll v → {w | diceOf w = some v}.ncard = 715827882 ^ 3) ∧
    ∀ v, ¬ IsRoll v → ∀ w, diceOf w ≠ some v :=
  ⟨fun _ _ => rollDice_eq_ok_iff, fun _ _ h => rollDice_error h, even_diceOf.inside,
    even_diceOf.outside⟩

/-! ## What is recorded -/

section

variable [Blake3Hash] [DeriveKeyXof] {build : Build} {fuel fuel' : ℕ}

namespace RecordDiceRoll

/-- The digests and the roll the action carries are those of its own fields. -/
structure Verifies (build : Build) (fuel : ℕ) (a : RecordDiceRoll) : Prop where
  schema : a.schemaVersion = 2
  commitment : digest (commitPreimage a.serverSeed) = a.commitmentServer
  combined : digest (combinedPreimage a.serverSeed a.userInput a.nonce) = a.combinedSeed
  roll : rollFrom build fuel a.combinedSeed = .ok a.dice

/-- All checks pass. -/
theorem checks_eq_ok {a : RecordDiceRoll} :
    a.checks build fuel = .ok () ↔ a.Verifies build fuel := by
  unfold checks
  simp only [except_bind_eq_ok, Fault.ofAction_eq_ok, Fault.ofReplay_eq_ok,
    ensureSchemaVersion_eq_ok, require_eq_ok, exists_const]
  constructor
  · rintro ⟨hschema, hcommit, hcombined, _, hroll, rfl⟩
    exact ⟨hschema, hcommit, hcombined, hroll⟩
  · rintro ⟨hschema, hcommit, hcombined, hroll⟩
    exact ⟨hschema, hcommit, hcombined, a.dice, hroll, rfl⟩

/-- The checks fail to return only where the roll runs out of words. -/
theorem checks_stopped {a : RecordDiceRoll} {stopped : Stop}
    (h : a.checks build fuel = .error (.stopped stopped)) : stopped = .outOfFuel := by
  unfold checks at h
  simp only [except_bind_eq_error, Fault.ofAction_ne_stopped, require_ne_stopped,
    Fault.ofReplay_eq_stopped, false_or, and_false, exists_false, or_false] at h
  obtain ⟨-, -, -, -, -, -, hroll⟩ := h
  exact rollDice_error (Prod.ext hroll rfl)

/-- More fuel changes no verdict. -/
theorem Verifies.of_more {a : RecordDiceRoll} (h : a.Verifies build fuel) (hfuel : fuel ≤ fuel') :
    a.Verifies build fuel' :=
  { h with roll := rollFrom_of_more hfuel h.roll }

theorem Verifies.isRoll {a : RecordDiceRoll} (h : a.Verifies build fuel) : IsRoll a.dice := by
  obtain ⟨rng', hroll⟩ := rollFrom_eq_ok.mp h.roll
  exact isRoll_of_rollDice hroll

end RecordDiceRoll

variable [Postcard DiceRollLanded] (build fuel)

/-- **A roll is recorded exactly when it verifies.** For every action and context: the body
    returns exactly when schema, commitment, combined seed and roll are as they should be,
    and then adds one event, with the anchor and the tick of the context. Otherwise the
    context stays as it is, and it is an error of the action unless the roll ran out of words.
    What verifies has three faces of dice, and verifies with any more fuel. -/
theorem roll_recorded_iff (hT : Postcard.Total DiceRollLanded) (a : RecordDiceRoll)
    (ctx : ActionContext) :
    (∀ ctx', (a.compute build fuel).exec ctx = (.ok (), ctx') ↔
      a.Verifies build fuel ∧ ctx' = withEvent ctx (a.landed ctx.tick)) ∧
    (∀ fault ctx', (a.compute build fuel).exec ctx = (.error fault, ctx') →
      ctx' = ctx ∧ ∀ stopped, fault = .stopped stopped → stopped = .outOfFuel) ∧
    (a.Verifies build fuel → IsRoll a.dice ∧ ∀ more, a.Verifies build (fuel + more)) := by
  have hexec : (a.compute build fuel).exec ctx = _ :=
    exec_checkThenEmit hT (a.checks build fuel) a.landed ctx
  refine ⟨?_, ?_, ?_⟩
  · intro ctx'
    rw [hexec, ← RecordDiceRoll.checks_eq_ok]
    constructor
    · intro h
      obtain ⟨hok, rfl⟩ := Prod.mk.inj h
      exact ⟨hok, if_pos hok⟩
    · rintro ⟨hok, rfl⟩
      rw [hok]
      rfl
  · intro fault ctx' h
    rw [hexec] at h
    obtain ⟨herror, rfl⟩ := Prod.mk.inj h
    refine ⟨if_neg (by simp [herror]), ?_⟩
    rintro stopped rfl
    exact RecordDiceRoll.checks_stopped herror
  · intro h
    exact ⟨h.isRoll, fun more => h.of_more (Nat.le_add_right fuel more)⟩

end

/-- The roll of an honest server. -/
def RecordDiceRoll.honest [Blake3Hash] (serverSeed : Seed) (userInput : Text) (nonce : UInt64)
    (dice : Vector UInt8 3) : RecordDiceRoll where
  schemaVersion := 2
  commitmentServer := digest (commitPreimage serverSeed)
  serverSeed := serverSeed
  userInput := userInput
  nonce := nonce
  combinedSeed := digest (combinedPreimage serverSeed userInput nonce)
  dice := dice

/-- It verifies. -/
theorem RecordDiceRoll.honest_verifies [Blake3Hash] [DeriveKeyXof] {build : Build} {fuel : ℕ}
    {serverSeed : Seed} {userInput : Text} {nonce : UInt64} {dice : Vector UInt8 3}
    (h : rollFrom build fuel (digest (combinedPreimage serverSeed userInput nonce)) = .ok dice) :
    (honest serverSeed userInput nonce dice).Verifies build fuel := ⟨rfl, rfl, rfl, h⟩

section

attribute [local instance] oneChunkBlake3Hash oneBlockXof

theorem maxTextLen_lt : maxTextLen < UInt64.size := by decide

/-- A `String` on the wire. -/
def textWire : Codec Text := Codec.text maxTextLen maxTextLen_lt

/-- The event on the wire. -/
def diceRollLandedWire : Codec DiceRollLanded :=
  (Codec.u16.pair ((Codec.fixed 32).pair (textWire.pair ((Codec.fixed 3).pair Codec.u64)))).via
    (fun (v, h, u, d, t) => some ⟨v, h, u, d, t⟩)
    (fun e => (e.schemaVersion, e.chainHash, e.userInput, e.dice, e.tick)) fun _ => rfl

abbrev diceRollLandedPostcard : Postcard DiceRollLanded := .ofCodec diceRollLandedWire

/-- The roll of a seed is read off the first block of its stream. -/
theorem rollFrom_of_block {build : Build} {fuel : ℕ} {seed : Seed} {v : Vector UInt8 3}
    (h : diceOf (BitVec.ofNat 32 (fromLe ((firstBlocks seed 1).take 4)),
      BitVec.ofNat 32 (fromLe (((firstBlocks seed 1).drop 4).take 4)),
      BitVec.ofNat 32 (fromLe (((firstBlocks seed 1).drop 8).take 4))) = some v) :
    rollFrom build fuel seed = .ok v := by
  have hwords : ∀ k, (k + 1) * 4 ≤ 64 → wordAt (nextWord 32) k (RngSource.fromSeed seed) =
      BitVec.ofNat 32 (fromLe (((firstBlocks seed 1).drop (k * 4)).take 4)) :=
    fun k hk => wordAt_fromSeed 32 k seed (hk.trans_eq (by decide))
  refine rollFrom_eq_ok.mpr ⟨_, rollDice_of_words ?_⟩
  rw [hwords 0 (by decide), hwords 1 (by decide), hwords 2 (by decide)]
  exact h

theorem one_byte_le (s : String) (h : s.utf8ByteSize = 1) : s.utf8ByteSize ≤ maxTextLen := by
  rw [h]
  decide

/-- Two inputs of a user. -/
def inputA : Text := ⟨"a", one_byte_le "a" rfl⟩

def inputB : Text := ⟨"b", one_byte_le "b" rfl⟩

theorem rollFrom_inputA :
    rollFrom .release 0 (digest (combinedPreimage (.replicate 32 0) inputA 0)) =
      .ok #v[5, 1, 6] := by
  refine rollFrom_of_block ?_
  decide +kernel

theorem rollFrom_inputB :
    rollFrom .release 0 (digest (combinedPreimage (.replicate 32 0) inputB 1)) =
      .ok #v[1, 6, 6] := by
  refine rollFrom_of_block ?_
  decide +kernel

/-- The first roll of a server with the seed of zeros is recorded. -/
theorem roll_recorded_iff_inputA :
    letI := diceRollLandedPostcard
    let a := RecordDiceRoll.honest (.replicate 32 0) inputA 0 #v[5, 1, 6]
    Postcard.Total DiceRollLanded ∧ ∀ ctx : ActionContext, IsRoll a.dice ∧
      (a.compute .release 0).exec ctx = (.ok (), withEvent ctx (a.landed ctx.tick)) := by
  have hT := Postcard.ofCodec_total diceRollLandedWire
  have hverifies := RecordDiceRoll.honest_verifies rollFrom_inputA
  refine ⟨hT, ?_⟩
  intro ctx
  obtain ⟨hrecorded, -, hfaces⟩ := @roll_recorded_iff oneChunkBlake3Hash oneBlockXof .release 0
    diceRollLandedPostcard hT (.honest (.replicate 32 0) inputA 0 #v[5, 1, 6]) ctx
  exact ⟨(hfaces hverifies).1, (hrecorded _).mpr ⟨hverifies, rfl⟩⟩

end

/-! ## What binds -/

theorem textBytes_injective : Function.Injective textBytes :=
  fun _ _ h => String.toByteArray_inj.mp (ByteArray.ext (Array.toList_inj.mp h))

theorem asBytes_injective : Function.Injective Text.asBytes :=
  fun _ _ h => Subtype.ext (textBytes_injective h)

theorem leBytes_injective : Function.Injective leBytes := by
  intro n n' h
  have hbytes : toBe 8 n.toNat = toBe 8 n'.toNat := List.reverse_injective h
  have hvalue := congrArg fromBe hbytes
  rw [fromBe_toBe (w := 8) n.toNat_lt, fromBe_toBe (w := 8) n'.toNat_lt] at hvalue
  exact UInt64.toNat_inj.mp hvalue

theorem commitPreimage_injective : Function.Injective commitPreimage :=
  fun _ _ h => Vector.toList_inj.mp (List.append_cancel_left h)

/-- The seed has a fixed length in front of the input, and the nonce one behind it. -/
theorem combinedPreimage_inj {s s' : Seed} {u u' : Text} {n n' : UInt64}
    (h : combinedPreimage s u n = combinedPreimage s' u' n') : s = s' ∧ u = u' ∧ n = n' := by
  unfold combinedPreimage at h
  have hnonce : (leBytes n).length = (leBytes n').length := by simp [leBytes]
  obtain ⟨hfront, hback⟩ := List.append_inj' h hnonce
  rw [List.append_assoc, List.append_assoc] at hfront
  have hseed : s.toList.length = s'.toList.length := by
    rw [Vector.length_toList, Vector.length_toList]
  obtain ⟨hs, hu⟩ := List.append_inj (List.append_cancel_left hfront) hseed
  exact ⟨Vector.toList_inj.mp hs, asBytes_injective hu, leBytes_injective hback⟩

theorem chainPreimage_inj {v v' : Vector UInt8 3} {u u' : Text}
    (h : chainPreimage v u = chainPreimage v' u') : v = v' ∧ u = u' := by
  unfold chainPreimage at h
  rw [List.append_assoc, List.append_assoc] at h
  have hdice : v.toList.length = v'.toList.length := by
    rw [Vector.length_toList, Vector.length_toList]
  obtain ⟨hv, hu⟩ := List.append_inj (List.append_cancel_left h) hdice
  exact ⟨Vector.toList_inj.mp hv, asBytes_injective hu⟩

/-- The three tags: neither begins another. -/
theorem commit_ne_combined (s s' : Seed) (u : Text) (n : UInt64) :
    commitPreimage s ≠ combinedPreimage s' u n := by
  unfold commitPreimage combinedPreimage
  rw [List.append_assoc, List.append_assoc]
  exact tagged_ne (by decide +kernel) (by decide +kernel) _ _

theorem commit_ne_chain (s : Seed) (v : Vector UInt8 3) (u : Text) :
    commitPreimage s ≠ chainPreimage v u := by
  unfold commitPreimage chainPreimage
  rw [List.append_assoc]
  exact tagged_ne (by decide +kernel) (by decide +kernel) _ _

theorem combined_ne_chain (s : Seed) (u u' : Text) (n : UInt64) (v : Vector UInt8 3) :
    combinedPreimage s u n ≠ chainPreimage v u' := by
  unfold combinedPreimage chainPreimage
  rw [List.append_assoc, List.append_assoc, List.append_assoc]
  exact tagged_ne (by decide +kernel) (by decide +kernel) _ _

section

variable [Blake3Hash] [DeriveKeyXof] (build : Build)

/-- **What two recorded rolls share.** Under one commitment they reveal one server seed, or two
    commitments collide; under one commitment, input and nonce they have one roll; one
    combined seed has one roll, and one server seed, input and nonce unless two messages
    collide; one anchor has one roll and input unless two messages collide. No message
    hashed for one purpose is one hashed for another. -/
theorem roll_binds {r r' : RecordDiceRoll} (h : ∃ fuel, r.Verifies build fuel)
    (h' : ∃ fuel, r'.Verifies build fuel) :
    (r.commitmentServer = r'.commitmentServer →
      r.serverSeed = r'.serverSeed ∧
          (r.userInput = r'.userInput → r.nonce = r'.nonce → r.dice = r'.dice) ∨
        Collide digest (commitPreimage r.serverSeed) (commitPreimage r'.serverSeed)) ∧
    (r.combinedSeed = r'.combinedSeed → r.dice = r'.dice ∧
      ((r.serverSeed = r'.serverSeed ∧ r.userInput = r'.userInput ∧
          r.nonce = r'.nonce) ∨
        Collide digest (combinedPreimage r.serverSeed r.userInput r.nonce)
          (combinedPreimage r'.serverSeed r'.userInput r'.nonce))) ∧
    (∀ tick tick', (r.landed tick).chainHash = (r'.landed tick').chainHash →
      (r.dice = r'.dice ∧ r.userInput = r'.userInput) ∨
        Collide digest (chainPreimage r.dice r.userInput)
          (chainPreimage r'.dice r'.userInput)) ∧
    commitPreimage r.serverSeed ≠
      combinedPreimage r'.serverSeed r'.userInput r'.nonce ∧
    commitPreimage r.serverSeed ≠ chainPreimage r'.dice r'.userInput ∧
    combinedPreimage r.serverSeed r.userInput r.nonce ≠
      chainPreimage r'.dice r'.userInput := by
  obtain ⟨fuel, h⟩ := h
  obtain ⟨fuel', h'⟩ := h'
  have hdice : r.combinedSeed = r'.combinedSeed → r.dice = r'.dice := by
    intro hseed
    exact rollFrom_unique h.roll (hseed ▸ h'.roll)
  refine ⟨?_, ?_, ?_, commit_ne_combined _ _ _ _, commit_ne_chain _ _ _,
    combined_ne_chain _ _ _ _ _⟩
  · intro hsame
    have hdigest := h.commitment.trans (hsame.trans h'.commitment.symm)
    rcases eq_or_collide hdigest with heq | hcollide
    · have hseed := commitPreimage_injective heq
      refine .inl ⟨hseed, fun hinput hnonce => hdice ?_⟩
      rw [← h.combined, ← h'.combined, hseed, hinput, hnonce]
    · exact .inr hcollide
  · intro hsame
    have hdigest := h.combined.trans (hsame.trans h'.combined.symm)
    refine ⟨hdice hsame, ?_⟩
    rcases eq_or_collide hdigest with heq | hcollide
    · exact .inl (combinedPreimage_inj heq)
    · exact .inr hcollide
  · intro tick tick' hsame
    have hdigest : digest (chainPreimage r.dice r.userInput) =
        digest (chainPreimage r'.dice r'.userInput) := hsame
    rcases eq_or_collide hdigest with heq | hcollide
    · exact .inl (chainPreimage_inj heq)
    · exact .inr hcollide

end

section

attribute [local instance] oneChunkBlake3Hash oneBlockXof

/-- Two rolls of one server: the commitment is the same, and so is the seed revealed. -/
theorem roll_binds_twoInputs :
    let r := RecordDiceRoll.honest (.replicate 32 0) inputA 0 #v[5, 1, 6]
    let r' := RecordDiceRoll.honest (.replicate 32 0) inputB 1 #v[1, 6, 6]
    r.Verifies .release 0 ∧ r'.Verifies .release 0 ∧ r.commitmentServer = r'.commitmentServer ∧
      (r.serverSeed = r'.serverSeed ∨
        Collide digest (commitPreimage r.serverSeed) (commitPreimage r'.serverSeed)) ∧
      combinedPreimage r.serverSeed r.userInput r.nonce ≠ chainPreimage r'.dice r'.userInput := by
  intro r r'
  have h := RecordDiceRoll.honest_verifies rollFrom_inputA
  have h' := RecordDiceRoll.honest_verifies rollFrom_inputB
  obtain ⟨hcommitment, -, -, -, -, hchain⟩ := roll_binds .release ⟨0, h⟩ ⟨0, h'⟩
  exact ⟨h, h', rfl, (hcommitment rfl).imp_left And.left, hchain⟩

end

end ArkheForge.Dice
