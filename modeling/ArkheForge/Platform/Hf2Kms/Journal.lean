/-
  The chain-signed journal of consumed tokens (`hf2_kms/journal.rs`).

  An entry names the hash of the one before it and carries a signature of its own
  hash. `verify_chain` walks the entries once; `verify_chain_anchored` also pins the
  length, the signer and the tip. The hash is `Blake3` and the signature check
  `Ed25519Dalek`; a signer is any pair of a signing function and a public key.

  An entry is a block of a hash chain (`JournalEntry.block`), and a journal that
  passes `verify_chain` is linked (`linked_of_verifyChain`), so what `HashChain` says
  about chains with one tip is what the anchored check rests on.
-/
import ArkheForge.Core.Blake3
import ArkheForge.Lib.Fallible
import ArkheForge.Lib.HashChain
import Mathlib.Data.Finset.Insert

namespace ArkheForge.Platform

open ArkheForge.Core BigEndian Fallible HashChain

/-! ## The source functions -/

/-- `JOURNAL_CHAIN_DOMAIN`. -/
def journalChainDomain : String := "arkhe-runtime-doctor-journal-chain"

/-- `GENESIS_PREV_HASH`. -/
def genesisPrevHash : Vector UInt8 32 := .replicate 32 0

/-- `ConsumedToken`. -/
structure ConsumedToken where
  tokenHash : Vector UInt8 32
  operatorFingerprint : Vector UInt8 8
  consumedAtTick : UInt64
  deriving DecidableEq, Repr

/-- `ConsumedToken::canonical_bytes`. -/
def ConsumedToken.canonicalBytes (token : ConsumedToken) : Bytes :=
  token.tokenHash.toList ++ token.operatorFingerprint.toList ++
    toBe 8 token.consumedAtTick.toNat

/-- `JournalEntry`. -/
structure JournalEntry where
  token : ConsumedToken
  prevHash : Vector UInt8 32
  entryHash : Vector UInt8 32
  signature : Vector UInt8 64
  signerPubkey : Vector UInt8 32
  deriving DecidableEq, Repr

/-- `JournalSigner`. -/
structure JournalSigner where
  sign : Bytes → Vector UInt8 64
  publicKey : Vector UInt8 32

/-- `JournalError`. -/
inductive JournalError
  | duplicateToken
  | chainIntegrity (index : ℕ)
  | signatureInvalid (index : ℕ)
  | signerKeyMismatch (index : ℕ)
  | tipMismatch
  | lengthMismatch (expected actual : ℕ)
  | backendIo (message : String)
  deriving DecidableEq, Repr

/-- `InMemoryJournal`. -/
structure InMemoryJournal where
  entries : List JournalEntry
  seen : Finset (Vector UInt8 32)
  deriving DecidableEq

/-- The 80 bytes that are hashed. -/
def entryPreimage (prevHash : Vector UInt8 32) (token : ConsumedToken) : Bytes :=
  prevHash.toList ++ token.tokenHash.toList ++ token.operatorFingerprint.toList ++
    toBe 8 token.consumedAtTick.toNat

/-- `JournalEntry::compute_entry_hash`. -/
def computeEntryHash [Blake3] (prevHash : Vector UInt8 32) (token : ConsumedToken) :
    Vector UInt8 32 :=
  digestArray (Blake3.deriveKey journalChainDomain (entryPreimage prevHash token))

namespace InMemoryJournal

/-- `InMemoryJournal::new`. -/
def new : InMemoryJournal where
  entries := []
  seen := ∅

/-- `InMemoryJournal::tip_hash`. -/
def tipHash (j : InMemoryJournal) : Vector UInt8 32 :=
  match j.entries.getLast? with
  | some e => e.entryHash
  | none => genesisPrevHash

/-- `InMemoryJournal::len`. -/
def len (j : InMemoryJournal) : ℕ := j.entries.length

/-- `InMemoryJournal::is_duplicate`. -/
def isDuplicate (j : InMemoryJournal) (tokenHash : Vector UInt8 32) : Bool := tokenHash ∈ j.seen

/-- `InMemoryJournal::append`. -/
def append [Blake3] (token : ConsumedToken) (signer : JournalSigner) :
    Fallible InMemoryJournal JournalError JournalEntry := do
  let j ← get
  if j.isDuplicate token.tokenHash then throw .duplicateToken
  let prevHash := j.tipHash
  let entryHash := computeEntryHash prevHash token
  let entry : JournalEntry :=
    { token := token
      prevHash := prevHash
      entryHash := entryHash
      signature := signer.sign entryHash.toList
      signerPubkey := signer.publicKey }
  modify fun j => { entries := j.entries ++ [entry], seen := insert entry.token.tokenHash j.seen }
  pure entry

section

variable [Blake3] [Ed25519Dalek]

/-- The body of the loop of `verify_chain`. -/
def verifyEntry (expectedPrev : Vector UInt8 32) (idx : ℕ) (entry : JournalEntry) :
    Except JournalError Unit :=
  if entry.prevHash ≠ expectedPrev then .error (.chainIntegrity idx)
  else if computeEntryHash entry.prevHash entry.token ≠ entry.entryHash then
    .error (.chainIntegrity idx)
  else
    match Ed25519Dalek.fromBytes entry.signerPubkey.toList with
    | none => .error (.signatureInvalid idx)
    | some verifyingKey =>
      if Ed25519Dalek.verify verifyingKey entry.entryHash.toList entry.signature.toList then .ok ()
      else .error (.signatureInvalid idx)

/-- The loop of `verify_chain`. -/
def verifyFrom : Vector UInt8 32 → ℕ → List JournalEntry → Except JournalError Unit
  | _, _, [] => .ok ()
  | expectedPrev, idx, entry :: rest => do
    verifyEntry expectedPrev idx entry
    verifyFrom entry.entryHash (idx + 1) rest

/-- `InMemoryJournal::verify_chain`. -/
def verifyChain (j : InMemoryJournal) : Except JournalError Unit :=
  verifyFrom genesisPrevHash 0 j.entries

/-- The signer loop of `verify_chain_anchored`. -/
def checkSigners (trustedPubkey : Vector UInt8 32) :
    ℕ → List JournalEntry → Except JournalError Unit
  | _, [] => .ok ()
  | idx, entry :: rest =>
    if entry.signerPubkey ≠ trustedPubkey then .error (.signerKeyMismatch idx)
    else checkSigners trustedPubkey (idx + 1) rest

/-- `InMemoryJournal::verify_chain_anchored`. -/
def verifyChainAnchored (j : InMemoryJournal) (trustedPubkey expectedTip : Vector UInt8 32)
    (expectedLen : ℕ) : Except JournalError Unit :=
  if j.entries.length ≠ expectedLen then .error (.lengthMismatch expectedLen j.entries.length)
  else do
    j.verifyChain
    checkSigners trustedPubkey 0 j.entries
    if j.tipHash ≠ expectedTip then .error .tipMismatch else .ok ()

end

end InMemoryJournal

/-! ## The preimages -/

theorem entryPreimage_eq (prevHash : Vector UInt8 32) (token : ConsumedToken) :
    entryPreimage prevHash token = prevHash.toList ++ token.canonicalBytes := by
  unfold entryPreimage ConsumedToken.canonicalBytes
  rw [List.append_assoc, List.append_assoc, List.append_assoc]

/-- The layout is unambiguous. -/
theorem entryPreimage_inj {prevHash prevHash' : Vector UInt8 32} {token token' : ConsumedToken}
    (h : entryPreimage prevHash token = entryPreimage prevHash' token') :
    prevHash = prevHash' ∧ token = token' := by
  rw [entryPreimage_eq, entryPreimage_eq, toList_append_inj] at h
  obtain ⟨hprev, htoken⟩ := h
  unfold ConsumedToken.canonicalBytes at htoken
  rw [List.append_assoc, List.append_assoc, toList_append_inj, toList_append_inj] at htoken
  obtain ⟨hhash, hfingerprint, htick⟩ := htoken
  have htick' : token.consumedAtTick = token'.consumedAtTick :=
    UInt64.toNat_inj.mp (toBe_injective (UInt64.toNat_lt _) (UInt64.toNat_lt _) htick)
  refine ⟨hprev, ?_⟩
  cases token
  cases token'
  simp_all

/-! ## Entries as blocks -/

/-- The block an entry is. -/
def JournalEntry.block (entry : JournalEntry) : Block ConsumedToken (Vector UInt8 32) where
  payload := entry.token
  prev := entry.prevHash
  digest := entry.entryHash

/-- The signature of an entry verifies under the key it names. -/
def SignatureVerifies [Ed25519Dalek] (pubkey : Vector UInt8 32) (entry : JournalEntry) : Prop :=
  ∃ verifyingKey, Ed25519Dalek.fromBytes pubkey.toList = some verifyingKey ∧
    Ed25519Dalek.verify verifyingKey entry.entryHash.toList entry.signature.toList = true

namespace InMemoryJournal

theorem tipHash_eq (j : InMemoryJournal) :
    j.tipHash = tip genesisPrevHash (j.entries.map JournalEntry.block) := by
  unfold tipHash tip
  rw [List.getLast?_map]
  cases j.entries.getLast? with
  | none => rfl
  | some e => rfl

section

variable [Blake3] [Ed25519Dalek]

theorem verifyEntry_iff {expectedPrev : Vector UInt8 32} {idx : ℕ} {entry : JournalEntry} :
    verifyEntry expectedPrev idx entry = .ok () ↔
      entry.prevHash = expectedPrev ∧
        entry.entryHash = computeEntryHash entry.prevHash entry.token ∧
        SignatureVerifies entry.signerPubkey entry := by
  unfold verifyEntry SignatureVerifies
  by_cases hprev : entry.prevHash = expectedPrev
  · by_cases hhash : computeEntryHash entry.prevHash entry.token = entry.entryHash
    · rw [if_neg (not_not.mpr hprev), if_neg (not_not.mpr hhash), and_iff_right hprev,
        and_iff_right hhash.symm]
      cases hkey : Ed25519Dalek.fromBytes entry.signerPubkey.toList with
      | none => simp
      | some verifyingKey => simp
    · rw [if_neg (not_not.mpr hprev), if_pos hhash]
      exact iff_of_false (by simp) fun h => hhash h.2.1.symm
  · rw [if_pos hprev]
    exact iff_of_false (by simp) fun h => hprev h.1

/-- `verify_chain` accepts exactly the linked journals whose signatures verify. -/
theorem verifyFrom_iff {expectedPrev : Vector UInt8 32} {idx : ℕ} {entries : List JournalEntry} :
    verifyFrom expectedPrev idx entries = .ok () ↔
      Linked computeEntryHash expectedPrev (entries.map JournalEntry.block) ∧
        ∀ entry ∈ entries, SignatureVerifies entry.signerPubkey entry := by
  induction entries generalizing expectedPrev idx with
  | nil => simp [verifyFrom, Linked]
  | cons entry rest ih =>
      unfold verifyFrom
      rw [except_seq_eq_ok, verifyEntry_iff, ih, List.map_cons, List.forall_mem_cons]
      show _ ↔ (entry.prevHash = expectedPrev ∧
        entry.entryHash = computeEntryHash entry.prevHash entry.token ∧ _) ∧ _
      constructor
      · intro h
        exact ⟨⟨h.1.1, h.1.2.1, h.2.1⟩, h.1.2.2, h.2.2⟩
      · intro h
        exact ⟨⟨h.1.1, h.1.2.1, h.2.1⟩, h.1.2.2, h.2.2⟩

omit [Blake3] [Ed25519Dalek] in
theorem checkSigners_iff {trustedPubkey : Vector UInt8 32} {idx : ℕ}
    {entries : List JournalEntry} :
    checkSigners trustedPubkey idx entries = .ok () ↔
      ∀ entry ∈ entries, entry.signerPubkey = trustedPubkey := by
  induction entries generalizing idx with
  | nil => simp [checkSigners]
  | cons entry rest ih =>
      unfold checkSigners
      rw [List.forall_mem_cons]
      by_cases hsigner : entry.signerPubkey = trustedPubkey
      · rw [if_neg (not_not.mpr hsigner), ih]
        exact (and_iff_right hsigner).symm
      · rw [if_pos hsigner]
        exact iff_of_false (by simp) fun h => hsigner h.1

/-- What the anchored check accepts. -/
theorem verifyChainAnchored_iff {j : InMemoryJournal} {trustedPubkey expectedTip : Vector UInt8 32}
    {expectedLen : ℕ} :
    j.verifyChainAnchored trustedPubkey expectedTip expectedLen = .ok () ↔
      j.entries.length = expectedLen ∧
        Linked computeEntryHash genesisPrevHash (j.entries.map JournalEntry.block) ∧
        (∀ entry ∈ j.entries, entry.signerPubkey = trustedPubkey ∧
          SignatureVerifies trustedPubkey entry) ∧
        j.tipHash = expectedTip := by
  unfold verifyChainAnchored verifyChain
  by_cases hlen : j.entries.length = expectedLen
  · rw [if_neg (not_not.mpr hlen), except_seq_eq_ok, except_seq_eq_ok, verifyFrom_iff,
      checkSigners_iff]
    by_cases htip : j.tipHash = expectedTip
    · rw [if_neg (not_not.mpr htip)]
      constructor
      · intro h
        obtain ⟨⟨hlinked, hsignatures⟩, hsigners, -⟩ := h
        refine ⟨hlen, hlinked, ?_, htip⟩
        intro entry hentry
        have hsigned := hsignatures entry hentry
        rw [hsigners entry hentry] at hsigned
        exact ⟨hsigners entry hentry, hsigned⟩
      · intro h
        obtain ⟨-, hlinked, hsigned, -⟩ := h
        refine ⟨⟨hlinked, ?_⟩, fun entry hentry => (hsigned entry hentry).1, rfl⟩
        intro entry hentry
        rw [(hsigned entry hentry).1]
        exact (hsigned entry hentry).2
    · rw [if_pos htip]
      refine iff_of_false ?_ fun h => htip h.2.2.2
      intro h
      exact absurd h.2.2 (by simp)
  · rw [if_pos hlen]
    exact iff_of_false (by simp) fun h => hlen h.1

end

/-! ## Genuine journals -/

section

variable [Blake3]

/-- The journal that a sequence of `append` calls builds, refused ones included. -/
def built (calls : List (ConsumedToken × JournalSigner)) : InMemoryJournal :=
  calls.foldl (fun j call => ((append call.1 call.2).exec j).2) new

/-- The entry that `append` adds. -/
def nextEntry (j : InMemoryJournal) (token : ConsumedToken) (signer : JournalSigner) :
    JournalEntry where
  token := token
  prevHash := j.tipHash
  entryHash := computeEntryHash j.tipHash token
  signature := signer.sign (computeEntryHash j.tipHash token).toList
  signerPubkey := signer.publicKey

theorem exec_append (token : ConsumedToken) (signer : JournalSigner) (j : InMemoryJournal) :
    (append token signer).exec j =
      if token.tokenHash ∈ j.seen then (.error .duplicateToken, j)
      else
        (.ok (j.nextEntry token signer),
          { entries := j.entries ++ [j.nextEntry token signer]
            seen := insert token.tokenHash j.seen }) := by
  unfold append isDuplicate
  simp only [exec_bind, exec_get, decide_eq_true_eq]
  split
  · rfl
  · rfl

/-- An `append` that is not refused adds one linked entry. -/
theorem linked_append (token : ConsumedToken) (signer : JournalSigner) {j : InMemoryJournal}
    (h : Linked computeEntryHash genesisPrevHash (j.entries.map JournalEntry.block)) :
    Linked computeEntryHash genesisPrevHash
      (((append token signer).exec j).2.entries.map JournalEntry.block) := by
  rw [exec_append]
  split
  · exact h
  · rw [List.map_append]
    exact linked_concat.mpr ⟨h, tipHash_eq j, rfl⟩

theorem linked_built (calls : List (ConsumedToken × JournalSigner)) :
    Linked computeEntryHash genesisPrevHash ((built calls).entries.map JournalEntry.block) := by
  induction calls using List.reverseRecOn with
  | nil => trivial
  | append_singleton calls call ih =>
      unfold built at ih ⊢
      rw [List.foldl_append]
      exact linked_append call.1 call.2 ih

/-- The hash tells the preimages of two journals apart. -/
def HashSeparates (j j' : InMemoryJournal) : Prop :=
  ∀ entry ∈ j.entries, ∀ entry' ∈ j'.entries,
    computeEntryHash entry.prevHash entry.token = computeEntryHash entry'.prevHash entry'.token →
    entryPreimage entry.prevHash entry.token = entryPreimage entry'.prevHash entry'.token

/-- A journal that passes the check anchored at the tip, the length and a key holds the same
    tokens and hashes as the genuine one, signed by that key throughout. -/
theorem anchored_tamper_evident [Ed25519Dalek] (calls : List (ConsumedToken × JournalSigner))
    (other : InMemoryJournal) (pk : Vector UInt8 32)
    (hhash : HashSeparates (built calls) other)
    (hverified : other.verifyChainAnchored pk (built calls).tipHash (built calls).len = .ok ()) :
    other.entries.map (fun e => (e.token, e.prevHash, e.entryHash)) =
        (built calls).entries.map (fun e => (e.token, e.prevHash, e.entryHash)) ∧
      ∀ entry ∈ other.entries, entry.signerPubkey = pk ∧ SignatureVerifies pk entry := by
  obtain ⟨hlen, hlinked, hsigned, htip⟩ := verifyChainAnchored_iff.mp hverified
  refine ⟨?_, hsigned⟩
  have hseparates : Separates computeEntryHash ((built calls).entries.map JournalEntry.block)
      (other.entries.map JournalEntry.block) := by
    intro b hb c hc hsame
    obtain ⟨entry, hentry, rfl⟩ := List.mem_map.mp hb
    obtain ⟨entry', hentry', rfl⟩ := List.mem_map.mp hc
    exact entryPreimage_inj (hhash entry hentry entry' hentry' hsame)
  have hblocks : (built calls).entries.map JournalEntry.block =
      other.entries.map JournalEntry.block := by
    refine eq_of_tip (linked_built calls) hlinked hseparates ?_ ?_
    · rw [List.length_map, List.length_map, hlen]
      rfl
    · intro _
      rw [← tipHash_eq, ← tipHash_eq, htip]
  have htriple := congrArg (List.map fun b : Block ConsumedToken (Vector UInt8 32) =>
    (b.payload, b.prev, b.digest)) hblocks
  rw [List.map_map, List.map_map] at htriple
  exact htriple.symm

end

/-! ## A journal with one entry signed again -/

/-- The big-endian bytes of a number, as an array. -/
def arrayOf (w n : ℕ) : Vector UInt8 w := Vector.ofFn fun i => (toBe w n).getD i 0

/-- The key pair of the seed `[4; 32]`: its public key, and its signatures of two entry hashes. -/
def testPublicKey : Vector UInt8 32 :=
  arrayOf 32 0xca93ac1705187071d67b83c7ff0efe8108e8ec4530575d7726879333dbdabe7c

def firstHash : Vector UInt8 32 :=
  arrayOf 32 0x2f8a1faa90143a56bc94b82359c4b357766420bf4845e142dc992b68044a0902

def firstSignature : Vector UInt8 64 :=
  arrayOf 64 0xd6d87d64239e314afe5b24fd41991b5f25a62e77475a2f94f074491ca794b7d6e31f051abe65606c6723d8dc5a1fe9fc8956f3fef6bcfe66877150dd27124709

def secondHash : Vector UInt8 32 :=
  arrayOf 32 0x37c8b41395edda0aed2519bb613b1b7ee1fc85e776589f5cb67a2c24bf0bdff5

def secondSignature : Vector UInt8 64 :=
  arrayOf 64 0x91e18f3bcde8e3d09fae4d2b3bfd83a80c3338c4567c7101ccbd22474dd634c3cb1e0f3b28e83ad3d90b63ce361c6b7fc6dce3aa15711dedbfe87156765d1905

/-- Another signature of the second hash under the key, from another nonce. -/
def secondSignatureAgain : Vector UInt8 64 :=
  arrayOf 64 0x143d8c6902b1c46f00e385464043887c9a329ae8beb3d12b5158530870e20232c44c2e79c330f409170c0267edee4837e18d3428f94c7d4b9108633f2740b20b

/-- Ed25519 as far as these signatures go. -/
abbrev testEd25519 : Ed25519Dalek where
  VerifyingKey := Bytes
  fromBytes key := if key = testPublicKey.toList then some key else none
  verify _ message signature :=
    (message, signature) ∈ [(firstHash.toList, firstSignature.toList),
      (secondHash.toList, secondSignature.toList), (secondHash.toList, secondSignatureAgain.toList)]
  verifyStrict _ message signature :=
    (message, signature) ∈ [(firstHash.toList, firstSignature.toList),
      (secondHash.toList, secondSignature.toList), (secondHash.toList, secondSignatureAgain.toList)]

section

attribute [local instance] oneChunkBlake3 testEd25519

/-- `test_signer(0x04)`. -/
def testSigner : JournalSigner where
  sign message := if message = firstHash.toList then firstSignature else secondSignature
  publicKey := testPublicKey

/-- `make_token`. -/
def makeToken (tag : UInt8) (tick : UInt64) : ConsumedToken where
  tokenHash := .replicate 32 tag
  operatorFingerprint := .replicate 8 tag
  consumedAtTick := tick

def twoTokens : List (ConsumedToken × JournalSigner) :=
  [(makeToken 1 10, testSigner), (makeToken 2 20, testSigner)]

/-- The same two entries, the second with another signature, and an empty set beside them. -/
def resigned : InMemoryJournal where
  entries :=
    [⟨makeToken 1 10, genesisPrevHash, firstHash, firstSignature, testPublicKey⟩,
      ⟨makeToken 2 20, firstHash, secondHash, secondSignatureAgain, testPublicKey⟩]
  seen := ∅

theorem computeEntryHash_first :
    computeEntryHash genesisPrevHash (makeToken 1 10) = firstHash := by decide +kernel

theorem computeEntryHash_second :
    computeEntryHash firstHash (makeToken 2 20) = secondHash := by decide +kernel

theorem firstHash_ne_secondHash : firstHash ≠ secondHash := by decide +kernel

theorem built_twoTokens :
    (built twoTokens).entries =
      [⟨makeToken 1 10, genesisPrevHash, firstHash, firstSignature, testPublicKey⟩,
        ⟨makeToken 2 20, firstHash, secondHash, secondSignature, testPublicKey⟩] := by
  have hfirst : new.nextEntry (makeToken 1 10) testSigner =
      ⟨makeToken 1 10, genesisPrevHash, firstHash, firstSignature, testPublicKey⟩ := by
    show JournalEntry.mk _ genesisPrevHash (computeEntryHash genesisPrevHash _)
      (testSigner.sign (computeEntryHash genesisPrevHash _).toList) _ = _
    rw [computeEntryHash_first]
    rfl
  have hsecond : nextEntry ⟨[⟨makeToken 1 10, genesisPrevHash, firstHash, firstSignature,
        testPublicKey⟩], {(makeToken 1 10).tokenHash}⟩ (makeToken 2 20) testSigner =
      ⟨makeToken 2 20, firstHash, secondHash, secondSignature, testPublicKey⟩ := by
    have hne : ¬ secondHash.toList = firstHash.toList := by
      intro h
      exact firstHash_ne_secondHash (Vector.toList_inj.mp h).symm
    have hsign : testSigner.sign secondHash.toList = secondSignature := by
      simp only [testSigner, if_neg hne]
    show JournalEntry.mk _ firstHash (computeEntryHash firstHash _)
      (testSigner.sign (computeEntryHash firstHash _).toList) _ = _
    rw [computeEntryHash_second, hsign]
    rfl
  have hfresh : (makeToken 2 20).tokenHash ∉
      ({(makeToken 1 10).tokenHash} : Finset (Vector UInt8 32)) := by decide +kernel
  have hone : ((append (makeToken 1 10) testSigner).exec new).2 =
      ⟨[⟨makeToken 1 10, genesisPrevHash, firstHash, firstSignature, testPublicKey⟩],
        {(makeToken 1 10).tokenHash}⟩ := by
    rw [exec_append, hfirst]
    rfl
  unfold built twoTokens
  rw [List.foldl_cons, List.foldl_cons, hone, exec_append, if_neg hfresh, hsecond]
  rfl

theorem hashSeparates_resigned : HashSeparates (built twoTokens) resigned := by
  intro entry hentry entry' hentry' hsame
  rw [built_twoTokens] at hentry
  simp only [resigned, List.mem_cons, List.not_mem_nil, or_false] at hentry hentry'
  obtain rfl | rfl := hentry
  all_goals obtain rfl | rfl := hentry'
  · rfl
  · rw [computeEntryHash_first, computeEntryHash_second] at hsame
    exact absurd hsame firstHash_ne_secondHash
  · rw [computeEntryHash_first, computeEntryHash_second] at hsame
    exact absurd hsame.symm firstHash_ne_secondHash
  · rfl

theorem verifyChainAnchored_resigned :
    resigned.verifyChainAnchored testPublicKey (built twoTokens).tipHash (built twoTokens).len =
      .ok () := by
  have htip : (built twoTokens).tipHash = secondHash := by
    unfold tipHash
    rw [built_twoTokens, List.getLast?_cons_cons]
    rfl
  refine verifyChainAnchored_iff.mpr ⟨?_, ?_, ?_, htip.symm⟩
  · unfold len
    rw [built_twoTokens]
    rfl
  · exact ⟨rfl, computeEntryHash_first.symm, rfl, computeEntryHash_second.symm, trivial⟩
  · intro entry hentry
    simp only [resigned, List.mem_cons, List.not_mem_nil, or_false] at hentry
    obtain rfl | rfl := hentry
    · exact ⟨rfl, testPublicKey.toList, if_pos rfl, decide_eq_true (by simp)⟩
    · exact ⟨rfl, testPublicKey.toList, if_pos rfl, decide_eq_true (by simp)⟩

theorem anchored_tamper_evident_resigned :
    resigned.entries ≠ (built twoTokens).entries ∧
      resigned.entries.map (fun e => (e.token, e.prevHash, e.entryHash)) =
        (built twoTokens).entries.map (fun e => (e.token, e.prevHash, e.entryHash)) := by
  have hsignatures : secondSignatureAgain ≠ secondSignature := by decide +kernel
  refine ⟨?_, (anchored_tamper_evident twoTokens resigned testPublicKey hashSeparates_resigned
    verifyChainAnchored_resigned).1⟩
  rw [built_twoTokens]
  intro heq
  simp only [resigned, List.cons.injEq, JournalEntry.mk.injEq] at heq
  exact hsignatures heq.2.1.2.2.2.1

end

end InMemoryJournal

end ArkheForge.Platform
