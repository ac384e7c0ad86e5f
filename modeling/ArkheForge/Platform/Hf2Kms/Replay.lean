/-
  The journal over whole runs of `append`: the chain verifies, and the set of seen
  tokens is the set of the tokens in the chain.

  The two structures of `InMemoryJournal` are written together by one call and read by
  different ones: `verify_chain` walks the entries and the replay guard asks the set.
  `Sound` ties them, one append preserves it (`Sound.append`), and so a refused append is
  one of a token that is in the chain.
-/
import ArkheForge.Platform.Hf2Kms.Journal

namespace ArkheForge.Platform

open ArkheForge.Core BigEndian Fallible HashChain

/-- What the signer signs verifies under its own public key. -/
def JournalSigner.SignsOwnKey [Ed25519Dalek] (signer : JournalSigner) : Prop :=
  ∃ verifyingKey, Ed25519Dalek.fromBytes signer.publicKey.toList = some verifyingKey ∧
    ∀ message, Ed25519Dalek.verify verifyingKey message (signer.sign message).toList = true

namespace InMemoryJournal

/-- The token hashes of the chain, in order. -/
def tokenHashes (j : InMemoryJournal) : List (Vector UInt8 32) :=
  j.entries.map fun entry => entry.token.tokenHash

/-- A journal whose chain verifies and whose set holds what the chain does, each once. -/
structure Sound [Blake3] [Ed25519Dalek] (j : InMemoryJournal) : Prop where
  verified : j.verifyChain = .ok ()
  nodup : j.tokenHashes.Nodup
  seen : ∀ tokenHash, tokenHash ∈ j.seen ↔ tokenHash ∈ j.tokenHashes

section

variable [Blake3]

/-- An append is refused for a token that was seen, and otherwise adds one entry. -/
theorem append_cases (token : ConsumedToken) (signer : JournalSigner) (j : InMemoryJournal) :
    (token.tokenHash ∈ j.seen ∧ (append token signer).exec j = (.error .duplicateToken, j)) ∨
    (token.tokenHash ∉ j.seen ∧ (append token signer).exec j =
      (.ok (j.nextEntry token signer),
        { entries := j.entries ++ [j.nextEntry token signer]
          seen := insert token.tokenHash j.seen })) := by
  rw [exec_append]
  by_cases hseen : token.tokenHash ∈ j.seen
  · exact .inl ⟨hseen, if_pos hseen⟩
  · exact .inr ⟨hseen, if_neg hseen⟩

theorem entries_prefix_append (token : ConsumedToken) (signer : JournalSigner)
    (j : InMemoryJournal) : j.entries <+: ((append token signer).exec j).2.entries := by
  rcases append_cases token signer j with ⟨-, hexec⟩ | ⟨-, hexec⟩
  · rw [hexec]
  · rw [hexec]
    exact List.prefix_append _ _

theorem built_concat (calls : List (ConsumedToken × JournalSigner))
    (call : ConsumedToken × JournalSigner) :
    built (calls ++ [call]) = ((append call.1 call.2).exec (built calls)).2 := by
  unfold built
  rw [List.foldl_append]
  rfl

/-- Appends leave what is in the chain where it is. -/
theorem entries_prefix_built (calls more : List (ConsumedToken × JournalSigner)) :
    (built calls).entries <+: (built (calls ++ more)).entries := by
  induction more using List.reverseRecOn with
  | nil => rw [List.append_nil]
  | append_singleton more call ih =>
      rw [← List.append_assoc, built_concat]
      exact ih.trans (entries_prefix_append call.1 call.2 _)

variable [Ed25519Dalek]

theorem sound_new : Sound new where
  verified := rfl
  nodup := List.nodup_nil
  seen := by simp [new, tokenHashes]

theorem signatureVerifies_nextEntry {signer : JournalSigner} (h : signer.SignsOwnKey)
    (token : ConsumedToken) (j : InMemoryJournal) :
    SignatureVerifies signer.publicKey (j.nextEntry token signer) := by
  obtain ⟨verifyingKey, hkey, hsigns⟩ := h
  exact ⟨verifyingKey, hkey, hsigns _⟩

theorem Sound.append {j : InMemoryJournal} (h : j.Sound) {signer : JournalSigner}
    (hsigner : signer.SignsOwnKey) (token : ConsumedToken) :
    Sound ((InMemoryJournal.append token signer).exec j).2 := by
  have hlinked := linked_append token signer (verifyFrom_iff.mp h.verified).1
  rcases append_cases token signer j with ⟨-, hexec⟩ | ⟨hfresh, hexec⟩
  · rw [hexec]
    exact h
  · rw [hexec] at hlinked ⊢
    have hhashes : tokenHashes
        { entries := j.entries ++ [j.nextEntry token signer]
          seen := insert token.tokenHash j.seen } = j.tokenHashes ++ [token.tokenHash] := by
      unfold tokenHashes
      rw [List.map_append]
      rfl
    constructor
    · -- the old entries verify as before, the new one by its own signer
      refine verifyFrom_iff.mpr ⟨hlinked, ?_⟩
      intro entry hentry
      rcases List.mem_append.mp hentry with hold | hnew
      · exact (verifyFrom_iff.mp h.verified).2 entry hold
      · rw [List.mem_singleton.mp hnew]
        exact signatureVerifies_nextEntry hsigner token j
    · rw [hhashes, List.nodup_append]
      refine ⟨h.nodup, List.nodup_singleton _, ?_⟩
      intro old hold new hnew heq
      rw [List.mem_singleton.mp hnew] at heq
      rw [heq] at hold
      exact hfresh ((h.seen _).mpr hold)
    · intro tokenHash
      rw [hhashes, List.mem_append, List.mem_singleton, ← h.seen, Finset.mem_insert, or_comm]

theorem sound_built {calls : List (ConsumedToken × JournalSigner)}
    (hsigners : ∀ call ∈ calls, call.2.SignsOwnKey) : Sound (built calls) := by
  induction calls using List.reverseRecOn with
  | nil => exact sound_new
  | append_singleton calls call ih =>
      rw [built_concat]
      refine (ih ?_).append (hsigners call (by simp)) call.1
      intro earlier hearlier
      exact hsigners earlier (List.mem_append_left _ hearlier)

/-- The only error of an append is a token that is in the chain, and it changes nothing. -/
theorem Sound.append_error_iff {j : InMemoryJournal} (h : j.Sound) (token : ConsumedToken)
    (signer : JournalSigner) :
    (((InMemoryJournal.append token signer).exec j).1 = .error .duplicateToken ↔
        token.tokenHash ∈ j.tokenHashes) ∧
      ∀ e, ((InMemoryJournal.append token signer).exec j).1 = .error e →
        (InMemoryJournal.append token signer).exec j = (.error .duplicateToken, j) := by
  rw [← h.seen]
  rcases append_cases token signer j with ⟨hseen, hexec⟩ | ⟨hfresh, hexec⟩
  · rw [hexec]
    exact ⟨iff_of_true rfl hseen, fun _ _ => rfl⟩
  · rw [hexec]
    refine ⟨iff_of_false (by simp) hfresh, ?_⟩
    intro e he
    nomatch he

/-- However tokens are appended, the journal stays sound, it only grows at its end, and a
    token is refused exactly if it is in the chain, with nothing changed. -/
theorem journal_sound (calls : List (ConsumedToken × JournalSigner))
    (hsigners : ∀ call ∈ calls, call.2.SignsOwnKey) :
    Sound (built calls) ∧
    (∀ more, (built calls).entries <+: (built (calls ++ more)).entries) ∧
    ∀ token signer,
      (((InMemoryJournal.append token signer).exec (built calls)).1 = .error .duplicateToken ↔
          token.tokenHash ∈ (built calls).tokenHashes) ∧
        ∀ e, ((InMemoryJournal.append token signer).exec (built calls)).1 = .error e →
          (InMemoryJournal.append token signer).exec (built calls) =
            (.error .duplicateToken, built calls) :=
  ⟨sound_built hsigners, entries_prefix_built calls,
    fun token signer => (sound_built hsigners).append_error_iff token signer⟩

end

/-- Ed25519 as far as the messages of `twoTokens` go: a message has the signature of the test
    key and no other. -/
abbrev testKeyEd25519 : Ed25519Dalek where
  VerifyingKey := Bytes
  fromBytes key := if key = testPublicKey.toList then some key else none
  verify _ message signature := signature = (testSigner.sign message).toList
  verifyStrict _ message signature := signature = (testSigner.sign message).toList

section

attribute [local instance] oneChunkBlake3 testKeyEd25519

theorem signsOwnKey_testSigner : testSigner.SignsOwnKey := by
  refine ⟨testPublicKey.toList, if_pos rfl, ?_⟩
  intro message
  exact decide_eq_true rfl

/-- Two tokens, and the first of them again. -/
theorem journal_sound_twoTokens :
    (∀ call ∈ twoTokens, call.2.SignsOwnKey) ∧
      (built twoTokens).verifyChain = .ok () ∧
      ((InMemoryJournal.append (makeToken 1 30) testSigner).exec (built twoTokens)).1 =
        .error .duplicateToken := by
  have hsigners : ∀ call ∈ twoTokens, call.2.SignsOwnKey := by
    intro call hcall
    simp only [twoTokens, List.mem_cons, List.not_mem_nil, or_false] at hcall
    obtain rfl | rfl := hcall
    · exact signsOwnKey_testSigner
    · exact signsOwnKey_testSigner
  obtain ⟨hsound, -, happend⟩ := journal_sound twoTokens hsigners
  refine ⟨hsigners, hsound.verified, (happend (makeToken 1 30) testSigner).1.mpr ?_⟩
  unfold tokenHashes
  rw [built_twoTokens]
  exact List.mem_cons_self

end

end InMemoryJournal

end ArkheForge.Platform
