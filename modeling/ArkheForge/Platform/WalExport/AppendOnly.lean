/-
  The sink over a writer that never fails is an append-only log of numbered records.

  `BufferedSink` follows the stream with the header it will start with, whether or not
  that header has been put in the buffer yet. Here the bytes are taken as they are,
  written and buffered, and the records with the sequence numbers they were accepted
  under. A sink whose header is not out is the fresh sink (`next_eq_of_fresh`), so the
  two views differ only before the first record or flush.
-/
import ArkheForge.Platform.WalExport.BufferedSink
import Mathlib.Data.List.Chain

namespace ArkheForge.Platform

open BigEndian Fallible

namespace BufferedWalSink

/-- `u64::MAX`. -/
def maxSeq : UInt64 := .ofNat (UInt64.size - 1)

theorem checkedSucc_maxSeq : checkedSucc maxSeq = none := by decide

theorem checkedSucc_eq_some {prev next : UInt64} (h : checkedSucc prev = some next) :
    next.toNat = prev.toNat + 1 := by
  unfold checkedSucc at h
  split at h
  · next hlt =>
    rw [← Option.some.inj h, UInt64.toNat_add]
    exact Nat.mod_eq_of_lt hlt
  · nomatch h

theorem checkSuccession_maxSeq (seq : UInt64) :
    checkSuccession (some maxSeq) seq = .error (.seqExhausted maxSeq) := by
  simp only [checkSuccession, checkedSucc_maxSeq]

/-- What the sequence check lets through after `prev`. -/
theorem checkSuccession_some {prev seq : UInt64} (h : checkSuccession (some prev) seq = .ok ()) :
    seq.toNat = prev.toNat + 1 := by
  rcases hnext : checkedSucc prev with _ | expected
  · simp [checkSuccession, hnext] at h
  · have hseq : seq = expected := by simpa [checkSuccession, hnext] using h
    rw [hseq]
    exact checkedSucc_eq_some hnext

variable {W : Type} [Write W]

/-- The bytes that are out: those the writer holds and those still buffered. -/
def accumulated (s : BufferedWalSink W) : Bytes := Write.contents s.writer ++ s.buffer

theorem accumulated_of_headerEmitted {s : BufferedWalSink W} (h : s.headerEmitted = true) :
    s.accumulated = s.emitted := (emitted_of_headerEmitted h).symm

theorem accumulated_prefix_emitted (s : BufferedWalSink W) : s.accumulated <+: s.emitted := by
  rcases h : s.headerEmitted with _ | _
  · refine ⟨StreamMagic.v1.bytes, ?_⟩
    simp [accumulated, emitted, withHeader, h]
  · exact (accumulated_of_headerEmitted h).symm ▸ List.prefix_rfl

end BufferedWalSink

namespace SinkCall

open BufferedWalSink

variable {W : Type} [Write W]

/-- The record the call gets accepted, with its sequence number. -/
def acceptsAs (c : SinkCall) (s : BufferedWalSink W) : List (UInt64 × Bytes) :=
  match c, (c.call.exec s).1 with
  | .appendRecord seq p, .ok () => [(seq, p)]
  | _, _ => []

/-- The numbered records a run gets accepted, in order. -/
def numberedLog : List SinkCall → BufferedWalSink W → List (UInt64 × Bytes)
  | [], _ => []
  | c :: calls, s => c.acceptsAs s ++ numberedLog calls (c.next s)

theorem acceptsAs_flush (s : BufferedWalSink W) : SinkCall.flush.acceptsAs s = [] := by
  simp only [acceptsAs]

theorem acceptsAs_records (c : SinkCall) (s : BufferedWalSink W) :
    (c.acceptsAs s).map Prod.snd = c.accepts s := by
  cases c with
  | flush => rw [acceptsAs_flush, accepts_flush, List.map_nil]
  | appendRecord seq p =>
      simp only [acceptsAs, accepts]
      rcases ((appendRecord seq p).call.exec s).1 with e | _ <;> rfl

theorem numberedLog_records (calls : List SinkCall) (s : BufferedWalSink W) :
    (numberedLog calls s).map Prod.snd = log calls s := by
  induction calls generalizing s with
  | nil => rfl
  | cons c calls ih => rw [numberedLog, log, List.map_append, acceptsAs_records, ih]

/-! ### One append -/

/-- How an append can end: refused as it stands, refused for want of room once the header
    is out, or accepted. -/
theorem appendRecord_cases (seq : UInt64) (p : Bytes) (s : BufferedWalSink W) :
    ((appendRecord seq p).next s = s ∧ (appendRecord seq p).acceptsAs s = []) ∨
    ((appendRecord seq p).next s = s.withHeader ∧ (appendRecord seq p).acceptsAs s = []) ∨
    (checkSuccession s.lastSeq seq = .ok () ∧ (appendRecord seq p).next s = s.push seq p ∧
      (appendRecord seq p).acceptsAs s = [(seq, p)]) := by
  have h := exec_appendRecord seq p s
  simp only [next, acceptsAs, call]
  split at h
  · exact .inl (by simp [h])
  · split at h
    · exact .inl (by simp [h])
    · next hseq =>
      split at h
      · exact .inr (.inl (by simp [h]))
      · exact .inr (.inr (by simp [h, hseq]))

/-- A flush on a writer that never fails empties the buffer and puts the header out. -/
theorem next_flush (hW : Write.NeverFails W) (s : BufferedWalSink W) :
    (SinkCall.flush.next s).buffer = [] ∧ (SinkCall.flush.next s).headerEmitted = true ∧
      (SinkCall.flush.next s).capacity = s.capacity ∧
      (SinkCall.flush.next s).lastSeq = s.lastSeq := by
  have hok := flush_ok_of_neverFails hW s
  rcases hf : BufferedWalSink.flush.exec s with ⟨e | _, s'⟩
  · simp [hf] at hok
  · have hkept := (flush_ok hf).2
    simpa [next, call, hf] using hkept

theorem next_flush_lastSeq (hW : Write.NeverFails W) (s : BufferedWalSink W) :
    (SinkCall.flush.next s).lastSeq = s.lastSeq := (next_flush hW s).2.2.2

theorem next_flush_headerEmitted (hW : Write.NeverFails W) (s : BufferedWalSink W) :
    (SinkCall.flush.next s).headerEmitted = true := (next_flush hW s).2.1

/-! ### The header -/

/-- A call after which the header is still not out did nothing. -/
theorem next_eq_of_fresh (hW : Write.NeverFails W) {c : SinkCall} {s : BufferedWalSink W}
    (h : (c.next s).headerEmitted = false) : c.next s = s ∧ c.acceptsAs s = [] := by
  cases c with
  | flush => simp [next_flush_headerEmitted hW] at h
  | appendRecord seq p =>
      rcases appendRecord_cases seq p s with hkept | ⟨hheader, -⟩ | ⟨-, hpush, -⟩
      · exact hkept
      · simp [hheader] at h
      · have hhead : (s.push seq p).headerEmitted = true := withHeader_headerEmitted s
        simp [hpush, hhead] at h

theorem run_eq_of_fresh (hW : Write.NeverFails W) {calls : List SinkCall}
    {s : BufferedWalSink W} (h : (run calls s).headerEmitted = false) :
    run calls s = s ∧ numberedLog calls s = [] := by
  induction calls generalizing s with
  | nil => exact ⟨rfl, rfl⟩
  | cons c calls ih =>
      obtain ⟨hrun, hlog⟩ := ih (s := c.next s) h
      have hnext : (c.next s).headerEmitted = false := by
        rw [← hrun]
        exact h
      obtain ⟨hsame, hnone⟩ := next_eq_of_fresh hW hnext
      refine ⟨hrun.trans hsame, ?_⟩
      rw [numberedLog, hnone, hlog]
      rfl

/-! ### The bytes -/

theorem accumulated_prefix_next (hW : Write.NeverFails W) (c : SinkCall)
    (s : BufferedWalSink W) : s.accumulated <+: (c.next s).accumulated := by
  rcases h : (c.next s).headerEmitted with _ | _
  · exact (next_eq_of_fresh hW h).1.symm ▸ List.prefix_rfl
  · rw [accumulated_of_headerEmitted h, emitted_next (clean_of_neverFails hW c s)]
    exact (accumulated_prefix_emitted s).trans (List.prefix_append _ _)

/-- Bytes that are out stay where they are. -/
theorem accumulated_prefix_run (hW : Write.NeverFails W) (calls : List SinkCall)
    (s : BufferedWalSink W) : s.accumulated <+: (run calls s).accumulated := by
  induction calls generalizing s with
  | nil => exact List.prefix_rfl
  | cons c calls ih => exact (accumulated_prefix_next hW c s).trans (ih (c.next s))

/-- What a fresh sink has put out after a run: nothing, or one header and the frames of
    the accepted records. -/
theorem accumulated_run_fresh (hW : Write.NeverFails W) (w : W) (capacity : ℕ)
    (calls : List SinkCall) :
    ((run calls (withCapacity w capacity)).accumulated = Write.contents w ∧
      numberedLog calls (withCapacity w capacity) = []) ∨
    (run calls (withCapacity w capacity)).accumulated = Write.contents w ++
      exportStream ((numberedLog calls (withCapacity w capacity)).map Prod.snd) := by
  rcases h : (run calls (withCapacity w capacity)).headerEmitted with _ | _
  · obtain ⟨hrun, hlog⟩ := run_eq_of_fresh hW h
    refine .inl ⟨?_, hlog⟩
    rw [hrun]
    exact List.append_nil _
  · right
    rw [accumulated_of_headerEmitted h, emitted_run (allClean_of_neverFails hW calls _),
      emitted_withCapacity, numberedLog_records, List.append_assoc]
    rfl

/-! ### The sequence numbers -/

/-- The sequence numbers `seqs` were accepted one after the other, the last being
    `lastSeq`. -/
structure Numbered (seqs : List UInt64) (lastSeq : Option UInt64) : Prop where
  last : lastSeq = seqs.getLast?
  consecutive : seqs.IsChain fun a b => b.toNat = a.toNat + 1
  exhausted : maxSeq ∈ seqs → lastSeq = some maxSeq

theorem Numbered.nil : Numbered [] none := ⟨rfl, .nil, by simp⟩

theorem Numbered.concat {seqs : List UInt64} {lastSeq : Option UInt64} {seq : UInt64}
    (h : Numbered seqs lastSeq) (hseq : checkSuccession lastSeq seq = .ok ()) :
    Numbered (seqs ++ [seq]) (some seq) where
  last := by simp
  consecutive := by
    refine h.consecutive.append (.singleton seq) ?_
    intro prev hprev next hnext
    have hlast : lastSeq = some prev := h.last.trans hprev
    have hnext : seq = next := by simpa using hnext
    rw [hlast] at hseq
    rw [← hnext]
    exact checkSuccession_some hseq
  exhausted hmem := by
    rcases List.mem_append.mp hmem with hold | hnew
    · -- nothing is let through once the last number has been used
      rw [h.exhausted hold, checkSuccession_maxSeq] at hseq
      nomatch hseq
    · rw [List.mem_singleton.mp hnew]

theorem Numbered.next (hW : Write.NeverFails W) {seqs : List UInt64} {s : BufferedWalSink W}
    (h : Numbered seqs s.lastSeq) (c : SinkCall) :
    Numbered (seqs ++ (c.acceptsAs s).map Prod.fst) (c.next s).lastSeq := by
  cases c with
  | flush =>
      rw [acceptsAs_flush, next_flush_lastSeq hW]
      simpa using h
  | appendRecord seq p =>
      rcases appendRecord_cases seq p s with ⟨hnext, hnone⟩ | ⟨hnext, hnone⟩ | ⟨hseq, hnext, hone⟩
      · rw [hnext, hnone]
        simpa using h
      · rw [hnext, hnone, withHeader_lastSeq]
        simpa using h
      · rw [hnext, hone]
        exact h.concat hseq

theorem Numbered.run (hW : Write.NeverFails W) {seqs : List UInt64} {s : BufferedWalSink W}
    (h : Numbered seqs s.lastSeq) (calls : List SinkCall) :
    Numbered (seqs ++ (numberedLog calls s).map Prod.fst) (run calls s).lastSeq := by
  induction calls generalizing seqs s with
  | nil => simpa [numberedLog, SinkCall.run] using h
  | cons c calls ih =>
      have hrest := ih (h.next hW c)
      rw [numberedLog, List.map_append, ← List.append_assoc]
      exact hrest

/-! ### The last number -/

theorem next_exhausted (hW : Write.NeverFails W) {s : BufferedWalSink W}
    (h : s.lastSeq = some maxSeq) (c : SinkCall) :
    (c.next s).lastSeq = some maxSeq ∧ c.acceptsAs s = [] := by
  cases c with
  | flush => exact ⟨(next_flush_lastSeq hW s).trans h, acceptsAs_flush s⟩
  | appendRecord seq p =>
      rcases appendRecord_cases seq p s with ⟨hnext, hnone⟩ | ⟨hnext, hnone⟩ | ⟨hseq, -⟩
      · exact ⟨by rw [hnext, h], hnone⟩
      · exact ⟨by rw [hnext, withHeader_lastSeq, h], hnone⟩
      · rw [h, checkSuccession_maxSeq] at hseq
        nomatch hseq

theorem run_exhausted (hW : Write.NeverFails W) {s : BufferedWalSink W}
    (h : s.lastSeq = some maxSeq) (calls : List SinkCall) :
    (run calls s).lastSeq = some maxSeq ∧ numberedLog calls s = [] := by
  induction calls generalizing s with
  | nil => exact ⟨h, rfl⟩
  | cons c calls ih =>
      obtain ⟨hlast, hnone⟩ := next_exhausted hW h c
      obtain ⟨hrun, hlog⟩ := ih hlast
      refine ⟨hrun, ?_⟩
      rw [numberedLog, hnone, hlog]
      rfl

theorem appendRecord_exhausted {s : BufferedWalSink W} (h : s.lastSeq = some maxSeq)
    (seq : UInt64) {p : Bytes} (hp : frames.Admits p) :
    ((appendRecord seq p).call.exec s).1 = .error (.seqExhausted maxSeq) := by
  simp only [call]
  rw [exec_appendRecord, validateLength_of_admits hp, h, checkSuccession_maxSeq]

/-- The sink as an append-only log: the bytes only grow at their end, they are nothing or
    one header with the frames of the accepted records, the records are numbered one after
    the other, and after the last number there is no other. -/
theorem sink_append_only (hW : Write.NeverFails W) (w : W) (capacity : ℕ)
    (calls more : List SinkCall) :
    let fresh := withCapacity w capacity
    let s := run calls fresh
    let accepted := numberedLog calls fresh
    s.accumulated <+: (run more s).accumulated ∧
    ((s.accumulated = Write.contents w ∧ accepted = []) ∨
      s.accumulated = Write.contents w ++ exportStream (accepted.map Prod.snd)) ∧
    (accepted.map Prod.fst).IsChain (fun a b => b.toNat = a.toNat + 1) ∧
    (maxSeq ∈ accepted.map Prod.fst → numberedLog more s = [] ∧
      ∀ seq p, frames.Admits p →
        ((appendRecord seq p).call.exec (run more s)).1 = .error (.seqExhausted maxSeq)) := by
  intro fresh s accepted
  have hnumbered : Numbered (accepted.map Prod.fst) s.lastSeq :=
    Numbered.run hW (s := fresh) Numbered.nil calls
  refine ⟨accumulated_prefix_run hW more s, accumulated_run_fresh hW w capacity calls,
    hnumbered.consecutive, ?_⟩
  intro hmax
  obtain ⟨hlast, hnone⟩ := run_exhausted hW (hnumbered.exhausted hmax) more
  exact ⟨hnone, fun seq p hp => appendRecord_exhausted hlast seq hp⟩

/-- The last two numbers. -/
def lastRecords : List SinkCall := [.appendRecord (maxSeq - 1) [1], .appendRecord maxSeq [2]]

/-- Both are accepted on a sink over a vector, it holds their frames, and it accepts nothing
    after them. -/
theorem sink_append_only_vec :
    Write.NeverFails Bytes ∧
    numberedLog lastRecords (withCapacity ([] : Bytes) 64) = [(maxSeq - 1, [1]), (maxSeq, [2])] ∧
    (run lastRecords (withCapacity ([] : Bytes) 64)).accumulated = exportStream [[1], [2]] ∧
    numberedLog [.flush, .appendRecord 0 [3]]
      (run lastRecords (withCapacity ([] : Bytes) 64)) = [] := by
  have haccepted : numberedLog lastRecords (withCapacity ([] : Bytes) 64) =
      [(maxSeq - 1, [1]), (maxSeq, [2])] := by decide
  obtain ⟨-, hheld, -, hlast⟩ := sink_append_only vec_neverFails [] 64 lastRecords
    [.flush, .appendRecord 0 [3]]
  rw [haccepted] at hheld hlast
  refine ⟨vec_neverFails, haccepted, ?_, (hlast (by decide)).1⟩
  rcases hheld with ⟨-, hnothing⟩ | hframes
  · cases hnothing
  · exact hframes

end SinkCall

end ArkheForge.Platform
