/-
  The capacity of the sink, and what a refused append leaves behind.

  `append_record` puts the stream header in the buffer before it asks whether the record
  fits. A first record that does not fit is refused with the header already out, and where
  the capacity is below eight bytes the header alone exceeds it. Every other refusal leaves
  the sink alone. So both hold of a run exactly if the call that puts the header out is a
  flush or an append with room for header and frame (`boundedAtomic_iff`); at the
  default capacity there always is (`boundedAtomic_new`).
-/
import ArkheForge.Platform.WalExport.AppendOnly

namespace ArkheForge.Platform

open BigEndian Fallible

namespace SinkCall

open BufferedWalSink

variable {W : Type} [Write W]

/-- An append that fails leaves buffer, header flag and last sequence as they were. -/
def Atomic : SinkCall → BufferedWalSink W → Prop
  | .appendRecord seq p, s => ∀ e, ((appendRecord seq p).call.exec s).1 = .error e →
      ((appendRecord seq p).next s).buffer = s.buffer ∧
      ((appendRecord seq p).next s).headerEmitted = s.headerEmitted ∧
      ((appendRecord seq p).next s).lastSeq = s.lastSeq
  | .flush, _ => True

/-- In every state of the run the buffer is within the capacity, and every call of it is
    atomic where it is made. -/
def BoundedAtomic : List SinkCall → BufferedWalSink W → Prop
  | [], s => s.buffer.length ≤ s.capacity
  | c :: calls, s => s.buffer.length ≤ s.capacity ∧ c.Atomic s ∧ BoundedAtomic calls (c.next s)

/-- The call that puts the header out has room for what it buffers: it is a flush, or an
    append of a record that fits together with its length and the header. -/
def HeaderFits (capacity : ℕ) : List SinkCall → Prop
  | [] => True
  | .flush :: _ => True
  | .appendRecord _ p :: calls =>
    if frames.Admits p then 16 + p.length ≤ capacity else HeaderFits capacity calls

/-! ### Once the header is out -/

omit [Write W] in
theorem length_push (s : BufferedWalSink W) (seq : UInt64) (p : Bytes) :
    (s.push seq p).buffer.length = s.withHeader.buffer.length + (8 + p.length) := by
  simp [push, frames, Framing.frame]

theorem atomic_of_headerEmitted {s : BufferedWalSink W} (h : s.headerEmitted = true)
    (c : SinkCall) : c.Atomic s := by
  cases c with
  | flush => trivial
  | appendRecord seq p =>
      intro e he
      have hexec := exec_appendRecord seq p s
      rw [withHeader_of_emitted h] at hexec
      simp only [next, call] at he ⊢
      split at hexec
      · simp [hexec]
      · split at hexec
        · simp [hexec]
        · split at hexec
          · simp [hexec]
          · simp [hexec] at he

/-- A call made with the header out keeps it out and the buffer within the capacity. -/
theorem next_of_headerEmitted (hW : Write.NeverFails W) {s : BufferedWalSink W}
    (h : s.headerEmitted = true) (hle : s.buffer.length ≤ s.capacity) (c : SinkCall) :
    (c.next s).headerEmitted = true ∧ (c.next s).buffer.length ≤ (c.next s).capacity := by
  cases c with
  | flush =>
      obtain ⟨hbuffer, hheader, -⟩ := next_flush hW s
      refine ⟨hheader, ?_⟩
      rw [hbuffer]
      exact Nat.zero_le _
  | appendRecord seq p =>
      have hexec := exec_appendRecord seq p s
      have hlength := length_push s seq p
      rw [withHeader_of_emitted h] at hexec hlength
      have hpush : (s.push seq p).headerEmitted = true := withHeader_headerEmitted s
      have hcapacity : (s.push seq p).capacity = s.capacity := withHeader_capacity s
      simp only [next, call]
      split at hexec
      · simp [hexec, h, hle]
      · split at hexec
        · simp [hexec, h, hle]
        · split at hexec
          · simp [hexec, h, hle]
          · simp only [hexec, hpush, hlength, hcapacity, true_and]
            omega

theorem boundedAtomic_of_headerEmitted (hW : Write.NeverFails W) {s : BufferedWalSink W}
    (h : s.headerEmitted = true) (hle : s.buffer.length ≤ s.capacity) (calls : List SinkCall) :
    BoundedAtomic calls s := by
  induction calls generalizing s with
  | nil => exact hle
  | cons c calls ih =>
      obtain ⟨hheader, hbuffer⟩ := next_of_headerEmitted hW h hle c
      exact ⟨hle, atomic_of_headerEmitted h c, ih hheader hbuffer⟩

/-! ### The call that puts the header out -/

omit [Write W] in
theorem withHeader_withCapacity (w : W) (capacity : ℕ) :
    (withCapacity w capacity).withHeader.buffer.length = 8 := rfl

/-- A fresh sink refuses a record it has no room for, with the header out. -/
theorem exec_appendRecord_tooLarge (w : W) {capacity : ℕ} (seq : UInt64) {p : Bytes}
    (hp : frames.Admits p) (hfit : capacity < 16 + p.length) :
    (appendRecord seq p).call.exec (withCapacity w capacity) =
      (.error ((withCapacity w capacity).overflow p), (withCapacity w capacity).withHeader) := by
  refine exec_appendRecord_overflow hp rfl ?_
  rw [withHeader_withCapacity]
  show capacity < _
  omega

theorem not_atomic_tooLarge (w : W) {capacity : ℕ} (seq : UInt64) {p : Bytes}
    (hp : frames.Admits p) (hfit : capacity < 16 + p.length) :
    ¬ (appendRecord seq p).Atomic (withCapacity w capacity) := by
  intro hatomic
  have hexec := exec_appendRecord_tooLarge w seq hp hfit
  have hflag := (hatomic _ (congrArg Prod.fst hexec)).2.1
  rw [next, hexec, withHeader_headerEmitted] at hflag
  exact absurd hflag.symm Bool.false_ne_true

theorem exec_appendRecord_inadmissible (s : BufferedWalSink W) (seq : UInt64) {p : Bytes}
    (hp : ¬ frames.Admits p) : ∃ e, (appendRecord seq p).call.exec s = (.error e, s) := by
  have hexec := exec_appendRecord seq p s
  rcases hlen : validateLength p with e | n
  · rw [hlen] at hexec
    exact ⟨e, hexec⟩
  · exact absurd (validateLength_eq_ok.mp hlen).1 hp

theorem boundedAtomic_flush_cons (hW : Write.NeverFails W) (w : W) (capacity : ℕ)
    (calls : List SinkCall) : BoundedAtomic (.flush :: calls) (withCapacity w capacity) := by
  obtain ⟨hbuffer, hheader, -⟩ := next_flush hW (withCapacity w capacity)
  refine ⟨Nat.zero_le _, trivial, boundedAtomic_of_headerEmitted hW hheader ?_ calls⟩
  rw [hbuffer]
  exact Nat.zero_le _

theorem boundedAtomic_fits_cons (hW : Write.NeverFails W) (w : W) {capacity : ℕ} (seq : UInt64)
    {p : Bytes} (hp : frames.Admits p) (hfit : 16 + p.length ≤ capacity)
    (calls : List SinkCall) :
    BoundedAtomic (appendRecord seq p :: calls) (withCapacity w capacity) := by
  have hlength : (withCapacity w capacity).withHeader.buffer.length + (8 + p.length) ≤
      (withCapacity w capacity).capacity := by
    rw [withHeader_withCapacity]
    show _ ≤ capacity
    omega
  have hexec : (appendRecord seq p).call.exec (withCapacity w capacity) =
      (.ok (), (withCapacity w capacity).push seq p) := exec_appendRecord_fits hp rfl hlength
  have hnext : (appendRecord seq p).next (withCapacity w capacity) =
      (withCapacity w capacity).push seq p := by
    rw [next, hexec]
  refine ⟨Nat.zero_le _, ?_, ?_⟩
  · intro e he
    simp [hexec] at he
  · rw [hnext]
    have hheader : ((withCapacity w capacity).push seq p).headerEmitted = true :=
      withHeader_headerEmitted _
    refine boundedAtomic_of_headerEmitted hW hheader ?_ calls
    rw [length_push]
    exact hlength

/-- A record of illegal length is refused with nothing done. -/
theorem boundedAtomic_inadmissible_cons (w : W) (capacity : ℕ) (seq : UInt64) {p : Bytes}
    (hp : ¬ frames.Admits p) (calls : List SinkCall) :
    BoundedAtomic (appendRecord seq p :: calls) (withCapacity w capacity) ↔
      BoundedAtomic calls (withCapacity w capacity) := by
  obtain ⟨e, hexec⟩ := exec_appendRecord_inadmissible (withCapacity w capacity) seq hp
  have hnext : (appendRecord seq p).next (withCapacity w capacity) = withCapacity w capacity := by
    rw [next, hexec]
  have hatomic : (appendRecord seq p).Atomic (withCapacity w capacity) := by
    intro _ _
    rw [hnext]
    exact ⟨rfl, rfl, rfl⟩
  rw [BoundedAtomic, hnext]
  exact ⟨fun h => h.2.2, fun h => ⟨Nat.zero_le _, hatomic, h⟩⟩

/-! ### Runs of a fresh sink -/

theorem boundedAtomic_of_headerFits (hW : Write.NeverFails W) (w : W) {capacity : ℕ}
    {calls : List SinkCall} (h : HeaderFits capacity calls) :
    BoundedAtomic calls (withCapacity w capacity) := by
  induction calls with
  | nil => exact Nat.zero_le _
  | cons c calls ih =>
      cases c with
      | flush => exact boundedAtomic_flush_cons hW w capacity calls
      | appendRecord seq p =>
          rw [HeaderFits] at h
          split at h
          · next hp => exact boundedAtomic_fits_cons hW w seq hp h calls
          · next hp => exact (boundedAtomic_inadmissible_cons w capacity seq hp calls).mpr (ih h)

theorem headerFits_of_boundedAtomic (w : W) {capacity : ℕ} {calls : List SinkCall}
    (h : BoundedAtomic calls (withCapacity w capacity)) : HeaderFits capacity calls := by
  induction calls with
  | nil => trivial
  | cons c calls ih =>
      cases c with
      | flush => trivial
      | appendRecord seq p =>
          rw [HeaderFits]
          split
          · next hp =>
            by_contra hfit
            exact not_atomic_tooLarge w seq hp (by omega) h.2.1
          · next hp => exact ih ((boundedAtomic_inadmissible_cons w capacity seq hp calls).mp h)

/-- Buffer bound and atomicity hold throughout a run of a fresh sink exactly if the call
    that puts the header out has room for it. -/
theorem boundedAtomic_iff (hW : Write.NeverFails W) (w : W) (capacity : ℕ)
    (calls : List SinkCall) :
    BoundedAtomic calls (withCapacity w capacity) ↔ HeaderFits capacity calls := by
  constructor
  · intro h
    exact headerFits_of_boundedAtomic w h
  · intro h
    exact boundedAtomic_of_headerFits hW w h

/-- At the default capacity every record of legal length fits a fresh sink. -/
theorem headerFits_default (calls : List SinkCall) : HeaderFits (maxRecordBytes + 16) calls := by
  induction calls with
  | nil => trivial
  | cons c calls ih =>
      cases c with
      | flush => trivial
      | appendRecord seq p =>
          rw [HeaderFits]
          split
          · next hp =>
            have hle : p.length ≤ maxRecordBytes := hp.2
            omega
          · exact ih

theorem boundedAtomic_new (hW : Write.NeverFails W) (w : W) (calls : List SinkCall) :
    BoundedAtomic calls (BufferedWalSink.new w) :=
  boundedAtomic_of_headerFits hW w (headerFits_default calls)

/-- Four bytes of capacity, and a first record of one byte: the append fails, leaves the
    header in the buffer, and the buffer holds twice its capacity. -/
theorem refused_append_leaves_header :
    ∃ e, (appendRecord 1 [0xAA]).call.exec (withCapacity ([] : Bytes) 4) =
        (.error e, (withCapacity ([] : Bytes) 4).withHeader) ∧
      (run [appendRecord 1 [0xAA]] (withCapacity ([] : Bytes) 4)).buffer.length = 8 ∧
      ¬ (appendRecord 1 [0xAA]).Atomic (withCapacity ([] : Bytes) 4) ∧
      ¬ BoundedAtomic [appendRecord 1 [0xAA]] (withCapacity ([] : Bytes) 4) := by
  have hp : frames.Admits [0xAA] := by decide
  have hfit : 4 < 16 + ([0xAA] : Bytes).length := by decide
  have hatomic := not_atomic_tooLarge ([] : Bytes) 1 hp hfit
  refine ⟨_, exec_appendRecord_tooLarge [] 1 hp (by decide), rfl, hatomic, ?_⟩
  intro h
  exact hatomic h.2.1

/-- Room for header and frame, then a record that does not fit. -/
theorem boundedAtomic_vec :
    Write.NeverFails Bytes ∧
      BoundedAtomic [appendRecord 1 [0xAA], appendRecord 2 [0xAA]]
        (withCapacity ([] : Bytes) 17) := by
  refine ⟨vec_neverFails, (boundedAtomic_iff vec_neverFails [] 17 _).mpr ?_⟩
  rw [HeaderFits, if_pos (by decide)]
  decide

end SinkCall

end ArkheForge.Platform
