/-
  `wal_to_sink` (`dispatcher.rs`): the whole WAL through one bounded sink.

  The kernel's record type and its postcard encoding are parameters
  (`WalRecord`): the loop reads the sequence number and the encoded bytes only.
  `exec_exportRecord_fits` and `exec_exportRecord_tooLarge` say what one turn of
  the loop does, whatever the buffer happens to hold; the capacity theorem is
  their induction over the log.
-/
import ArkheForge.Platform.WalExport.BufferedSink
import Mathlib.Data.List.Chain

namespace ArkheForge.Platform

open BigEndian Fallible BufferedWalSink

/-- `arkhe_kernel::WalRecord`: its sequence number, and `postcard::to_extend`. -/
class WalRecord (R : Type) where
  seq : R → UInt64
  encode : R → Except String Bytes

/-- `arkhe_kernel::Wal`. -/
structure Wal (R : Type) where
  records : List R

/-- `WalSinkError`. -/
inductive WalSinkError
  | encode (e : String)
  | sink (e : WalExportError)
  deriving DecidableEq, Repr

variable {W R : Type} [Write W] [WalRecord R]

/-! ## The source functions -/

/-- The body of the loop: append, and on overflow drain the sink and append once more. -/
def exportRecord (record : R) : Fallible (BufferedWalSink W) WalSinkError Unit := do
  let scratch ← ofExcept ((WalRecord.encode record).mapError .encode)
  match ← attempt (appendRecord (WalRecord.seq record) scratch) with
  | .ok () => pure ()
  | .error (.bufferOverflow ..) =>
    adapt .sink flush
    adapt .sink (appendRecord (WalRecord.seq record) scratch)
  | .error e => throw (.sink e)

/-- `wal_to_sink`. -/
def walToSink (wal : Wal R) : Fallible (BufferedWalSink W) WalSinkError Unit := do
  forM wal.records exportRecord
  adapt .sink flush

/-! ## One record -/

/-- The encodings of the records of `wal`, in order. -/
def Wal.Encodes (wal : Wal R) (ps : List Bytes) : Prop :=
  wal.records.map WalRecord.encode = ps.map .ok

/-- The records carry consecutive sequence numbers. -/
def Wal.Consecutive (wal : Wal R) : Prop :=
  wal.records.IsChain fun a b => (WalRecord.seq b).toNat = (WalRecord.seq a).toNat + 1

section NeverFails

variable (hW : Write.NeverFails W) {s : BufferedWalSink W} {record : R} {p : Bytes}
  (henc : WalRecord.encode record = .ok p) (hp : frames.Admits p)
  (hseq : checkSuccession s.lastSeq (WalRecord.seq record) = .ok ())

include hW henc hp hseq

/-- When the record does not fit what is left of the buffer, the sink is drained and
    the second attempt decides. -/
theorem exec_exportRecord_overflow
    (hfit : s.capacity < s.withHeader.buffer.length + (8 + p.length)) :
    ∃ s', s'.capacity = s.capacity ∧ s'.lastSeq = s.lastSeq ∧ s'.withHeader = s' ∧
      s'.buffer = [] ∧ Write.contents s'.writer = s.emitted ∧
      (exportRecord record).exec s =
        (adapt WalSinkError.sink (appendRecord (WalRecord.seq record) p)).exec s' := by
  obtain ⟨s', hflush⟩ : ∃ s', flush.exec s.withHeader = (.ok (), s') :=
    ⟨_, Prod.ext (flush_ok_of_neverFails hW s.withHeader) rfl⟩
  obtain ⟨hcontents, hbuf, hhead, hcap, hlast⟩ := flush_ok hflush
  refine ⟨s', by rw [hcap, withHeader_capacity], by rw [hlast, withHeader_lastSeq],
    withHeader_of_emitted hhead, hbuf, by rw [hcontents, emitted_withHeader], ?_⟩
  have happend := exec_appendRecord_overflow hp hseq hfit
  rw [exportRecord, henc, exec_bind, exec_ofExcept]
  simp only [Except.mapError, exec_bind, exec_attempt, happend, overflow, exec_adapt, hflush]

/-- A record that fits an empty sink is exported, whatever was buffered before it. -/
theorem exec_exportRecord_fits (hfit : 8 + p.length ≤ s.capacity) :
    ∃ s', (exportRecord record).exec s = (.ok (), s') ∧ s'.capacity = s.capacity ∧
      s'.lastSeq = some (WalRecord.seq record) ∧
      s'.emitted = s.emitted ++ frames.frame p := by
  by_cases hnow : s.withHeader.buffer.length + (8 + p.length) ≤ s.capacity
  · have happend := exec_appendRecord_fits hp hseq hnow
    refine ⟨s.push (WalRecord.seq record) p, ?_, withHeader_capacity s, rfl, emitted_push s _ p⟩
    rw [exportRecord, henc, exec_bind, exec_ofExcept]
    simp only [Except.mapError, exec_bind, exec_attempt, happend, exec_pure]
  · obtain ⟨s', hcap, hlast, hhead, hbuf, hcontents, hexec⟩ :=
      exec_exportRecord_overflow hW henc hp hseq (Nat.not_le.mp hnow)
    have hroom : s'.withHeader.buffer.length + (8 + p.length) ≤ s'.capacity := by
      rw [hhead, hbuf, hcap, List.length_nil]
      omega
    have happend := exec_appendRecord_fits hp (by rw [hlast]; exact hseq) hroom
    refine ⟨s'.push (WalRecord.seq record) p, ?_, ?_, rfl, ?_⟩
    · rw [hexec, exec_adapt, happend]
      rfl
    · rw [← hcap]
      exact withHeader_capacity s'
    · rw [emitted_push, emitted, hhead, hbuf, List.append_nil, hcontents]

/-- A record larger than the whole sink is refused on the second attempt, with every
    earlier frame in the writer and nothing of its own. -/
theorem exec_exportRecord_tooLarge (hlarge : s.capacity < 8 + p.length) :
    ∃ s', (exportRecord record).exec s =
        (.error (.sink (.bufferOverflow s.capacity (8 + p.length) 0)), s') ∧
      Write.contents s'.writer = s.emitted := by
  obtain ⟨s', hcap, hlast, hhead, hbuf, hcontents, hexec⟩ :=
    exec_exportRecord_overflow hW henc hp hseq (by omega)
  have hover := exec_appendRecord_overflow (s := s') hp (by rw [hlast]; exact hseq)
    (by rw [hcap]; omega)
  refine ⟨s', ?_, hcontents⟩
  rw [hexec, exec_adapt, hover, overflow, hhead, hbuf, hcap]
  rfl

end NeverFails

/-! ## The whole log -/

/-- The sink takes the records of `rs` as the next ones of its stream. -/
def Ready (s : BufferedWalSink W) (rs : List R) : Prop :=
  (∀ r ∈ rs.head?, checkSuccession s.lastSeq (WalRecord.seq r) = .ok ()) ∧
    Wal.Consecutive ⟨rs⟩

omit [Write W] in
/-- Once the first record is in, the sink is ready for the others. -/
theorem Ready.tail {s s' : BufferedWalSink W} {r : R} {rs : List R} (h : Ready s (r :: rs))
    (hlast : s'.lastSeq = some (WalRecord.seq r)) : Ready s' rs := by
  refine ⟨fun r' hr' => ?_, h.2.tail⟩
  cases rs with
  | nil => simp at hr'
  | cons r₂ rs =>
      obtain rfl : r₂ = r' := by simpa using hr'
      have hstep : (WalRecord.seq r₂).toNat = (WalRecord.seq r).toNat + 1 :=
        (List.isChain_cons_cons.mp h.2).1
      rw [hlast]
      exact checkSuccession_succ hstep

omit [Write W] in
theorem ready_withCapacity (w : W) (capacity : ℕ) {wal : Wal R} (h : wal.Consecutive) :
    Ready (withCapacity w capacity) wal.records :=
  ⟨fun _ _ => rfl, h⟩

/-- The loop over records that fit an empty sink, `post` being still to come. -/
theorem exec_forM_exportRecord (hW : Write.NeverFails W) (post : List R)
    {s : BufferedWalSink W} {pre : List R} {ps : List Bytes} (henc : Wal.Encodes ⟨pre⟩ ps)
    (hps : ∀ p ∈ ps, frames.Admits p) (hfit : ∀ p ∈ ps, 8 + p.length ≤ s.capacity)
    (hready : Ready s (pre ++ post)) :
    ∃ s', (forM pre exportRecord).exec s = (.ok (), s') ∧ s'.capacity = s.capacity ∧
      Ready s' post ∧ s'.emitted = s.emitted ++ frames.stream ps := by
  induction pre generalizing s ps with
  | nil =>
      obtain rfl : ps = [] := by simpa [Wal.Encodes] using henc.symm
      exact ⟨s, rfl, rfl, hready, by simp⟩
  | cons r pre ih =>
      cases ps with
      | nil => simp [Wal.Encodes] at henc
      | cons p ps =>
          simp only [Wal.Encodes, List.map_cons, List.cons.injEq] at henc
          obtain ⟨s₁, hexec, hcap, hlast, hemit⟩ := exec_exportRecord_fits hW henc.1
            (hps p (by simp)) (hready.1 r (by simp)) (hfit p (by simp))
          obtain ⟨s₂, hexec₂, hcap₂, hready₂, hemit₂⟩ := ih (s := s₁) henc.2
            (fun q hq => hps q (by simp [hq])) (fun q hq => hcap ▸ hfit q (by simp [hq]))
            (hready.tail hlast)
          refine ⟨s₂, ?_, by rw [hcap₂, hcap], hready₂, ?_⟩
          · rw [List.forM_cons, exec_bind_ok hexec, hexec₂]
          · rw [hemit₂, hemit, Framing.stream_cons, List.append_assoc]

/-- The export of a log all of whose frames fit an empty sink. -/
theorem exec_walToSink_fits (hW : Write.NeverFails W) {wal : Wal R} {ps : List Bytes}
    (henc : wal.Encodes ps) (hseq : wal.Consecutive) (hps : ∀ p ∈ ps, frames.Admits p)
    {w : W} (hw : Write.contents w = []) {capacity : ℕ}
    (hfit : ∀ p ∈ ps, 8 + p.length ≤ capacity) :
    ∃ s, (walToSink wal).exec (withCapacity w capacity) = (.ok (), s) ∧
      Write.contents s.writer = exportStream ps := by
  obtain ⟨s₁, hexec, -, -, hemit⟩ := exec_forM_exportRecord hW [] henc hps
    (s := withCapacity w capacity) hfit
    (by rw [List.append_nil]; exact ready_withCapacity w capacity hseq)
  obtain ⟨s₂, hflush⟩ : ∃ s₂, flush.exec s₁ = (.ok (), s₂) :=
    ⟨_, Prod.ext (flush_ok_of_neverFails hW s₁) rfl⟩
  refine ⟨s₂, ?_, ?_⟩
  · rw [walToSink, exec_bind_ok hexec, exec_adapt, hflush]
    rfl
  · rw [(flush_ok hflush).1, hemit, emitted_withCapacity, hw]
    rfl

/-- **Export does not depend on the capacity.** Whatever the capacity, as long as each
    frame fits an empty sink, the writer ends up with the header and the frames in
    order. Below that, the export stops at the first frame that does not fit, with the
    header and the whole frames before it in the writer. -/
theorem walToSink_capacity (hW : Write.NeverFails W) {wal : Wal R} {ps : List Bytes}
    (henc : wal.Encodes ps) (hseq : wal.Consecutive) (hps : ∀ p ∈ ps, frames.Admits p)
    {w : W} (hw : Write.contents w = []) :
    (∀ capacity, (∀ p ∈ ps, 8 + p.length ≤ capacity) →
      ∃ s, (walToSink wal).exec (withCapacity w capacity) = (.ok (), s) ∧
        Write.contents s.writer =
          StreamMagic.v1.bytes ++ ps.flatMap (fun p => toBe 8 p.length ++ p)) ∧
    (∀ capacity capacity', (∀ p ∈ ps, 8 + p.length ≤ capacity) →
      (∀ p ∈ ps, 8 + p.length ≤ capacity') →
      Write.contents ((walToSink wal).exec (withCapacity w capacity)).2.writer =
        Write.contents ((walToSink wal).exec (withCapacity w capacity')).2.writer) ∧
    (∀ capacity pre p post, ps = pre ++ p :: post →
      (∀ q ∈ pre, 8 + q.length ≤ capacity) → capacity < 8 + p.length →
      ∃ s, (walToSink wal).exec (withCapacity w capacity) =
          (.error (.sink (.bufferOverflow capacity (8 + p.length) 0)), s) ∧
        Write.contents s.writer =
          StreamMagic.v1.bytes ++ pre.flatMap (fun p => toBe 8 p.length ++ p)) := by
  refine ⟨fun capacity hfit => exec_walToSink_fits hW henc hseq hps hw hfit, ?_, ?_⟩
  · intro capacity capacity' hfit hfit'
    obtain ⟨s, hexec, hout⟩ := exec_walToSink_fits hW henc hseq hps hw hfit
    obtain ⟨s', hexec', hout'⟩ := exec_walToSink_fits hW henc hseq hps hw hfit'
    rw [hexec, hexec', hout, hout']
  · rintro capacity pre p post rfl hfit hlarge
    obtain ⟨records⟩ := wal
    simp only [Wal.Encodes, List.map_append, List.map_cons] at henc
    obtain ⟨rpre, rpost, rfl, hpre, hrest⟩ := List.map_eq_append_iff.mp henc
    obtain ⟨r, rpost, rfl, hr, -⟩ := List.map_eq_cons_iff.mp hrest
    obtain ⟨s₁, hexec, hcap, hready, hemit⟩ := exec_forM_exportRecord hW (r :: rpost) hpre
      (fun q hq => hps q (by simp [hq])) (s := withCapacity w capacity) hfit
      (ready_withCapacity w capacity hseq)
    obtain ⟨s₂, hfail, hout⟩ := exec_exportRecord_tooLarge hW (s := s₁) hr (hps p (by simp))
      (hready.1 r rfl) (by rw [hcap]; exact hlarge)
    refine ⟨s₂, ?_, ?_⟩
    · have hloop := exec_bind_error hfail fun _ => forM rpost exportRecord
      rw [← List.forM_cons] at hloop
      rw [walToSink, List.forM_append, exec_bind_error]
      rw [exec_bind_ok hexec, hloop, hcap]
      rfl
    · rw [hout, hemit, emitted_withCapacity, hw]
      rfl

/-- A record kept in its encoded form. -/
structure RawRecord where
  seq : UInt64
  bytes : Bytes

instance : WalRecord RawRecord where
  seq := RawRecord.seq
  encode r := .ok r.bytes

theorem walToSink_capacity_two_records :
    ∃ s, (walToSink ⟨[RawRecord.mk 1 [0x2A], ⟨2, [0x07, 0x08]⟩]⟩).exec
        (withCapacity ([] : Bytes) 10) = (.ok (), s) ∧
      s.writer = [0x41, 0x52, 0x4B, 0x48, 0x45, 0x58, 0x50, 0x31,
        0, 0, 0, 0, 0, 0, 0, 1, 0x2A, 0, 0, 0, 0, 0, 0, 0, 2, 0x07, 0x08] :=
  (walToSink_capacity (W := Bytes) vec_neverFails
    (show Wal.Encodes ⟨[RawRecord.mk 1 [0x2A], ⟨2, [0x07, 0x08]⟩]⟩ [[0x2A], [0x07, 0x08]] from rfl)
    (by simp [Wal.Consecutive, WalRecord.seq]) (by decide) rfl).1 10 (by decide)

end ArkheForge.Platform
