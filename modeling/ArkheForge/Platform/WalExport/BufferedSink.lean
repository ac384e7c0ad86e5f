/-
  `BufferedWalSink` (`wal_export/buffered_sink.rs`): framed records are collected
  in a bounded buffer and handed to the writer on `flush`.

  The sink is proved to refine an append-only log. The log is the list of the
  records `appendRecord` accepted; `Emitted` ties it to the sink, by saying that
  what the writer holds followed by what is still buffered is the header and the
  frames of the log. One call preserves it (`emitted_call`) as long as no flush
  fails after the writer took bytes; how the sink behaves when one does is the
  subject of `FailingWriter`.
-/
import ArkheForge.Platform.WalExport.Wire

namespace ArkheForge.Platform

open BigEndian Fallible

/-- `BufferedWalSink`. -/
structure BufferedWalSink (W : Type) where
  writer : W
  buffer : Bytes
  capacity : ℕ
  headerEmitted : Bool
  lastSeq : Option UInt64
  deriving DecidableEq, Repr

namespace BufferedWalSink

variable {W : Type}

/-- A method of the sink. -/
abbrev Call (W α : Type) := Fallible (BufferedWalSink W) WalExportError α

/-! ## The source functions -/

/-- `BufferedWalSink::with_capacity`. -/
def withCapacity (writer : W) (capacity : ℕ) : BufferedWalSink W where
  writer := writer
  buffer := []
  capacity := capacity
  headerEmitted := false
  lastSeq := none

/-- `BufferedWalSink::new`: the capacity is the largest record and 16 bytes of framing. -/
def new (writer : W) : BufferedWalSink W := withCapacity writer (maxRecordBytes + 16)

/-- `BufferedWalSink::validate_length`. -/
def validateLength (recordBytes : Bytes) : Except WalExportError ℕ :=
  let len := recordBytes.length
  if len = 0 then .error (.invalidFraming .lengthZero)
  else if len > maxRecordBytes then
    .error (.invalidFraming (.lengthExceedsMax len maxRecordBytes))
  else .ok len

/-- `u64::checked_add(1)`. -/
def checkedSucc (n : UInt64) : Option UInt64 :=
  if n.toNat + 1 < UInt64.size then some (n + 1) else none

/-- Step 2 of `append_record`: the declared `seq` must succeed the last one. -/
def checkSuccession (lastSeq : Option UInt64) (seq : UInt64) : Except WalExportError Unit :=
  match lastSeq with
  | none => .ok ()
  | some prev =>
    match checkedSucc prev with
    | none => .error (.seqExhausted prev)
    | some expected =>
      if seq ≠ expected then .error (.appendOnlyViolation expected seq (some prev)) else .ok ()

/-- The sink once `ensure_header` has run. -/
def withHeader (sink : BufferedWalSink W) : BufferedWalSink W :=
  if sink.headerEmitted then sink
  else { sink with buffer := sink.buffer ++ StreamMagic.v1.bytes, headerEmitted := true }

/-- `BufferedWalSink::ensure_header`. -/
def ensureHeader : Call W Unit := modify withHeader

/-- `BufferedWalSink::append_record`. -/
def appendRecord (seq : UInt64) (recordBytes : Bytes) : Call W Unit := do
  let len ← ofExcept (validateLength recordBytes)
  ofExcept (checkSuccession (← get).lastSeq seq)
  ensureHeader
  let sink ← get
  let frameSize := 8 + len
  if sink.buffer.length + frameSize > sink.capacity then
    throw (.bufferOverflow sink.capacity frameSize sink.buffer.length)
  modify fun s => { s with buffer := s.buffer ++ toBe 8 len }
  modify fun s => { s with buffer := s.buffer ++ recordBytes }
  modify fun s => { s with lastSeq := some seq }

/-- A call of the inner writer. -/
def onWriter (m : Fallible W IoError Unit) : Call W Unit :=
  zoom writer (fun w s => { s with writer := w }) .io m

/-- `BufferedWalSink::flush`. -/
def flush [Write W] : Call W Unit := do
  ensureHeader
  let sink ← get
  if sink.buffer = [] then
    pure ()
  else
    onWriter (Write.writeAll sink.buffer)
    onWriter Write.flush
    modify fun s => { s with buffer := [] }

/-! ## What one call does -/

theorem validateLength_eq_ok {p : Bytes} {n : ℕ} :
    validateLength p = .ok n ↔ frames.Admits p ∧ n = p.length := by
  simp only [validateLength, Framing.Admits, show frames.maxLen = maxRecordBytes from rfl]
  split
  · next h => simp [h]
  · split
    · next h => simp [Nat.not_le.mpr h]
    · next h₀ h₁ =>
      simp only [Except.ok.injEq]
      omega

theorem validateLength_of_admits {p : Bytes} (h : frames.Admits p) :
    validateLength p = .ok p.length :=
  validateLength_eq_ok.mpr ⟨h, rfl⟩

@[simp] theorem withHeader_writer (s : BufferedWalSink W) : s.withHeader.writer = s.writer := by
  unfold withHeader
  split <;> rfl

@[simp] theorem withHeader_capacity (s : BufferedWalSink W) :
    s.withHeader.capacity = s.capacity := by
  unfold withHeader
  split <;> rfl

@[simp] theorem withHeader_lastSeq (s : BufferedWalSink W) :
    s.withHeader.lastSeq = s.lastSeq := by
  unfold withHeader
  split <;> rfl

@[simp] theorem withHeader_headerEmitted (s : BufferedWalSink W) :
    s.withHeader.headerEmitted = true := by
  unfold withHeader
  split
  · assumption
  · rfl

theorem withHeader_of_emitted {s : BufferedWalSink W} (h : s.headerEmitted = true) :
    s.withHeader = s := by
  simp [withHeader, h]

/-- The sink after an accepted record. -/
def push (sink : BufferedWalSink W) (seq : UInt64) (p : Bytes) : BufferedWalSink W :=
  { sink.withHeader with
    buffer := sink.withHeader.buffer ++ frames.frame p
    lastSeq := some seq }

/-- Where a record too large for what is left of the buffer is turned away. -/
def overflow (sink : BufferedWalSink W) (p : Bytes) : WalExportError :=
  .bufferOverflow sink.capacity (8 + p.length) sink.withHeader.buffer.length

/-- `appendRecord` in closed form: three ways to refuse the record, of which only the
    last has touched the sink. -/
theorem exec_appendRecord (seq : UInt64) (p : Bytes) (s : BufferedWalSink W) :
    (appendRecord seq p).exec s =
      match validateLength p with
      | .error e => (.error e, s)
      | .ok _ =>
        match checkSuccession s.lastSeq seq with
        | .error e => (.error e, s)
        | .ok () =>
          if s.withHeader.buffer.length + (8 + p.length) > s.capacity then
            (.error (s.overflow p), s.withHeader)
          else (.ok (), s.push seq p) := by
  cases hlen : validateLength p with
  | error e => simp [appendRecord, exec_bind, hlen]
  | ok n =>
      obtain rfl := (validateLength_eq_ok.mp hlen).2
      cases hseq : checkSuccession s.lastSeq seq with
      | error e => simp [appendRecord, exec_bind, hlen, hseq]
      | ok u =>
          simp only [appendRecord, exec_bind, hlen, hseq, ensureHeader, exec_ofExcept, exec_get,
            exec_modify, exec_ite, exec_throw, withHeader_capacity]
          split
          · rfl
          · simp [push, Framing.frame, frames]

theorem exec_appendRecord_fits {s : BufferedWalSink W} {seq : UInt64} {p : Bytes}
    (hp : frames.Admits p) (hseq : checkSuccession s.lastSeq seq = .ok ())
    (hfit : s.withHeader.buffer.length + (8 + p.length) ≤ s.capacity) :
    (appendRecord seq p).exec s = (.ok (), s.push seq p) := by
  rw [exec_appendRecord, validateLength_of_admits hp, hseq]
  exact if_neg (Nat.not_lt.mpr hfit)

theorem exec_appendRecord_overflow {s : BufferedWalSink W} {seq : UInt64} {p : Bytes}
    (hp : frames.Admits p) (hseq : checkSuccession s.lastSeq seq = .ok ())
    (hfit : s.capacity < s.withHeader.buffer.length + (8 + p.length)) :
    (appendRecord seq p).exec s = (.error (s.overflow p), s.withHeader) := by
  rw [exec_appendRecord, validateLength_of_admits hp, hseq]
  exact if_pos hfit

theorem checkSuccession_succ {prev seq : UInt64} (h : seq.toNat = prev.toNat + 1) :
    checkSuccession (some prev) seq = .ok () := by
  have hlt : prev.toNat + 1 < UInt64.size := h ▸ seq.toNat_lt
  have hnext : prev + 1 = seq := by
    apply UInt64.toNat_inj.mp
    rw [UInt64.toNat_add, h]
    exact Nat.mod_eq_of_lt hlt
  simp [checkSuccession, checkedSucc, hlt, hnext]

variable [Write W]

/-- `flush` in closed form: one offer of everything pending, and the buffer is only
    emptied when the writer took and flushed it. -/
theorem exec_flush (s : BufferedWalSink W) :
    flush.exec s =
      if s.withHeader.buffer = [] then (.ok (), s.withHeader)
      else
        match (Write.offer s.withHeader.buffer).exec s.writer with
        | (.ok (), w) => (.ok (), { s.withHeader with writer := w, buffer := [] })
        | (.error e, w) => (.error (.io e), { s.withHeader with writer := w }) := by
  simp only [flush, ensureHeader, exec_bind, exec_modify, exec_get, exec_ite, exec_pure]
  split
  · rfl
  · simp only [onWriter, exec_zoom, Write.offer, exec_bind, withHeader_writer]
    rcases (Write.writeAll s.withHeader.buffer).exec s.writer with ⟨e | _, w⟩
    · rfl
    · simp only [Except.mapError]
      rcases Write.flush.exec w with ⟨e | _, w'⟩ <;> rfl

/-! ## The bytes on their way out -/

/-- What the writer holds and what the next successful flush will add to it. -/
def emitted (s : BufferedWalSink W) : Bytes := Write.contents s.writer ++ s.withHeader.buffer

theorem emitted_of_headerEmitted {s : BufferedWalSink W} (h : s.headerEmitted = true) :
    s.emitted = Write.contents s.writer ++ s.buffer := by
  rw [emitted, withHeader_of_emitted h]

@[simp] theorem emitted_withHeader (s : BufferedWalSink W) : s.withHeader.emitted = s.emitted := by
  rw [emitted_of_headerEmitted (withHeader_headerEmitted s), withHeader_writer, emitted]

theorem emitted_push (s : BufferedWalSink W) (seq : UInt64) (p : Bytes) :
    (s.push seq p).emitted = s.emitted ++ frames.frame p := by
  have h : (s.push seq p).headerEmitted = true := withHeader_headerEmitted s
  rw [emitted_of_headerEmitted h, emitted, List.append_assoc]
  simp [push]

theorem emitted_withCapacity (w : W) (capacity : ℕ) :
    (withCapacity w capacity).emitted = Write.contents w ++ StreamMagic.v1.bytes := rfl

/-- A flush that returns leaves nothing pending, and adds nothing to the stream. -/
theorem flush_ok {s s' : BufferedWalSink W} (h : flush.exec s = (.ok (), s')) :
    Write.contents s'.writer = s.emitted ∧ s'.buffer = [] ∧ s'.headerEmitted = true ∧
      s'.capacity = s.capacity ∧ s'.lastSeq = s.lastSeq := by
  rw [exec_flush] at h
  split at h
  · next hnil =>
    obtain rfl := (Prod.mk.inj h).2
    refine ⟨?_, hnil, by simp, by simp, by simp⟩
    rw [emitted, withHeader_writer, hnil, List.append_nil]
  · rcases hoffer : (Write.offer s.withHeader.buffer).exec s.writer with ⟨e | _, w⟩
    · simp [hoffer] at h
    · rw [hoffer] at h
      obtain rfl := (Prod.mk.inj h).2
      exact ⟨Write.contents_offer_ok hoffer, rfl, by simp, by simp, by simp⟩

/-- A flush that fails keeps everything pending, whatever part of it the writer took. -/
theorem flush_error {s s' : BufferedWalSink W} {e : WalExportError}
    (h : flush.exec s = (.error e, s')) :
    ((Write.offer s.withHeader.buffer).exec s.writer).1 ≠ .ok () ∧
      s'.writer = ((Write.offer s.withHeader.buffer).exec s.writer).2 ∧
      s'.buffer = s.withHeader.buffer ∧ s'.headerEmitted = true := by
  rw [exec_flush] at h
  split at h
  · simp at h
  · rcases hoffer : (Write.offer s.withHeader.buffer).exec s.writer with ⟨e' | _, w⟩
    · rw [hoffer] at h
      obtain rfl := (Prod.mk.inj h).2
      exact ⟨by simp, rfl, rfl, by simp⟩
    · simp [hoffer] at h

theorem flush_ok_of_neverFails (hW : Write.NeverFails W) (s : BufferedWalSink W) :
    (flush.exec s).1 = .ok () := by
  rw [exec_flush]
  split
  · rfl
  · have hok := hW.offer_ok s.withHeader.buffer s.writer
    rcases hoffer : (Write.offer s.withHeader.buffer).exec s.writer with ⟨e | _, w⟩
    · simp [hoffer] at hok
    · rfl

end BufferedWalSink

/-! ## Runs of calls -/

/-- One call on a sink. -/
inductive SinkCall
  | appendRecord (seq : UInt64) (recordBytes : Bytes)
  | flush
  deriving DecidableEq, Repr

namespace SinkCall

open BufferedWalSink

variable {W : Type} [Write W]

/-- The call itself. -/
def call : SinkCall → BufferedWalSink.Call W Unit
  | .appendRecord seq p => BufferedWalSink.appendRecord seq p
  | .flush => BufferedWalSink.flush

/-- The sink after the call. -/
def next (c : SinkCall) (s : BufferedWalSink W) : BufferedWalSink W := (c.call.exec s).2

/-- The record the call gets accepted, if it does. -/
def accepts (c : SinkCall) (s : BufferedWalSink W) : List Bytes :=
  match c, (c.call.exec s).1 with
  | .appendRecord _ p, .ok () => [p]
  | _, _ => []

/-- The writer does not keep part of the pending bytes while failing the flush. -/
def Clean : SinkCall → BufferedWalSink W → Prop
  | .appendRecord _ _, _ => True
  | .flush, s => Write.AllOrNothing s.writer s.withHeader.buffer

/-- The sink after a run of calls. -/
def run (calls : List SinkCall) (s : BufferedWalSink W) : BufferedWalSink W :=
  calls.foldl (fun s c => c.next s) s

/-- The records a run gets accepted, in order: the abstract log. -/
def log : List SinkCall → BufferedWalSink W → List Bytes
  | [], _ => []
  | c :: calls, s => c.accepts s ++ log calls (c.next s)

/-- Every call of the run is clean where it is made. -/
def AllClean : List SinkCall → BufferedWalSink W → Prop
  | [], _ => True
  | c :: calls, s => c.Clean s ∧ AllClean calls (c.next s)

/-! ### One call -/

theorem accepts_flush (s : BufferedWalSink W) : SinkCall.flush.accepts s = [] := by
  simp only [accepts]

/-- What an append does to the stream, however it ends. -/
theorem emitted_next_appendRecord (seq : UInt64) (p : Bytes) (s : BufferedWalSink W) :
    ((appendRecord seq p).next s).emitted =
      s.emitted ++ frames.stream ((appendRecord seq p).accepts s) := by
  have h := exec_appendRecord seq p s
  simp only [next, accepts, call]
  split at h
  · simp [h]
  · split at h
    · simp [h]
    · split at h
      · simp [h]
      · rw [h, emitted_push]
        simp

/-- A clean call adds the frames of what it gets accepted, and nothing else. -/
theorem emitted_next {c : SinkCall} {s : BufferedWalSink W} (h : c.Clean s) :
    (c.next s).emitted = s.emitted ++ frames.stream (c.accepts s) := by
  cases c with
  | appendRecord seq p => exact emitted_next_appendRecord seq p s
  | flush =>
      rw [accepts_flush, Framing.stream_nil, List.append_nil]
      simp only [next, call]
      rcases hf : BufferedWalSink.flush.exec s with ⟨e | _, s'⟩
      · obtain ⟨hfail, hwriter, hbuf, hhead⟩ := flush_error hf
        have hkept := h.resolve_left hfail
        rw [emitted_of_headerEmitted hhead, hwriter, hbuf, hkept, emitted]
      · obtain ⟨hall, hbuf, hhead, -⟩ := flush_ok hf
        rw [emitted_of_headerEmitted hhead, hbuf, List.append_nil, hall]

theorem accepts_admits {c : SinkCall} {s : BufferedWalSink W} :
    ∀ p ∈ c.accepts s, frames.Admits p := by
  cases c with
  | flush => simp [accepts_flush]
  | appendRecord seq p =>
      have h := exec_appendRecord seq p s
      simp only [accepts, call]
      split at h
      · simp [h]
      · next hlen =>
        split at h
        · simp [h]
        · split at h
          · simp [h]
          · simp [h, (validateLength_eq_ok.mp hlen).1]

/-- Over a writer that never fails every call is clean. -/
theorem clean_of_neverFails (hW : Write.NeverFails W) (c : SinkCall) (s : BufferedWalSink W) :
    c.Clean s := by
  cases c with
  | appendRecord seq p => trivial
  | flush => exact .inl (hW.offer_ok _ _)

/-! ### A whole run -/

theorem emitted_run {calls : List SinkCall} {s : BufferedWalSink W} (h : AllClean calls s) :
    (run calls s).emitted = s.emitted ++ frames.stream (log calls s) := by
  induction calls generalizing s with
  | nil => simp [run, log]
  | cons c calls ih =>
      have hrest : (run calls (c.next s)).emitted = _ := ih h.2
      rw [run, List.foldl_cons, ← run, hrest, emitted_next h.1, log, Framing.stream_append,
        List.append_assoc]

theorem log_admits (calls : List SinkCall) (s : BufferedWalSink W) :
    ∀ p ∈ log calls s, frames.Admits p := by
  induction calls generalizing s with
  | nil => simp [log]
  | cons c calls ih =>
      intro p hp
      rcases List.mem_append.mp hp with hc | hrest
      · exact accepts_admits p hc
      · exact ih (c.next s) p hrest

theorem allClean_of_neverFails (hW : Write.NeverFails W) (calls : List SinkCall)
    (s : BufferedWalSink W) : AllClean calls s := by
  induction calls generalizing s with
  | nil => trivial
  | cons c calls ih => exact ⟨clean_of_neverFails hW c s, ih (c.next s)⟩

/-- A clean run on a fresh sink, flushed at the end, has written exactly its log. -/
theorem contents_after_flush {calls : List SinkCall} {w : W} {capacity : ℕ}
    {s : BufferedWalSink W} (hw : Write.contents w = [])
    (hclean : AllClean calls (withCapacity w capacity))
    (hflush : BufferedWalSink.flush.exec (run calls (withCapacity w capacity)) = (.ok (), s)) :
    Write.contents s.writer = exportStream (log calls (withCapacity w capacity)) := by
  rw [(flush_ok hflush).1, emitted_run hclean, emitted_withCapacity, hw]
  rfl

end SinkCall

end ArkheForge.Platform
