/-
  The sink over a writer that fails.

  `flush` empties the buffer only after `write_all` and the writer's own `flush`
  have both returned. A writer that failed after taking part of the bytes, or all
  of them, is therefore handed the same bytes again by the retry, and what it kept
  the first time is in the export twice. The argument is a count of bytes: a call
  never removes any from the stream (`length_emitted_next`), and only a clean call
  adds no more than the frame it accepts (`clean_of_length_eq`). So the export has
  the length it should have only when every failed flush left the writer as it was.
-/
import ArkheForge.Platform.WalExport.RoundTrip

namespace ArkheForge.Platform

open BigEndian Fallible BufferedWalSink StreamingWalReader

namespace SinkCall

variable {W : Type} [Write W]

/-! ## The bytes of one call -/

/-- A flush that returns was clean. -/
theorem clean_of_flush_ok {s s' : BufferedWalSink W}
    (h : BufferedWalSink.flush.exec s = (.ok (), s')) : SinkCall.flush.Clean s := by
  rw [exec_flush] at h
  split at h
  · next hnil =>
    obtain ⟨t, ht, htaken⟩ := Write.contents_offer_takes s.withHeader.buffer s.writer
    have ht' : t = [] := by rwa [hnil, List.prefix_nil] at ht
    exact .inr (by rw [htaken, ht', List.append_nil])
  · rcases hoffer : (Write.offer s.withHeader.buffer).exec s.writer with ⟨e | _, w⟩
    · simp [hoffer] at h
    · exact .inl (by rw [hoffer])

/-- What a failed flush adds to the stream is what the writer kept of it. -/
theorem emitted_flush_error {s s' : BufferedWalSink W} {e : WalExportError}
    (h : BufferedWalSink.flush.exec s = (.error e, s')) :
    ∃ t, s'.emitted.length = s.emitted.length + t.length ∧
      Write.contents ((Write.offer s.withHeader.buffer).exec s.writer).2 =
        Write.contents s.writer ++ t := by
  obtain ⟨-, hwriter, hbuf, hhead⟩ := flush_error h
  obtain ⟨t, -, htaken⟩ := Write.contents_offer_takes s.withHeader.buffer s.writer
  refine ⟨t, ?_, htaken⟩
  rw [emitted_of_headerEmitted hhead, hwriter, hbuf, htaken, emitted]
  simp only [List.length_append]
  omega

theorem length_emitted_next (c : SinkCall) (s : BufferedWalSink W) :
    s.emitted.length + (frames.stream (c.accepts s)).length ≤ (c.next s).emitted.length := by
  cases c with
  | appendRecord seq p => rw [emitted_next_appendRecord, List.length_append]
  | flush =>
      rcases hf : BufferedWalSink.flush.exec s with ⟨e | _, s'⟩
      · obtain ⟨t, hlen, -⟩ := emitted_flush_error hf
        have hnext : SinkCall.flush.next s = s' := congrArg Prod.snd hf
        rw [hnext, hlen, accepts_flush, Framing.stream_nil]
        simp
      · rw [emitted_next (clean_of_flush_ok hf), List.length_append]

/-- A call that adds no more to the stream than the frame it accepts is clean. -/
theorem clean_of_length_eq {c : SinkCall} {s : BufferedWalSink W}
    (h : (c.next s).emitted.length = s.emitted.length + (frames.stream (c.accepts s)).length) :
    c.Clean s := by
  cases c with
  | appendRecord seq p => trivial
  | flush =>
      rcases hf : BufferedWalSink.flush.exec s with ⟨e | _, s'⟩
      · obtain ⟨t, hlen, htaken⟩ := emitted_flush_error hf
        have hnext : SinkCall.flush.next s = s' := congrArg Prod.snd hf
        rw [hnext, hlen, accepts_flush, Framing.stream_nil, List.length_nil] at h
        have hnil : t = [] := List.eq_nil_of_length_eq_zero (by omega)
        exact .inr (by rw [htaken, hnil, List.append_nil])
      · exact clean_of_flush_ok hf

/-! ## The bytes of a run -/

theorem length_emitted_run (calls : List SinkCall) (s : BufferedWalSink W) :
    s.emitted.length + (frames.stream (log calls s)).length ≤ (run calls s).emitted.length := by
  induction calls generalizing s with
  | nil => simp [run, log]
  | cons c calls ih =>
      have hhead := length_emitted_next c s
      have htail : _ ≤ (run calls (c.next s)).emitted.length := ih (c.next s)
      rw [run, List.foldl_cons, ← run, log, Framing.stream_append, List.length_append]
      omega

theorem allClean_of_length_eq {calls : List SinkCall} {s : BufferedWalSink W}
    (h : (run calls s).emitted.length =
      s.emitted.length + (frames.stream (log calls s)).length) : AllClean calls s := by
  induction calls generalizing s with
  | nil => trivial
  | cons c calls ih =>
      have hhead := length_emitted_next c s
      have htail : _ ≤ (run calls (c.next s)).emitted.length := length_emitted_run calls (c.next s)
      rw [run, List.foldl_cons, ← run, log, Framing.stream_append, List.length_append] at h
      exact ⟨clean_of_length_eq (by omega), ih (by omega)⟩

/-- **When a failing writer does no harm.** Take any writer, any calls on a fresh sink
    over it, and a last flush that succeeds. The writer holds the header and the
    accepted frames, each once and in order, and the reader returns the accepted
    records, if and only if no flush of the run failed after the writer took bytes. -/
theorem export_exact_iff_allClean {calls : List SinkCall} {w : W} {capacity : ℕ}
    {s : BufferedWalSink W} (hw : Write.contents w = [])
    (hflush : BufferedWalSink.flush.exec (run calls (withCapacity w capacity)) = (.ok (), s)) :
    (Write.contents s.writer = StreamMagic.v1.bytes ++
        (log calls (withCapacity w capacity)).flatMap (fun p => toBe 8 p.length ++ p) ∧
      readStream (Write.contents s.writer) =
        (log calls (withCapacity w capacity), .ok ())) ↔
      AllClean calls (withCapacity w capacity) := by
  refine ⟨fun ⟨hexact, _⟩ => allClean_of_length_eq ?_, fun hclean => ?_⟩
  · rw [← (flush_ok hflush).1, hexact, emitted_withCapacity, hw, List.nil_append,
      List.length_append]
    rfl
  · exact ⟨contents_after_flush hw hclean hflush,
      readStream_contents_after_flush hw hclean hflush⟩

end SinkCall

/-! ## A writer that fails midway -/

/-- What a writer does with one `write_all` and the `flush` after it. -/
structure Answer where
  takes : ℕ
  writeFails : Bool
  flushFails : Bool
  deriving DecidableEq, Repr

/-- A writer that goes through a list of answers, and never fails afterwards. -/
structure ScriptedWriter where
  held : Bytes
  script : List Answer
  deriving DecidableEq, Repr

instance : Write ScriptedWriter where
  writeAll buf := do
    let w ← get
    match w.script with
    | [] => set { w with held := w.held ++ buf }
    | a :: _ =>
      if a.writeFails then
        set { held := w.held ++ buf.take a.takes, script := w.script.tail : ScriptedWriter }
        throw ⟨.storageFull⟩
      set { w with held := w.held ++ buf }
  flush := do
    let w ← get
    match w.script with
    | [] => pure ()
    | a :: rest =>
      set { w with script := rest }
      if a.flushFails then throw ⟨.other⟩
  contents := ScriptedWriter.held
  writeAll_takes buf w := by
    obtain ⟨held, script⟩ := w
    cases script with
    | nil => exact ⟨buf, List.prefix_rfl, rfl⟩
    | cons a rest =>
        cases h : a.writeFails with
        | true =>
            refine ⟨buf.take a.takes, List.take_prefix _ _, ?_⟩
            simp [Fallible.exec_bind, h]
        | false =>
            refine ⟨buf, List.prefix_rfl, ?_⟩
            simp [Fallible.exec_bind, h]
  writeAll_ok buf w w' := by
    obtain ⟨held, script⟩ := w
    cases script with
    | nil =>
        rintro ⟨⟩
        rfl
    | cons a rest =>
        cases h : a.writeFails with
        | true => simp [Fallible.exec_bind, h]
        | false =>
            simp only [Fallible.exec_bind, Fallible.exec_get, h]
            rintro ⟨⟩
            rfl
  flush_contents w := by
    obtain ⟨held, script⟩ := w
    cases script with
    | nil => rfl
    | cons a rest => cases h : a.flushFails <;> simp [Fallible.exec_bind, h]

/-- A flush that fails with three bytes written is repeated in full: the export begins
    with them twice, and the reader does not recognise it. -/
theorem retry_duplicates_partial_write :
    ∃ s : BufferedWalSink ScriptedWriter,
      BufferedWalSink.flush.exec (SinkCall.run [.appendRecord 1 [0x2A], .flush]
        (withCapacity ⟨[], [⟨3, true, false⟩]⟩ 64)) = (.ok (), s) ∧
      SinkCall.log [.appendRecord 1 [0x2A], .flush]
        (withCapacity (W := ScriptedWriter) ⟨[], [⟨3, true, false⟩]⟩ 64) = [[0x2A]] ∧
      s.writer.held = [0x41, 0x52, 0x4B] ++ exportStream [[0x2A]] ∧
      s.writer.held ≠ exportStream [[0x2A]] ∧
      readStream s.writer.held ≠ ([[0x2A]], .ok ()) := by
  refine ⟨_, rfl, rfl, rfl, by decide, fun h => ?_⟩
  exact absurd (readStream_ok_iff.mp h).2 (by decide)

theorem retry_exact_after_empty_write :
    ∃ s : BufferedWalSink ScriptedWriter,
      BufferedWalSink.flush.exec (SinkCall.run [.appendRecord 1 [0x2A], .flush]
        (withCapacity ⟨[], [⟨0, true, false⟩]⟩ 64)) = (.ok (), s) ∧
      Write.contents s.writer = StreamMagic.v1.bytes ++ [0, 0, 0, 0, 0, 0, 0, 1, 0x2A] ∧
      readStream (Write.contents s.writer) = ([[0x2A]], .ok ()) := by
  have hclean : SinkCall.AllClean [.appendRecord 1 [0x2A], .flush]
      (withCapacity (W := ScriptedWriter) ⟨[], [⟨0, true, false⟩]⟩ 64) :=
    ⟨trivial, .inr rfl, trivial⟩
  exact ⟨_, rfl, (SinkCall.export_exact_iff_allClean rfl rfl).mpr hclean⟩

end ArkheForge.Platform
