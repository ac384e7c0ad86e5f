/-
  The sink and the reader against each other.

  Both are tied to one language, the export streams of `Wire`: the reader accepts
  exactly its members (`readStream_ok_iff`) and the sink writes them
  (`SinkCall.contents_after_flush`, `exec_walToSink_fits`). What is left is to put
  the two together, and to say what the reader does with a stream that was cut.
-/
import ArkheForge.Platform.WalExport.Export
import ArkheForge.Platform.WalExport.Reader

namespace ArkheForge.Platform

open BigEndian Fallible BufferedWalSink StreamingWalReader

/-- What a sink over `Vec<u8>` has written after any calls and a flush reads back as
    the records it accepted. -/
theorem readStream_contents_after_flush {W : Type} [Write W] {calls : List SinkCall} {w : W}
    {capacity : ℕ} {s : BufferedWalSink W} (hw : Write.contents w = [])
    (hclean : SinkCall.AllClean calls (withCapacity w capacity))
    (hflush : BufferedWalSink.flush.exec (SinkCall.run calls (withCapacity w capacity)) =
      (.ok (), s)) :
    readStream (Write.contents s.writer) =
      (SinkCall.log calls (withCapacity w capacity), .ok ()) :=
  readStream_ok_iff.mpr
    ⟨SinkCall.log_admits _ _, SinkCall.contents_after_flush hw hclean hflush⟩

/-- Every record fits an empty sink of the default capacity. -/
theorem exec_walToSink_new {R : Type} [WalRecord R] {wal : Wal R} {ps : List Bytes}
    (henc : wal.Encodes ps) (hseq : wal.Consecutive) (hps : ∀ p ∈ ps, frames.Admits p) :
    ∃ s, (walToSink wal).exec (BufferedWalSink.new ([] : Bytes)) = (.ok (), s) ∧
      s.writer = exportStream ps :=
  exec_walToSink_fits vec_neverFails henc hseq hps rfl fun p hp => by
    have hmax : p.length ≤ maxRecordBytes := (hps p hp).2
    omega

/-- A cut through a stream that does not fall between two frames is reported, after
    the frames before it. -/
theorem readStream_cut {ps : List Bytes} {c : Bytes} (hps : ∀ p ∈ ps, frames.Admits p)
    (hcut : c <+: exportStream ps) (hmid : ∀ k, c ≠ exportStream (ps.take k)) :
    c.length < 8 ∧ readStream c = ([], .error (.invalidFraming .headerMissing)) ∨
      8 ≤ c.length ∧ ∃ k < ps.length,
        exportStream (ps.take k) <+: c ∧ ¬ exportStream (ps.take (k + 1)) <+: c ∧
        readStream c = (ps.take k, .error (.invalidFraming .truncated)) := by
  rcases List.prefix_or_prefix_of_prefix hcut (List.prefix_append _ _) with hshort | ⟨body, rfl⟩
  · have hlen : c.length < 8 := by
      refine lt_of_le_of_ne hshort.length_le fun heq => hmid 0 ?_
      rw [hshort.eq_of_length heq]
      rfl
    exact .inl ⟨hlen, by rw [readStream, openV1_short hlen]⟩
  · rw [exportStream, List.prefix_append_right_inj] at hcut
    obtain ⟨k, rfl | ⟨hk, t, ht, rfl, hlen⟩⟩ := Framing.prefix_stream hps hcut
    · exact absurd rfl (hmid k)
    · refine .inr ⟨by simp, k, hk, ?_, ?_, ?_⟩
      · rw [exportStream, List.prefix_append_right_inj]
        exact List.prefix_append _ _
      · rw [exportStream, List.prefix_append_right_inj]
        exact fun h => absurd h.length_le (Nat.not_le.mpr hlen)
      · rw [readStream, openV1_ok_iff.mpr ⟨_, rfl, rfl⟩]
        exact readAll_torn (fun p hp => hps p (List.mem_of_mem_take hp)) ht rfl

/-- **Reader and sink are inverse to each other.** The reader accepts a byte string
    exactly when it is the header and a sequence of frames, whose payloads it returns;
    it returns what a sink was given, and the sink restores what it accepted; a stream
    cut inside the header or a frame is refused after its whole frames; whatever it is
    fed, it yields no record outside the length bounds and counts the bytes of those
    it has yielded. -/
theorem reader_inverts_sink :
    (∀ b ps, readStream b = (ps, .ok ()) ↔
      (∀ p ∈ ps, 1 ≤ p.length ∧ p.length ≤ 2 ^ 24) ∧
        b = StreamMagic.v1.bytes ++ ps.flatMap (fun p => toBe 8 p.length ++ p)) ∧
    (∀ (calls : List SinkCall) (capacity : ℕ) (s : BufferedWalSink Bytes),
      BufferedWalSink.flush.exec (SinkCall.run calls (withCapacity [] capacity)) = (.ok (), s) →
        readStream s.writer = (SinkCall.log calls (withCapacity ([] : Bytes) capacity), .ok ())) ∧
    (∀ (R : Type) [WalRecord R] (wal : Wal R) (ps : List Bytes),
      wal.Encodes ps → wal.Consecutive → (∀ p ∈ ps, frames.Admits p) →
        ∃ s, (walToSink wal).exec (BufferedWalSink.new ([] : Bytes)) = (.ok (), s) ∧
          readStream s.writer = (ps, .ok ())) ∧
    (∀ (b : Bytes) (R : Type) [WalRecord R] (wal : Wal R) (ps : List Bytes),
      readStream b = (ps, .ok ()) → wal.Encodes ps → wal.Consecutive →
        ∃ s, (walToSink wal).exec (BufferedWalSink.new ([] : Bytes)) = (.ok (), s) ∧
          s.writer = b) ∧
    (∀ b ps c, readStream b = (ps, .ok ()) → c <+: b → (∀ k, c ≠ exportStream (ps.take k)) →
      c.length < 8 ∧ readStream c = ([], .error (.invalidFraming .headerMissing)) ∨
        8 ≤ c.length ∧ ∃ k < ps.length,
          exportStream (ps.take k) <+: c ∧ ¬ exportStream (ps.take (k + 1)) <+: c ∧
          readStream c = (ps.take k, .error (.invalidFraming .truncated))) ∧
    (∀ b r ps r', openV1 b = .ok r → Yields r ps r' →
      (∀ p ∈ ps, 1 ≤ p.length ∧ p.length ≤ 2 ^ 24) ∧
        r'.cumulativePosition = 8 + (ps.map (fun p => 8 + p.length)).sum) := by
  refine ⟨fun b ps => readStream_ok_iff, ?_, ?_, ?_, ?_, ?_⟩
  · intro calls capacity s hflush
    have hclean := SinkCall.allClean_of_neverFails vec_neverFails calls (withCapacity [] capacity)
    exact readStream_contents_after_flush (W := Bytes) rfl hclean hflush
  · intro R _ wal ps henc hseq hps
    obtain ⟨s, hexec, hout⟩ := exec_walToSink_new henc hseq hps
    exact ⟨s, hexec, readStream_ok_iff.mpr ⟨hps, hout⟩⟩
  · intro b R _ wal ps hread henc hseq
    obtain ⟨hps, rfl⟩ := readStream_ok_iff.mp hread
    exact exec_walToSink_new henc hseq hps
  · intro b ps c hread hcut hmid
    obtain ⟨hps, rfl⟩ := readStream_ok_iff.mp hread
    exact readStream_cut hps hcut hmid
  · intro b r ps r' hopen hy
    obtain ⟨rest, rfl, rfl⟩ := openV1_ok_iff.mp hopen
    obtain ⟨hps, -, hpos⟩ := hy.sound
    exact ⟨hps, hpos⟩

end ArkheForge.Platform
