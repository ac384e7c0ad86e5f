/-
  `StreamingWalReader` (`wal_export/reader.rs`) over an in-memory byte source.

  `nextRecord` is characterised by the first bytes it finds: nothing
  (`exec_nextRecord_nil`), a whole frame (`exec_nextRecord_frame`), a torn frame
  (`exec_nextRecord_torn`). `nextRecord_some` and `nextRecord_none` are the
  converse, and `readAll_ok_iff` is what follows for a read to the end.

  The reader's scratch buffer is left out (nothing reads it back but the caller
  who was given it), and `cumulativePos` is a natural number: its `u64` would
  need 2 ^ 64 bytes of input to differ.
-/
import ArkheForge.Platform.WalExport.Wire

namespace ArkheForge.Platform

open BigEndian Fallible

/-- `StreamingWalReader`. -/
structure StreamingWalReader where
  reader : Bytes
  cumulativePos : ℕ
  magic : StreamMagic
  deriving DecidableEq, Repr

namespace StreamingWalReader

/-! ## The source functions -/

/-- `StreamingWalReader::open_v1`. -/
def openV1 (source : Bytes) : Except WalExportError StreamingWalReader :=
  match (readExact 8).exec source with
  | (.error e, _) =>
    if e.kind = .unexpectedEof then .error (.invalidFraming .headerMissing) else .error (.io e)
  | (.ok magicBytes, reader) =>
    match StreamMagic.recognize magicBytes with
    | none => .error (.unsupportedStreamVersion magicBytes)
    | some magic => .ok { reader := reader, cumulativePos := 8, magic := magic }

/-- `Read::read` into a buffer of `n` bytes. -/
def read (n : ℕ) : Fallible StreamingWalReader WalExportError Bytes := do
  let r ← get
  set { r with reader := r.reader.drop n }
  pure (r.reader.take n)

/-- `read_exact` inside a frame, where an early end of the source is a torn frame. -/
def readFraming (n : ℕ) : Fallible StreamingWalReader WalExportError Bytes :=
  zoom reader (fun rest r => { r with reader := rest })
    (fun e => if e.kind = .unexpectedEof then .invalidFraming .truncated else .io e)
    (readExact n)

/-- `self.cumulative_pos += n`. -/
def advance (n : ℕ) : Fallible StreamingWalReader WalExportError Unit :=
  modify fun r => { r with cumulativePos := r.cumulativePos + n }

/-- `StreamingWalReader::next_record`. -/
def nextRecord : Fallible StreamingWalReader WalExportError (Option Bytes) := do
  -- One byte first: a clean end of the stream is not a torn length.
  let firstByte ← read 1
  if firstByte = [] then
    pure none
  else
    let rest ← readFraming 7
    let len := fromBe (firstByte ++ rest)
    advance 8
    if len = 0 then throw (.invalidFraming .lengthZero)
    if len > maxRecordBytes then
      throw (.invalidFraming (.lengthExceedsMax len maxRecordBytes))
    let payload ← readFraming len
    advance len
    pure (some payload)

/-- `StreamingWalReader::cumulative_position`. -/
def cumulativePosition (r : StreamingWalReader) : ℕ := r.cumulativePos

/-! ## One record -/

theorem exec_readFraming (n : ℕ) (r : StreamingWalReader) :
    (readFraming n).exec r =
      if r.reader.length < n then (.error (.invalidFraming .truncated), { r with reader := [] })
      else (.ok (r.reader.take n), { r with reader := r.reader.drop n }) := by
  rw [readFraming, exec_zoom, exec_readExact]
  split <;> rfl

/-- The length field of the next frame. -/
def lenField (r : StreamingWalReader) : ℕ := fromBe (r.reader.take 8)

/-- The reader past a length field, `rest` being left of the source. -/
def afterLen (r : StreamingWalReader) (rest : Bytes) : StreamingWalReader :=
  { r with reader := rest, cumulativePos := r.cumulativePos + 8 }

/-- `nextRecord` in closed form: the five ways a frame is refused or read. -/
theorem exec_nextRecord (r : StreamingWalReader) :
    nextRecord.exec r =
      if r.reader = [] then (.ok none, r)
      else if r.reader.length < 8 then
        (.error (.invalidFraming .truncated), { r with reader := [] })
      else if r.lenField = 0 then
        (.error (.invalidFraming .lengthZero), r.afterLen (r.reader.drop 8))
      else if r.lenField > maxRecordBytes then
        (.error (.invalidFraming (.lengthExceedsMax r.lenField maxRecordBytes)),
          r.afterLen (r.reader.drop 8))
      else if (r.reader.drop 8).length < r.lenField then
        (.error (.invalidFraming .truncated), r.afterLen [])
      else
        (.ok (some ((r.reader.drop 8).take r.lenField)),
          { r with
            reader := (r.reader.drop 8).drop r.lenField
            cumulativePos := r.cumulativePos + 8 + r.lenField }) := by
  obtain ⟨src, pos, magic⟩ := r
  cases src with
  | nil => rfl
  | cons b bs =>
      simp only [nextRecord, read, advance, lenField, exec_bind, exec_get, exec_set, exec_pure,
        exec_ite, exec_modify, exec_throw, exec_readFraming, List.take_succ_cons, List.take_zero,
        List.drop_succ_cons, List.drop_zero, List.cons_append, List.nil_append, reduceCtorEq,
        if_false, List.length_cons]
      by_cases hshort : bs.length < 7
      · simp [hshort]
      · have h8 : ¬ bs.length + 1 < 8 := by omega
        simp only [hshort, h8, if_false]
        split
        · rfl
        · split
          · rfl
          · by_cases hpay : (bs.drop 7).length < fromBe (b :: bs.take 7)
            · simp only [hpay, if_true, afterLen]
            · simp only [hpay, if_false]

/-- Clean end of the stream. -/
theorem exec_nextRecord_nil {r : StreamingWalReader} (h : r.reader = []) :
    nextRecord.exec r = (.ok none, r) := by
  rw [exec_nextRecord, if_pos h]

/-- The reader past a frame that carried `p`. -/
def past (r : StreamingWalReader) (p rest : Bytes) : StreamingWalReader :=
  { r with reader := rest, cumulativePos := r.cumulativePos + 8 + p.length }

theorem lenField_eq {r : StreamingWalReader} {p rest : Bytes} (hp : frames.Admits p)
    (h : r.reader = toBe 8 p.length ++ rest) : r.lenField = p.length := by
  rw [lenField, h, List.take_left' (by simp), fromBe_toBe (w := 8) hp.length_lt]

/-- A whole frame at the front is read off, whatever follows it. -/
theorem exec_nextRecord_frame {r : StreamingWalReader} {p rest : Bytes} (hp : frames.Admits p)
    (h : r.reader = frames.frame p ++ rest) :
    nextRecord.exec r = (.ok (some p), r.past p rest) := by
  have hread : r.reader = toBe 8 p.length ++ (p ++ rest) := by
    rw [h, Framing.frame, List.append_assoc]
    rfl
  have hfield := lenField_eq hp hread
  have hdrop : r.reader.drop 8 = p ++ rest := by rw [hread, List.drop_left' (by simp)]
  have hlen : r.reader.length = 8 + (p.length + rest.length) := by simp [hread]
  have hpos := hp.1
  have hmax : ¬ p.length > maxRecordBytes := Nat.not_lt.mpr hp.2
  have hne : r.reader ≠ [] := by
    intro hnil
    simp only [hnil, List.length_nil] at hlen
    omega
  rw [exec_nextRecord, if_neg hne, if_neg (by omega)]
  simp only [hfield, hdrop]
  rw [if_neg (by omega), if_neg hmax, if_neg (by simp), List.take_left, List.drop_left]
  rfl

/-- What `nextRecord` yields stood at the front as a frame of the format. -/
theorem nextRecord_some {r r' : StreamingWalReader} {p : Bytes}
    (h : nextRecord.exec r = (.ok (some p), r')) :
    frames.Admits p ∧ r.reader = frames.frame p ++ r'.reader ∧ r' = r.past p r'.reader := by
  rw [exec_nextRecord] at h
  split_ifs at h with hnil hshort hzero hmax hpay
  all_goals simp only [Prod.mk.injEq, reduceCtorEq, false_and, Except.ok.injEq, Option.some.injEq]
    at h
  obtain ⟨rfl, rfl⟩ := h
  simp only [gt_iff_lt, not_lt] at hshort hmax hpay
  have hlen : ((r.reader.drop 8).take r.lenField).length = r.lenField := by
    rw [List.length_take]
    omega
  have hfield : toBe 8 r.lenField = r.reader.take 8 :=
    toBe_fromBe_of_length (by rw [List.length_take]; omega)
  refine ⟨⟨by omega, by rw [hlen]; exact hmax⟩, ?_, by rw [past, hlen]⟩
  rw [Framing.frame, hlen]
  show _ = toBe 8 r.lenField ++ _ ++ _
  rw [hfield, List.append_assoc, List.take_append_drop, List.take_append_drop]

/-- `nextRecord` reports the end of the stream only when there is nothing left. -/
theorem nextRecord_none {r r' : StreamingWalReader}
    (h : nextRecord.exec r = (.ok none, r')) : r.reader = [] ∧ r' = r := by
  rw [exec_nextRecord] at h
  split_ifs at h with hnil hshort hzero hmax hpay
  all_goals simp only [Prod.mk.injEq, reduceCtorEq, false_and, Except.ok.injEq, true_and] at h
  exact ⟨hnil, h.symm⟩

/-- A torn frame at the end of the source is refused as such. -/
theorem nextRecord_torn {r : StreamingWalReader} (h : frames.Torn r.reader) :
    (nextRecord.exec r).1 = .error (.invalidFraming .truncated) := by
  obtain ⟨hne, p, hp, hpre, hnot⟩ := h
  rw [exec_nextRecord, if_neg hne]
  split
  · rfl
  · next hlong =>
    obtain ⟨rest, hrest⟩ : ∃ rest, r.reader = toBe 8 p.length ++ rest := by
      have hfield : toBe 8 p.length <+: r.reader :=
        List.prefix_of_prefix_length_le (List.prefix_append _ p) hpre (by simp; omega)
      obtain ⟨rest, h⟩ := hfield
      exact ⟨rest, h.symm⟩
    have hshort : r.reader.length < (frames.frame p).length :=
      lt_of_le_of_ne hpre.length_le (fun heq => hnot (hpre.eq_of_length heq))
    have hlen : rest.length < p.length := by
      simp only [hrest, List.length_append, toBe_length, Framing.frame_length] at hshort
      have : frames.width = 8 := rfl
      omega
    have hpos := hp.1
    have hmax : ¬ p.length > maxRecordBytes := Nat.not_lt.mpr hp.2
    simp only [lenField_eq hp hrest]
    rw [if_neg (by omega), if_neg hmax, if_pos]
    rw [hrest, List.drop_left' (by simp)]
    exact hlen

/-! ## Reading on -/

theorem nextRecord_shorter {r r' : StreamingWalReader} {p : Bytes}
    (h : nextRecord.exec r = (.ok (some p), r')) : r'.reader.length < r.reader.length := by
  obtain ⟨hp, hread, -⟩ := nextRecord_some h
  have hpos := hp.1
  rw [hread, List.length_append, Framing.frame_length]
  omega

/-- The consumer's loop: call `nextRecord` until it no longer returns a record, and
    keep the records and how the loop ended. -/
def readAll (r : StreamingWalReader) : List Bytes × Except WalExportError Unit :=
  match h : nextRecord.exec r with
  | (.ok none, _) => ([], .ok ())
  | (.error e, _) => ([], .error e)
  | (.ok (some p), r') =>
    have := nextRecord_shorter h
    let (ps, outcome) := readAll r'
    (p :: ps, outcome)
termination_by r.reader.length

/-- Open a byte string and read it to the end. -/
def readStream (source : Bytes) : List Bytes × Except WalExportError Unit :=
  match openV1 source with
  | .error e => ([], .error e)
  | .ok r => readAll r

/-- `Yields r ps r'`: the next calls of `nextRecord` from `r` return `ps`, and leave `r'`. -/
inductive Yields : StreamingWalReader → List Bytes → StreamingWalReader → Prop
  | nil (r : StreamingWalReader) : Yields r [] r
  | cons {r r' r'' : StreamingWalReader} {p : Bytes} {ps : List Bytes}
      (head : nextRecord.exec r = (.ok (some p), r')) (tail : Yields r' ps r'') :
      Yields r (p :: ps) r''

theorem readAll_of_none {r r' : StreamingWalReader} (h : nextRecord.exec r = (.ok none, r')) :
    readAll r = ([], .ok ()) := by
  rw [readAll]
  split <;> simp_all

theorem readAll_of_error {r r' : StreamingWalReader} {e : WalExportError}
    (h : nextRecord.exec r = (.error e, r')) : readAll r = ([], .error e) := by
  rw [readAll]
  split <;> simp_all

theorem readAll_of_some {r r' : StreamingWalReader} {p : Bytes}
    (h : nextRecord.exec r = (.ok (some p), r')) :
    readAll r = (p :: (readAll r').1, (readAll r').2) := by
  rw [readAll]
  split <;> simp_all

/-- Reading on after `ps` have come out adds to `ps` and ends the same way. -/
theorem Yields.readAll_eq {r r' : StreamingWalReader} {ps : List Bytes} (h : Yields r ps r') :
    readAll r = (ps ++ (readAll r').1, (readAll r').2) := by
  induction h with
  | nil r => rfl
  | cons head tail ih => rw [readAll_of_some head, ih, List.cons_append]

/-- Every read to the end is a sequence of records and one call that ends it. -/
theorem readAll_cases (r : StreamingWalReader) : ∃ r', Yields r (readAll r).1 r' ∧
    (nextRecord.exec r').1 = (readAll r).2.map (fun _ => none) := by
  rcases h : nextRecord.exec r with ⟨e | _ | p, r'⟩
  · rw [readAll_of_error h]
    exact ⟨r, .nil r, by rw [h]; rfl⟩
  · rw [readAll_of_none h]
    exact ⟨r, .nil r, by rw [h]; rfl⟩
  · have := nextRecord_shorter h
    obtain ⟨r'', hy, hend⟩ := readAll_cases r'
    rw [readAll_of_some h]
    exact ⟨r'', .cons h hy, hend⟩
termination_by r.reader.length

/-- The records read stood in the source as frames, and the position has moved past
    exactly these. -/
theorem Yields.sound {r r' : StreamingWalReader} {ps : List Bytes} (h : Yields r ps r') :
    (∀ p ∈ ps, frames.Admits p) ∧ r.reader = frames.stream ps ++ r'.reader ∧
      r'.cumulativePos = r.cumulativePos + (ps.map (fun p => 8 + p.length)).sum := by
  induction h with
  | nil r => simp
  | @cons r r₁ r₂ p ps head tail ih =>
      obtain ⟨hp, hread, hr₁⟩ := nextRecord_some head
      obtain ⟨hps, htail, hpos⟩ := ih
      have hpos₁ : r₁.cumulativePos = r.cumulativePos + 8 + p.length := by rw [hr₁]; rfl
      refine ⟨?_, ?_, ?_⟩
      · intro q hq
        rcases List.mem_cons.mp hq with rfl | hq
        · exact hp
        · exact hps q hq
      · rw [hread, htail, Framing.stream_cons, List.append_assoc]
      · rw [hpos, hpos₁, List.map_cons, List.sum_cons]
        omega

/-- Frames at the front of the source come out, whatever stands behind them. -/
theorem yields_stream {r : StreamingWalReader} {ps : List Bytes} {rest : Bytes}
    (hps : ∀ p ∈ ps, frames.Admits p) (h : r.reader = frames.stream ps ++ rest) :
    ∃ r', Yields r ps r' ∧ r'.reader = rest := by
  induction ps generalizing r with
  | nil => exact ⟨r, .nil r, h⟩
  | cons p ps ih =>
      rw [Framing.stream_cons, List.append_assoc] at h
      have head := exec_nextRecord_frame (hps p (by simp)) h
      obtain ⟨r', htail, hrest⟩ :=
        ih (r := r.past p (frames.stream ps ++ rest)) (fun q hq => hps q (by simp [hq])) rfl
      exact ⟨r', .cons head htail, hrest⟩

/-- A read ends cleanly exactly when the source is a sequence of whole frames, and
    then it has returned their payloads. -/
theorem readAll_ok_iff {r : StreamingWalReader} {ps : List Bytes} :
    readAll r = (ps, .ok ()) ↔ (∀ p ∈ ps, frames.Admits p) ∧ r.reader = frames.stream ps := by
  refine ⟨fun h => ?_, fun ⟨hps, hread⟩ => ?_⟩
  · obtain ⟨r', hy, hend⟩ := readAll_cases r
    rw [h] at hy hend
    obtain ⟨hps, hread, -⟩ := hy.sound
    have hnone : nextRecord.exec r' = (.ok none, (nextRecord.exec r').2) := Prod.ext hend rfl
    rw [(nextRecord_none hnone).1, List.append_nil] at hread
    exact ⟨hps, hread⟩
  · obtain ⟨r', hy, hrest⟩ := yields_stream hps
      (show r.reader = frames.stream ps ++ [] by rw [hread, List.append_nil])
    rw [hy.readAll_eq, readAll_of_none (exec_nextRecord_nil hrest), List.append_nil]

/-- A read of whole frames and a torn one returns the whole ones. -/
theorem readAll_torn {r : StreamingWalReader} {ps : List Bytes} {t : Bytes}
    (hps : ∀ p ∈ ps, frames.Admits p) (ht : frames.Torn t)
    (h : r.reader = frames.stream ps ++ t) :
    readAll r = (ps, .error (.invalidFraming .truncated)) := by
  obtain ⟨r', hy, rfl⟩ := yields_stream hps h
  have hend : nextRecord.exec r' = (.error (.invalidFraming .truncated), (nextRecord.exec r').2) :=
    Prod.ext (nextRecord_torn ht) rfl
  rw [hy.readAll_eq, readAll_of_error hend, List.append_nil]

/-! ## Opening a stream -/

theorem openV1_short {source : Bytes} (h : source.length < 8) :
    openV1 source = .error (.invalidFraming .headerMissing) := by
  rw [openV1, exec_readExact, if_pos h]
  rfl

theorem openV1_ok_iff {source : Bytes} {r : StreamingWalReader} :
    openV1 source = .ok r ↔
      ∃ rest, source = StreamMagic.v1.bytes ++ rest ∧ r = ⟨rest, 8, .v1⟩ := by
  rw [openV1, exec_readExact]
  refine ⟨fun h => ?_, ?_⟩
  · by_cases hshort : source.length < 8
    · simp [hshort] at h
    · rw [if_neg hshort] at h
      cases hm : StreamMagic.recognize (source.take 8) with
      | none => simp [hm] at h
      | some m =>
          cases m
          simp only [hm, Except.ok.injEq] at h
          refine ⟨source.drop 8, ?_, h.symm⟩
          rw [← StreamMagic.recognize_eq_some.mp hm, List.take_append_drop]
  · rintro ⟨rest, rfl, rfl⟩
    have hlen : ¬ (StreamMagic.v1.bytes ++ rest).length < 8 := by simp
    have htake : (StreamMagic.v1.bytes ++ rest).take 8 = StreamMagic.v1.bytes :=
      List.take_left' rfl
    have hdrop : (StreamMagic.v1.bytes ++ rest).drop 8 = rest := List.drop_left' rfl
    rw [if_neg hlen, htake, hdrop]
    rfl

/-- The reader accepts exactly the export streams, and returns what they carry. -/
theorem readStream_ok_iff {source : Bytes} {ps : List Bytes} :
    readStream source = (ps, .ok ()) ↔
      (∀ p ∈ ps, frames.Admits p) ∧ source = exportStream ps := by
  rw [readStream]
  cases h : openV1 source with
  | error e =>
      refine ⟨fun h => by simp at h, fun ⟨_, hsource⟩ => ?_⟩
      rw [openV1_ok_iff.mpr ⟨_, hsource, rfl⟩] at h
      simp at h
  | ok r =>
      obtain ⟨rest, rfl, rfl⟩ := openV1_ok_iff.mp h
      simp only [readAll_ok_iff, exportStream, List.append_cancel_left_eq]

end StreamingWalReader

end ArkheForge.Platform
