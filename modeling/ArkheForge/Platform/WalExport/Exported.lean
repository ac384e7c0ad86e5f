/-
  `wal_to_sink`, however it ends.

  Over any writer and capacity: an export that returned wrote the stream of the whole log,
  whose records carry consecutive numbers (`walToSink_ok`); one that failed left the writer
  with a first part of the stream of the records before (`walToSink_error`).
-/
import ArkheForge.Platform.WalExport.AppendOnly
import ArkheForge.Platform.WalExport.Export

namespace ArkheForge.Platform

open BigEndian Fallible BufferedWalSink

variable {W R : Type} [Write W] [WalRecord R] {s s' : BufferedWalSink W} {seq : UInt64} {p : Bytes}

/-! ## One record -/

/-- The sink took a record as the next one of its stream. -/
structure TookNext (s : BufferedWalSink W) (seq : UInt64) (p : Bytes) (s' : BufferedWalSink W) :
    Prop where
  admits : frames.Admits p
  succession : checkSuccession s.lastSeq seq = .ok ()
  lastSeq_eq : s'.lastSeq = some seq
  emitted_eq : s'.emitted = s.emitted ++ frames.frame p

theorem contents_prefix_emitted (s : BufferedWalSink W) : Write.contents s.writer <+: s.emitted :=
  List.prefix_append _ _

theorem appendRecord_ok (h : (appendRecord seq p).exec s = (.ok (), s')) : TookNext s seq p s' := by
  rw [exec_appendRecord] at h
  cases hlen : validateLength p with
  | error e =>
      rw [hlen] at h
      cases h
  | ok n =>
      cases hseq : checkSuccession s.lastSeq seq with
      | error e =>
          rw [hlen, hseq] at h
          cases h
      | ok u =>
          rw [hlen, hseq] at h
          simp only at h
          split at h
          · cases h
          · obtain rfl := (Prod.mk.inj h).2
            exact ⟨(validateLength_eq_ok.mp hlen).1, hseq, rfl, emitted_push s seq p⟩

/-- An append that was refused adds nothing. -/
theorem appendRecord_error {e : WalExportError}
    (h : (appendRecord seq p).exec s = (.error e, s')) :
    s'.emitted = s.emitted ∧ s'.lastSeq = s.lastSeq := by
  rw [exec_appendRecord] at h
  cases hlen : validateLength p with
  | error e =>
      rw [hlen] at h
      rw [← (Prod.mk.inj h).2]
      exact ⟨rfl, rfl⟩
  | ok n =>
      cases hseq : checkSuccession s.lastSeq seq with
      | error e =>
          rw [hlen, hseq] at h
          rw [← (Prod.mk.inj h).2]
          exact ⟨rfl, rfl⟩
      | ok u =>
          rw [hlen, hseq] at h
          simp only at h
          split at h
          · rw [← (Prod.mk.inj h).2]
            exact ⟨emitted_withHeader s, withHeader_lastSeq s⟩
          · cases h

/-- A flush that fails leaves the writer within the stream. -/
theorem flush_error_prefix {e : WalExportError} (h : flush.exec s = (.error e, s')) :
    Write.contents s'.writer <+: s.emitted := by
  obtain ⟨-, hwriter, -, -⟩ := flush_error h
  obtain ⟨t, ht, hcontents⟩ := Write.contents_offer_takes s.withHeader.buffer s.writer
  rw [hwriter, hcontents, emitted]
  exact (List.prefix_append_right_inj _).mpr ht

/-- A flush that returned leaves the stream as it is. -/
theorem emitted_of_flush (h : flush.exec s = (.ok (), s')) :
    s'.emitted = s.emitted ∧ s'.lastSeq = s.lastSeq := by
  obtain ⟨hcontents, hbuffer, hhead, -, hlast⟩ := flush_ok h
  refine ⟨?_, hlast⟩
  rw [emitted_of_headerEmitted hhead, hbuffer, List.append_nil, hcontents]

/-- What was taken in a later state with the same stream. -/
theorem TookNext.of_same {s₁ : BufferedWalSink W} (h : TookNext s₁ seq p s')
    (hsame : s₁.emitted = s.emitted ∧ s₁.lastSeq = s.lastSeq) : TookNext s seq p s' :=
  ⟨h.admits, hsame.2 ▸ h.succession, h.lastSeq_eq, hsame.1 ▸ h.emitted_eq⟩

/-- The second attempt of a turn, after an overflow. -/
theorem retry_ok
    (h : (do adapt WalSinkError.sink flush; adapt WalSinkError.sink (appendRecord seq p)).exec s =
      (.ok (), s')) : TookNext s seq p s' := by
  obtain ⟨_, s₁, hflush, happend⟩ := exec_bind_eq_ok.mp h
  have hdrained := emitted_of_flush (exec_adapt_eq_ok.mp hflush)
  exact (appendRecord_ok (exec_adapt_eq_ok.mp happend)).of_same hdrained

theorem retry_error {e : WalSinkError}
    (h : (do adapt WalSinkError.sink flush; adapt WalSinkError.sink (appendRecord seq p)).exec s =
      (.error e, s')) : Write.contents s'.writer <+: s.emitted := by
  rcases exec_bind_eq_error.mp h with hflush | ⟨_, s₁, hflush, happend⟩
  · obtain ⟨_, -, hflush⟩ := exec_adapt_eq_error.mp hflush
    exact flush_error_prefix hflush
  · obtain ⟨hdrained, -⟩ := emitted_of_flush (exec_adapt_eq_ok.mp hflush)
    obtain ⟨_, -, happend⟩ := exec_adapt_eq_error.mp happend
    rw [← hdrained, ← (appendRecord_error happend).1]
    exact contents_prefix_emitted s'

variable {record : R}

/-- One turn that returned exported one record. -/
theorem exportRecord_ok (h : (exportRecord record).exec s = (.ok (), s')) :
    ∃ p, WalRecord.encode record = .ok p ∧ TookNext s (WalRecord.seq record) p s' := by
  unfold exportRecord at h
  obtain ⟨p, s₁, hencode, h⟩ := exec_bind_eq_ok.mp h
  rw [exec_ofExcept] at hencode
  obtain ⟨hbytes, rfl⟩ := Prod.mk.inj hencode
  refine ⟨p, except_mapError_eq_ok.mp hbytes, ?_⟩
  rw [exec_bind, exec_attempt] at h
  rcases happend : (appendRecord (WalRecord.seq record) p).exec s with ⟨e | _, s₁⟩
  · rw [happend] at h
    cases e with
    | bufferOverflow capacity requested current =>
        exact (retry_ok h).of_same (appendRecord_error happend)
    | io e => cases h
    | invalidFraming reason => cases h
    | appendOnlyViolation expected got previous => cases h
    | seqExhausted last => cases h
    | unsupportedStreamVersion magic => cases h
  · rw [happend] at h
    obtain ⟨-, rfl⟩ := Prod.mk.inj h
    exact appendRecord_ok happend

/-- One turn that failed left the writer within the stream. -/
theorem exportRecord_error {e : WalSinkError} (h : (exportRecord record).exec s = (.error e, s')) :
    Write.contents s'.writer <+: s.emitted := by
  unfold exportRecord at h
  rcases exec_bind_eq_error.mp h with hencode | ⟨p, s₁, hencode, h⟩
  · rw [exec_ofExcept] at hencode
    rw [← (Prod.mk.inj hencode).2]
    exact contents_prefix_emitted s
  rw [exec_ofExcept] at hencode
  obtain ⟨-, rfl⟩ := Prod.mk.inj hencode
  rw [exec_bind, exec_attempt] at h
  rcases happend : (appendRecord (WalRecord.seq record) p).exec s with ⟨e' | _, s₁⟩
  · rw [happend] at h
    rw [← (appendRecord_error happend).1]
    have hrefused := contents_prefix_emitted s₁
    cases e' with
    | bufferOverflow capacity requested current => exact retry_error h
    | io e => exact (Prod.mk.inj h).2 ▸ hrefused
    | invalidFraming reason => exact (Prod.mk.inj h).2 ▸ hrefused
    | appendOnlyViolation expected got previous => exact (Prod.mk.inj h).2 ▸ hrefused
    | seqExhausted last => exact (Prod.mk.inj h).2 ▸ hrefused
    | unsupportedStreamVersion magic => exact (Prod.mk.inj h).2 ▸ hrefused
  · rw [happend] at h
    cases h

/-! ## The whole log -/

/-- What a turn took is numbered as the record before what the rest of the log takes. -/
theorem ready_cons {rs : List R} (htook : TookNext s (WalRecord.seq record) p s') (h : Ready s' rs) :
    Ready s (record :: rs) := by
  constructor
  · intro r hr
    obtain rfl : record = r := by simpa using hr
    exact htook.succession
  · cases rs with
    | nil => exact List.isChain_singleton record
    | cons r rs =>
        have hnext := h.1 r rfl
        rw [htook.lastSeq_eq] at hnext
        exact List.isChain_cons_cons.mpr ⟨checkSuccession_some hnext, h.2⟩

theorem encodes_cons {rs : List R} {ps : List Bytes} (h : WalRecord.encode record = .ok p)
    (hencs : Wal.Encodes ⟨rs⟩ ps) : Wal.Encodes ⟨record :: rs⟩ (p :: ps) := by
  show WalRecord.encode record :: rs.map WalRecord.encode = .ok p :: ps.map .ok
  rw [h]
  exact congrArg _ hencs

/-- The loop: what it took when it returned, and what the writer may hold when it did not. -/
theorem forM_exportRecord_ends (rs : List R) (s : BufferedWalSink W) :
    (∀ s', (forM rs exportRecord).exec s = (.ok (), s') →
      ∃ ps, Wal.Encodes ⟨rs⟩ ps ∧ (∀ p ∈ ps, frames.Admits p) ∧ Ready s rs ∧
        s'.emitted = s.emitted ++ frames.stream ps) ∧
    ∀ e s', (forM rs exportRecord).exec s = (.error e, s') →
      ∃ pre ps, pre <+: rs ∧ Wal.Encodes ⟨pre⟩ ps ∧ (∀ p ∈ ps, frames.Admits p) ∧
        Write.contents s'.writer <+: s.emitted ++ frames.stream ps := by
  induction rs generalizing s with
  | nil =>
      constructor
      · intro s' h
        obtain rfl := (Prod.mk.inj h).2
        exact ⟨[], rfl, by simp, ⟨by simp, List.isChain_nil⟩, by simp⟩
      · intro e s' h
        cases h
  | cons r rs ih =>
      constructor
      · intro s' h
        rw [List.forM_cons] at h
        obtain ⟨_, s₁, hturn, hrest⟩ := exec_bind_eq_ok.mp h
        obtain ⟨p, henc, htook⟩ := exportRecord_ok hturn
        obtain ⟨ps, hencs, hps, hready, hstream⟩ := (ih s₁).1 s' hrest
        refine ⟨p :: ps, encodes_cons henc hencs, List.forall_mem_cons.mpr ⟨htook.admits, hps⟩,
          ready_cons htook hready, ?_⟩
        rw [hstream, htook.emitted_eq, Framing.stream_cons, List.append_assoc]
      · intro e s' h
        rw [List.forM_cons] at h
        rcases exec_bind_eq_error.mp h with hturn | ⟨_, s₁, hturn, hrest⟩
        · refine ⟨[], [], List.nil_prefix, rfl, by simp, ?_⟩
          rw [Framing.stream_nil, List.append_nil]
          exact exportRecord_error hturn
        · obtain ⟨p, henc, htook⟩ := exportRecord_ok hturn
          obtain ⟨pre, ps, hpre, hencs, hps, hheld⟩ := (ih s₁).2 e s' hrest
          refine ⟨r :: pre, p :: ps, (List.prefix_cons_inj r).mpr hpre, encodes_cons henc hencs,
            List.forall_mem_cons.mpr ⟨htook.admits, hps⟩, ?_⟩
          rw [Framing.stream_cons, ← List.append_assoc, ← htook.emitted_eq]
          exact hheld

section

variable {wal : Wal R} {w : W} (hw : Write.contents w = []) {capacity : ℕ}

include hw

/-- An export that returned wrote the stream of the log. -/
theorem walToSink_ok (h : (walToSink wal).exec (withCapacity w capacity) = (.ok (), s)) :
    ∃ ps, wal.Encodes ps ∧ (∀ p ∈ ps, frames.Admits p) ∧ wal.Consecutive ∧
      Write.contents s.writer = exportStream ps := by
  obtain ⟨_, s₁, hloop, hflush⟩ := exec_bind_eq_ok.mp h
  obtain ⟨ps, hencs, hps, hready, hemitted⟩ := (forM_exportRecord_ends wal.records _).1 s₁ hloop
  refine ⟨ps, hencs, hps, hready.2, ?_⟩
  rw [(flush_ok (exec_adapt_eq_ok.mp hflush)).1, hemitted, emitted_withCapacity, hw]
  rfl

/-- An export that failed wrote some first part of the stream of a first part of the log. -/
theorem walToSink_error {e : WalSinkError}
    (h : (walToSink wal).exec (withCapacity w capacity) = (.error e, s)) :
    ∃ pre ps, pre <+: wal.records ∧ Wal.Encodes ⟨pre⟩ ps ∧ (∀ p ∈ ps, frames.Admits p) ∧
      Write.contents s.writer <+: exportStream ps := by
  have hstart : (withCapacity w capacity).emitted = StreamMagic.v1.bytes := by
    rw [emitted_withCapacity, hw, List.nil_append]
  unfold exportStream
  rw [← hstart]
  rcases exec_bind_eq_error.mp h with hloop | ⟨_, s₁, hloop, hflush⟩
  · exact (forM_exportRecord_ends wal.records _).2 e s hloop
  · obtain ⟨ps, hencs, hps, -, hemitted⟩ := (forM_exportRecord_ends wal.records _).1 s₁ hloop
    obtain ⟨_, -, hflush⟩ := exec_adapt_eq_error.mp hflush
    refine ⟨wal.records, ps, List.prefix_rfl, hencs, hps, ?_⟩
    rw [← hemitted]
    exact flush_error_prefix hflush

end

end ArkheForge.Platform
