/-
  The history of the dice (`examples/dice/src/history.rs`, and the replay in `main.rs`).

  A launch builds a fresh service, dispatches the rolls of the history once more, and writes
  the log of the kernel to the file; the next launch reads them back out of the submissions
  in it. The kernel is an outside crate and enters as a class: `LawfulLog` is its documented
  promise that a dispatch appends a submission and a step, whatever the body made of it, and
  `Readable` that the bytes of an action decode to it.

  `load_exported` is the round trip through the file, and `load_cut` what is left of it when
  the file is cut short.
-/
import ArkheForge.Dice.Roll
import ArkheForge.Platform.Dispatcher
import ArkheForge.Platform.WalExport.Exported
import ArkheForge.Platform.WalExport.RoundTrip

namespace ArkheForge.Dice

open ArkheForge.Core ArkheForge.Platform BigEndian Fallible

/-! ## The kernel and its log -/

/-- `WalRecordContent`, as far as the loader reads it. -/
inductive WalRecordContent
  | submit (actionTypeCode : TypeCode) (actionBytes : Bytes)
  | step
  deriving DecidableEq, Repr

/-- `WalRecord`, which is also read back. -/
class StoredRecord (R : Type) extends WalRecord R where
  content : R → WalRecordContent
  fromBytes : Bytes → Except PostcardError R
  fromBytes_encode : ∀ r p, encode r = .ok p → fromBytes p = .ok r

/-- The calls that set a kernel up. -/
class LoggingKernel (K : Type) extends Kernel K where
  newWithWal : Vector UInt8 32 → Vector UInt8 32 → K
  registerAction : TypeCode → K → K
  createInstance : K → InstanceId × K

/-- A kernel that logs what is dispatched. -/
class LawfulLog (K R : Type) [LoggingKernel K] [StoredRecord R] where
  exportWal : K → Option (Wal R)
  /-- The instance is live, the action registered, nothing scheduled, and this the log. -/
  ready : K → InstanceId → TypeCode → List R → Prop
  fresh : ∀ world manifest code,
    ready (LoggingKernel.createInstance (LoggingKernel.registerAction code
      (LoggingKernel.newWithWal world manifest : K))).2
      (LoggingKernel.createInstance (LoggingKernel.registerAction code
        (LoggingKernel.newWithWal world manifest : K))).1 code []
  dispatched : ∀ (k : K) i code rs principal caps tick bytes, ready k i code rs →
    ∃ k' s t, (Kernel.submit i principal none caps tick code bytes).exec k = (.ok (), k') ∧
      StoredRecord.content s = .submit code bytes ∧ StoredRecord.content t = .step ∧
      ready (Kernel.step tick caps k').2 i code (rs ++ [s, t])
  exports : ∀ k i code rs, ready k i code rs → exportWal k = some ⟨rs⟩

/-- `canonical_bytes` are the bytes of `postcard`, and decode to the action. -/
structure Readable (A : Type) [CanonicalBytes A] [Postcard A] : Prop where
  canonical : ∀ action : A, Postcard.toStdvec action = .ok (CanonicalBytes.canonicalBytes action)
  roundTrip : Postcard.RoundTrip A

theorem Readable.fromBytes {A : Type} [CanonicalBytes A] [Postcard A] (h : Readable A)
    (action : A) : Postcard.fromBytes (CanonicalBytes.canonicalBytes action) = .ok action :=
  h.roundTrip action _ (h.canonical action)

/-! ## The replay -/

/-- `RecordDiceRoll::TYPE_CODE`, which the loader repeats as a constant of its own. -/
def recordDiceRollTypeCode : TypeCode := ArkheAction.typeCode RecordDiceRoll

instance recordDiceRollKernelAction : KernelAction RecordDiceRoll :=
  ⟨fun _ => recordDiceRollTypeCode⟩

section

variable {K : Type} [LoggingKernel K] [CoreWire] [CanonicalBytes RecordDiceRoll]

/-- The `dispatch` of a roll, by the system. -/
def dispatchRoll (instanceId : InstanceId) (record : RecordDiceRoll) (tick : Tick) :
    Fallible (RuntimeService K) DispatchError StepReport :=
  RuntimeService.dispatch instanceId .system record tick .system none

/-- The loop over the history. No history is long enough to overflow `next_tick`. -/
def replayPrior (instanceId : InstanceId) :
    List RecordDiceRoll → Tick → Fallible (RuntimeService K) DispatchError Tick
  | [], nextTick => pure nextTick
  | entry :: prior, nextTick => do
    let _ ← dispatchRoll instanceId entry nextTick
    replayPrior instanceId prior (nextTick + 1)

/-- The dispatches of `compose_service_with_replay`. -/
def dispatchAll (instanceId : InstanceId) (prior : List RecordDiceRoll)
    (new : Option RecordDiceRoll) : Fallible (RuntimeService K) DispatchError Unit := do
  let nextTick ← replayPrior instanceId prior 1
  match new with
  | some record => do
    let _ ← dispatchRoll instanceId record nextTick
    pure ()
  | none => pure ()

variable (K)

/-- A new kernel that knows the action, and its first instance. -/
def freshInstance : InstanceId × K :=
  LoggingKernel.createInstance (LoggingKernel.registerAction recordDiceRollTypeCode
    (LoggingKernel.newWithWal (.replicate 32 0) (.replicate 32 0)))

/-- `compose_service_with_replay`. -/
def composeServiceWithReplay (prior : List RecordDiceRoll) (new : Option RecordDiceRoll) :
    Except DispatchError (RuntimeService K) :=
  match (dispatchAll (freshInstance K).1 prior new).exec ⟨(freshInstance K).2⟩ with
  | (.ok (), svc) => .ok svc
  | (.error e, _) => .error e

end

/-! ## The loader -/

/-- `HistoryLoadError`. -/
inductive HistoryLoadError
  | framing (e : WalExportError)
  | walRecordDecode (e : PostcardError)
  | actionDecode (e : PostcardError)
  deriving DecidableEq, Repr

section

variable [Postcard RecordDiceRoll]

/-- The roll of a submission, if it is one. -/
def decodeContent : WalRecordContent → Except HistoryLoadError (Option RecordDiceRoll)
  | .step => .ok none
  | .submit actionTypeCode actionBytes =>
    if actionTypeCode ≠ recordDiceRollTypeCode then .ok none
    else
      match (Postcard.fromBytes actionBytes : Except PostcardError RecordDiceRoll) with
      | .ok record => .ok (some record)
      | .error e => .error (.actionDecode e)

variable (R : Type) [StoredRecord R]

/-- One turn of the loop of `load_history`. -/
def decodePayload (payload : Bytes) : Except HistoryLoadError (Option RecordDiceRoll) :=
  match (StoredRecord.fromBytes payload : Except PostcardError R) with
  | .ok walRecord => decodeContent (StoredRecord.content walRecord)
  | .error e => .error (.walRecordDecode e)

/-- The loop of `load_history`. -/
def loadFrom (reader : StreamingWalReader) : Except HistoryLoadError (List RecordDiceRoll) :=
  match h : StreamingWalReader.nextRecord.exec reader with
  | (.ok none, _) => .ok []
  | (.error e, _) => .error (.framing e)
  | (.ok (some payload), rest) =>
    have := StreamingWalReader.nextRecord_shorter h
    do
      let entry ← decodePayload R payload
      let later ← loadFrom rest
      .ok (entry.toList ++ later)
termination_by reader.reader.length

/-- `load_history`. An absent file is an empty history. -/
def loadHistory (file : Option Bytes) : Except HistoryLoadError (List RecordDiceRoll) :=
  match file with
  | none => .ok []
  | some source =>
    match StreamingWalReader.openV1 source with
    | .error e => .error (.framing e)
    | .ok reader => loadFrom R reader

end

/-! ## What the replay logs -/

section

variable [CanonicalBytes RecordDiceRoll]

/-- What the log of a replayed history tells. -/
def contentsOf (history : List RecordDiceRoll) : List WalRecordContent :=
  history.flatMap fun record =>
    [.submit recordDiceRollTypeCode (CanonicalBytes.canonicalBytes record), .step]

theorem contentsOf_snoc (history : List RecordDiceRoll) (record : RecordDiceRoll) :
    contentsOf (history ++ [record]) = contentsOf history ++
      [.submit recordDiceRollTypeCode (CanonicalBytes.canonicalBytes record), .step] := by
  unfold contentsOf
  rw [List.flatMap_append]
  rfl

variable {K R : Type} [LoggingKernel K] [StoredRecord R] [LawfulLog K R]

/-- The service has dispatched this history. -/
def Dispatched (R : Type) [StoredRecord R] [LawfulLog K R] (svc : RuntimeService K)
    (instanceId : InstanceId) (history : List RecordDiceRoll) : Prop :=
  ∃ rs : List R, LawfulLog.ready svc.kernel instanceId recordDiceRollTypeCode rs ∧
    rs.map StoredRecord.content = contentsOf history

variable {svc : RuntimeService K} {instanceId : InstanceId} {history : List RecordDiceRoll}

variable [CoreWire]

/-- A dispatch is not refused, whatever the roll. -/
theorem exec_dispatchRoll (h : Dispatched R svc instanceId history) (record : RecordDiceRoll)
    (tick : Tick) :
    ∃ report svc', (dispatchRoll instanceId record tick).exec svc = (.ok report, svc') ∧
      Dispatched R svc' instanceId (history ++ [record]) := by
  obtain ⟨rs, hready, hcontents⟩ := h
  obtain ⟨k', s, t, hsubmit, hs, ht, hready'⟩ := LawfulLog.dispatched svc.kernel instanceId
    recordDiceRollTypeCode rs .system .system tick (CanonicalBytes.canonicalBytes record) hready
  refine ⟨_, _, RuntimeService.exec_dispatch (fun _ hactor => by cases hactor) hsubmit, _, hready',
    ?_⟩
  rw [List.map_append, hcontents, contentsOf_snoc, List.map_cons, List.map_cons, hs, ht]
  rfl

theorem exec_replayPrior (h : Dispatched R svc instanceId history) (prior : List RecordDiceRoll)
    (tick : Tick) :
    ∃ nextTick svc', (replayPrior instanceId prior tick).exec svc = (.ok nextTick, svc') ∧
      Dispatched R svc' instanceId (history ++ prior) := by
  induction prior generalizing svc history tick with
  | nil => exact ⟨tick, svc, rfl, by rwa [List.append_nil]⟩
  | cons entry prior ih =>
      obtain ⟨report, svc₁, hexec, h₁⟩ := exec_dispatchRoll h entry tick
      obtain ⟨nextTick, svc₂, hrest, h₂⟩ := ih h₁ (tick + 1)
      refine ⟨nextTick, svc₂, ?_, by rwa [List.append_assoc] at h₂⟩
      unfold replayPrior
      rw [exec_bind_ok hexec, hrest]

theorem replayPrior_append (instanceId : InstanceId) (prior later : List RecordDiceRoll)
    (tick : Tick) :
    (replayPrior instanceId (prior ++ later) tick :
        Fallible (RuntimeService K) DispatchError Tick) =
      replayPrior instanceId prior tick >>= replayPrior instanceId later := by
  induction prior generalizing tick with
  | nil => exact (pure_bind _ _).symm
  | cons entry prior ih =>
      unfold replayPrior
      rw [List.cons_append, bind_assoc]
      exact bind_congr fun _ => ih (tick + 1)

variable (K) in
/-- The new roll is dispatched as one more entry of the history. -/
theorem compose_new (prior : List RecordDiceRoll) (record : RecordDiceRoll) :
    composeServiceWithReplay K prior (some record) =
      composeServiceWithReplay K (prior ++ [record]) none := by
  unfold composeServiceWithReplay dispatchAll
  simp only [replayPrior_append, bind_assoc, replayPrior, pure_bind]

variable (K R) in
/-- The service is composed, and exports the log of the history. -/
theorem compose_ok (history : List RecordDiceRoll) :
    ∃ svc rs, composeServiceWithReplay K history none = .ok svc ∧
      LawfulLog.exportWal svc.kernel = some (⟨rs⟩ : Wal R) ∧
      rs.map StoredRecord.content = contentsOf history := by
  have hfresh : Dispatched R ⟨(freshInstance K).2⟩ (freshInstance K).1 [] :=
    ⟨[], LawfulLog.fresh _ _ _, rfl⟩
  obtain ⟨nextTick, svc, hexec, rs, hready, hcontents⟩ := exec_replayPrior hfresh history 1
  refine ⟨svc, rs, ?_, LawfulLog.exports _ _ _ _ hready, hcontents⟩
  unfold composeServiceWithReplay dispatchAll
  rw [exec_bind_ok hexec]
  rfl

end

/-! ## The loop and the reader -/

section

variable [Postcard RecordDiceRoll]

/-- The rolls of the records, in order. -/
def decodeAll (R : Type) [StoredRecord R] : List Bytes →
    Except HistoryLoadError (List RecordDiceRoll)
  | [] => .ok []
  | payload :: payloads => do
    let entry ← decodePayload R payload
    let later ← decodeAll R payloads
    .ok (entry.toList ++ later)

variable {R : Type} [StoredRecord R] {reader : StreamingWalReader}

theorem decodeAll_cons (payload : Bytes) (payloads : List Bytes) :
    decodeAll R (payload :: payloads) =
      (do
        let entry ← decodePayload R payload
        let later ← decodeAll R payloads
        .ok (entry.toList ++ later)) := rfl

/-- The loop decodes the records the reader yields, and fails where either does. -/
theorem loadFrom_eq : loadFrom R reader =
    (do
      let history ← decodeAll R (StreamingWalReader.readAll reader).1
      (StreamingWalReader.readAll reader).2.mapError .framing
      .ok history) := by
  induction hlength : reader.reader.length using Nat.strong_induction_on generalizing reader with
  | _ length ih =>
      rw [loadFrom]
      split
      · next rest hnext =>
        rw [StreamingWalReader.readAll_of_none hnext]
        rfl
      · next e rest hnext =>
        rw [StreamingWalReader.readAll_of_error hnext]
        rfl
      · next payload rest hnext =>
        have hshorter := StreamingWalReader.nextRecord_shorter hnext
        rw [StreamingWalReader.readAll_of_some hnext, ih _ (hlength ▸ hshorter) rfl]
        rw [decodeAll_cons]
        cases decodePayload R payload with
        | error e => rfl
        | ok entry =>
            cases decodeAll R (StreamingWalReader.readAll rest).1 with
            | error e => rfl
            | ok later =>
                cases (StreamingWalReader.readAll rest).2 with
                | error e => rfl
                | ok u => rfl

/-- The same for a whole file. -/
theorem loadHistory_eq (source : Bytes) : loadHistory R (some source) =
    (do
      let history ← decodeAll R (StreamingWalReader.readStream source).1
      (StreamingWalReader.readStream source).2.mapError .framing
      .ok history) := by
  rcases hopen : StreamingWalReader.openV1 source with e | reader
  · simp only [loadHistory, StreamingWalReader.readStream, hopen]
    rfl
  · simp only [loadHistory, StreamingWalReader.readStream, hopen]
    exact loadFrom_eq

end

/-! ## Through the file and back -/

section

variable {R : Type} [StoredRecord R] [Postcard RecordDiceRoll]

/-- Records decode by what they tell. -/
def decodeContents : List WalRecordContent → Except HistoryLoadError (List RecordDiceRoll)
  | [] => .ok []
  | content :: contents => do
    let entry ← decodeContent content
    let later ← decodeContents contents
    .ok (entry.toList ++ later)

theorem decodePayload_encode {r : R} {p : Bytes} (h : WalRecord.encode r = .ok p) :
    decodePayload R p = decodeContent (StoredRecord.content r) := by
  unfold decodePayload
  rw [StoredRecord.fromBytes_encode r p h]

theorem decodeAll_encodes {rs : List R} {ps : List Bytes} (h : Wal.Encodes ⟨rs⟩ ps) :
    decodeAll R ps = decodeContents (rs.map StoredRecord.content) := by
  induction rs generalizing ps with
  | nil =>
      obtain rfl : ps = [] := List.map_eq_nil_iff.mp h.symm
      rfl
  | cons r rs ih =>
      cases ps with
      | nil => cases h
      | cons p ps =>
          obtain ⟨henc, hencs⟩ := List.cons.inj h
          rw [decodeAll_cons, decodePayload_encode henc, ih hencs]
          rfl

variable [CanonicalBytes RecordDiceRoll]

theorem decodeContent_submit (hbytes : Readable RecordDiceRoll) (record : RecordDiceRoll) :
    decodeContent (.submit recordDiceRollTypeCode (CanonicalBytes.canonicalBytes record)) =
      .ok (some record) := by
  simp only [decodeContent, ne_eq, not_true_eq_false, if_false, hbytes.fromBytes record]

/-- What the first records of a log tell is the first part of the history. -/
theorem decodeContents_take (hbytes : Readable RecordDiceRoll) (history : List RecordDiceRoll)
    (k : ℕ) :
    decodeContents ((contentsOf history).take k) = .ok (history.take ((k + 1) / 2)) := by
  induction history generalizing k with
  | nil =>
      unfold contentsOf
      simp [decodeContents]
  | cons record history ih =>
      have hcons : contentsOf (record :: history) =
          .submit recordDiceRollTypeCode (CanonicalBytes.canonicalBytes record) :: .step ::
            contentsOf history := rfl
      rw [hcons]
      rcases k with _ | _ | k
      · rfl
      · simp only [List.take_succ_cons, List.take_zero, decodeContents, decodeContent_submit hbytes]
        rfl
      · have hhalf : (k + 2 + 1) / 2 = (k + 1) / 2 + 1 := by omega
        rw [hhalf]
        simp only [List.take_succ_cons, decodeContents, decodeContent_submit hbytes, ih]
        rfl

theorem decodeContents_contentsOf (hbytes : Readable RecordDiceRoll)
    (history : List RecordDiceRoll) :
    decodeContents (contentsOf history) = .ok history := by
  have hall := decodeContents_take hbytes history ((contentsOf history).length + 2 * history.length)
  rwa [List.take_of_length_le (by omega), List.take_of_length_le (by omega)] at hall

variable {history : List RecordDiceRoll} {rs : List R} {ps : List Bytes}

/-- The file of a history loads as that history. -/
theorem load_exported (hbytes : Readable RecordDiceRoll)
    (h : rs.map StoredRecord.content = contentsOf history)
    (hencs : Wal.Encodes ⟨rs⟩ ps) (hps : ∀ p ∈ ps, frames.Admits p) :
    loadHistory R (some (exportStream ps)) = .ok history := by
  have hread : StreamingWalReader.readStream (exportStream ps) = (ps, .ok ()) :=
    StreamingWalReader.readStream_ok_iff.mpr ⟨hps, rfl⟩
  rw [loadHistory_eq, hread, decodeAll_encodes hencs, h, decodeContents_contentsOf hbytes]
  rfl

/-- The first records of the log of a history decode to a first part of it. -/
theorem decodeAll_take (hbytes : Readable RecordDiceRoll)
    (h : rs.map StoredRecord.content <+: contentsOf history)
    (hencs : Wal.Encodes ⟨rs⟩ ps) (k : ℕ) :
    ∃ j, decodeAll R (ps.take k) = .ok (history.take j) := by
  have htake : Wal.Encodes (⟨rs.take k⟩ : Wal R) (ps.take k) := by
    show (rs.take k).map WalRecord.encode = (ps.take k).map .ok
    rw [List.map_take, List.map_take]
    exact congrArg (List.take k) hencs
  have hfirst : (rs.take k).map StoredRecord.content <+: contentsOf history := by
    rw [List.map_take]
    exact (List.take_prefix _ _).trans h
  rw [decodeAll_encodes htake, List.prefix_iff_eq_take.mp hfirst]
  exact ⟨_, decodeContents_take hbytes history _⟩

/-- A first part of the file, of the log or of its last frame, is refused as torn or loads as a
    first part of the history. -/
theorem load_cut (hbytes : Readable RecordDiceRoll)
    (h : rs.map StoredRecord.content <+: contentsOf history)
    (hencs : Wal.Encodes ⟨rs⟩ ps) (hps : ∀ p ∈ ps, frames.Admits p) {c : Bytes}
    (hcut : c <+: exportStream ps) :
    (∃ reason, loadHistory R (some c) = .error (.framing (.invalidFraming reason))) ∨
      ∃ j, loadHistory R (some c) = .ok (history.take j) := by
  by_cases hwhole : ∃ k, c = exportStream (ps.take k)
  · obtain ⟨k, rfl⟩ := hwhole
    obtain ⟨j, hdecode⟩ := decodeAll_take hbytes h hencs k
    have hread : StreamingWalReader.readStream (exportStream (ps.take k)) = (ps.take k, .ok ()) :=
      StreamingWalReader.readStream_ok_iff.mpr ⟨fun p hp => hps p (List.mem_of_mem_take hp), rfl⟩
    refine .inr ⟨j, ?_⟩
    rw [loadHistory_eq, hread, hdecode]
    rfl
  · have hmid : ∀ k, c ≠ exportStream (ps.take k) := fun k heq => hwhole ⟨k, heq⟩
    rcases readStream_cut hps hcut hmid with ⟨-, hread⟩ | ⟨-, k, -, -, -, hread⟩
    · refine .inl ⟨.headerMissing, ?_⟩
      rw [loadHistory_eq, hread]
      rfl
    · obtain ⟨j, hdecode⟩ := decodeAll_take hbytes h hencs k
      refine .inl ⟨.truncated, ?_⟩
      rw [loadHistory_eq, hread, hdecode]
      rfl

end

/-! ## A kernel that logs -/

/-- A record in memory. -/
structure MemoryRecord where
  seq : UInt64
  content : WalRecordContent
  deriving DecidableEq, Repr

/-- The fields of a submission on the wire. -/
def submitWire : Codec (UInt64 × TypeCode × { bs : Bytes // bs.length < UInt64.size }) :=
  Codec.u64.pair (Codec.u32.pair Codec.bytes)

namespace MemoryRecord

/-- `postcard` of a record. -/
def encode : MemoryRecord → Except String Bytes
  | ⟨seq, .submit actionTypeCode actionBytes⟩ =>
    if h : actionBytes.length < UInt64.size then
      .ok (0 :: submitWire.encode (seq, actionTypeCode, ⟨actionBytes, h⟩))
    else .error "length"
  | ⟨seq, .step⟩ => .ok (1 :: Codec.u64.encode seq)

/-- `postcard::from_bytes`. -/
def fromBytes : Bytes → Except PostcardError MemoryRecord
  | 0 :: bs =>
    match submitWire.decode bs with
    | some ((seq, actionTypeCode, actionBytes), _) =>
      .ok ⟨seq, .submit actionTypeCode actionBytes.1⟩
    | none => .error .deserialize
  | 1 :: bs =>
    match Codec.u64.decode bs with
    | some (seq, _) => .ok ⟨seq, .step⟩
    | none => .error .deserialize
  | _ => .error .deserialize

theorem fromBytes_encode (r : MemoryRecord) (p : Bytes) (h : r.encode = .ok p) :
    fromBytes p = .ok r := by
  obtain ⟨seq, content⟩ := r
  cases content with
  | submit actionTypeCode actionBytes =>
      simp only [encode] at h
      split at h
      · next hlength =>
        obtain rfl := Except.ok.inj h
        have hdecode := submitWire.decode_encode (seq, actionTypeCode, ⟨actionBytes, hlength⟩) []
        rw [List.append_nil] at hdecode
        simp only [fromBytes, hdecode]
      · cases h
  | step =>
      obtain rfl := Except.ok.inj h
      have hdecode := Codec.u64.decode_encode seq []
      rw [List.append_nil] at hdecode
      simp only [fromBytes, hdecode]

instance stored : StoredRecord MemoryRecord where
  seq := seq
  encode := encode
  content := content
  fromBytes := fromBytes
  fromBytes_encode := fromBytes_encode

end MemoryRecord

/-- A kernel that has one instance and runs nothing. -/
structure MemoryLog where
  log : List MemoryRecord

namespace MemoryLog

/-- One record more. -/
def push (k : MemoryLog) (content : WalRecordContent) : MemoryLog :=
  ⟨k.log ++ [⟨UInt64.ofNat k.log.length, content⟩]⟩

instance logging : LoggingKernel MemoryLog where
  instanceView _ _ := none
  submit _ _ _ _ _ code bytes := modify fun k => k.push (.submit code bytes)
  step _ _ k := (⟨1, 0, 0⟩, k.push .step)
  newWithWal _ _ := ⟨[]⟩
  registerAction _ k := k
  createInstance k := (firstInstance, k)

theorem dispatched (k : MemoryLog) (i : InstanceId) (code : TypeCode) (rs : List MemoryRecord)
    (principal : Principal) (caps : CapabilityMask) (tick : Tick) (bytes : Bytes)
    (h : k.log = rs) :
    ∃ k' s t, (Kernel.submit i principal none caps tick code bytes).exec k = (.ok (), k') ∧
      StoredRecord.content s = .submit code bytes ∧ StoredRecord.content t = .step ∧
      (Kernel.step tick caps k').2.log = rs ++ [s, t] := by
  subst h
  refine ⟨k.push (.submit code bytes), ⟨UInt64.ofNat k.log.length, .submit code bytes⟩,
    ⟨UInt64.ofNat (k.push (.submit code bytes)).log.length, .step⟩, rfl, rfl, rfl, ?_⟩
  show k.log ++ [_] ++ [_] = _
  rw [List.append_assoc]
  rfl

/-- The promises, kept. -/
instance lawfulLog : LawfulLog MemoryLog MemoryRecord where
  exportWal k := some ⟨k.log⟩
  ready k _ _ rs := k.log = rs
  fresh _ _ _ := rfl
  dispatched := dispatched
  exports _ _ _ _ h := congrArg (fun rs => some (Wal.mk rs)) h

end MemoryLog

end ArkheForge.Dice
