/-
  The launches (`examples/dice/src/main.rs`): the three modes of the program over its file.

  What a launch finds outside (the entropy, the lines on its input, the file it creates) is
  its argument, and the state is what stands in the file. A launch truncates the file before
  it writes, so a write that fails leaves the first part of the new one.

  * `history_survives`: along every run in which no write fails, the file holds every roll
    since the last reset once and in order, under nonces that count them, and passes.
  * `launch_ends`: the three ways a launch ends, and what the next one finds.
  * `verify_accepts_iff`: what `--verify` passes, whether or not the rolls verify.
-/
import ArkheForge.Dice.History
import Mathlib.Data.List.DropRight

namespace ArkheForge.Dice

open ArkheForge.Core ArkheForge.Platform ArkheForge.Rand BigEndian Fallible

/-! ## The input -/

/-- `MAX_USER_INPUT_BYTES`. -/
def maxUserInputBytes : ℕ := 256

/-- `MAX_EMPTY_INPUT_ATTEMPTS`. -/
def maxEmptyInputAttempts : ℕ := 3

/-- Why there is no seed. -/
inductive SeedError
  | io (e : IoError)
  | closed
  | tooLong (len cap : ℕ)
  | noneEntered (attempts : ℕ)
  deriving DecidableEq, Repr

/-- A line without the line breaks at its end. -/
def trimBreaks (line : String) : String :=
  String.ofList (line.toList.rdropWhile fun c => c = '\n' ∨ c = '\r')

/-- An attempt at the terminal: the flush of its prompt, which `roll_mode` prints for the first
    and the loop for the others, and the line then read. -/
structure Attempt where
  flush : Except IoError Unit
  readLine : Except IoError String

/-- The line of an attempt. -/
def Attempt.line (attempt : Attempt) : Except IoError String := do
  attempt.flush
  attempt.readLine

/-- The loop of `read_user_seed`, over the attempts that are still to come. -/
def readAttempts (maxAttempts maxBytes : ℕ) : ℕ → List Attempt →
    Except SeedError { s : String // s.utf8ByteSize ≤ maxBytes }
  | 0, _ => .error (.noneEntered maxAttempts)
  | _ + 1, [] => .error .closed
  | attempts + 1, attempt :: later =>
    match attempt.line with
    | .error e => .error (.io e)
    | .ok line =>
      if line = "" then .error .closed
      else if trimBreaks line = "" then readAttempts maxAttempts maxBytes attempts later
      else if h : (trimBreaks line).utf8ByteSize ≤ maxBytes then .ok ⟨trimBreaks line, h⟩
      else .error (.tooLong (trimBreaks line).utf8ByteSize maxBytes)

/-- `read_user_seed`. -/
def readUserSeed (maxAttempts maxBytes : ℕ) (stdin : List Attempt) :
    Except SeedError { s : String // s.utf8ByteSize ≤ maxBytes } :=
  readAttempts maxAttempts maxBytes maxAttempts stdin

/-- What was entered is not empty. -/
theorem readAttempts_ne_empty {maxAttempts maxBytes attempts : ℕ} {stdin : List Attempt}
    {s : { s : String // s.utf8ByteSize ≤ maxBytes }}
    (h : readAttempts maxAttempts maxBytes attempts stdin = .ok s) : s.1 ≠ "" := by
  induction attempts generalizing stdin with
  | zero => cases h
  | succ attempts ih =>
      rcases stdin with _ | ⟨attempt, later⟩
      · cases h
      · unfold readAttempts at h
        rcases hline : attempt.line with e | line
        · rw [hline] at h
          cases h
        rw [hline] at h
        dsimp only at h
        split at h
        · cases h
        · split at h
          · exact ih h
          · next hne =>
            split at h
            · rw [← Except.ok.inj h]
              exact hne
            · cases h

theorem maxUserInput_le : maxUserInputBytes ≤ maxTextLen := by decide

/-! ## The modes -/

/-- What a launch finds outside: the entropy, its input, and what `File::create` gives. -/
structure Launch (W : Type) [Write W] where
  entropy : Except IoError Seed
  stdin : List Attempt
  file : Except IoError { w : W // Write.contents w = [] }

/-- What ends a launch. -/
inductive LaunchError
  | history (e : HistoryLoadError)
  | entropy (e : IoError)
  | seed (e : SeedError)
  | stopped (stop : Stop)
  | dispatch (e : DispatchError)
  | noWal
  | create (e : IoError)
  | write (e : WalSinkError)
  deriving DecidableEq

/-- What `--verify` reports. -/
inductive Verdict
  | nothing
  | passed (rolls bytes : ℕ)
  | failed (replayed onDisk : ℕ)
  deriving DecidableEq, Repr

section

variable (K R : Type) [LoggingKernel K] [StoredRecord R] [LawfulLog K R] [CoreWire]
  [CanonicalBytes RecordDiceRoll] [Postcard RecordDiceRoll] {W : Type} [Write W] [Blake3Hash]
  [DeriveKeyXof] (build : Build) (fuel : ℕ)

/-- The roll of stages 1 to 4 of `roll_mode`. -/
def rollRecord (history : List RecordDiceRoll) (entropy : Except IoError Seed)
    (stdin : List Attempt) : Except LaunchError RecordDiceRoll := do
  let serverSeed ← entropy.mapError .entropy
  let userInput ←
    (readUserSeed maxEmptyInputAttempts maxUserInputBytes stdin).mapError LaunchError.seed
  let userInput : Text := ⟨userInput.1, userInput.2.trans maxUserInput_le⟩
  let nonce := UInt64.ofNat history.length
  let combinedSeed := digest (combinedPreimage serverSeed userInput nonce)
  let dice ← (rollFrom build fuel combinedSeed).mapError .stopped
  .ok ⟨2, digest (commitPreimage serverSeed), serverSeed, userInput, nonce, combinedSeed, dice⟩

/-- Everything `roll_mode` does before it creates the file: the new roll, and the log with it. -/
def prepare (disk : Option Bytes) (launch : Launch W) :
    Except LaunchError (RecordDiceRoll × Wal R × { w : W // Write.contents w = [] }) := do
  let history ← (loadHistory R disk).mapError .history
  let record ← rollRecord build fuel history launch.entropy launch.stdin
  let svc ← (composeServiceWithReplay K history (some record)).mapError .dispatch
  match (LawfulLog.exportWal svc.kernel : Option (Wal R)) with
  | none => .error .noWal
  | some wal =>
    let file ← launch.file.mapError .create
    .ok (record, wal, file)

/-- `roll_mode`. -/
def rollMode (launch : Launch W) : Fallible (Option Bytes) LaunchError RecordDiceRoll := do
  let disk ← get
  let (record, wal, file) ← ofExcept (prepare K R build fuel disk launch)
  let (outcome, sink) := (walToSink wal).exec (BufferedWalSink.new file.1)
  set (some (Write.contents sink.writer))
  ofExcept (outcome.mapError .write)
  pure record

/-- The stream the replay of a history gives. -/
def replayStream (history : List RecordDiceRoll) : Except LaunchError Bytes := do
  let svc ← (composeServiceWithReplay K history none).mapError .dispatch
  match (LawfulLog.exportWal svc.kernel : Option (Wal R)) with
  | none => .error .noWal
  | some replayed =>
    match (walToSink replayed).exec (BufferedWalSink.new ([] : Bytes)) with
    | (.ok (), sink) => .ok sink.writer
    | (.error e, _) => .error (.write e)

/-- `verify_mode`. -/
def verifyMode (disk : Option Bytes) : Except LaunchError Verdict := do
  let history ← (loadHistory R disk).mapError .history
  if history = [] then .ok .nothing
  else
    let buffer ← replayStream K R history
    let onDisk := disk.getD []
    if buffer = onDisk then .ok (.passed history.length onDisk.length)
    else .ok (.failed buffer.length onDisk.length)

/-- `reset_mode`. -/
def resetMode : Option Bytes := none

end

/-! ## What a launch prepares -/

section

variable {K R : Type} [LoggingKernel K] [StoredRecord R] [LawfulLog K R] [CoreWire]
  [CanonicalBytes RecordDiceRoll]

/-- The replay of this history has a log that makes these frames. -/
def Exports (K R : Type) [LoggingKernel K] [StoredRecord R] [LawfulLog K R]
    (history : List RecordDiceRoll) (ps : List Bytes) : Prop :=
  ∃ svc rs, composeServiceWithReplay K history none = .ok svc ∧
    LawfulLog.exportWal svc.kernel = some (⟨rs⟩ : Wal R) ∧ Wal.Consecutive (⟨rs⟩ : Wal R) ∧
    Wal.Encodes ⟨rs⟩ ps ∧ ∀ p ∈ ps, frames.Admits p

/-- The file is the one the replay of this history writes. -/
def Written (K R : Type) [LoggingKernel K] [StoredRecord R] [LawfulLog K R]
    (history : List RecordDiceRoll) (source : Bytes) : Prop :=
  ∃ ps, Exports K R history ps ∧ source = exportStream ps

/-- A replay has one log. -/
theorem export_unique {history : List RecordDiceRoll} {svc : RuntimeService K} {wal : Wal R}
    (hsvc : composeServiceWithReplay K history none = .ok svc)
    (hwal : LawfulLog.exportWal svc.kernel = some wal) :
    wal.records.map StoredRecord.content = contentsOf history := by
  obtain ⟨svc', rs, hsvc', hexport, hcontents⟩ := compose_ok K R history
  obtain rfl := Except.ok.inj (hsvc'.symm.trans hsvc)
  obtain rfl := Option.some.inj (hexport.symm.trans hwal)
  exact hcontents

theorem replayStream_eq_ok {history : List RecordDiceRoll} {source : Bytes} :
    replayStream K R history = .ok source ↔ Written K R history source := by
  obtain ⟨svc, rs, hsvc, hwal, hcontents⟩ := compose_ok K R history
  unfold replayStream
  rw [hsvc]
  constructor
  · intro h
    simp only [Except.mapError, bind, Except.bind, hwal] at h
    rcases hexport : (walToSink (⟨rs⟩ : Wal R)).exec (BufferedWalSink.new ([] : Bytes)) with
      ⟨e | _, sink⟩
    · rw [hexport] at h
      cases h
    · rw [hexport] at h
      obtain rfl := Except.ok.inj h
      obtain ⟨ps, hencs, hps, hconsecutive, hwritten⟩ := walToSink_ok rfl hexport
      exact ⟨ps, ⟨svc, rs, hsvc, hwal, hconsecutive, hencs, hps⟩, hwritten⟩
  · rintro ⟨ps, ⟨svc', rs', hsvc', hwal', hconsecutive, hencs, hps⟩, rfl⟩
    obtain rfl := Except.ok.inj (hsvc.symm.trans hsvc')
    obtain rfl := congrArg Wal.records (Option.some.inj (hwal.symm.trans hwal'))
    obtain ⟨sink, hexport, hwritten⟩ := exec_walToSink_new hencs hconsecutive hps
    simp only [Except.mapError, bind, Except.bind, hwal, hexport, hwritten]

/-- A history has one file. -/
theorem Written.unique {history : List RecordDiceRoll} {source source' : Bytes}
    (h : Written K R history source) (h' : Written K R history source') : source = source' :=
  Except.ok.inj ((replayStream_eq_ok.mpr h).symm.trans (replayStream_eq_ok.mpr h'))

variable [Postcard RecordDiceRoll]

/-- And it loads as that history. -/
theorem Written.load (hbytes : Readable RecordDiceRoll) {history : List RecordDiceRoll}
    {source : Bytes} (h : Written K R history source) :
    loadHistory R (some source) = .ok history := by
  obtain ⟨ps, ⟨svc, rs, hsvc, hwal, -, hencs, hps⟩, rfl⟩ := h
  exact load_exported hbytes (export_unique hsvc hwal) hencs hps

/-- What was written for a history passes, and only that. -/
theorem verifyMode_passed_iff (hbytes : Readable RecordDiceRoll) {source : Bytes}
    {rolls bytes : ℕ} :
    verifyMode K R (some source) = .ok (.passed rolls bytes) ↔
      ∃ history, history ≠ [] ∧ Written K R history source ∧ rolls = history.length ∧
        bytes = source.length := by
  unfold verifyMode
  rw [except_bind_eq_ok]
  constructor
  · rintro ⟨history, hload, h⟩
    split at h
    · cases h
    · next hne =>
      obtain ⟨buffer, hreplay, h⟩ := except_bind_eq_ok.mp h
      have hwritten := replayStream_eq_ok.mp hreplay
      simp only [Option.getD_some] at h
      split at h
      · next hsame =>
        obtain rfl : buffer = source := hsame
        cases h
        exact ⟨history, hne, hwritten, rfl, rfl⟩
      · cases h
  · rintro ⟨history, hne, hwritten, rfl, rfl⟩
    refine ⟨history, except_mapError_eq_ok.mpr (hwritten.load hbytes), ?_⟩
    rw [if_neg hne]
    refine except_bind_eq_ok.mpr ⟨source, replayStream_eq_ok.mpr hwritten, ?_⟩
    exact if_pos rfl

/-- **What `--verify` passes.** For every file: it passes exactly when it is what the replay of
    some history writes, and then it loads as that history, which has no other such file.
    Whatever the rolls of a history are, verified or not, if its log can be framed then its
    file passes. -/
theorem verify_accepts_iff (hbytes : Readable RecordDiceRoll) (source : Bytes) :
    (∀ rolls bytes, verifyMode K R (some source) = .ok (.passed rolls bytes) ↔
      ∃ history, history ≠ [] ∧ Written K R history source ∧ rolls = history.length ∧
        bytes = source.length) ∧
    (∀ history, Written K R history source → loadHistory R (some source) = .ok history ∧
      ∀ source', Written K R history source' → source' = source) ∧
    ∀ history ps, Exports K R history ps → history ≠ [] →
      verifyMode K R (some (exportStream ps)) =
        .ok (.passed history.length (exportStream ps).length) := by
  refine ⟨fun rolls bytes => verifyMode_passed_iff hbytes, ?_, ?_⟩
  · intro history hwritten
    exact ⟨hwritten.load hbytes, fun source' hwritten' => hwritten'.unique hwritten⟩
  · intro history ps hexports hne
    exact (verifyMode_passed_iff hbytes).mpr ⟨history, hne, ⟨ps, hexports, rfl⟩, rfl, rfl⟩

end

/-! ## One launch -/

section

variable [Blake3Hash] [DeriveKeyXof] {build : Build} {fuel : ℕ}

/-- A roll as a launch makes it. -/
structure Made (build : Build) (fuel nonce : ℕ) (record : RecordDiceRoll) : Prop where
  verifies : record.Verifies build fuel
  nonce_eq : record.nonce = UInt64.ofNat nonce
  entered : record.userInput.1 ≠ ""
  short : record.userInput.1.utf8ByteSize ≤ maxUserInputBytes

theorem rollRecord_made {history : List RecordDiceRoll} {entropy : Except IoError Seed}
    {stdin : List Attempt} {record : RecordDiceRoll}
    (h : rollRecord build fuel history entropy stdin = .ok record) :
    Made build fuel history.length record := by
  obtain ⟨serverSeed, -, h⟩ := except_bind_eq_ok.mp h
  obtain ⟨userInput, hinput, h⟩ := except_bind_eq_ok.mp h
  obtain ⟨dice, hroll, h⟩ := except_bind_eq_ok.mp h
  obtain rfl := Except.ok.inj h
  have hentered : userInput.1 ≠ "" := readAttempts_ne_empty (except_mapError_eq_ok.mp hinput)
  exact ⟨⟨rfl, rfl, rfl, except_mapError_eq_ok.mp hroll⟩, rfl, hentered, userInput.2⟩

/-- What is entered makes the roll of an honest server. -/
theorem rollRecord_honest {history : List RecordDiceRoll} {serverSeed : Seed}
    {stdin : List Attempt} {input : { s : String // s.utf8ByteSize ≤ maxUserInputBytes }}
    {dice : Vector UInt8 3}
    (hinput : readUserSeed maxEmptyInputAttempts maxUserInputBytes stdin = .ok input)
    (hroll : rollFrom build fuel (digest (combinedPreimage serverSeed
      ⟨input.1, input.2.trans maxUserInput_le⟩ (UInt64.ofNat history.length))) = .ok dice) :
    rollRecord build fuel history (.ok serverSeed) stdin =
      .ok (.honest serverSeed ⟨input.1, input.2.trans maxUserInput_le⟩
        (UInt64.ofNat history.length) dice) := by
  unfold rollRecord
  simp only [hinput, Except.mapError, bind, Except.bind, hroll]
  rfl

theorem rollRecord_ne_write {history : List RecordDiceRoll} {entropy : Except IoError Seed}
    {stdin : List Attempt} {e : WalSinkError} :
    rollRecord build fuel history entropy stdin ≠ .error (.write e) := by
  intro h
  rcases except_bind_eq_error.mp h with h | ⟨serverSeed, -, h⟩
  · obtain ⟨_, heq, -⟩ := except_mapError_eq_error.mp h
    cases heq
  rcases except_bind_eq_error.mp h with h | ⟨userInput, -, h⟩
  · obtain ⟨_, heq, -⟩ := except_mapError_eq_error.mp h
    cases heq
  rcases except_bind_eq_error.mp h with h | ⟨dice, -, h⟩
  · obtain ⟨_, heq, -⟩ := except_mapError_eq_error.mp h
    cases heq
  · cases h

/-- One roll more, under the next nonce. -/
theorem made_snoc {history : List RecordDiceRoll} {record : RecordDiceRoll}
    (h : ∀ i, ∀ hi : i < history.length, Made build fuel i (history.get ⟨i, hi⟩))
    (hrecord : Made build fuel history.length record) :
    ∀ i, ∀ hi : i < (history ++ [record]).length,
      Made build fuel i ((history ++ [record]).get ⟨i, hi⟩) := by
  intro i hi
  rw [List.length_append, List.length_singleton] at hi
  rcases Nat.lt_succ_iff_lt_or_eq.mp hi with hlt | rfl
  · have hsame : (history ++ [record]).get ⟨i, by simpa using hi⟩ = history.get ⟨i, hlt⟩ := by
      simp [hlt]
    rw [hsame]
    exact h i hlt
  · simpa using hrecord

variable {K R : Type} [LoggingKernel K] [StoredRecord R] [LawfulLog K R] [CoreWire]
  [CanonicalBytes RecordDiceRoll] [Postcard RecordDiceRoll] {W : Type} [Write W]

/-- What a launch is about to write: the log of the history in the file and one roll more. -/
theorem prepare_eq_ok {disk : Option Bytes} {launch : Launch W} {record : RecordDiceRoll}
    {wal : Wal R} {file : { w : W // Write.contents w = [] }}
    (h : prepare K R build fuel disk launch = .ok (record, wal, file)) :
    ∃ history svc, loadHistory R disk = .ok history ∧ Made build fuel history.length record ∧
      composeServiceWithReplay K (history ++ [record]) none = .ok svc ∧
      LawfulLog.exportWal svc.kernel = some wal := by
  obtain ⟨history, hload, h⟩ := except_bind_eq_ok.mp h
  obtain ⟨record', hroll, h⟩ := except_bind_eq_ok.mp h
  obtain ⟨svc, hsvc, h⟩ := except_bind_eq_ok.mp h
  rw [except_mapError_eq_ok, compose_new] at hsvc
  cases hwal : (LawfulLog.exportWal svc.kernel : Option (Wal R)) with
  | none =>
      rw [hwal] at h
      cases h
  | some wal' =>
      rw [hwal] at h
      obtain ⟨file', -, h⟩ := except_bind_eq_ok.mp h
      obtain ⟨rfl, hrest⟩ := Prod.mk.inj (Except.ok.inj h)
      obtain ⟨rfl, -⟩ := Prod.mk.inj hrest
      exact ⟨history, svc, except_mapError_eq_ok.mp hload, rollRecord_made hroll, hsvc, hwal⟩

/-- No part of the preparation reports an error of writing. -/
theorem prepare_ne_write {disk : Option Bytes} {launch : Launch W} {e : WalSinkError} :
    prepare K R build fuel disk launch ≠ .error (.write e) := by
  intro h
  rcases except_bind_eq_error.mp h with h | ⟨history, -, h⟩
  · obtain ⟨_, heq, -⟩ := except_mapError_eq_error.mp h
    cases heq
  rcases except_bind_eq_error.mp h with h | ⟨record, -, h⟩
  · exact rollRecord_ne_write h
  rcases except_bind_eq_error.mp h with h | ⟨svc, -, h⟩
  · obtain ⟨_, heq, -⟩ := except_mapError_eq_error.mp h
    cases heq
  split at h
  · cases h
  · rcases except_bind_eq_error.mp h with h | ⟨file, -, h⟩
    · obtain ⟨_, heq, -⟩ := except_mapError_eq_error.mp h
      cases heq
    · cases h

variable (K R build fuel) in
/-- How a launch ends: before the file is created, in the write, or with the file written. -/
theorem rollMode_cases (disk : Option Bytes) (launch : Launch W) :
    (∃ e, (∀ w, e ≠ .write w) ∧
      (rollMode K R build fuel launch).exec disk = (.error e, disk)) ∨
    ∃ history record svc wal, loadHistory R disk = .ok history ∧
      Made build fuel history.length record ∧
      composeServiceWithReplay K (history ++ [record]) none = .ok svc ∧
      LawfulLog.exportWal svc.kernel = some (wal : Wal R) ∧
      ∃ file : { w : W // Write.contents w = [] }, ∃ outcome sink,
        (walToSink wal).exec (BufferedWalSink.new file.1) = (outcome, sink) ∧
        (rollMode K R build fuel launch).exec disk =
          ((outcome.mapError .write).map fun _ => record, some (Write.contents sink.writer)) := by
  rcases hprepare : prepare K R build fuel disk launch with e | ⟨record, wal, file⟩
  · refine .inl ⟨e, ?_, ?_⟩
    · rintro w rfl
      exact prepare_ne_write hprepare
    · unfold rollMode
      simp only [exec_bind, exec_get, exec_ofExcept, hprepare]
  · obtain ⟨history, svc, hload, hmade, hsvc, hwal⟩ := prepare_eq_ok hprepare
    rcases hexport : (walToSink wal).exec (BufferedWalSink.new file.1) with ⟨outcome, sink⟩
    refine .inr ⟨history, record, svc, wal, hload, hmade, hsvc, hwal, file, outcome, sink,
      hexport, ?_⟩
    unfold rollMode
    simp only [exec_bind, exec_get, exec_ofExcept, hprepare, hexport, exec_set, exec_pure]
    rcases outcome with e | _
    · rfl
    · rfl

/-- A launch into memory returns the roll it makes, if the log with it can be framed. -/
theorem rollMode_returns {disk : Option Bytes} {launch : Launch Bytes}
    {history : List RecordDiceRoll} {record : RecordDiceRoll} {ps : List Bytes}
    (hload : loadHistory R disk = .ok history)
    (hroll : rollRecord build fuel history launch.entropy launch.stdin = .ok record)
    (hfile : launch.file = .ok ⟨[], rfl⟩) (hexports : Exports K R (history ++ [record]) ps) :
    (rollMode K R build fuel launch).exec disk = (.ok record, some (exportStream ps)) := by
  obtain ⟨svc, rs, hsvc, hwal, hconsecutive, hencs, hps⟩ := hexports
  have hprepare : prepare K R build fuel disk launch = .ok (record, ⟨rs⟩, ⟨[], rfl⟩) := by
    unfold prepare
    simp only [hload, Except.mapError, bind, Except.bind, hroll, compose_new, hsvc, hwal, hfile]
  obtain ⟨sink, hexport, hwritten⟩ := exec_walToSink_new hencs hconsecutive hps
  unfold rollMode
  simp only [exec_bind, exec_get, exec_ofExcept, hprepare, hexport, exec_set, exec_pure]
  rw [show Write.contents sink.writer = exportStream ps from hwritten]
  rfl

/-- A launch that returned wrote the history with its roll. -/
theorem rollMode_ok {disk disk' : Option Bytes} {launch : Launch W} {record : RecordDiceRoll}
    (h : (rollMode K R build fuel launch).exec disk = (.ok record, disk')) :
    ∃ history source, loadHistory R disk = .ok history ∧ Made build fuel history.length record ∧
      disk' = some source ∧ Written K R (history ++ [record]) source := by
  rcases rollMode_cases build fuel K R disk launch with
    ⟨e, -, hexec⟩ |
    ⟨history, record', svc, wal, hload, hmade, hsvc, hwal, file, outcome, sink, hexport, hexec⟩
  · rw [hexec] at h
    cases h
  · rw [hexec] at h
    obtain ⟨houtcome, rfl⟩ := Prod.mk.inj h
    rcases outcome with e | _
    · cases houtcome
    obtain rfl : record' = record := Except.ok.inj houtcome
    obtain ⟨ps, hencs, hps, hconsecutive, hwritten⟩ := walToSink_ok file.2 hexport
    obtain ⟨rs⟩ := wal
    exact ⟨history, _, hload, hmade, rfl, ps, ⟨svc, rs, hsvc, hwal, hconsecutive, hencs, hps⟩,
      hwritten⟩

/-- A launch that failed in the write left a first part of the file. -/
theorem rollMode_cut (hbytes : Readable RecordDiceRoll) {disk disk' : Option Bytes}
    {launch : Launch W} {e : WalSinkError}
    (h : (rollMode K R build fuel launch).exec disk = (.error (.write e), disk')) :
    ∃ history record, loadHistory R disk = .ok history ∧ Made build fuel history.length record ∧
      disk'.isSome = true ∧
      ((∃ reason, loadHistory R disk' = .error (.framing (.invalidFraming reason))) ∨
        ∃ j, loadHistory R disk' = .ok ((history ++ [record]).take j)) := by
  rcases rollMode_cases build fuel K R disk launch with
    ⟨e', hne, hexec⟩ |
    ⟨history, record, svc, wal, hload, hmade, hsvc, hwal, file, outcome, sink, hexport, hexec⟩
  · rw [hexec] at h
    exact absurd (Except.error.inj (Prod.mk.inj h).1) (hne e)
  · rw [hexec] at h
    obtain ⟨houtcome, rfl⟩ := Prod.mk.inj h
    rcases outcome with e' | _
    · obtain ⟨pre, ps, hpre, hencs, hps, hheld⟩ := walToSink_error file.2 hexport
      have hfirst : pre.map StoredRecord.content <+: contentsOf (history ++ [record]) := by
        rw [← export_unique hsvc hwal]
        exact hpre.map _
      exact ⟨history, record, hload, hmade, rfl, load_cut hbytes hfirst hencs hps hheld⟩
    · cases houtcome

/-- A launch that failed before left the file as it was. -/
theorem rollMode_unchanged {disk disk' : Option Bytes} {launch : Launch W} {e : LaunchError}
    (h : (rollMode K R build fuel launch).exec disk = (.error e, disk'))
    (hne : ∀ w, e ≠ .write w) : disk' = disk := by
  rcases rollMode_cases build fuel K R disk launch with
    ⟨e', -, hexec⟩ |
    ⟨history, record, svc, wal, hload, hmade, hsvc, hwal, file, outcome, sink, hexport, hexec⟩
  · rw [hexec] at h
    exact (Prod.mk.inj h).2.symm
  · rw [hexec] at h
    obtain ⟨houtcome, -⟩ := Prod.mk.inj h
    rcases outcome with e' | _
    · exact absurd (Except.error.inj houtcome).symm (hne e')
    · cases houtcome

end

/-! ## Runs of launches -/

/-- A start of the program. -/
inductive Command (W : Type) [Write W]
  | roll (launch : Launch W)
  | reset
  | verify

/-- The file, and the rolls that were reported since the last reset. -/
structure Session where
  disk : Option Bytes
  history : List RecordDiceRoll

namespace Session

section

variable (K R : Type) [LoggingKernel K] [StoredRecord R] [LawfulLog K R] [CoreWire]
  [CanonicalBytes RecordDiceRoll] [Postcard RecordDiceRoll] {W : Type} [Write W] [Blake3Hash]
  [DeriveKeyXof] (build : Build) (fuel : ℕ)

/-- Nothing was rolled, and there is no file. -/
def start : Session := ⟨none, []⟩

/-- The session after one command. -/
def next (s : Session) : Command W → Session
  | .roll launch =>
    match (rollMode K R build fuel launch).exec s.disk with
    | (.ok record, disk) => ⟨disk, s.history ++ [record]⟩
    | (.error _, disk) => ⟨disk, s.history⟩
  | .reset => ⟨resetMode, []⟩
  | .verify => s

/-- The session after a run. -/
def run (commands : List (Command W)) (s : Session) : Session :=
  commands.foldl (next K R build fuel) s

/-- The command does not fail in the write of the file. -/
def Uncut (s : Session) : Command W → Prop
  | .roll launch => ∀ e, ((rollMode K R build fuel launch).exec s.disk).1 ≠ .error (.write e)
  | _ => True

/-- No command of the run does. -/
def AllUncut : List (Command W) → Session → Prop
  | [], _ => True
  | command :: commands, s =>
    s.Uncut K R build fuel command ∧ AllUncut commands (s.next K R build fuel command)

/-- What the file holds. -/
structure Kept (s : Session) : Prop where
  stored : s.history = [] ∧ s.disk = none ∨
    s.history ≠ [] ∧ ∃ source, s.disk = some source ∧ Written K R s.history source
  made : ∀ i, ∀ h : i < s.history.length, Made build fuel i (s.history.get ⟨i, h⟩)

end

variable {K R : Type} [LoggingKernel K] [StoredRecord R] [LawfulLog K R] [CoreWire]
  [CanonicalBytes RecordDiceRoll] [Postcard RecordDiceRoll] {W : Type} [Write W] [Blake3Hash]
  [DeriveKeyXof] {build : Build} {fuel : ℕ} {s : Session}

omit [Postcard RecordDiceRoll] in
theorem kept_start : start.Kept K R build fuel :=
  ⟨.inl ⟨rfl, rfl⟩, fun _ h => absurd h (Nat.not_lt_zero _)⟩

theorem Kept.load (hbytes : Readable RecordDiceRoll) (h : s.Kept K R build fuel) :
    loadHistory R s.disk = .ok s.history := by
  rcases h.stored with ⟨hempty, hnone⟩ | ⟨-, source, hsome, hwritten⟩
  · rw [hempty, hnone]
    rfl
  · rw [hsome]
    exact hwritten.load hbytes

theorem Kept.next (hbytes : Readable RecordDiceRoll) (h : s.Kept K R build fuel)
    {command : Command W} (huncut : s.Uncut K R build fuel command) :
    (s.next K R build fuel command).Kept K R build fuel := by
  cases command with
  | reset => exact kept_start
  | verify => exact h
  | roll launch =>
      rcases hexec : (rollMode K R build fuel launch).exec s.disk with ⟨e | record, disk⟩
      · have hnext : s.next K R build fuel (.roll launch) = ⟨disk, s.history⟩ := by
          simp only [Session.next, hexec]
        have hsame : disk = s.disk := by
          refine rollMode_unchanged hexec ?_
          rintro w rfl
          refine huncut w ?_
          rw [hexec]
        rw [hnext, hsame]
        exact h
      · have hnext : s.next K R build fuel (.roll launch) = ⟨disk, s.history ++ [record]⟩ := by
          simp only [Session.next, hexec]
        obtain ⟨history, source, hload, hmade, rfl, hwritten⟩ := rollMode_ok hexec
        obtain rfl : s.history = history := Except.ok.inj ((h.load hbytes).symm.trans hload)
        rw [hnext]
        exact ⟨.inr ⟨by simp, source, rfl, hwritten⟩, made_snoc h.made hmade⟩

theorem Kept.run (hbytes : Readable RecordDiceRoll) (h : s.Kept K R build fuel)
    {commands : List (Command W)} (huncut : AllUncut K R build fuel commands s) :
    (run K R build fuel commands s).Kept K R build fuel := by
  induction commands generalizing s with
  | nil => exact h
  | cons command commands ih => exact ih (h.next hbytes huncut.1) huncut.2

end Session

section

variable {K R : Type} [LoggingKernel K] [StoredRecord R] [LawfulLog K R] [CoreWire]
  [CanonicalBytes RecordDiceRoll] [Postcard RecordDiceRoll] {W : Type} [Write W] [Blake3Hash]
  [DeriveKeyXof] {build : Build} {fuel : ℕ}

/-- **The history survives.** After every run in which no write fails: the file loads as the
    rolls that were reported since the last reset, each once and in order; the nonce of each
    counts the rolls before it; each verifies, and was entered within the limits. The file
    passes `--verify`, or there is nothing to verify. -/
theorem history_survives (hbytes : Readable RecordDiceRoll) {commands : List (Command W)}
    (huncut : Session.AllUncut K R build fuel commands .start) :
    let session := Session.run K R build fuel commands .start
    loadHistory R session.disk = .ok session.history ∧
    (∀ i, ∀ h : i < session.history.length,
      (session.history.get ⟨i, h⟩).nonce = UInt64.ofNat i ∧
      (session.history.get ⟨i, h⟩).Verifies build fuel ∧
      (session.history.get ⟨i, h⟩).userInput.1 ≠ "" ∧
      (session.history.get ⟨i, h⟩).userInput.1.utf8ByteSize ≤ maxUserInputBytes) ∧
    verifyMode K R session.disk = .ok (match session.history with
      | [] => .nothing
      | rolls => .passed rolls.length (session.disk.getD []).length) := by
  intro session
  have hkept : session.Kept K R build fuel := Session.kept_start.run hbytes huncut
  refine ⟨hkept.load hbytes, ?_, ?_⟩
  · intro i h
    obtain ⟨hverifies, hnonce, hentered, hshort⟩ := hkept.made i h
    exact ⟨hnonce, hverifies, hentered, hshort⟩
  · rcases hkept.stored with ⟨hempty, hnone⟩ | ⟨hne, source, hsome, hwritten⟩
    · rw [hempty, hnone]
      rfl
    · rw [hsome]
      refine ((verifyMode_passed_iff hbytes).mpr ⟨_, hne, hwritten, rfl, rfl⟩).trans ?_
      cases hrolls : session.history with
      | nil => exact absurd hrolls hne
      | cons record rolls => rfl

/-- **How a launch ends.** After every run in which no write fails, a launch ends in one of
    three ways. It returns a roll, and the file loads as the history with that roll. It fails
    in the write, and the next launch refuses the file as torn or finds a first part of the
    history with a roll behind it, and nothing else. Or it fails before, and the file is as
    it was. -/
theorem launch_ends (hbytes : Readable RecordDiceRoll) {commands : List (Command W)}
    (huncut : Session.AllUncut K R build fuel commands .start) (launch : Launch W) :
    let session := Session.run K R build fuel commands .start
    (∀ record disk, (rollMode K R build fuel launch).exec session.disk = (.ok record, disk) →
      loadHistory R disk = .ok (session.history ++ [record]) ∧
      record.nonce = UInt64.ofNat session.history.length ∧ record.Verifies build fuel) ∧
    (∀ e disk, (rollMode K R build fuel launch).exec session.disk = (.error (.write e), disk) →
      ∃ record : RecordDiceRoll, record.nonce = UInt64.ofNat session.history.length ∧
        record.Verifies build fuel ∧ disk.isSome = true ∧
        ((∃ reason, loadHistory R disk = .error (.framing (.invalidFraming reason))) ∨
          ∃ j, loadHistory R disk = .ok ((session.history ++ [record]).take j))) ∧
    ∀ e disk, (rollMode K R build fuel launch).exec session.disk = (.error e, disk) →
      (∀ w, e ≠ .write w) → disk = session.disk := by
  intro session
  have hkept : session.Kept K R build fuel := Session.kept_start.run hbytes huncut
  have hload := hkept.load hbytes
  refine ⟨?_, ?_, fun e disk hexec hne => rollMode_unchanged hexec hne⟩
  · intro record disk hexec
    obtain ⟨history, source, hload', hmade, rfl, hwritten⟩ := rollMode_ok hexec
    obtain rfl : session.history = history := Except.ok.inj (hload.symm.trans hload')
    exact ⟨hwritten.load hbytes, hmade.nonce_eq, hmade.verifies⟩
  · intro e disk hexec
    obtain ⟨history, record, hload', hmade, hsome, hcut⟩ := rollMode_cut hbytes hexec
    obtain rfl : session.history = history := Except.ok.inj (hload.symm.trans hload')
    exact ⟨record, hmade.nonce_eq, hmade.verifies, hsome, hcut⟩

end

/-! ## A session of two rolls -/

section

/-- The action on the wire. -/
def recordDiceRollWire : Codec RecordDiceRoll :=
  (Codec.u16.pair ((Codec.fixed 32).pair ((Codec.fixed 32).pair (textWire.pair
    (Codec.u64.pair ((Codec.fixed 32).pair (Codec.fixed 3))))))).via
    (fun (v, c, s, u, n, p, d) => some ⟨v, c, s, u, n, p, d⟩)
    (fun a => (a.schemaVersion, a.commitmentServer, a.serverSeed, a.userInput, a.nonce,
      a.combinedSeed, a.dice)) fun _ => rfl

/-- Its canonical bytes. -/
abbrev recordDiceRollBytes : CanonicalBytes RecordDiceRoll := ⟨recordDiceRollWire.encode⟩

abbrev recordDiceRollPostcard : Postcard RecordDiceRoll := .ofCodec recordDiceRollWire

attribute [local instance] oneChunkBlake3Hash oneBlockXof postcardWire recordDiceRollBytes
  recordDiceRollPostcard

theorem readable_wire : Readable RecordDiceRoll :=
  ⟨fun _ => rfl, Postcard.ofCodec_roundTrip recordDiceRollWire⟩

/-- A server with the seed of zeros, and one line of input. -/
def launchWith (line : String) : Launch Bytes where
  entropy := .ok (.replicate 32 0)
  stdin := [⟨.ok (), .ok line⟩]
  file := .ok ⟨[], rfl⟩

/-- The first roll. -/
def recordA : RecordDiceRoll := .honest (.replicate 32 0) inputA 0 #v[5, 1, 6]

/-- The second. -/
def recordB : RecordDiceRoll := .honest (.replicate 32 0) inputB 1 #v[1, 6, 6]

/-- The record can be framed. -/
def framed (r : MemoryRecord) : Bool :=
  match r.encode with
  | .ok p => decide (frames.Admits p)
  | .error _ => false

theorem framed_iff {r : MemoryRecord} :
    framed r = true ↔ ∃ p, WalRecord.encode r = .ok p ∧ frames.Admits p := by
  unfold framed
  show _ ↔ ∃ p, r.encode = .ok p ∧ _
  rcases r.encode with e | p
  · simp
  · simp

/-- A log in memory exports if each of its records can be framed. -/
theorem exports_of_framed {history : List RecordDiceRoll} {rs : List MemoryRecord}
    (hlog : composeServiceWithReplay MemoryLog history none = .ok ⟨⟨rs⟩⟩)
    (hconsecutive : Wal.Consecutive (⟨rs⟩ : Wal MemoryRecord))
    (hframed : ∀ r ∈ rs, framed r = true) : ∃ ps, Exports MemoryLog MemoryRecord history ps := by
  have hencodes : ∃ ps, Wal.Encodes (⟨rs⟩ : Wal MemoryRecord) ps ∧ ∀ p ∈ ps, frames.Admits p := by
    clear hlog hconsecutive
    unfold Wal.Encodes
    induction rs with
    | nil => exact ⟨[], rfl, by simp⟩
    | cons r rs ih =>
        obtain ⟨p, hencode, hadmits⟩ := framed_iff.mp (hframed r List.mem_cons_self)
        obtain ⟨ps, hencodes, hall⟩ := ih fun r hr => hframed r (List.mem_cons_of_mem _ hr)
        refine ⟨p :: ps, ?_, List.forall_mem_cons.mpr ⟨hadmits, hall⟩⟩
        simp only [List.map_cons, hencode]
        exact congrArg _ hencodes
  obtain ⟨ps, hencs, hps⟩ := hencodes
  exact ⟨ps, _, rs, hlog, rfl, hconsecutive, hencs, hps⟩

theorem framed_recordA : framed ⟨0, .submit recordDiceRollTypeCode
    (CanonicalBytes.canonicalBytes recordA)⟩ = true := by decide +kernel

theorem framed_recordB : framed ⟨2, .submit recordDiceRollTypeCode
    (CanonicalBytes.canonicalBytes recordB)⟩ = true := by decide +kernel

/-- The log of a history of one roll, and of two. -/
theorem composed_one (record : RecordDiceRoll) :
    composeServiceWithReplay MemoryLog [record] none =
      .ok ⟨⟨[⟨0, .submit recordDiceRollTypeCode (CanonicalBytes.canonicalBytes record)⟩,
        ⟨1, .step⟩]⟩⟩ := rfl

theorem composed_two (first second : RecordDiceRoll) :
    composeServiceWithReplay MemoryLog [first, second] none =
      .ok ⟨⟨[⟨0, .submit recordDiceRollTypeCode (CanonicalBytes.canonicalBytes first)⟩,
        ⟨1, .step⟩, ⟨2, .submit recordDiceRollTypeCode (CanonicalBytes.canonicalBytes second)⟩,
        ⟨3, .step⟩]⟩⟩ := rfl

theorem exports_one : ∃ ps, Exports MemoryLog MemoryRecord [recordA] ps := by
  refine exports_of_framed (composed_one recordA) ?_ ?_
  · exact .cons_cons rfl (.singleton _)
  · simp only [List.forall_mem_cons, List.not_mem_nil, false_implies, implies_true, and_true]
    exact ⟨framed_recordA, rfl⟩

theorem exports_two : ∃ ps, Exports MemoryLog MemoryRecord [recordA, recordB] ps := by
  refine exports_of_framed (composed_two recordA recordB) ?_ ?_
  · exact .cons_cons rfl (.cons_cons rfl (.cons_cons rfl (.singleton _)))
  · simp only [List.forall_mem_cons, List.not_mem_nil, false_implies, implies_true, and_true]
    exact ⟨framed_recordA, rfl, framed_recordB, rfl⟩

theorem rolls_recordA :
    rollRecord .release 0 [] (launchWith "a\n").entropy (launchWith "a\n").stdin = .ok recordA := by
  have hinput : readUserSeed maxEmptyInputAttempts maxUserInputBytes (launchWith "a\n").stdin =
      .ok ⟨"a", by decide⟩ := rfl
  exact rollRecord_honest hinput rollFrom_inputA

theorem rolls_recordB :
    rollRecord .release 0 [recordA] (launchWith "b\n").entropy (launchWith "b\n").stdin =
      .ok recordB := by
  have hinput : readUserSeed maxEmptyInputAttempts maxUserInputBytes (launchWith "b\n").stdin =
      .ok ⟨"b", by decide⟩ := rfl
  exact rollRecord_honest hinput rollFrom_inputB

/-- What the replay of the two rolls exports is passed. -/
theorem verify_accepts_iff_twoRolls :
    ∃ ps, Exports MemoryLog MemoryRecord [recordA, recordB] ps ∧
      verifyMode MemoryLog MemoryRecord (some (exportStream ps)) =
        .ok (.passed 2 (exportStream ps).length) := by
  obtain ⟨ps, hexports⟩ := exports_two
  obtain ⟨-, -, hpasses⟩ := verify_accepts_iff (K := MemoryLog) (R := MemoryRecord) readable_wire
    (exportStream ps)
  exact ⟨ps, hexports, hpasses _ ps hexports (List.cons_ne_nil _ _)⟩

/-- The two launches in turn. -/
theorem launches_return :
    ∃ ps ps', Exports MemoryLog MemoryRecord [recordA] ps ∧
      (rollMode MemoryLog MemoryRecord .release 0 (launchWith "a\n")).exec none =
        (.ok recordA, some (exportStream ps)) ∧
      (rollMode MemoryLog MemoryRecord .release 0 (launchWith "b\n")).exec
        (some (exportStream ps)) = (.ok recordB, some (exportStream ps')) := by
  obtain ⟨ps, hone⟩ := exports_one
  obtain ⟨ps', htwo⟩ := exports_two
  have hload : loadHistory MemoryRecord (some (exportStream ps)) = .ok [recordA] :=
    Written.load readable_wire ⟨ps, hone, rfl⟩
  exact ⟨ps, ps', hone, rollMode_returns rfl rolls_recordA rfl hone,
    rollMode_returns hload rolls_recordB rfl htwo⟩

/-- A session of two rolls and a verification. -/
def twoRolls : List (Command Bytes) :=
  [.roll (launchWith "a\n"), .roll (launchWith "b\n"), .verify]

/-- Both are kept, under the nonces 0 and 1, and pass. -/
theorem history_survives_twoRolls :
    let session := Session.run MemoryLog MemoryRecord .release 0 twoRolls .start
    session.history = [recordA, recordB] ∧
      loadHistory MemoryRecord session.disk = .ok [recordA, recordB] ∧
      verifyMode MemoryLog MemoryRecord session.disk =
        .ok (.passed 2 (session.disk.getD []).length) := by
  obtain ⟨ps, ps', -, hfirst, hsecond⟩ := launches_return
  have hone : Session.start.next MemoryLog MemoryRecord .release 0 (.roll (launchWith "a\n")) =
      ⟨some (exportStream ps), [recordA]⟩ := by
    simp only [Session.next, Session.start, hfirst]
    rfl
  have htwo : Session.next MemoryLog MemoryRecord .release 0 ⟨some (exportStream ps), [recordA]⟩
      (.roll (launchWith "b\n")) = ⟨some (exportStream ps'), [recordA, recordB]⟩ := by
    simp only [Session.next, hsecond]
    rfl
  have hrun : Session.run MemoryLog MemoryRecord .release 0 twoRolls .start =
      ⟨some (exportStream ps'), [recordA, recordB]⟩ := by
    unfold Session.run twoRolls
    simp only [List.foldl_cons, List.foldl_nil, hone, htwo]
    rfl
  have huncut : Session.AllUncut MemoryLog MemoryRecord .release 0 twoRolls .start := by
    refine ⟨?_, ?_, trivial, trivial⟩
    · intro e
      rw [show (rollMode MemoryLog MemoryRecord .release 0 (launchWith "a\n")).exec
        Session.start.disk = _ from hfirst]
      simp
    · intro e
      rw [hone, hsecond]
      simp
  have hsurvives := history_survives readable_wire huncut
  rw [hrun] at hsurvives ⊢
  exact ⟨rfl, hsurvives.1, hsurvives.2.2⟩

/-- The launch after the first roll returns the second, and the file loads as both. -/
theorem launch_ends_secondRoll :
    ∃ disk, (rollMode MemoryLog MemoryRecord .release 0 (launchWith "b\n")).exec
        (Session.run MemoryLog MemoryRecord .release 0 [.roll (launchWith "a\n")] .start).disk =
          (.ok recordB, disk) ∧
      loadHistory MemoryRecord disk = .ok [recordA, recordB] := by
  obtain ⟨ps, ps', -, hfirst, hsecond⟩ := launches_return
  have hone : Session.run MemoryLog MemoryRecord .release 0 [.roll (launchWith "a\n")] .start =
      ⟨some (exportStream ps), [recordA]⟩ := by
    unfold Session.run
    simp only [List.foldl_cons, List.foldl_nil, Session.next, Session.start, hfirst]
    rfl
  have huncut : Session.AllUncut MemoryLog MemoryRecord .release 0 [.roll (launchWith "a\n")]
      .start := by
    refine ⟨?_, trivial⟩
    intro e
    rw [show (rollMode MemoryLog MemoryRecord .release 0 (launchWith "a\n")).exec
      Session.start.disk = _ from hfirst]
    simp
  obtain ⟨hreturns, -, -⟩ := launch_ends readable_wire huncut (launchWith "b\n")
  rw [hone] at hreturns ⊢
  exact ⟨_, hsecond, (hreturns recordB _ hsecond).1⟩

end

end ArkheForge.Dice
