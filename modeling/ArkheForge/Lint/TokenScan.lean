/-
  The token fallback of the purity lint: `scan_token_trees`.

  The loop reads a stream of token trees and re-assembles the identifiers that `::` joins.
  It carries four locals and looks one token ahead. Three things can happen at a token: an
  identifier is pushed, a `::` is read, or a call of `check_token_path` clears the
  identifiers collected so far (`Breaks`). `stateAfter` is the state the loop has when a
  prefix has been read and `nextCall` the arguments of its next call; the lemmas below say
  that what this call pushes is pushed by the scan.
-/
import ArkheForge.Lint.DenyList

namespace ArkheForge.Lint

/-! ## Tokens -/

/-- `proc_macro2::Spacing`. -/
inductive Spacing
  | joint
  | alone
  deriving DecidableEq, Repr

/-- `proc_macro2::TokenTree`, as far as the loop looks at it. -/
inductive TokenTree
  | ident (id : String)
  | punct (ch : Char) (spacing : Spacing)
  | group (stream : List TokenTree)
  | literal
  deriving Repr

/-- A token whose branch sets `prev_dot`. -/
def TokenTree.isDot : TokenTree → Bool
  | .punct ch _ => ch == '.'
  | _ => false

/-! ## The loop -/

/-- The locals of the loop. -/
structure ScanState where
  segs : List String
  seqAfterDot : Bool
  prevDot : Bool
  expectSegment : Bool
  deriving DecidableEq, Repr

namespace ScanState

/-- The locals before the first token. -/
def start : ScanState := ⟨[], false, false, false⟩

/-- An identifier follows collected ones without a `::`. -/
def interrupted (st : ScanState) : Bool := !st.segs.isEmpty && !st.expectSegment

/-- The locals after an identifier, once an interrupted sequence has been cleared. -/
def readIdent (st : ScanState) (id : String) : ScanState :=
  let segs := if st.interrupted then [] else st.segs
  { segs := segs ++ [id]
    seqAfterDot := if segs.isEmpty then st.prevDot else st.seqAfterDot
    prevDot := false
    expectSegment := false }

/-- The locals after a `::`. -/
def readPathSep (st : ScanState) : ScanState :=
  { st with expectSegment := !st.segs.isEmpty, prevDot := false }

/-- The locals after any other token. -/
def clear (st : ScanState) (prevDot : Bool) : ScanState :=
  { st with segs := [], expectSegment := false, prevDot := prevDot }

end ScanState

mutual

/-- The recursive call on a group. -/
def scanGroup (policy : Policy) : TokenTree → List PurityViolation
  | .group stream => scanLoop policy .start stream
  | _ => []

/-- The loop of `scan_token_trees`, and the check after it. -/
def scanLoop (policy : Policy) : ScanState → List TokenTree → List PurityViolation
  | st, [] => checkTokenPath policy st.segs st.seqAfterDot
  | st, .ident id :: rest =>
    (if st.interrupted then checkTokenPath policy st.segs st.seqAfterDot else []) ++
      scanLoop policy (st.readIdent id) rest
  | st, .punct ':' .joint :: .punct ':' _ :: rest => scanLoop policy st.readPathSep rest
  | st, .group stream :: rest =>
    checkTokenPath policy st.segs st.seqAfterDot ++ scanGroup policy (.group stream) ++
      scanLoop policy (st.clear false) rest
  | st, .punct ch _ :: rest =>
    checkTokenPath policy st.segs st.seqAfterDot ++ scanLoop policy (st.clear (ch == '.')) rest
  | st, .literal :: rest =>
    checkTokenPath policy st.segs st.seqAfterDot ++ scanLoop policy (st.clear false) rest

end

/-- `scan_token_trees`. -/
def scanTokenTrees (policy : Policy) (stream : List TokenTree) : List PurityViolation :=
  scanLoop policy .start stream

/-- `visit_macro`. `parsed` is what the visitor finds in the arguments where they parse as a
    comma-separated expression list. -/
def visitMacro (policy : Policy) (path : Path) (tokens : List TokenTree)
    (parsed : Option (List PurityViolation)) : List PurityViolation :=
  let named :=
    match path.segments.getLast?.bind policy.deniedMacros.get? with
    | some entry =>
      [{ deniedPath := entry, site := pathToString path ++ "! (macro)"
         reason := classifyReason entry : PurityViolation }]
    | none => []
  match parsed with
  | some violations => named ++ violations
  | none => named ++ scanTokenTrees policy tokens

/-- The state the loop has when it has read `tokens`. -/
def stateAfter : ScanState → List TokenTree → ScanState
  | st, [] => st
  | st, .ident id :: rest => stateAfter (st.readIdent id) rest
  | st, .punct ':' .joint :: .punct ':' _ :: rest => stateAfter st.readPathSep rest
  | st, tt :: rest => stateAfter (st.clear tt.isDot) rest

/-- The arguments of the next call of `check_token_path`. -/
def nextCall : ScanState → List TokenTree → List String × Bool
  | st, [] => (st.segs, st.seqAfterDot)
  | st, .ident id :: rest =>
    if st.interrupted then (st.segs, st.seqAfterDot) else nextCall (st.readIdent id) rest
  | st, .punct ':' .joint :: .punct ':' _ :: rest => nextCall st.readPathSep rest
  | st, _ :: _ => (st.segs, st.seqAfterDot)

/-! ## One token at a time -/

/-- A token the loop reads neither as an identifier nor as the start of a `::`. -/
def Breaks (tt : TokenTree) (rest : List TokenTree) : Prop :=
  (∀ id, tt ≠ .ident id) ∧ ∀ s rest', tt = .punct ':' .joint → rest ≠ .punct ':' s :: rest'

/-- Induction along the loop. -/
theorem tokens_induction {motive : List TokenTree → Prop} (nil : motive [])
    (ident : ∀ id rest, motive rest → motive (.ident id :: rest))
    (pathSep : ∀ s rest, motive rest → motive (.punct ':' .joint :: .punct ':' s :: rest))
    (breaks : ∀ tt rest, Breaks tt rest → motive rest → motive (tt :: rest)) :
    ∀ tokens, motive tokens
  | [] => nil
  | [tt] => by
      cases tt with
      | ident id => exact ident id [] nil
      | punct ch s => exact breaks _ [] ⟨by simp, by simp⟩ nil
      | group stream => exact breaks _ [] ⟨by simp, by simp⟩ nil
      | literal => exact breaks _ [] ⟨by simp, by simp⟩ nil
  | tt :: next :: rest => by
      have htail := tokens_induction nil ident pathSep breaks (next :: rest)
      have hrest := tokens_induction nil ident pathSep breaks rest
      by_cases hident : ∃ id, tt = .ident id
      · obtain ⟨id, rfl⟩ := hident
        exact ident id _ htail
      · by_cases hsep : tt = .punct ':' .joint ∧ ∃ s, next = .punct ':' s
        · obtain ⟨rfl, s, rfl⟩ := hsep
          exact pathSep s rest hrest
        · refine breaks tt _ ⟨fun id heq => hident ⟨id, heq⟩, ?_⟩ htail
          intro s rest' htt hnext
          exact hsep ⟨htt, s, (List.cons.inj hnext).1⟩

theorem scanLoop_breaks {tt : TokenTree} {rest : List TokenTree} (h : Breaks tt rest)
    (policy : Policy) (st : ScanState) :
    scanLoop policy st (tt :: rest) =
      checkTokenPath policy st.segs st.seqAfterDot ++ scanGroup policy tt ++
        scanLoop policy (st.clear tt.isDot) rest := by
  obtain ⟨hident, hsep⟩ := h
  cases tt with
  | ident id => exact absurd rfl (hident id)
  | group stream =>
      rw [scanLoop]
      rfl
  | literal =>
      rw [scanLoop, scanGroup, List.append_nil]
      · rfl
      · simp
  | punct ch s =>
      rw [scanLoop, scanGroup, List.append_nil]
      · rfl
      · simp
      · rintro s' rest' rfl rfl rfl
        exact hsep s' rest' rfl rfl

theorem stateAfter_breaks {tt : TokenTree} {rest : List TokenTree} (h : Breaks tt rest)
    (st : ScanState) : stateAfter st (tt :: rest) = stateAfter (st.clear tt.isDot) rest := by
  obtain ⟨hident, hsep⟩ := h
  rw [stateAfter]
  · exact hident
  · rintro s' rest' rfl rfl
    exact hsep s' rest' rfl rfl

theorem nextCall_breaks {tt : TokenTree} {rest : List TokenTree} (h : Breaks tt rest)
    (st : ScanState) : nextCall st (tt :: rest) = (st.segs, st.seqAfterDot) := by
  obtain ⟨hident, hsep⟩ := h
  rw [nextCall]
  · exact hident
  · rintro s' rest' rfl rfl
    exact hsep s' rest' rfl rfl

/-! ## Reading a prefix -/

theorem Breaks.append_ident {tt : TokenTree} {rest : List TokenTree} (h : Breaks tt rest)
    (id : String) (more : List TokenTree) : Breaks tt (rest ++ .ident id :: more) := by
  refine ⟨h.1, ?_⟩
  intro s rest' htt heq
  cases rest with
  | nil => simp at heq
  | cons next rest =>
      obtain ⟨rfl, _⟩ := List.cons.inj heq
      exact h.2 s rest htt rfl

theorem stateAfter_append_ident (st : ScanState) (before : List TokenTree) (id : String)
    (rest : List TokenTree) :
    stateAfter st (before ++ .ident id :: rest) =
      stateAfter ((stateAfter st before).readIdent id) rest := by
  induction before using tokens_induction generalizing st with
  | nil => rfl
  | ident id' before ih => exact ih (st.readIdent id')
  | pathSep s before ih => exact ih st.readPathSep
  | breaks tt before hbreaks ih =>
      rw [List.cons_append, stateAfter_breaks (hbreaks.append_ident id rest),
        stateAfter_breaks hbreaks]
      exact ih (st.clear tt.isDot)

/-- What the loop pushes after it has read an identifier is pushed last. -/
theorem scanLoop_append_ident (policy : Policy) (st : ScanState) (before : List TokenTree)
    (id : String) (rest : List TokenTree) :
    ∃ front, scanLoop policy st (before ++ .ident id :: rest) =
      front ++ scanLoop policy ((stateAfter st before).readIdent id) rest := by
  induction before using tokens_induction generalizing st with
  | nil => exact ⟨_, rfl⟩
  | ident id' before ih =>
      obtain ⟨front, hfront⟩ := ih (st.readIdent id')
      rw [List.cons_append, scanLoop, hfront, ← List.append_assoc]
      exact ⟨_, rfl⟩
  | pathSep s before ih => exact ih st.readPathSep
  | breaks tt before hbreaks ih =>
      obtain ⟨front, hfront⟩ := ih (st.clear tt.isDot)
      rw [List.cons_append, scanLoop_breaks (hbreaks.append_ident id rest), hfront,
        ← List.append_assoc, stateAfter_breaks hbreaks]
      exact ⟨_, rfl⟩

/-- What the next call pushes is pushed first. -/
theorem scanLoop_nextCall (policy : Policy) (st : ScanState) (tokens : List TokenTree) :
    ∃ more, scanLoop policy st tokens =
      checkTokenPath policy (nextCall st tokens).1 (nextCall st tokens).2 ++ more := by
  induction tokens using tokens_induction generalizing st with
  | nil => exact ⟨[], (List.append_nil _).symm⟩
  | ident id rest ih =>
      rw [scanLoop, nextCall]
      cases hinterrupted : st.interrupted with
      | true => exact ⟨_, rfl⟩
      | false => exact ih (st.readIdent id)
  | pathSep s rest ih => exact ih st.readPathSep
  | breaks tt rest hbreaks ih =>
      rw [scanLoop_breaks hbreaks, nextCall_breaks hbreaks, List.append_assoc]
      exact ⟨_, rfl⟩

/-- What the call on a group pushes is pushed by the loop that meets the group. -/
theorem scanLoop_group {policy : Policy} {inner tokens : List TokenTree}
    (h : .group inner ∈ tokens) (st : ScanState) :
    scanTokenTrees policy inner ⊆ scanLoop policy st tokens := by
  induction tokens using tokens_induction generalizing st with
  | nil => simp at h
  | ident id rest ih =>
      have hrest : .group inner ∈ rest := by simpa using h
      rw [scanLoop]
      exact fun v hv => List.mem_append_right _ (ih hrest (st.readIdent id) hv)
  | pathSep s rest ih =>
      have hrest : .group inner ∈ rest := by simpa using h
      exact ih hrest st.readPathSep
  | breaks tt rest hbreaks ih =>
      rw [scanLoop_breaks hbreaks]
      intro v hv
      rcases List.mem_cons.mp h with rfl | hrest
      · exact List.mem_append_left _ (List.mem_append_right _ hv)
      · exact List.mem_append_right _ (ih hrest (st.clear tt.isDot) hv)

/-- `stream` is `tokens` or the stream of a group in it, at any depth. -/
inductive Within : List TokenTree → List TokenTree → Prop
  | here (tokens : List TokenTree) : Within tokens tokens
  | group {stream inner tokens : List TokenTree} :
      .group inner ∈ tokens → Within stream inner → Within stream tokens

/-- The scan pushes what the calls on its groups push. -/
theorem Within.scanned {stream tokens : List TokenTree} (h : Within stream tokens)
    (policy : Policy) : scanTokenTrees policy stream ⊆ scanTokenTrees policy tokens := by
  induction h with
  | here => exact List.Subset.refl _
  | group hmem _ ih => exact List.Subset.trans ih (scanLoop_group hmem .start)

end ArkheForge.Lint
