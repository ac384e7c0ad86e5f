/-
  The purity policy and its deny rules (`arkhe-subset-rust-check`).

  A policy is three sets of strings. `matchAgainstDenyList` is the one rule both halves of
  the lint apply to a path: the AST visitor to the path of an expression
  (`visitExprPath`), the token fallback to the identifiers it re-assembled
  (`checkTokenPath`). The text of the site is all they differ in (`visitExprPath_eq`,
  `checkTokenPath_of_flagged`).
-/
import Mathlib.Data.String.Basic
import Mathlib.Data.List.Pairwise

namespace ArkheForge.Lint

/-! ## Strings -/

/-- `str::ends_with`. -/
def endsWith (s suffix : String) : Bool := suffix.toList.isSuffixOf s.toList

/-- `str::starts_with`. -/
def startsWith (s start : String) : Bool := start.toList.isPrefixOf s.toList

/-- `str::contains`. -/
def contains (s part : String) : Bool := s.toList.tails.any fun rest => part.toList.isPrefixOf rest

/-- `[String]::join("::")`. -/
def joinPath (segs : List String) : String := "::".intercalate segs

/-- `BTreeSet<String>`: iterated in ascending order. -/
structure StringSet where
  entries : List String
  ascending : entries.Pairwise (· < ·)

namespace StringSet

/-- `BTreeSet::new`. -/
def empty : StringSet := ⟨[], .nil⟩

/-- Put an entry where it belongs. -/
def place (s : String) : List String → List String
  | [] => [s]
  | t :: rest => if s < t then s :: t :: rest else if s = t then t :: rest else t :: place s rest

theorem mem_place {s u : String} {entries : List String} (h : u ∈ place s entries) :
    u = s ∨ u ∈ entries := by
  induction entries with
  | nil => exact .inl (List.mem_singleton.mp h)
  | cons t rest ih =>
      unfold place at h
      split at h
      · exact List.mem_cons.mp h
      · split at h
        · exact .inr h
        · rcases List.mem_cons.mp h with rfl | hrest
          · exact .inr (List.mem_cons_self ..)
          · rcases ih hrest with hs | hold
            · exact .inl hs
            · exact .inr (List.mem_cons_of_mem _ hold)

theorem place_ascending {s : String} {entries : List String} (h : entries.Pairwise (· < ·)) :
    (place s entries).Pairwise (· < ·) := by
  induction entries with
  | nil => exact List.pairwise_singleton _ _
  | cons t rest ih =>
      obtain ⟨ht, hrest⟩ := List.pairwise_cons.mp h
      unfold place
      split
      · next hlt =>
        refine List.pairwise_cons.mpr ⟨?_, h⟩
        intro u hu
        rcases List.mem_cons.mp hu with rfl | hu
        · exact hlt
        · exact lt_trans hlt (ht u hu)
      · next hnlt =>
        split
        · exact h
        · next hne =>
          refine List.pairwise_cons.mpr ⟨?_, ih hrest⟩
          intro u hu
          rcases mem_place hu with rfl | hu
          · exact lt_of_le_of_ne (not_lt.mp hnlt) fun heq => hne heq.symm
          · exact ht u hu

/-- `BTreeSet::insert`. -/
def insert (set : StringSet) (s : String) : StringSet :=
  ⟨place s set.entries, place_ascending set.ascending⟩

/-- The inserts of a loop over `items`. -/
def ofList (items : List String) : StringSet := items.foldl insert empty

/-- `BTreeSet::get`. -/
def get? (set : StringSet) (s : String) : Option String := set.entries.find? fun entry => entry = s

end StringSet

/-! ## Policies -/

/-- `Policy`. -/
structure Policy where
  deniedPaths : StringSet
  deniedPrefixes : StringSet
  deniedMacros : StringSet
  denyUnsafe : Bool

/-- `Policy::deny_compute_impurity`. -/
def Policy.denyComputeImpurity : Policy where
  deniedPaths := .ofList
    ["std::time::Instant::now", "std::time::SystemTime::now", "std::time::UNIX_EPOCH",
      "chrono::Utc::now", "chrono::Local::now", "minstant::Instant::now", "quanta::Clock::now",
      "coarsetime::Instant::now", "instant::Instant::now", "rand::random", "rand::thread_rng",
      "rand::rngs::OsRng", "rand::rngs::ThreadRng", "getrandom::getrandom", "getrandom::fill",
      "rdrand::RdRand", "std::io::stdin", "std::io::stdout", "std::io::stderr"]
  deniedPrefixes := .ofList
    ["std::fs", "std::net", "std::process", "std::env", "tokio::fs", "tokio::net", "tokio::io",
      "tokio::time", "async_std::fs", "async_std::net", "async_std::io", "async_std::task", "mio",
      "socket2", "libc"]
  deniedMacros := .ofList ["println", "print", "eprintln", "eprint", "dbg"]
  denyUnsafe := true

/-- `PurityViolation`. -/
structure PurityViolation where
  deniedPath : String
  site : String
  reason : String
  deriving DecidableEq, Repr

/-- `MatchKind`. -/
inductive MatchKind
  | exact
  | singleIdentSuffix
  | pathSuffix
  | namespacePrefix
  deriving DecidableEq, Repr

/-- `impl Display for MatchKind`. -/
def MatchKind.display : MatchKind → String
  | .exact => "exact"
  | .singleIdentSuffix => "imported-ident"
  | .pathSuffix => "imported-path"
  | .namespacePrefix => "prefix"

/-- `classify_reason`. -/
def classifyReason (denied : String) : String :=
  if denied = "unsafe-block" ∨ denied = "unsafe-fn" then "unsafe"
  else if denied ∈ ["println", "print", "eprintln", "eprint", "dbg"] then "io"
  else if contains denied "time::" ∨ contains denied "chrono::" ∨ contains denied "minstant::" ∨
      contains denied "quanta::" ∨ contains denied "coarsetime::" ∨
      contains denied "instant::Instant" ∨ denied = "tokio::time" then "clock"
  else if contains denied "rand" ∨ contains denied "OsRng" ∨ contains denied "getrandom" ∨
      contains denied "rdrand" then "rng"
  else if contains denied "fs" ∨ contains denied "net" ∨ contains denied "io::" ∨
      endsWith denied "::io" ∨ contains denied "process" ∨ contains denied "env" ∨
      denied = "mio" ∨ denied = "socket2" ∨ contains denied "async_std::task" then "io"
  else if denied = "libc" ∨ contains denied "libc::" then "ffi"
  else "other"

/-- `match_against_deny_list`. -/
def matchAgainstDenyList (policy : Policy) (pathStr : String) (numSegments : ℕ) :
    Option (String × MatchKind) :=
  match policy.deniedPaths.get? pathStr with
  | some entry => some (entry, .exact)
  | none =>
    match policy.deniedPaths.entries.find? fun denied => endsWith denied ("::" ++ pathStr) with
    | some denied => some (denied, if numSegments = 1 then .singleIdentSuffix else .pathSuffix)
    | none =>
      match policy.deniedPrefixes.entries.find? fun banned =>
          pathStr = banned || startsWith pathStr (banned ++ "::") with
      | some banned => some (banned, .namespacePrefix)
      | none => none

/-! ## The two halves of the lint -/

/-- `syn::Path`, as far as the visitor looks at it. -/
structure Path where
  leadingColon : Bool
  segments : List String
  deriving DecidableEq, Repr

/-- `path_to_string`. -/
def pathToString (path : Path) : String :=
  (if path.leadingColon then "::" else "") ++ joinPath path.segments

/-- `str::strip_prefix("::")`, or the string. -/
def stripColons (raw : String) : String :=
  match raw.toList with
  | ':' :: ':' :: rest => String.ofList rest
  | _ => raw

/-- What `visit_expr_path` pushes for a node, before it visits the node's children. -/
def visitExprPath (policy : Policy) (path : Path) : List PurityViolation :=
  let raw := pathToString path
  match matchAgainstDenyList policy (stripColons raw) path.segments.length with
  | some (denied, kind) =>
    [{ deniedPath := denied, site := raw ++ " (" ++ kind.display ++ ")"
       reason := classifyReason denied }]
  | none => []

/-- The text of an identifier. -/
def IsIdent (s : String) : Prop := s ≠ "" ∧ ':' ∉ s.toList

theorem stripColons_of_ne {c : Char} {rest : List Char} {raw : String}
    (h : raw.toList = c :: rest) (hc : c ≠ ':') : stripColons raw = raw := by
  unfold stripColons
  rw [h]
  split
  · next heq => exact absurd (List.cons.inj heq).1 hc
  · rfl

/-- The joined text of identifiers starts as the first of them. -/
theorem joinPath_cons (s : String) (rest : List String) :
    ∃ tail : String, joinPath (s :: rest) = s ++ tail := by
  cases rest with
  | nil => exact ⟨"", by simp [joinPath]⟩
  | cons t rest => exact ⟨"::" ++ joinPath (t :: rest), by simp [joinPath, String.append_assoc]⟩

/-- A leading `::` is stripped and nothing else. -/
theorem stripColons_pathToString (path : Path) (h : ∀ s ∈ path.segments, IsIdent s) :
    stripColons (pathToString path) = joinPath path.segments := by
  obtain ⟨leading, segments⟩ := path
  unfold pathToString
  cases leading with
  | true =>
      unfold stripColons
      simp
  | false =>
      have hraw : (if false = true then "::" else "") ++ joinPath segments = joinPath segments := by
        simp
      rw [hraw]
      cases segments with
      | nil => rfl
      | cons s rest =>
          obtain ⟨hne, hcolon⟩ := h s (List.mem_cons_self ..)
          obtain ⟨tail, htail⟩ := joinPath_cons s rest
          obtain ⟨c, cs, hs⟩ := List.exists_cons_of_ne_nil
            (fun hnil => hne (String.toList_eq_nil_iff.mp hnil) : s.toList ≠ [])
          have hjoined : (joinPath (s :: rest)).toList = c :: (cs ++ tail.toList) := by
            rw [htail, String.toList_append, hs]
            rfl
          refine stripColons_of_ne hjoined ?_
          rintro rfl
          rw [hs] at hcolon
          simp at hcolon

/-- The visitor flags a path as the deny rules flag its joined identifiers, with or without a
    leading `::`. -/
theorem visitExprPath_eq (policy : Policy) (path : Path) (h : ∀ s ∈ path.segments, IsIdent s) :
    visitExprPath policy path =
      match matchAgainstDenyList policy (joinPath path.segments) path.segments.length with
      | some (denied, kind) =>
        [{ deniedPath := denied, site := pathToString path ++ " (" ++ kind.display ++ ")"
           reason := classifyReason denied }]
      | none => [] := by
  unfold visitExprPath
  simp only [stripColons_pathToString path h]

/-- The violation the fallback reports for identifiers the deny rules flag. -/
def tokenViolation (segs : List String) (denied : String) (kind : MatchKind) : PurityViolation where
  deniedPath := denied
  site := joinPath segs ++ " (" ++ kind.display ++ ", macro tokens)"
  reason := classifyReason denied

/-- What `check_token_path` pushes. -/
def checkTokenPath (policy : Policy) (segs : List String) (afterDot : Bool) :
    List PurityViolation :=
  if segs = [] then []
  else if afterDot then []
  else
    match matchAgainstDenyList policy (joinPath segs) segs.length with
    | some (denied, kind) => [tokenViolation segs denied kind]
    | none => []

theorem checkTokenPath_of_flagged {policy : Policy} {segs : List String} {denied : String}
    {kind : MatchKind} (hsegs : segs ≠ [])
    (h : matchAgainstDenyList policy (joinPath segs) segs.length = some (denied, kind)) :
    checkTokenPath policy segs false = [tokenViolation segs denied kind] := by
  unfold checkTokenPath
  rw [if_neg hsegs, h]
  rfl

/-- Directly after a dot nothing is reported. -/
theorem checkTokenPath_afterDot (policy : Policy) (segs : List String) :
    checkTokenPath policy segs true = [] := by
  unfold checkTokenPath
  split
  · rfl
  · rfl

end ArkheForge.Lint
