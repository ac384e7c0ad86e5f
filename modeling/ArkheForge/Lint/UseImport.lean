/-
  Paths behind a use-import (`arkhe-subset-rust-check`).

  After `use std::time::Instant` the path `std::time::Instant::now` is written
  `Instant::now`. The rule on denied paths compares ends, so it flags each such spelling
  (`flagged_tail`). The rule on denied prefixes compares beginnings: after `use std::fs`
  nothing flags `fs::read`. A policy is safe exactly where the tails of its prefixes are
  banned as well (`importsFlagged_iff`), since some name is longer than every entry and
  only a prefix can flag it.
-/
import ArkheForge.Lint.DenyList

namespace ArkheForge.Lint

/-! ## Joined paths -/

theorem joinPath_cons_cons (s t : String) (rest : List String) :
    joinPath (s :: t :: rest) = s ++ "::" ++ joinPath (t :: rest) := by
  simp [joinPath, String.append_assoc]

theorem joinPath_append {segs rest : List String} (hsegs : segs ≠ []) (hrest : rest ≠ []) :
    joinPath (segs ++ rest) = joinPath segs ++ "::" ++ joinPath rest := by
  induction segs with
  | nil => exact absurd rfl hsegs
  | cons s segs ih =>
      cases segs with
      | nil =>
          obtain ⟨t, rest, rfl⟩ := List.exists_cons_of_ne_nil hrest
          simp [joinPath]
      | cons t segs =>
          rw [List.cons_append, List.cons_append, joinPath_cons_cons, joinPath_cons_cons,
            ← List.cons_append, ih (List.cons_ne_nil t segs)]
          simp only [String.append_assoc]

theorem toList_joinPath_append {segs rest : List String} (hsegs : segs ≠ []) (hrest : rest ≠ []) :
    (joinPath (segs ++ rest)).toList =
      (joinPath segs).toList ++ ':' :: ':' :: (joinPath rest).toList := by
  rw [joinPath_append hsegs hrest]
  simp

/-- The segments of a path: identifiers, at least one. -/
structure IsPath (segs : List String) : Prop where
  ne_nil : segs ≠ []
  idents : ∀ s ∈ segs, IsIdent s

theorem IsPath.drop {segs : List String} (h : IsPath segs) {n : ℕ} (hn : n < segs.length) :
    IsPath (segs.drop n) where
  ne_nil := by
    intro hnil
    have := List.drop_eq_nil_iff.mp hnil
    omega
  idents := fun s hs => h.idents s (List.mem_of_mem_drop hs)

/-- A joined path ends in an identifier. -/
theorem IsPath.exists_last {segs : List String} (h : IsPath segs) :
    ∃ start last, (joinPath segs).toList = start ++ [last] ∧ last ≠ ':' := by
  obtain ⟨init, s, rfl⟩ := (List.eq_nil_or_concat segs).resolve_left h.ne_nil
  rw [List.concat_eq_append] at h ⊢
  obtain ⟨hne, hcolon⟩ := h.idents s (by simp)
  have hs : s.toList ≠ [] := fun hnil => hne (String.toList_eq_nil_iff.mp hnil)
  obtain ⟨start, last, hlast⟩ := (List.eq_nil_or_concat s.toList).resolve_left hs
  rw [List.concat_eq_append] at hlast
  have hne_colon : last ≠ ':' := by
    rintro rfl
    rw [hlast] at hcolon
    simp at hcolon
  cases init with
  | nil => exact ⟨start, last, by simp [joinPath, hlast], hne_colon⟩
  | cons t init =>
      have hjoin := toList_joinPath_append (List.cons_ne_nil t init) (List.cons_ne_nil s [])
      have hsingle : (joinPath [s]).toList = start ++ [last] := by simp [joinPath, hlast]
      refine ⟨(joinPath (t :: init)).toList ++ ':' :: ':' :: start, last, ?_, hne_colon⟩
      rw [hjoin, hsingle]
      simp

/-! ## What the deny rules flag -/

/-- A prefix entry that bans the path. -/
def BannedBy (policy : Policy) (pathStr : String) : Prop :=
  ∃ banned ∈ policy.deniedPrefixes.entries,
    pathStr = banned ∨ startsWith pathStr (banned ++ "::") = true

theorem matchAgainstDenyList_isSome (policy : Policy) (pathStr : String) (numSegments : ℕ) :
    (matchAgainstDenyList policy pathStr numSegments).isSome = true ↔
      pathStr ∈ policy.deniedPaths.entries ∨
      (∃ denied ∈ policy.deniedPaths.entries, endsWith denied ("::" ++ pathStr) = true) ∨
      BannedBy policy pathStr := by
  have hexact : (policy.deniedPaths.get? pathStr).isSome = true ↔
      pathStr ∈ policy.deniedPaths.entries := by
    simp [StringSet.get?]
  have hsuffix : (policy.deniedPaths.entries.find? fun denied =>
      endsWith denied ("::" ++ pathStr)).isSome = true ↔
        ∃ denied ∈ policy.deniedPaths.entries, endsWith denied ("::" ++ pathStr) = true := by
    simp
  have hbanned : (policy.deniedPrefixes.entries.find? fun banned =>
      pathStr = banned || startsWith pathStr (banned ++ "::")).isSome = true ↔
        BannedBy policy pathStr := by
    simp [BannedBy]
  rw [← hexact, ← hsuffix, ← hbanned]
  unfold matchAgainstDenyList
  cases policy.deniedPaths.get? pathStr with
  | some entry => simp
  | none =>
      cases policy.deniedPaths.entries.find? fun denied => endsWith denied ("::" ++ pathStr) with
      | some denied => simp
      | none =>
          cases policy.deniedPrefixes.entries.find? fun banned =>
              pathStr = banned || startsWith pathStr (banned ++ "::") with
          | some banned => simp
          | none => simp

/-- The visitor pushes a violation for the path. -/
def Flagged (policy : Policy) (path : Path) : Prop := visitExprPath policy path ≠ []

theorem flagged_iff (policy : Policy) {path : Path} (h : ∀ s ∈ path.segments, IsIdent s) :
    Flagged policy path ↔
      joinPath path.segments ∈ policy.deniedPaths.entries ∨
      (∃ denied ∈ policy.deniedPaths.entries,
        endsWith denied ("::" ++ joinPath path.segments) = true) ∨
      BannedBy policy (joinPath path.segments) := by
  rw [← matchAgainstDenyList_isSome policy _ path.segments.length]
  unfold Flagged
  rw [visitExprPath_eq policy path h]
  cases matchAgainstDenyList policy (joinPath path.segments) path.segments.length with
  | none => simp
  | some flagged => simp

/-! ## Spellings behind an import -/

/-- The rules flag `entry::rest` because of the entry: it is a denied path, or `rest` is
    anything behind a denied prefix. -/
def FlaggedBecauseOf (policy : Policy) (entry rest : List String) : Prop :=
  (joinPath entry ∈ policy.deniedPaths.entries ∧ rest = []) ∨
    joinPath entry ∈ policy.deniedPrefixes.entries

/-- Every path that an entry flags is flagged in each spelling without some of its first
    segments that still has the last segment of the entry. -/
def ImportsFlagged (policy : Policy) : Prop :=
  ∀ entry rest, IsPath entry → (∀ s ∈ rest, IsIdent s) → FlaggedBecauseOf policy entry rest →
    ∀ dropped < entry.length, ∀ leadingColon,
      Flagged policy ⟨leadingColon, (entry ++ rest).drop dropped⟩

/-- The proper tails of the prefix entries are banned by prefix entries. -/
def TailsBanned (policy : Policy) : Prop :=
  ∀ entry, IsPath entry → joinPath entry ∈ policy.deniedPrefixes.entries →
    ∀ dropped, 0 < dropped → dropped < entry.length →
      BannedBy policy (joinPath (entry.drop dropped))

section

variable {policy : Policy} {entry rest : List String}

/-- A tail of a denied path is an end of its text. -/
theorem endsWith_tail (h : IsPath entry) {dropped : ℕ} (hpos : 0 < dropped)
    (hdropped : dropped < entry.length) :
    endsWith (joinPath entry) ("::" ++ joinPath (entry.drop dropped)) = true := by
  have htake : entry.take dropped ≠ [] := by
    intro hnil
    rcases List.take_eq_nil_iff.mp hnil with hzero | hempty
    · omega
    · exact h.ne_nil hempty
  have hjoin := toList_joinPath_append htake (h.drop hdropped).ne_nil
  rw [List.take_append_drop] at hjoin
  unfold endsWith
  rw [List.isSuffixOf_iff_suffix, hjoin]
  simp

/-- What a prefix entry bans it bans with anything behind it. -/
theorem BannedBy.append (h : BannedBy policy (joinPath entry)) (hentry : entry ≠ [])
    (hrest : rest ≠ []) : BannedBy policy (joinPath (entry ++ rest)) := by
  obtain ⟨banned, hmem, hbanned⟩ := h
  refine ⟨banned, hmem, .inr ?_⟩
  unfold startsWith at hbanned ⊢
  rw [List.isPrefixOf_iff_prefix, toList_joinPath_append hentry hrest]
  rcases hbanned with rfl | hstart
  · simp
  · exact (List.isPrefixOf_iff_prefix.mp hstart).trans (List.prefix_append _ _)

theorem exists_longer (entries : List String) : ∃ n, ∀ e ∈ entries, e.toList.length < n := by
  induction entries with
  | nil => exact ⟨0, by simp⟩
  | cons e entries ih =>
      obtain ⟨n, hn⟩ := ih
      refine ⟨max n (e.toList.length + 1), ?_⟩
      intro e' he'
      rcases List.mem_cons.mp he' with rfl | he'
      · omega
      · have := hn e' he'
        omega

/-- An identifier longer than the entries. -/
theorem exists_fresh (entries : List String) :
    ∃ fresh, IsIdent fresh ∧ ∀ e ∈ entries, e.toList.length < fresh.toList.length := by
  obtain ⟨n, hn⟩ := exists_longer entries
  have hchars : (String.ofList (List.replicate (n + 1) 'a')).toList =
      List.replicate (n + 1) 'a' := String.toList_ofList
  refine ⟨String.ofList (List.replicate (n + 1) 'a'), ⟨?_, ?_⟩, ?_⟩
  · intro hempty
    rw [hempty] at hchars
    exact absurd (congrArg List.length hchars) (by simp)
  · rw [hchars]
    intro hcolon
    exact absurd (List.eq_of_mem_replicate hcolon) (by decide)
  · intro e he
    have := hn e he
    rw [hchars, List.length_replicate]
    omega

theorem IsPath.idents_append (h : IsPath entry) (hrest : ∀ s ∈ rest, IsIdent s) :
    ∀ s ∈ entry ++ rest, IsIdent s := by
  intro s hs
  rcases List.mem_append.mp hs with hs | hs
  · exact h.idents s hs
  · exact hrest s hs

/-- A beginning that ends in `::` does not reach into the text of an identifier: it is
    behind a beginning of what stands before. -/
theorem prefix_of_prefix_fresh {start : List Char} {last : Char} {banned fresh : List Char}
    (hlast : last ≠ ':') (hfresh : ':' ∉ fresh)
    (h : banned ++ [':', ':'] <+: (start ++ [last]) ++ ':' :: ':' :: fresh) :
    start ++ [last] = banned ∨ banned ++ [':', ':'] <+: start ++ [last] := by
  obtain ⟨behind, hbehind⟩ := h
  have hsplit : (banned ++ [':']) ++ (':' :: behind) =
      ((start ++ [last]) ++ [':', ':']) ++ fresh := by
    simpa using hbehind
  rcases List.append_eq_append_iff.mp hsplit with ⟨mid, htail, hmid⟩ | ⟨mid, -, hmid⟩
  · cases mid with
    | nil =>
        rw [List.nil_append] at hmid
        exact absurd (hmid ▸ List.mem_cons_self) hfresh
    | cons c mid =>
        obtain rfl : ':' = c := List.head_eq_of_cons_eq hmid
        rcases List.eq_nil_or_concat mid with rfl | ⟨mid, d, rfl⟩
        · have hsame : (start ++ [last]) ++ [':', ':'] = banned ++ [':', ':'] := by
            simpa using htail
          exact .inl (List.append_inj' hsame rfl).1
        · rcases List.eq_nil_or_concat mid with rfl | ⟨mid, e, rfl⟩
          · have hpair : (start ++ [last]) ++ [':', ':'] = (banned ++ [':']) ++ [':', d] := by
              simpa using htail
            have hends := (List.append_inj' hpair rfl).1
            exact absurd (List.head_eq_of_cons_eq (List.append_inj' hends rfl).2) hlast
          · have hpair : (start ++ [last]) ++ [':', ':'] =
                ((banned ++ [':', ':']) ++ mid) ++ [e, d] := by
              simpa using htail
            exact .inr ⟨mid, (List.append_inj' hpair rfl).1.symm⟩
  · have hcolon : ':' ∈ fresh := by
      rw [hmid]
      simp
    exact absurd hcolon hfresh

/-- A path that ends in a name longer than every entry is banned only where what stands
    before the name is. -/
theorem bannedBy_of_flagged_fresh (hentry : IsPath entry) {fresh : String}
    (hfresh : IsIdent fresh)
    (hpaths : ∀ e ∈ policy.deniedPaths.entries, e.toList.length < fresh.toList.length)
    (hprefixes : ∀ e ∈ policy.deniedPrefixes.entries, e.toList.length < fresh.toList.length)
    {leadingColon : Bool} (h : Flagged policy ⟨leadingColon, entry ++ [fresh]⟩) :
    BannedBy policy (joinPath entry) := by
  have hidents : ∀ s ∈ entry ++ [fresh], IsIdent s := by
    refine hentry.idents_append fun s hs => ?_
    rw [List.mem_singleton.mp hs]
    exact hfresh
  have htext : (joinPath (entry ++ [fresh])).toList =
      (joinPath entry).toList ++ ':' :: ':' :: fresh.toList := by
    rw [toList_joinPath_append hentry.ne_nil (List.cons_ne_nil fresh [])]
    simp [joinPath]
  have hlong : fresh.toList.length < (joinPath (entry ++ [fresh])).toList.length := by
    rw [htext]
    simp
    omega
  have hrules := (flagged_iff policy hidents).mp h
  dsimp only at hrules
  rcases hrules with hexact | ⟨denied, hmem, hend⟩ | ⟨banned, hmem, hban⟩
  · have := hpaths _ hexact
    omega
  · unfold endsWith at hend
    have hlength := (List.isSuffixOf_iff_suffix.mp hend).length_le
    rw [String.toList_append, List.length_append] at hlength
    have := hpaths denied hmem
    omega
  · refine ⟨banned, hmem, ?_⟩
    rcases hban with heq | hstart
    · have := hprefixes banned hmem
      rw [← heq] at this
      omega
    · obtain ⟨start, last, hentryText, hlast⟩ := hentry.exists_last
      unfold startsWith at hstart
      rw [List.isPrefixOf_iff_prefix, htext, hentryText, String.toList_append] at hstart
      rcases prefix_of_prefix_fresh hlast hfresh.2 hstart with heq | hbefore
      · left
        rw [← hentryText] at heq
        exact String.toList_inj.mp heq
      · right
        unfold startsWith
        rw [List.isPrefixOf_iff_prefix, hentryText, String.toList_append]
        exact hbefore

end

/-- **When a use-import cannot evade the lint.** For every policy: exactly where each proper
    tail of a denied prefix is a denied prefix itself or lies under one. -/
theorem importsFlagged_iff (policy : Policy) : ImportsFlagged policy ↔ TailsBanned policy := by
  constructor
  · intro h entry hentry hmem dropped _ hdropped
    obtain ⟨fresh, hfresh, hlonger⟩ :=
      exists_fresh (policy.deniedPaths.entries ++ policy.deniedPrefixes.entries)
    have hflagged := h entry [fresh] hentry (by simpa using hfresh) (.inr hmem) dropped hdropped
      false
    rw [List.drop_append_of_le_length hdropped.le] at hflagged
    exact bannedBy_of_flagged_fresh (hentry.drop hdropped) hfresh
      (fun e he => hlonger e (List.mem_append_left _ he))
      (fun e he => hlonger e (List.mem_append_right _ he)) hflagged
  · intro h entry rest hentry hrest hbecause dropped hdropped leadingColon
    rw [List.drop_append_of_le_length hdropped.le,
      flagged_iff policy ((hentry.drop hdropped).idents_append hrest)]
    dsimp only
    rcases hbecause with ⟨hmem, rfl⟩ | hmem
    · rw [List.append_nil]
      rcases Nat.eq_zero_or_pos dropped with rfl | hpos
      · exact .inl hmem
      · exact .inr (.inl ⟨joinPath entry, hmem, endsWith_tail hentry hpos hdropped⟩)
    · have hbanned : BannedBy policy (joinPath (entry.drop dropped)) := by
        rcases Nat.eq_zero_or_pos dropped with rfl | hpos
        · exact ⟨joinPath entry, hmem, .inl rfl⟩
        · exact h entry hentry hmem dropped hpos hdropped
      by_cases hempty : rest = []
      · rw [hempty, List.append_nil]
        exact .inr (.inr hbanned)
      · exact .inr (.inr (hbanned.append (hentry.drop hdropped).ne_nil hempty))

theorem isIdent_of_decide {s : String} (h : (s != "" && !s.toList.contains ':') = true) :
    IsIdent s := by
  simpa [IsIdent] using h

/-- After `use std::fs` the default policy lets `fs::read` pass. -/
theorem not_importsFlagged_default : ¬ ImportsFlagged Policy.denyComputeImpurity := by
  intro h
  have hpath : IsPath ["std", "fs"] := by
    refine ⟨List.cons_ne_nil _ _, ?_⟩
    intro s hs
    have : s = "std" ∨ s = "fs" := by simpa using hs
    rcases this with rfl | rfl
    · exact isIdent_of_decide (by decide)
    · exact isIdent_of_decide (by decide)
  have hread : ∀ s ∈ ["read"], IsIdent s := by
    intro s hs
    rw [List.mem_singleton.mp hs]
    exact isIdent_of_decide (by decide)
  have hentry : joinPath ["std", "fs"] ∈ Policy.denyComputeImpurity.deniedPrefixes.entries := by
    decide +kernel
  have hpasses : visitExprPath .denyComputeImpurity ⟨false, ["fs", "read"]⟩ = [] := by
    decide +kernel
  exact h ["std", "fs"] ["read"] hpath hread (.inr hentry) 1 (by decide) false hpasses

end ArkheForge.Lint
