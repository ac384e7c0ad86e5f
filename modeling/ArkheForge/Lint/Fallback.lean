/-
  Which paths the token fallback misses.

  A path occurrence is a maximal run of identifiers that single `::` join
  (`PathOccurrence`). It is a method or field name when a single `.` precedes it; the last
  dot of `..` or `...` is no such dot (`dotToken`). The loop decides with one bit, whether
  the token before was a `.`, so it drops what follows a range operator, and it joins
  across `:: ::`, so neither side is matched on its own.
  `reported_iff` says that these are the only two ways to miss a flagged path, and
  `asStrict_iff` that a scan is as strict as the visitor exactly when no flagged path of
  the stream stands in one of the two places.
-/
import ArkheForge.Lint.TokenScan

namespace ArkheForge.Lint

/-! ## Separators -/

/-- `n` path separators in a row. -/
inductive PathSeps : ℕ → List TokenTree → Prop
  | zero : PathSeps 0 []
  | succ {n : ℕ} {tokens : List TokenTree} (s : Spacing) :
      PathSeps n tokens → PathSeps (n + 1) (.punct ':' .joint :: .punct ':' s :: tokens)

/-- An identifier and `n` separators end the tokens. -/
def JoinedBefore (n : ℕ) (tokens : List TokenTree) : Prop :=
  ∃ front id seps, tokens = front ++ .ident id :: seps ∧ PathSeps n seps

/-- `n` separators and an identifier start them. -/
def JoinedAfter (n : ℕ) (tokens : List TokenTree) : Prop :=
  ∃ seps id rest, tokens = seps ++ .ident id :: rest ∧ PathSeps n seps

/-- Identifiers, each after one separator. -/
inductive Continues : List String → List TokenTree → Prop
  | nil : Continues [] []
  | cons {ids : List String} {tokens : List TokenTree} (s : Spacing) (id : String) :
      Continues ids tokens →
        Continues (id :: ids) (.punct ':' .joint :: .punct ':' s :: .ident id :: tokens)

theorem pathSeps_cons {n : ℕ} {s : Spacing} {tokens : List TokenTree} :
    PathSeps n (.punct ':' .joint :: .punct ':' s :: tokens) ↔
      ∃ m, n = m + 1 ∧ PathSeps m tokens := by
  constructor
  · rintro ⟨⟩
    next m hseps => exact ⟨m, rfl, hseps⟩
  · rintro ⟨m, rfl, hseps⟩
    exact .succ s hseps

theorem not_pathSeps_ident {n : ℕ} {id : String} {tokens : List TokenTree} :
    ¬ PathSeps n (.ident id :: tokens) := by
  rintro ⟨⟩

theorem not_pathSeps_breaks {n : ℕ} {tt : TokenTree} {tokens : List TokenTree}
    (h : Breaks tt tokens) : ¬ PathSeps n (tt :: tokens) := by
  rintro ⟨⟩
  next s hseps => exact h.2 s _ rfl rfl

theorem not_joinedBefore_nil {n : ℕ} : ¬ JoinedBefore n [] := by
  rintro ⟨front, id, seps, heq, _⟩
  simp at heq

theorem joinedBefore_ident {n : ℕ} {id : String} {tokens : List TokenTree} :
    JoinedBefore n (.ident id :: tokens) ↔ PathSeps n tokens ∨ JoinedBefore n tokens := by
  constructor
  · rintro ⟨front, id', seps, heq, hseps⟩
    cases front with
    | nil =>
        obtain ⟨_, rfl⟩ := List.cons.inj heq
        exact .inl hseps
    | cons tt front =>
        obtain ⟨_, rfl⟩ := List.cons.inj heq
        exact .inr ⟨front, id', seps, rfl, hseps⟩
  · rintro (hseps | ⟨front, id', seps, rfl, hseps⟩)
    · exact ⟨[], id, tokens, rfl, hseps⟩
    · exact ⟨.ident id :: front, id', seps, rfl, hseps⟩

theorem joinedBefore_of_not_ident {n : ℕ} {tt : TokenTree} {tokens : List TokenTree}
    (h : ∀ id, tt ≠ .ident id) : JoinedBefore n (tt :: tokens) ↔ JoinedBefore n tokens := by
  constructor
  · rintro ⟨front, id, seps, heq, hseps⟩
    cases front with
    | nil => exact absurd (List.cons.inj heq).1 (h id)
    | cons tt' front =>
        obtain ⟨_, rfl⟩ := List.cons.inj heq
        exact ⟨front, id, seps, rfl, hseps⟩
  · rintro ⟨front, id, seps, rfl, hseps⟩
    exact ⟨tt :: front, id, seps, rfl, hseps⟩

theorem not_joinedAfter_nil {n : ℕ} : ¬ JoinedAfter n [] := by
  rintro ⟨seps, id, rest, heq, _⟩
  simp at heq

theorem joinedAfter_ident {n : ℕ} {id : String} {tokens : List TokenTree} :
    JoinedAfter n (.ident id :: tokens) ↔ n = 0 := by
  constructor
  · rintro ⟨seps, id', rest, heq, hseps⟩
    cases hseps with
    | zero => rfl
    | succ s hseps => simp at heq
  · rintro rfl
    exact ⟨[], id, tokens, rfl, .zero⟩

theorem joinedAfter_pathSep {n : ℕ} {s : Spacing} {tokens : List TokenTree} :
    JoinedAfter n (.punct ':' .joint :: .punct ':' s :: tokens) ↔
      ∃ m, n = m + 1 ∧ JoinedAfter m tokens := by
  constructor
  · rintro ⟨seps, id, rest, heq, hseps⟩
    cases hseps with
    | zero => simp at heq
    | @succ m seps s' hseps =>
        obtain ⟨_, htail⟩ := List.cons.inj heq
        obtain ⟨_, rfl⟩ := List.cons.inj htail
        exact ⟨m, rfl, seps, id, rest, rfl, hseps⟩
  · rintro ⟨m, rfl, seps, id, rest, rfl, hseps⟩
    exact ⟨_, id, rest, rfl, .succ s hseps⟩

theorem not_joinedAfter_breaks {n : ℕ} {tt : TokenTree} {tokens : List TokenTree}
    (h : Breaks tt tokens) : ¬ JoinedAfter n (tt :: tokens) := by
  rintro ⟨seps, id, rest, heq, hseps⟩
  cases hseps with
  | zero => exact h.1 id (List.cons.inj heq).1
  | succ s hseps =>
      obtain ⟨rfl, htail⟩ := List.cons.inj heq
      exact h.2 s _ rfl htail

/-! ## What the loop knows after a prefix -/

/-- Identifiers are collected and a `::` was read after them. -/
def ScanState.awaits (st : ScanState) : Prop := st.segs ≠ [] ∧ st.expectSegment = true

theorem readIdent_segs_ne_nil (st : ScanState) (id : String) : (st.readIdent id).segs ≠ [] := by
  simp [ScanState.readIdent]

/-- Without a `::` to follow, an identifier starts a sequence of its own. -/
theorem readIdent_of_not_awaits {st : ScanState} (h : ¬ st.awaits) (id : String) :
    st.readIdent id = ⟨[id], st.prevDot, false, false⟩ := by
  have hcollected : (if st.interrupted then [] else st.segs) = [] := by
    cases hinterrupted : st.interrupted with
    | true => rfl
    | false =>
        rw [if_neg (by simp)]
        by_contra hsegs
        refine h ⟨hsegs, ?_⟩
        simpa [ScanState.interrupted, hsegs] using hinterrupted
  unfold ScanState.readIdent
  rw [hcollected]
  rfl

/-- After a `::` it joins the collected ones. -/
theorem readIdent_of_awaits {st : ScanState} (h : st.awaits) (id : String) :
    (st.readIdent id).segs = st.segs ++ [id] := by
  have hinterrupted : st.interrupted = false := by simp [ScanState.interrupted, h.2]
  unfold ScanState.readIdent
  rw [hinterrupted]
  rfl

/-- The loop waits for another segment exactly where an identifier and separators, one or
    more, end what it has read. -/
theorem awaits_stateAfter (st : ScanState) (tokens : List TokenTree) :
    (stateAfter st tokens).awaits ↔
      (∃ n, 1 ≤ n ∧ JoinedBefore n tokens) ∨
      (∃ n, PathSeps n tokens ∧ st.segs ≠ [] ∧ (n = 0 → st.expectSegment = true)) := by
  induction tokens using tokens_induction generalizing st with
  | nil =>
      constructor
      · rintro ⟨hsegs, hexpect⟩
        exact .inr ⟨0, .zero, hsegs, fun _ => hexpect⟩
      · rintro (⟨n, _, hjoined⟩ | ⟨n, hseps, hsegs, hexpect⟩)
        · exact absurd hjoined not_joinedBefore_nil
        · cases hseps with
          | zero => exact ⟨hsegs, hexpect rfl⟩
  | ident id rest ih =>
      show (stateAfter (st.readIdent id) rest).awaits ↔ _
      rw [ih]
      have hnot : (st.readIdent id).expectSegment ≠ true := by simp [ScanState.readIdent]
      constructor
      · rintro (⟨n, hn, hjoined⟩ | ⟨n, hseps, _, hexpect⟩)
        · exact .inl ⟨n, hn, joinedBefore_ident.mpr (.inr hjoined)⟩
        · have hn : 1 ≤ n := Nat.pos_of_ne_zero fun hzero => hnot (hexpect hzero)
          exact .inl ⟨n, hn, joinedBefore_ident.mpr (.inl hseps)⟩
      · rintro (⟨n, hn, hjoined⟩ | ⟨n, hseps, _⟩)
        · rcases joinedBefore_ident.mp hjoined with hseps | hjoined
          · exact .inr ⟨n, hseps, readIdent_segs_ne_nil st id, by omega⟩
          · exact .inl ⟨n, hn, hjoined⟩
        · exact absurd hseps not_pathSeps_ident
  | pathSep s rest ih =>
      show (stateAfter st.readPathSep rest).awaits ↔ _
      rw [ih]
      have hbefore : ∀ n, JoinedBefore n (.punct ':' .joint :: .punct ':' s :: rest) ↔
          JoinedBefore n rest := by
        intro n
        rw [joinedBefore_of_not_ident (by simp), joinedBefore_of_not_ident (by simp)]
      have hexpect : st.segs ≠ [] → st.readPathSep.expectSegment = true := by
        intro hsegs
        simpa [ScanState.readPathSep] using hsegs
      simp only [hbefore, pathSeps_cons]
      constructor
      · rintro (hjoined | ⟨n, hseps, hsegs, _⟩)
        · exact .inl hjoined
        · exact .inr ⟨n + 1, ⟨n, rfl, hseps⟩, hsegs, by omega⟩
      · rintro (hjoined | ⟨_, ⟨n, rfl, hseps⟩, hsegs, _⟩)
        · exact .inl hjoined
        · exact .inr ⟨n, hseps, hsegs, fun _ => hexpect hsegs⟩
  | breaks tt rest hbreaks ih =>
      rw [stateAfter_breaks hbreaks, ih]
      simp only [joinedBefore_of_not_ident hbreaks.1]
      constructor
      · rintro (hjoined | ⟨n, _, hsegs, _⟩)
        · exact .inl hjoined
        · exact absurd rfl hsegs
      · rintro (hjoined | ⟨n, hseps, _⟩)
        · exact .inl hjoined
        · exact absurd hseps (not_pathSeps_breaks hbreaks)

/-- From the start, where no identifier is collected. -/
theorem awaits_start {tokens : List TokenTree} :
    (stateAfter .start tokens).awaits ↔ ∃ n, 1 ≤ n ∧ JoinedBefore n tokens := by
  rw [awaits_stateAfter]
  constructor
  · rintro (hjoined | ⟨n, _, hsegs, _⟩)
    · exact hjoined
    · exact absurd rfl hsegs
  · exact .inl

/-! ## Dots -/

/-- One token of `dotToken`: the length of the dot token that ends here, and whether another
    dot would be joined to it. -/
def dotStep (acc : ℕ × Bool) : TokenTree → ℕ × Bool
  | .punct '.' s => (if acc.2 ∧ acc.1 < 3 then acc.1 + 1 else 1, s = .joint)
  | _ => (0, false)

/-- The length of the dot token that ends the tokens: 1 for `.`, 2 for `..`, 3 for `...`, 0
    where they end in something else. Joined dots are taken three at most at a time. -/
def dotToken (tokens : List TokenTree) : ℕ := (tokens.foldl dotStep (0, false)).1

theorem dotStep_ne_zero (acc : ℕ × Bool) (tt : TokenTree) :
    (dotStep acc tt).1 ≠ 0 ↔ tt.isDot = true := by
  unfold dotStep TokenTree.isDot
  split
  · split
    · simp
    · simp
  · next hne =>
    cases tt with
    | punct ch s =>
        have hch : ch ≠ '.' := by
          rintro rfl
          exact hne s rfl
        simpa using hch
    | ident id => simp
    | group stream => simp
    | literal => simp

/-- `prev_dot` says whether the last token was a `.`, alone or not. -/
theorem prevDot_stateAfter (st : ScanState) (acc : ℕ × Bool)
    (h : acc.1 ≠ 0 ↔ st.prevDot = true) (tokens : List TokenTree) :
    (tokens.foldl dotStep acc).1 ≠ 0 ↔ (stateAfter st tokens).prevDot = true := by
  induction tokens using tokens_induction generalizing st acc with
  | nil => exact h
  | ident id rest ih => exact ih (st.readIdent id) _ (by simp [dotStep, ScanState.readIdent])
  | pathSep s rest ih => exact ih st.readPathSep _ (by simp [dotStep, ScanState.readPathSep])
  | breaks tt rest hbreaks ih =>
      rw [stateAfter_breaks hbreaks]
      exact ih (st.clear tt.isDot) _ (dotStep_ne_zero acc tt)

theorem prevDot_start {tokens : List TokenTree} :
    (stateAfter .start tokens).prevDot = true ↔ dotToken tokens ≠ 0 :=
  (prevDot_stateAfter .start (0, false) (by simp [ScanState.start]) tokens).symm

/-! ## The call that takes an identifier up -/

/-- With identifiers collected, the next call is made on them and on what separators join to
    them. -/
theorem nextCall_collected (st : ScanState) (hsegs : st.segs ≠ []) (tokens : List TokenTree) :
    ∃ extra, nextCall st tokens = (st.segs ++ extra, st.seqAfterDot) ∧
      (extra = [] ↔
        ¬ ∃ n, JoinedAfter n tokens ∧ (n = 0 → st.expectSegment = true)) := by
  induction tokens using tokens_induction generalizing st with
  | nil =>
      refine ⟨[], by simp [nextCall], ?_⟩
      simp [not_joinedAfter_nil]
  | ident id rest ih =>
      rw [nextCall]
      cases hexpect : st.expectSegment with
      | false =>
          have hinterrupted : st.interrupted = true := by
            simp [ScanState.interrupted, hexpect, hsegs]
          refine ⟨[], by simp [hinterrupted], ?_⟩
          simp [joinedAfter_ident]
      | true =>
          have hinterrupted : st.interrupted = false := by
            simp [ScanState.interrupted, hexpect]
          obtain ⟨extra, hcall, _⟩ := ih (st.readIdent id) (readIdent_segs_ne_nil st id)
          refine ⟨id :: extra, ?_, ?_⟩
          · rw [hinterrupted, if_neg (by simp), hcall]
            simp [ScanState.readIdent, hinterrupted, hsegs]
          · simp [joinedAfter_ident]
  | pathSep s rest ih =>
      obtain ⟨extra, hcall, hextra⟩ := ih st.readPathSep hsegs
      have hexpect : st.readPathSep.expectSegment = true := by
        simpa [ScanState.readPathSep] using hsegs
      refine ⟨extra, hcall, hextra.trans (not_congr ?_)⟩
      simp only [joinedAfter_pathSep]
      constructor
      · rintro ⟨n, hjoined, _⟩
        exact ⟨n + 1, ⟨n, rfl, hjoined⟩, by omega⟩
      · rintro ⟨_, ⟨n, rfl, hjoined⟩, _⟩
        exact ⟨n, hjoined, fun _ => hexpect⟩
  | breaks tt rest hbreaks ih =>
      refine ⟨[], by simp [nextCall_breaks hbreaks], ?_⟩
      simp [not_joinedAfter_breaks hbreaks]

/-- The loop collects the identifiers of a sequence one after the other. -/
theorem nextCall_continues {ids : List String} {more : List TokenTree} (h : Continues ids more)
    (st : ScanState) (hsegs : st.segs ≠ []) (hexpect : st.expectSegment = false)
    (after : List TokenTree) :
    ∃ st', nextCall st (more ++ after) = nextCall st' after ∧ st'.segs = st.segs ++ ids ∧
      st'.seqAfterDot = st.seqAfterDot ∧ st'.expectSegment = false := by
  induction h generalizing st with
  | nil => exact ⟨st, rfl, (List.append_nil _).symm, rfl, hexpect⟩
  | @cons ids tokens s id hids ih =>
      have hinterrupted : st.readPathSep.interrupted = false := by
        simp [ScanState.interrupted, ScanState.readPathSep]
      have hread : (st.readPathSep.readIdent id).segs = st.segs ++ [id] := by
        unfold ScanState.readIdent
        rw [hinterrupted]
        rfl
      have hdot : (st.readPathSep.readIdent id).seqAfterDot = st.seqAfterDot := by
        unfold ScanState.readIdent
        rw [hinterrupted]
        simp [ScanState.readPathSep, hsegs]
      obtain ⟨st', hcall, hsegs', hdot', hexpect'⟩ := ih (st.readPathSep.readIdent id)
        (readIdent_segs_ne_nil _ id) rfl
      refine ⟨st', ?_, ?_, ?_, hexpect'⟩
      · show nextCall st.readPathSep (.ident id :: (tokens ++ after)) = _
        rw [nextCall, hinterrupted, if_neg (by simp), hcall]
      · rw [hsegs', hread, List.append_assoc]
        rfl
      · rw [hdot', hdot]

/-! ## Path occurrences -/

/-- A maximal sequence of identifiers that `::` joins, at one place of a stream. -/
structure PathOccurrence (stream : List TokenTree) where
  before : List TokenTree
  id : String
  ids : List String
  more : List TokenTree
  after : List TokenTree
  tokens : stream = before ++ .ident id :: (more ++ after)
  joined : Continues ids more
  maximal_before : ¬ JoinedBefore 1 before
  maximal_after : ¬ JoinedAfter 1 after

namespace PathOccurrence

variable {stream : List TokenTree}

/-- The identifiers. -/
def segs (o : PathOccurrence stream) : List String := o.id :: o.ids

/-- A single `.` precedes it directly. -/
def IsFieldName (o : PathOccurrence stream) : Prop := dotToken o.before = 1

/-- A range operator, `..` or `...`, precedes it directly. -/
def AfterRange (o : PathOccurrence stream) : Prop := 2 ≤ dotToken o.before

/-- Two or more separators stand between it and another identifier. -/
def Glued (o : PathOccurrence stream) : Prop :=
  ∃ n, 2 ≤ n ∧ (JoinedBefore n o.before ∨ JoinedAfter n o.after)

/-- The call of `check_token_path` that takes its first identifier up: the next one after the
    loop has read it. -/
def call (o : PathOccurrence stream) : List String × Bool :=
  nextCall (stateAfter .start (o.before ++ [.ident o.id])) (o.more ++ o.after)

/-- The scan of `tokens` reports it: the call that takes it up is made on its identifiers and
    pushes the violation. -/
def Reported (o : PathOccurrence stream) (policy : Policy) (tokens : List TokenTree)
    (violation : PurityViolation) : Prop :=
  o.call.1 = o.segs ∧ checkTokenPath policy o.call.1 o.call.2 = [violation] ∧
    violation ∈ scanTokenTrees policy tokens

theorem glued_iff (o : PathOccurrence stream) :
    o.Glued ↔ (∃ n, 1 ≤ n ∧ JoinedBefore n o.before) ∨ ∃ n, 1 ≤ n ∧ JoinedAfter n o.after := by
  constructor
  · rintro ⟨n, hn, hbefore | hafter⟩
    · exact .inl ⟨n, by omega, hbefore⟩
    · exact .inr ⟨n, by omega, hafter⟩
  · rintro (⟨n, hn, hbefore⟩ | ⟨n, hn, hafter⟩)
    · refine ⟨n, ?_, .inl hbefore⟩
      by_contra hlt
      obtain rfl : n = 1 := by omega
      exact o.maximal_before hbefore
    · refine ⟨n, ?_, .inr hafter⟩
      by_contra hlt
      obtain rfl : n = 1 := by omega
      exact o.maximal_after hafter

/-- The call, in terms of the state before the occurrence. -/
theorem call_eq (o : PathOccurrence stream) :
    ∃ extra, o.call = (((stateAfter .start o.before).readIdent o.id).segs ++ o.ids ++ extra,
      ((stateAfter .start o.before).readIdent o.id).seqAfterDot) ∧
      (extra = [] ↔ ¬ ∃ n, 1 ≤ n ∧ JoinedAfter n o.after) := by
  have hstate : stateAfter .start (o.before ++ [.ident o.id]) =
      (stateAfter .start o.before).readIdent o.id := stateAfter_append_ident _ _ _ _
  obtain ⟨st', hcall, hsegs, hdot, hexpect⟩ := nextCall_continues o.joined
    ((stateAfter .start o.before).readIdent o.id) (readIdent_segs_ne_nil _ _) rfl o.after
  have hne : st'.segs ≠ [] := by
    rw [hsegs]
    simp [ScanState.readIdent]
  obtain ⟨extra, hnext, hextra⟩ := nextCall_collected st' hne o.after
  refine ⟨extra, ?_, hextra.trans (not_congr ?_)⟩
  · unfold call
    rw [hstate, hcall, hnext, hsegs, hdot]
  · rw [hexpect]
    constructor
    · rintro ⟨n, hjoined, hzero⟩
      exact ⟨n, Nat.pos_of_ne_zero fun h => absurd (hzero h) (by simp), hjoined⟩
    · rintro ⟨n, hn, hjoined⟩
      exact ⟨n, hjoined, by omega⟩

/-- The call is made on the identifiers of the occurrence exactly when it is not glued. -/
theorem call_segs_iff (o : PathOccurrence stream) : o.call.1 = o.segs ↔ ¬ o.Glued := by
  obtain ⟨extra, hcall, hextra⟩ := o.call_eq
  rw [glued_iff, hcall]
  constructor
  · rintro hsegs (hbefore | hafter)
    · have hawaits := awaits_start.mpr hbefore
      have hlength := congrArg List.length hsegs
      have hcollected := List.length_pos_of_ne_nil hawaits.1
      simp only [readIdent_of_awaits hawaits, segs, List.length_append, List.length_cons,
        List.length_nil] at hlength
      omega
    · have hextra' : extra ≠ [] := fun hnil => hextra.mp hnil hafter
      have hlength := congrArg List.length hsegs
      have hmore := List.length_pos_of_ne_nil hextra'
      have hfirst := List.length_pos_of_ne_nil
        (readIdent_segs_ne_nil (stateAfter .start o.before) o.id)
      simp only [segs, List.length_append, List.length_cons] at hlength
      omega
  · intro hglued
    have hawaits : ¬ (stateAfter .start o.before).awaits := fun h =>
      hglued (.inl (awaits_start.mp h))
    have hnil : extra = [] := hextra.mpr fun hafter => hglued (.inr hafter)
    rw [readIdent_of_not_awaits hawaits, hnil, List.append_nil]
    rfl

/-- Where it is not glued, the call skips it exactly when some `.` precedes it. -/
theorem call_afterDot (o : PathOccurrence stream) (h : ¬ o.Glued) :
    o.call.2 = true ↔ dotToken o.before ≠ 0 := by
  obtain ⟨extra, hcall, _⟩ := o.call_eq
  have hawaits : ¬ (stateAfter .start o.before).awaits := fun hbefore =>
    h (o.glued_iff.mpr (.inl (awaits_start.mp hbefore)))
  rw [hcall, readIdent_of_not_awaits hawaits]
  exact prevDot_start

/-- What the call that takes it up pushes is pushed by the scan. -/
theorem call_scanned (o : PathOccurrence stream) (policy : Policy) :
    checkTokenPath policy o.call.1 o.call.2 ⊆ scanTokenTrees policy stream := by
  have hstate : stateAfter .start (o.before ++ [.ident o.id]) =
      (stateAfter .start o.before).readIdent o.id := stateAfter_append_ident _ _ _ _
  obtain ⟨front, hfront⟩ := scanLoop_append_ident policy .start o.before o.id (o.more ++ o.after)
  obtain ⟨rest, hrest⟩ := scanLoop_nextCall policy ((stateAfter .start o.before).readIdent o.id)
    (o.more ++ o.after)
  have hstream := (congrArg (scanLoop policy .start) o.tokens).trans hfront
  unfold scanTokenTrees call
  rw [hstate, hstream, hrest]
  intro v hv
  exact List.mem_append_right _ (List.mem_append_left _ hv)

/-- **One occurrence.** A flagged path that is no field name is reported exactly where no range
    operator precedes it and no doubled separator stands beside it. -/
theorem reported_iff {tokens : List TokenTree} (hwithin : Within stream tokens)
    (o : PathOccurrence stream) (policy : Policy) (hfield : ¬ o.IsFieldName) {denied : String}
    {kind : MatchKind}
    (hflagged : matchAgainstDenyList policy (joinPath o.segs) o.segs.length =
      some (denied, kind)) :
    o.Reported policy tokens (tokenViolation o.segs denied kind) ↔
      ¬ o.AfterRange ∧ ¬ o.Glued := by
  have hne : o.segs ≠ [] := by simp [segs]
  constructor
  · rintro ⟨hsegs, hpushed, _⟩
    have hglued := o.call_segs_iff.mp hsegs
    refine ⟨?_, hglued⟩
    intro hrange
    have hskip : o.call.2 = true := (o.call_afterDot hglued).mpr (by unfold AfterRange at hrange; omega)
    rw [hskip, checkTokenPath_afterDot] at hpushed
    simp at hpushed
  · rintro ⟨hrange, hglued⟩
    have hsegs := o.call_segs_iff.mpr hglued
    have hdot : dotToken o.before = 0 := by
      unfold AfterRange at hrange
      unfold IsFieldName at hfield
      omega
    have hkept : o.call.2 = false := by
      have hskip := not_congr (o.call_afterDot hglued)
      simpa [hdot] using hskip
    have hpushed : checkTokenPath policy o.call.1 o.call.2 =
        [tokenViolation o.segs denied kind] := by
      rw [hsegs, hkept]
      exact checkTokenPath_of_flagged hne hflagged
    refine ⟨hsegs, hpushed, ?_⟩
    have hscanned := o.call_scanned policy
    rw [hpushed] at hscanned
    exact hwithin.scanned policy (hscanned (List.mem_singleton_self _))

end PathOccurrence

/-! ## A whole scan -/

/-- Every path of the stream and of the groups in it, no field name and flagged by the deny
    rules, is reported by the scan. -/
def AsStrict (policy : Policy) (tokens : List TokenTree) : Prop :=
  ∀ stream, Within stream tokens → ∀ o : PathOccurrence stream, ¬ o.IsFieldName →
    ∀ denied kind,
      matchAgainstDenyList policy (joinPath o.segs) o.segs.length = some (denied, kind) →
      o.Reported policy tokens (tokenViolation o.segs denied kind)

/-- **When the fallback is as strict as the visitor.** For every policy and every token stream:
    exactly when no flagged path in it, at any depth, directly follows a range operator or
    stands beside a doubled separator. -/
theorem asStrict_iff (policy : Policy) (tokens : List TokenTree) :
    AsStrict policy tokens ↔
      ∀ stream, Within stream tokens → ∀ o : PathOccurrence stream, ¬ o.IsFieldName →
        (matchAgainstDenyList policy (joinPath o.segs) o.segs.length).isSome = true →
        ¬ o.AfterRange ∧ ¬ o.Glued := by
  constructor
  · intro hstrict stream hwithin o hfield hflagged
    obtain ⟨⟨denied, kind⟩, hflagged⟩ := Option.isSome_iff_exists.mp hflagged
    exact (o.reported_iff hwithin policy hfield hflagged).mp
      (hstrict stream hwithin o hfield denied kind hflagged)
  · intro hplaced stream hwithin o hfield denied kind hflagged
    refine (o.reported_iff hwithin policy hfield hflagged).mpr ?_
    exact hplaced stream hwithin o hfield (Option.isSome_iff_exists.mpr ⟨_, hflagged⟩)

/-! ## A range over `thread_rng()` -/

/-- The tokens of `0..thread_rng() => x`. -/
def rangeTokens : List TokenTree :=
  [.literal, .punct '.' .joint, .punct '.' .alone, .ident "thread_rng", .group [],
    .punct '=' .joint, .punct '>' .alone, .ident "x"]

/-- **The range operator hides a call.** Under the default policy `thread_rng` is flagged, and
    a macro invoked on `0..thread_rng() => x`, which is no expression list, passes the lint. -/
theorem not_asStrict_range :
    visitMacro .denyComputeImpurity ⟨false, ["dsl"]⟩ rangeTokens none = [] ∧
      ¬ AsStrict .denyComputeImpurity rangeTokens := by
  have hempty : scanTokenTrees .denyComputeImpurity rangeTokens = [] := by decide +kernel
  refine ⟨by decide +kernel, ?_⟩
  intro hstrict
  have hbefore : ¬ JoinedBefore 1
      [.literal, .punct '.' .joint, .punct '.' .alone] := by
    simp [joinedBefore_of_not_ident, not_joinedBefore_nil]
  have hafter : ¬ JoinedAfter 1
      [.group [], .punct '=' .joint, .punct '>' .alone, .ident "x"] :=
    not_joinedAfter_breaks ⟨by simp, by simp⟩
  have hrange : dotToken [.literal, .punct '.' .joint, .punct '.' .alone] ≠ 1 := by decide
  have hflagged : matchAgainstDenyList .denyComputeImpurity (joinPath ["thread_rng"]) 1 =
      some ("rand::thread_rng", .singleIdentSuffix) := by decide +kernel
  have hreported := hstrict rangeTokens (.here _)
    { before := [.literal, .punct '.' .joint, .punct '.' .alone], id := "thread_rng", ids := []
      more := [], after := _, tokens := rfl, joined := .nil, maximal_before := hbefore
      maximal_after := hafter }
    hrange "rand::thread_rng" .singleIdentSuffix hflagged
  have hmem := hreported.2.2
  rw [hempty] at hmem
  simp at hmem

end ArkheForge.Lint
