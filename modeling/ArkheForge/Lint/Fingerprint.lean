/-
  Body fingerprints of method items (`arkhe-trait-default-check`).

  `hash_default_body` prints the tokens of a method, collapses the white space of the print
  and hashes what is left. `TokenStream::to_string` is a parameter: the texts of the tokens with
  white space between them (`TokenRenderer`). Whatever the white space, the print tells the
  tokens (`TokenRenderer.render_injective`). But `normalize` does not see where tokens end.
  It collapses the white space inside literals too: what it leaves is the print of the
  squeezed tokens (`canonical_eq`), so it hides exactly the changes in how such white space
  is written (`changeSeen_iff`).
-/
import ArkheForge.Core.Blake3
import ArkheForge.Lint.DenyList
import ArkheForge.Lint.TokenText
import Mathlib.Data.List.Forall2

namespace ArkheForge.Lint

open ArkheForge.Core BigEndian

/-! ## Token streams -/

/-- A token. -/
@[ext]
structure Token where
  text : List Char
  isToken : IsToken text

namespace Token

def IsDelimiter (t : Token) : Prop := ∃ ch, t.text = [ch] ∧ isDelimiter ch = true

/-- The token with each run of white space in it collapsed to one blank. -/
def squeeze (t : Token) : Token := ⟨normalizeLoop false t.text, t.isToken.squeeze⟩

theorem IsDelimiter.squeeze {t : Token} (h : t.IsDelimiter) : t.squeeze.IsDelimiter := by
  obtain ⟨ch, htext, hch⟩ := h
  refine ⟨ch, ?_, hch⟩
  show normalizeLoop false t.text = [ch]
  rw [htext, normalizeLoop_cons (not_isWhitespace_of_isDelimiter hch)]
  rfl

/-- A token is squeezed by itself. -/
theorem normalizeLoop_append (t : Token) (rest : List Char) :
    normalizeLoop false (t.text ++ rest) = t.squeeze.text ++ normalizeLoop false rest := by
  obtain ⟨init, ch, htext, hch⟩ := t.isToken.exists_last
  have hsqueeze : t.squeeze.text = normalizeLoop false init ++ [ch] := by
    show normalizeLoop false t.text = _
    rw [htext, normalizeLoop_append_cons hch]
    rfl
  rw [hsqueeze, htext, List.append_assoc, List.singleton_append, normalizeLoop_append_cons hch,
    List.append_assoc, List.singleton_append]

end Token

/-- `TokenStream::to_string`. -/
structure TokenRenderer where
  /-- What is printed between the tokens before a place and the tokens behind it. -/
  gap : List Token → List Token → List Char
  gap_whitespace : ∀ before behind, ∀ ch ∈ gap before behind, isWhitespace ch = true
  /-- Without white space only a delimiter touches its neighbour. -/
  gap_touching : ∀ before behind t u, gap (before ++ [t]) (u :: behind) = [] →
    t.IsDelimiter ∨ u.IsDelimiter
  /-- Where there is none does not hang on the white space inside tokens. -/
  gap_squeeze : ∀ before behind, gap (before.map Token.squeeze) (behind.map Token.squeeze) = [] ↔
    gap before behind = []

namespace TokenRenderer

variable (r : TokenRenderer)

/-- The print behind some tokens. -/
def renderRest : List Token → List Token → List Char
  | _, [] => []
  | before, t :: behind =>
    r.gap before (t :: behind) ++ t.text ++ renderRest (before ++ [t]) behind

def render : List Token → List Char
  | [] => []
  | t :: behind => t.text ++ r.renderRest [t] behind

/-- The print as a string. -/
def toString (tokens : List Token) : String := String.ofList (r.render tokens)

/-! ## The print tells the tokens -/

/-- A token may end before the rest of the print, or it is a delimiter. -/
theorem ends_renderRest (before : List Token) (t : Token) (behind : List Token) :
    Ends (r.renderRest (before ++ [t]) behind) ∨ t.IsDelimiter := by
  cases behind with
  | nil => exact .inl fun ch hch => absurd hch (by simp [renderRest])
  | cons u behind =>
      rw [renderRest]
      cases hgap : r.gap (before ++ [t]) (u :: behind) with
      | nil =>
          rcases r.gap_touching before behind t u hgap with ht | ⟨ch, htext, hch⟩
          · exact .inr ht
          · left
            intro c hc
            rw [htext] at hc
            obtain rfl : ch = c := Option.some.inj hc
            exact .inr hch
      | cons space gap =>
          left
          intro c hc
          obtain rfl : space = c := Option.some.inj hc
          refine .inl (r.gap_whitespace (before ++ [t]) (u :: behind) space ?_)
          rw [hgap]
          exact List.mem_cons_self

theorem afterToken_render (before : List Token) (t : Token) (behind : List Token) :
    afterToken (t.text ++ r.renderRest (before ++ [t]) behind) =
      r.renderRest (before ++ [t]) behind :=
  afterToken_append t.isToken (r.ends_renderRest before t behind)

/-- White space ends where the next token begins. -/
theorem dropWhile_renderRest (before : List Token) (t : Token) (behind : List Token) :
    (r.renderRest before (t :: behind)).dropWhile isWhitespace =
      t.text ++ r.renderRest (before ++ [t]) behind := by
  obtain ⟨ch, rest, htext, hch⟩ := t.isToken.exists_first
  rw [renderRest, List.append_assoc, List.dropWhile_append_of_pos (r.gap_whitespace _ _), htext,
    List.cons_append, List.dropWhile_cons_of_neg (by simp [hch])]

theorem renderRest_ne_nil (before : List Token) (t : Token) (behind : List Token) :
    r.renderRest before (t :: behind) ≠ [] := by
  obtain ⟨ch, rest, htext, -⟩ := t.isToken.exists_first
  rw [renderRest, htext]
  simp

/-- Equal prints begin with the same token, and go on alike. -/
theorem head_eq_of_render_eq {before before' : List Token} {t u : Token} {ts us : List Token}
    (h : t.text ++ r.renderRest (before ++ [t]) ts = u.text ++ r.renderRest (before' ++ [u]) us) :
    t = u ∧ r.renderRest (before ++ [t]) ts = r.renderRest (before' ++ [u]) us := by
  have hrest : r.renderRest (before ++ [t]) ts = r.renderRest (before' ++ [u]) us := by
    rw [← r.afterToken_render before t ts, h, r.afterToken_render]
  rw [hrest] at h
  exact ⟨Token.ext (List.append_cancel_right h), hrest⟩

theorem tokens_eq_of_renderRest_eq {before before' : List Token} {ts us : List Token}
    (h : r.renderRest before ts = r.renderRest before' us) : ts = us := by
  induction ts generalizing before before' us with
  | nil =>
      cases us with
      | nil => rfl
      | cons u us => exact absurd h.symm (r.renderRest_ne_nil before' u us)
  | cons t ts ih =>
      cases us with
      | nil => exact absurd h (r.renderRest_ne_nil before t ts)
      | cons u us =>
          have hprint : t.text ++ r.renderRest (before ++ [t]) ts =
              u.text ++ r.renderRest (before' ++ [u]) us := by
            rw [← r.dropWhile_renderRest, ← r.dropWhile_renderRest, h]
          obtain ⟨rfl, hrest⟩ := r.head_eq_of_render_eq hprint
          rw [ih hrest]

/-- **The print tells the tokens.** -/
theorem render_injective : Function.Injective r.render := by
  intro ts us h
  cases ts with
  | nil =>
      cases us with
      | nil => rfl
      | cons u us =>
          obtain ⟨ch, rest, htext, -⟩ := u.isToken.exists_first
          rw [render, render, htext] at h
          exact absurd h (by simp)
  | cons t ts =>
      cases us with
      | nil =>
          obtain ⟨ch, rest, htext, -⟩ := t.isToken.exists_first
          rw [render, render, htext] at h
          exact absurd h (by simp)
      | cons u us =>
          have hprint : t.text ++ r.renderRest ([] ++ [t]) ts =
              u.text ++ r.renderRest ([] ++ [u]) us := h
          obtain ⟨rfl, hrest⟩ := r.head_eq_of_render_eq hprint
          rw [r.tokens_eq_of_renderRest_eq hrest]

/-! ## What the loop makes of the print -/

/-- The renderer that prints one blank where this one prints white space. -/
def squeezed : TokenRenderer where
  gap before behind := if r.gap before behind = [] then [] else [' ']
  gap_whitespace := by
    intro before behind ch hch
    split at hch
    · exact absurd hch List.not_mem_nil
    · obtain rfl := List.mem_singleton.mp hch
      decide
  gap_touching := by
    intro before behind t u h
    split at h
    · next hgap => exact r.gap_touching before behind t u hgap
    · exact absurd h (List.cons_ne_nil ' ' [])
  gap_squeeze := by
    intro before behind
    simp only [r.gap_squeeze]

theorem squeezed_gap_map (before behind : List Token) :
    r.squeezed.gap (before.map Token.squeeze) (behind.map Token.squeeze) =
      if r.gap before behind = [] then [] else [' '] := by
  show (if r.gap (before.map Token.squeeze) (behind.map Token.squeeze) = [] then [] else [' ']) = _
  simp only [r.gap_squeeze]

/-- Induction over the tokens: the loop prints each squeezed, and a blank for a gap. -/
theorem normalizeLoop_renderRest (before behind : List Token) :
    normalizeLoop false (r.renderRest before behind) =
      r.squeezed.renderRest (before.map Token.squeeze) (behind.map Token.squeeze) := by
  induction behind generalizing before with
  | nil => rfl
  | cons t behind ih =>
      obtain ⟨ch, rest, htext, hch⟩ := t.isToken.exists_first
      have hgap := r.squeezed_gap_map before (t :: behind)
      rw [List.map_cons] at hgap ⊢
      have hafter : normalizeLoop false (t.text ++ r.renderRest (before ++ [t]) behind) =
          t.squeeze.text ++
            r.squeezed.renderRest ((before ++ [t]).map Token.squeeze)
              (behind.map Token.squeeze) := by
        rw [t.normalizeLoop_append, ih]
      rw [renderRest, renderRest, hgap, List.append_assoc, List.append_assoc, htext,
        List.cons_append, (normalizeLoop_whitespace (r.gap_whitespace _ _) hch _).2,
        ← normalizeLoop_cons hch false, ← List.cons_append, ← htext, hafter, List.map_append,
        List.map_singleton]

/-- The print begins with a token. -/
theorem normalizeLoop_render (tokens : List Token) :
    normalizeLoop true (r.render tokens) = r.squeezed.render (tokens.map Token.squeeze) := by
  cases tokens with
  | nil => rfl
  | cons t behind =>
      obtain ⟨ch, rest, htext, hch⟩ := t.isToken.exists_first
      have hstart : normalizeLoop true (t.text ++ r.renderRest [t] behind) =
          normalizeLoop false (t.text ++ r.renderRest [t] behind) := by
        rw [htext, List.cons_append, normalizeLoop_cons hch, normalizeLoop_cons hch]
      rw [render, hstart, t.normalizeLoop_append, normalizeLoop_renderRest]
      rfl

/-- And ends with one. -/
theorem exists_last_render (before : List Token) (t : Token) (behind : List Token) :
    ∃ init ch, t.text ++ r.renderRest before behind = init ++ [ch] ∧ isWhitespace ch = false := by
  induction behind generalizing before t with
  | nil =>
      obtain ⟨init, ch, htext, hch⟩ := t.isToken.exists_last
      exact ⟨init, ch, by rw [renderRest, List.append_nil, htext], hch⟩
  | cons u behind ih =>
      obtain ⟨init, ch, hrest, hch⟩ := ih (before ++ [u]) u
      refine ⟨t.text ++ r.gap before (u :: behind) ++ init, ch, ?_, hch⟩
      rw [renderRest, List.append_assoc, hrest]
      simp only [List.append_assoc]

theorem getLast?_render (tokens : List Token) : (r.render tokens).getLast? ≠ some ' ' := by
  cases tokens with
  | nil => simp [render]
  | cons t behind =>
      obtain ⟨init, ch, hrender, hch⟩ := r.exists_last_render [t] t behind
      rw [render, hrender, List.getLast?_append]
      intro h
      obtain rfl : ch = ' ' := Option.some.inj h
      exact absurd hch (by decide)

end TokenRenderer

/-! ## Fingerprints -/

/-- `syn::Type`, as far as it is looked at. -/
inductive SelfTy
  | path (path : Path)
  | other
  deriving DecidableEq, Repr

/-- `syn::ImplItemFn`: the identifier of its signature and the tokens of all of it. -/
structure ImplItemFn where
  ident : String
  tokens : List Token

/-- `syn::ImplItem`. -/
inductive ImplItem
  | fn (func : ImplItemFn)
  | other

/-- `syn::ItemImpl`. -/
structure ItemImpl where
  traitPath : Option Path
  selfTy : SelfTy
  items : List ImplItem

structure TraitDefaultFingerprint where
  traitName : String
  implFor : String
  methodName : String
  bodyHash : String
  deriving DecidableEq, Repr

def pathIdentLast (path : Path) : String := path.segments.getLast?.getD ""

def typeIdentLast : SelfTy → String
  | .path path => pathIdentLast path
  | .other => "<complex>"

/-- Consecutive white space to one blank, none at the ends. -/
def normalize (s : String) : String :=
  let out := normalizeLoop true s.toList
  String.ofList (if out.getLast? = some ' ' then out.dropLast else out)

def hexDigit (n : ℕ) : Char :=
  ['0', '1', '2', '3', '4', '5', '6', '7', '8', '9', 'a', 'b', 'c', 'd', 'e', 'f'].getD n '0'

/-- `Hash::to_hex`. -/
def toHex (digest : Bytes) : String :=
  String.ofList (digest.flatMap fun b => [hexDigit (b.toNat / 16), hexDigit (b.toNat % 16)])

/-- `str::as_bytes`. -/
def asBytes (s : String) : Bytes := s.toUTF8.data.toList

/-- The local `canonical` of `hash_default_body`. -/
def ImplItemFn.canonical (r : TokenRenderer) (func : ImplItemFn) : String :=
  normalize (r.toString func.tokens)

def hashDefaultBody [Blake3Hash] (r : TokenRenderer) (item : ItemImpl) :
    List TraitDefaultFingerprint :=
  let traitName := (item.traitPath.map pathIdentLast).getD "<inherent>"
  let implFor := typeIdentLast item.selfTy
  item.items.filterMap fun ii =>
    match ii with
    | .fn func => some
        { traitName := traitName
          implFor := implFor
          methodName := func.ident
          bodyHash := toHex (Blake3Hash.hash (asBytes (func.canonical r))) }
    | .other => none

/-- The methods of an impl. -/
def ItemImpl.fns (item : ItemImpl) : List ImplItemFn :=
  item.items.filterMap fun ii =>
    match ii with
    | .fn func => some func
    | .other => none

/-! ## Hashes of texts -/

theorem hexDigit_inj : ∀ m < 16, ∀ n < 16, hexDigit m = hexDigit n → m = n := by decide

theorem toHex_injective : Function.Injective toHex := by
  intro d e h
  have hdigits := String.ofList_injective h
  induction d generalizing e with
  | nil =>
      cases e with
      | nil => rfl
      | cons b e => exact absurd hdigits (by simp)
  | cons b d ih =>
      cases e with
      | nil => exact absurd hdigits (by simp)
      | cons c e =>
          rw [List.flatMap_cons, List.flatMap_cons] at hdigits
          obtain ⟨hpair, hrest⟩ := List.append_inj hdigits rfl
          have hhigh := hexDigit_inj _ (by have := b.toNat_lt; omega) _
            (by have := c.toNat_lt; omega) (List.head_eq_of_cons_eq hpair)
          have hlow := hexDigit_inj _ (Nat.mod_lt _ (by decide)) _ (Nat.mod_lt _ (by decide))
            (List.head_eq_of_cons_eq (List.tail_eq_of_cons_eq hpair))
          have hbyte : b = c := UInt8.toNat_inj.mp (by omega)
          rw [hbyte, ih (by rw [toHex, toHex, hrest]) hrest]

theorem asBytes_injective : Function.Injective asBytes := by
  intro s t h
  exact String.toByteArray_inj.mp (ByteArray.ext (Array.toList_inj.mp h))

theorem hashDefaultBody_eq [Blake3Hash] (r : TokenRenderer) (item : ItemImpl) :
    hashDefaultBody r item = item.fns.map fun func =>
      { traitName := (item.traitPath.map pathIdentLast).getD "<inherent>"
        implFor := typeIdentLast item.selfTy
        methodName := func.ident
        bodyHash := toHex (Blake3Hash.hash (asBytes (func.canonical r))) } := by
  unfold hashDefaultBody ItemImpl.fns
  rw [List.map_filterMap]
  refine List.filterMap_congr fun ii _ => ?_
  cases ii with
  | fn func => rfl
  | other => rfl

/-- The fingerprint that an impl gives one of its methods. -/
theorem bodyHash_of_mem_zip [Blake3Hash] {r : TokenRenderer} {item : ItemImpl} {f : ImplItemFn}
    {a : TraitDefaultFingerprint} (h : (f, a) ∈ item.fns.zip (hashDefaultBody r item)) :
    a.bodyHash = toHex (Blake3Hash.hash (asBytes (f.canonical r))) := by
  rw [hashDefaultBody_eq, ← List.map_prod_left_eq_zip] at h
  obtain ⟨func, -, heq⟩ := List.mem_map.mp h
  obtain ⟨rfl, rfl⟩ := Prod.mk.inj heq
  rfl

/-! ## Changes that the gate sees -/

theorem ImplItemFn.canonical_eq (r : TokenRenderer) (f : ImplItemFn) :
    f.canonical r = r.squeezed.toString (f.tokens.map Token.squeeze) := by
  unfold canonical normalize TokenRenderer.toString
  rw [String.toList_ofList, r.normalizeLoop_render]
  dsimp only
  rw [if_neg (r.squeezed.getLast?_render _)]

theorem Token.squeeze_eq_iff {t u : Token} :
    t.squeeze = u.squeeze ↔ SameButSpace t.text u.text := by
  rw [sameButSpace_iff, Token.ext_iff]
  rfl

theorem map_squeeze_eq_iff {ts us : List Token} :
    ts.map Token.squeeze = us.map Token.squeeze ↔
      List.Forall₂ (fun t u : Token => SameButSpace t.text u.text) ts us := by
  rw [← List.forall₂_eq_eq_eq, List.forall₂_map_left_iff, List.forall₂_map_right_iff]
  simp only [Token.squeeze_eq_iff]

/-- The methods differ at most in how white space inside tokens is written. -/
def SameButSpaceInside (f g : ImplItemFn) : Prop :=
  List.Forall₂ (fun t u : Token => SameButSpace t.text u.text) f.tokens g.tokens

theorem canonical_eq_iff (r : TokenRenderer) (f g : ImplItemFn) :
    f.canonical r = g.canonical r ↔ SameButSpaceInside f g := by
  unfold SameButSpaceInside
  rw [← map_squeeze_eq_iff, f.canonical_eq, g.canonical_eq]
  constructor
  · intro h
    exact r.squeezed.render_injective (String.ofList_injective h)
  · intro h
    rw [h]

/-- A change of the tokens changes the text that is hashed, and the body hash. -/
def ChangeSeen (r : TokenRenderer) (f g : ImplItemFn) (a b : TraitDefaultFingerprint) : Prop :=
  f.tokens ≠ g.tokens → f.canonical r ≠ g.canonical r ∧ a.bodyHash ≠ b.bodyHash

/-- **Which changes the fingerprint sees.** For the fingerprints of any two methods whose
    texts the hash tells apart: all but those of white space inside tokens. -/
theorem changeSeen_iff [Blake3Hash] (r : TokenRenderer) {item item' : ItemImpl}
    {f g : ImplItemFn} {a b : TraitDefaultFingerprint}
    (ha : (f, a) ∈ item.fns.zip (hashDefaultBody r item))
    (hb : (g, b) ∈ item'.fns.zip (hashDefaultBody r item'))
    (hhash : Blake3Hash.hash (asBytes (f.canonical r)) =
      Blake3Hash.hash (asBytes (g.canonical r)) →
        asBytes (f.canonical r) = asBytes (g.canonical r)) :
    ChangeSeen r f g a b ↔ (SameButSpaceInside f g → f.tokens = g.tokens) := by
  unfold ChangeSeen
  rw [← canonical_eq_iff r, bodyHash_of_mem_zip ha, bodyHash_of_mem_zip hb]
  constructor
  · intro hseen heq
    by_contra hne
    exact (hseen hne).1 heq
  · intro hsame hne
    have htext : f.canonical r ≠ g.canonical r := fun heq => hne (hsame heq)
    refine ⟨htext, fun hdigest => htext ?_⟩
    exact asBytes_injective (hhash (toHex_injective hdigest))

/-! ## The renderer of `proc_macro2`, and three methods -/

/-- Nothing is printed between these: parentheses and brackets hug what they hold. -/
def hugs (t u : Token) : Bool := t.text ∈ [['('], ['[']] || u.text ∈ [[')'], [']']]

def fallbackGap (before behind : List Token) : List Char :=
  match before.getLast?, behind.head? with
  | some t, some u => if hugs t u then [] else [' ']
  | _, _ => [' ']

/-- Squeezing makes no delimiter of another token. -/
theorem Token.squeeze_text_eq_singleton (t : Token) (ch : Char) :
    t.squeeze.text = [ch] ↔ t.text = [ch] := by
  obtain ⟨c, rest, htext, hc⟩ := t.isToken.exists_first
  show normalizeLoop false t.text = [ch] ↔ _
  rw [htext, normalizeLoop_cons hc]
  cases rest with
  | nil => rfl
  | cons d rest =>
      have hlonger : normalizeLoop false (d :: rest) ≠ [] := by
        rw [normalizeLoop]
        split
        · exact List.cons_ne_nil ' ' _
        · exact List.cons_ne_nil d _
      simp [hlonger]

theorem hugs_iff {t u : Token} :
    hugs t u = true ↔ (t.text = ['('] ∨ t.text = ['[']) ∨ u.text = [')'] ∨ u.text = [']'] := by
  simp [hugs]

theorem hugs_squeeze (t u : Token) : hugs t.squeeze u.squeeze = hugs t u := by
  rw [Bool.eq_iff_iff, hugs_iff, hugs_iff]
  simp only [Token.squeeze_text_eq_singleton]

theorem isDelimiter_of_hugs {t u : Token} (h : hugs t u = true) :
    t.IsDelimiter ∨ u.IsDelimiter := by
  rcases hugs_iff.mp h with (htext | htext) | htext | htext
  · exact .inl ⟨_, htext, by decide⟩
  · exact .inl ⟨_, htext, by decide⟩
  · exact .inr ⟨_, htext, by decide⟩
  · exact .inr ⟨_, htext, by decide⟩

theorem fallbackGap_eq (before behind : List Token) :
    fallbackGap before behind = [] ∨ fallbackGap before behind = [' '] := by
  unfold fallbackGap
  split
  · split
    · exact .inl rfl
    · exact .inr rfl
  · exact .inr rfl

theorem fallbackGap_whitespace (before behind : List Token) :
    ∀ ch ∈ fallbackGap before behind, isWhitespace ch = true := by
  intro ch hch
  rcases fallbackGap_eq before behind with hgap | hgap
  · rw [hgap] at hch
    exact absurd hch List.not_mem_nil
  · rw [hgap] at hch
    rw [List.mem_singleton.mp hch]
    decide

theorem fallbackGap_touching (before behind : List Token) (t u : Token)
    (h : fallbackGap (before ++ [t]) (u :: behind) = []) : t.IsDelimiter ∨ u.IsDelimiter := by
  unfold fallbackGap at h
  rw [List.getLast?_append, List.head?_cons] at h
  dsimp only [List.getLast?_singleton, Option.some_or] at h
  split at h
  · next hhugs => exact isDelimiter_of_hugs hhugs
  · exact absurd h (List.cons_ne_nil ' ' [])

theorem fallbackGap_squeeze (before behind : List Token) :
    fallbackGap (before.map Token.squeeze) (behind.map Token.squeeze) = [] ↔
      fallbackGap before behind = [] := by
  unfold fallbackGap
  rw [List.getLast?_map, List.head?_map]
  cases before.getLast? with
  | none => rfl
  | some t =>
      cases behind.head? with
      | none => rfl
      | some u =>
          dsimp only [Option.map_some]
          rw [hugs_squeeze]

/-- `Display` for a `TokenStream` outside a macro. -/
def fallbackRenderer : TokenRenderer where
  gap := fallbackGap
  gap_whitespace := fallbackGap_whitespace
  gap_touching := fallbackGap_touching
  gap_squeeze := fallbackGap_squeeze

theorem isToken_plain {text : List Char} (h : (!text.isEmpty && text.all isPlain) = true) :
    IsToken text := by
  rw [Bool.and_eq_true, List.all_eq_true] at h
  refine .plain ?_ h.2
  rintro rfl
  exact absurd h.1 (by decide)

theorem cooked_of_all {body : List Char}
    (h : (body.all fun ch => ch != '"' && ch != '\\') = true) : Cooked body := by
  induction body with
  | nil => exact .nil
  | cons ch body ih =>
      rw [List.all_cons, Bool.and_eq_true, Bool.and_eq_true] at h
      exact .char (by simpa using h.1.1) (by simpa using h.1.2) (ih h.2)

def plainToken (text : List Char) (h : (!text.isEmpty && text.all isPlain) = true) : Token :=
  ⟨text, isToken_plain h⟩

def delimiterToken (ch : Char) (h : isDelimiter ch = true) : Token := ⟨[ch], .delimiter h⟩

theorem isToken_string {body : List Char}
    (h : (body.all fun ch => ch != '"' && ch != '\\') = true) :
    IsToken ('"' :: (body ++ ['"'])) :=
  .string (List.forall_mem_nil _) rfl (cooked_of_all h) (List.forall_mem_nil _)

def stringToken (body : List Char) (h : (body.all fun ch => ch != '"' && ch != '\\') = true) :
    Token := ⟨'"' :: (body ++ ['"']), isToken_string h⟩

/-- `fn hello() -> T { <body> }`. -/
def hello (returned body : Token) : ImplItemFn where
  ident := "hello"
  tokens := [plainToken ['f', 'n'] rfl, plainToken ['h', 'e', 'l', 'l', 'o'] rfl,
    delimiterToken '(' rfl, delimiterToken ')' rfl, plainToken ['-', '>'] rfl, returned,
    delimiterToken '{' rfl, body, delimiterToken '}' rfl]

def answer (text : List Char) (h : (!text.isEmpty && text.all isPlain) = true) : ImplItemFn :=
  hello (plainToken ['u', '3', '2'] rfl) (plainToken text h)

def greeting (body : List Char) (h : (body.all fun ch => ch != '"' && ch != '\\') = true) :
    ImplItemFn :=
  hello (plainToken ['S'] rfl) (stringToken body h)

/-- `impl MyTrait for MyType` with one method. -/
def implOf (func : ImplItemFn) : ItemImpl where
  traitPath := some ⟨false, ["MyTrait"]⟩
  selfTy := .path ⟨false, ["MyType"]⟩
  items := [.fn func]

attribute [local instance] oneChunkBlake3Hash

/-- The fingerprint of its method. -/
def fingerprintOf (func : ImplItemFn) : TraitDefaultFingerprint :=
  (hashDefaultBody fallbackRenderer (implOf func)).headD ⟨"", "", "", ""⟩

theorem mem_zip_implOf (func : ImplItemFn) :
    (func, fingerprintOf func) ∈ (implOf func).fns.zip
      (hashDefaultBody fallbackRenderer (implOf func)) := by
  show _ ∈ [(func, fingerprintOf func)]
  exact List.mem_singleton_self _

example : (greeting ['a', ' ', ' ', 'b'] rfl).canonical fallbackRenderer =
    "fn hello () -> S \x7b \"a b\" \x7d" := by decide +kernel

theorem changeSeen_answer : ChangeSeen fallbackRenderer (answer ['4', '2'] rfl)
    (answer ['4', '3'] rfl) (fingerprintOf (answer ['4', '2'] rfl))
    (fingerprintOf (answer ['4', '3'] rfl)) := by
  refine (changeSeen_iff fallbackRenderer (mem_zip_implOf _) (mem_zip_implOf _) ?_).mpr ?_
  · intro h
    exact absurd h (by decide +kernel)
  · intro h
    have htexts := congrArg (List.map Token.text) (map_squeeze_eq_iff.mpr h)
    exact absurd htexts (by decide +kernel)

/-- A method that returns `"a  b"` has the fingerprint of one that returns `"a b"`. -/
theorem not_changeSeen_greeting : ¬ ChangeSeen fallbackRenderer
    (greeting ['a', ' ', ' ', 'b'] rfl) (greeting ['a', ' ', 'b'] rfl)
    (fingerprintOf (greeting ['a', ' ', ' ', 'b'] rfl))
    (fingerprintOf (greeting ['a', ' ', 'b'] rfl)) := by
  intro h
  have htokens : (greeting ['a', ' ', ' ', 'b'] rfl).tokens ≠
      (greeting ['a', ' ', 'b'] rfl).tokens := by
    intro heq
    exact absurd (congrArg (List.map Token.text) heq) (by decide)
  have hsame : (greeting ['a', ' ', ' ', 'b'] rfl).canonical fallbackRenderer =
      (greeting ['a', ' ', 'b'] rfl).canonical fallbackRenderer := by decide +kernel
  exact (h htokens).1 hsame

end ArkheForge.Lint
