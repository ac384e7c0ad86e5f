/-
  Texts of tokens, and the loop of `normalize` over them (`arkhe-trait-default-check`).

  `IsToken` says which texts are one token: delimiters, runs of plain characters
  (identifiers, numbers, operators), lifetimes, and the literals between quotes. A run of
  joint punctuation, and a quote it is joint with, counts as one token here. A text that
  starts with a token tells where the token ends, as long as white space, a delimiter or
  nothing follows (`afterToken_append`). What the loop hides is how white space is written
  (`sameButSpace_iff`), and only literals have some inside. It leaves every token a token
  (`IsToken.squeeze`).
-/
import Mathlib.Data.List.Basic
import Mathlib.Logic.Relation

namespace ArkheForge.Lint

/-! ## Characters -/

/-- `char::is_whitespace`. -/
def isWhitespace (ch : Char) : Bool :=
  ch.toNat ∈ [0x09, 0x0A, 0x0B, 0x0C, 0x0D, 0x20, 0x85, 0xA0, 0x1680, 0x2000, 0x2001, 0x2002,
    0x2003, 0x2004, 0x2005, 0x2006, 0x2007, 0x2008, 0x2009, 0x200A, 0x2028, 0x2029, 0x202F,
    0x205F, 0x3000]

def isDelimiter (ch : Char) : Bool := ch ∈ ['(', ')', '[', ']', '{', '}']

/-- A character that neither ends a token nor opens a literal. -/
def isPlain (ch : Char) : Bool := !isWhitespace ch && !isDelimiter ch && ch ≠ '"' && ch ≠ '\''

theorem not_isWhitespace_of_isPlain {ch : Char} (h : isPlain ch = true) :
    isWhitespace ch = false := by
  unfold isPlain at h
  simp only [Bool.and_eq_true, Bool.not_eq_true'] at h
  exact h.1.1.1

theorem not_isWhitespace_of_isDelimiter {ch : Char} (h : isDelimiter ch = true) :
    isWhitespace ch = false := by
  have hcases : ch = '(' ∨ ch = ')' ∨ ch = '[' ∨ ch = ']' ∨ ch = '{' ∨ ch = '}' := by
    simpa [isDelimiter] using h
  rcases hcases with rfl | rfl | rfl | rfl | rfl | rfl
  all_goals decide

/-- No white space inside. -/
def Solid (text : List Char) : Prop := ∀ ch ∈ text, isWhitespace ch = false

theorem solid_cons {ch : Char} {text : List Char} :
    Solid (ch :: text) ↔ isWhitespace ch = false ∧ Solid text := List.forall_mem_cons

theorem solid_append {text rest : List Char} : Solid (text ++ rest) ↔ Solid text ∧ Solid rest :=
  List.forall_mem_append

theorem solid_of_isPlain {text : List Char} (h : ∀ ch ∈ text, isPlain ch = true) : Solid text :=
  fun ch hch => not_isWhitespace_of_isPlain (h ch hch)

/-! ## The loop -/

/-- The loop of `normalize`: what it pushes for the characters, `prevWs` being its local. -/
def normalizeLoop : Bool → List Char → List Char
  | _, [] => []
  | prevWs, ch :: rest =>
    if isWhitespace ch then
      if prevWs then normalizeLoop true rest else ' ' :: normalizeLoop true rest
    else ch :: normalizeLoop false rest

theorem normalizeLoop_cons {ch : Char} (h : isWhitespace ch = false) (prevWs : Bool)
    (rest : List Char) : normalizeLoop prevWs (ch :: rest) = ch :: normalizeLoop false rest := by
  rw [normalizeLoop, h]
  rfl

/-- White space is read as one blank, or as none behind white space. -/
theorem normalizeLoop_whitespace {gap : List Char} (h : ∀ ch ∈ gap, isWhitespace ch = true)
    {ch : Char} (hch : isWhitespace ch = false) (rest : List Char) :
    normalizeLoop true (gap ++ ch :: rest) = ch :: normalizeLoop false rest ∧
      normalizeLoop false (gap ++ ch :: rest) =
        (if gap = [] then [] else [' ']) ++ ch :: normalizeLoop false rest := by
  induction gap with
  | nil => exact ⟨normalizeLoop_cons hch true rest, normalizeLoop_cons hch false rest⟩
  | cons space gap ih =>
      have hspace := h space (List.mem_cons_self ..)
      obtain ⟨hafter, -⟩ := ih fun ch hch => h ch (List.mem_cons_of_mem _ hch)
      rw [List.cons_append]
      constructor
      · rw [normalizeLoop, if_pos hspace]
        exact hafter
      · rw [normalizeLoop, if_pos hspace, hafter, if_neg (List.cons_ne_nil space gap)]
        rfl

/-- A character that is no white space cuts the text in two. -/
theorem normalizeLoop_append_cons {ch : Char} (h : isWhitespace ch = false) (prevWs : Bool)
    (before rest : List Char) :
    normalizeLoop prevWs (before ++ ch :: rest) =
      normalizeLoop prevWs before ++ ch :: normalizeLoop false rest := by
  induction before generalizing prevWs with
  | nil => exact normalizeLoop_cons h prevWs rest
  | cons c before ih =>
      rw [List.cons_append, normalizeLoop, normalizeLoop]
      split
      · split
        · exact ih true
        · rw [ih true]
          rfl
      · rw [ih false]
        rfl

/-- Text without white space stays as it is. -/
theorem Solid.normalizeLoop_eq {text : List Char} (h : Solid text) (prevWs : Bool) :
    normalizeLoop prevWs text = text := by
  induction text generalizing prevWs with
  | nil => rfl
  | cons ch text ih =>
      obtain ⟨hch, htext⟩ := solid_cons.mp h
      rw [normalizeLoop_cons hch, ih htext]

/-- Also behind other text. -/
theorem Solid.normalizeLoop_append {last : List Char} (h : Solid last) (hne : last ≠ [])
    (prevWs : Bool) (before : List Char) :
    normalizeLoop prevWs (before ++ last) = normalizeLoop prevWs before ++ last := by
  obtain ⟨ch, last, rfl⟩ := List.exists_cons_of_ne_nil hne
  obtain ⟨hch, hlast⟩ := solid_cons.mp h
  rw [normalizeLoop_append_cons hch, hlast.normalizeLoop_eq]

/-- Text without white space, found in the result, was in the text. -/
theorem prefix_of_prefix_normalizeLoop {part text : List Char}
    (hpart : Solid part) (h : part <+: normalizeLoop false text) :
    part <+: text := by
  induction part generalizing text with
  | nil => exact List.nil_prefix
  | cons c part ih =>
      obtain ⟨hc, hrestSolid⟩ := solid_cons.mp hpart
      cases text with
      | nil => exact h
      | cons ch text =>
          rw [normalizeLoop] at h
          split at h
          · next hws =>
              rw [if_neg Bool.false_ne_true] at h
              obtain ⟨heq, -⟩ := List.cons_prefix_cons.mp h
              rw [heq] at hc
              exact absurd hc (by decide)
          · obtain ⟨rfl, hrest⟩ := List.cons_prefix_cons.mp h
            exact List.cons_prefix_cons.mpr
              ⟨rfl, ih hrestSolid hrest⟩

theorem infix_of_infix_normalizeLoop {part text : List Char} (hne : part ≠ [])
    (hpart : Solid part) {prevWs : Bool}
    (h : part <:+: normalizeLoop prevWs text) : part <:+: text := by
  induction text generalizing prevWs with
  | nil => exact h
  | cons ch text ih =>
      have hstep : ∀ rest, part <:+: normalizeLoop rest text → part <:+: ch :: text :=
        fun rest hrest => (ih hrest).trans (List.suffix_cons ch text).isInfix
      cases hws : isWhitespace ch with
      | false =>
          rw [normalizeLoop_cons hws] at h
          rcases List.infix_cons_iff.mp h with hprefix | hrest
          · have hwhole : part <+: normalizeLoop false (ch :: text) := by
              rw [normalizeLoop_cons hws]
              exact hprefix
            exact (prefix_of_prefix_normalizeLoop hpart hwhole).isInfix
          · exact hstep false hrest
      | true =>
          rw [normalizeLoop, if_pos hws] at h
          split at h
          · exact hstep true h
          · rcases List.infix_cons_iff.mp h with hprefix | hrest
            · obtain ⟨c, part, rfl⟩ := List.exists_cons_of_ne_nil hne
              obtain ⟨rfl, -⟩ := List.cons_prefix_cons.mp hprefix
              exact absurd (solid_cons.mp hpart).1 (by decide)
            · exact hstep true hrest

/-! ## What the loop does not see -/

/-- White space is written otherwise in one place, where there is some in both texts. -/
inductive Respaced : List Char → List Char → Prop
  | mk {space space' : List Char} (hne : space ≠ []) (hne' : space' ≠ [])
      (h : ∀ ch ∈ space, isWhitespace ch = true) (h' : ∀ ch ∈ space', isWhitespace ch = true)
      (before behind : List Char) :
      Respaced (before ++ (space ++ behind)) (before ++ (space' ++ behind))

/-- The texts differ in how white space is written, not in where. -/
def SameButSpace : List Char → List Char → Prop := Relation.ReflTransGen Respaced

theorem Respaced.symm {text text' : List Char} (h : Respaced text text') :
    Respaced text' text := by
  obtain ⟨hne, hne', hspace, hspace', before, behind⟩ := h
  exact .mk hne' hne hspace' hspace before behind

theorem Respaced.cons {text text' : List Char} (h : Respaced text text') (ch : Char) :
    Respaced (ch :: text) (ch :: text') := by
  obtain ⟨hne, hne', hspace, hspace', before, behind⟩ := h
  exact .mk hne hne' hspace hspace' (ch :: before) behind

theorem SameButSpace.cons {text text' : List Char} (h : SameButSpace text text') (ch : Char) :
    SameButSpace (ch :: text) (ch :: text') :=
  h.lift (List.cons ch) fun _ _ hstep => hstep.cons ch

theorem SameButSpace.symm {text text' : List Char} (h : SameButSpace text text') :
    SameButSpace text' text := by
  induction h with
  | refl => exact .refl
  | tail _ hstep ih => exact ih.head hstep.symm

theorem normalizeLoop_space {space : List Char} (hne : space ≠ [])
    (h : ∀ ch ∈ space, isWhitespace ch = true) (behind : List Char) :
    ∀ prevWs, normalizeLoop prevWs (space ++ behind) =
      (if prevWs = true then [] else [' ']) ++ normalizeLoop true behind := by
  induction space with
  | nil => exact absurd rfl hne
  | cons ch space ih =>
      intro prevWs
      have hafter : normalizeLoop true (space ++ behind) = normalizeLoop true behind := by
        cases space with
        | nil => rfl
        | cons c space =>
            exact ih (List.cons_ne_nil c space) (fun d hd => h d (List.mem_cons_of_mem ch hd)) true
      rw [List.cons_append, normalizeLoop, if_pos (h ch List.mem_cons_self), hafter]
      split
      · rfl
      · rfl

theorem Respaced.normalizeLoop_eq {text text' : List Char} (h : Respaced text text')
    (prevWs : Bool) : normalizeLoop prevWs text = normalizeLoop prevWs text' := by
  obtain ⟨hne, hne', hspace, hspace', before, behind⟩ := h
  induction before generalizing prevWs with
  | nil =>
      rw [List.nil_append, List.nil_append, normalizeLoop_space hne hspace,
        normalizeLoop_space hne' hspace']
  | cons ch before ih => rw [List.cons_append, List.cons_append, normalizeLoop, normalizeLoop, ih, ih]

/-- The loop writes white space otherwise and does nothing else; behind white space too, as
    the first part says. -/
theorem sameButSpace_normalizeLoop (text : List Char) :
    SameButSpace (' ' :: text) (' ' :: normalizeLoop true text) ∧
      SameButSpace text (normalizeLoop false text) := by
  induction text with
  | nil => exact ⟨.refl, .refl⟩
  | cons ch text ih =>
      obtain ⟨hafter, hbehind⟩ := ih
      cases hws : isWhitespace ch with
      | false =>
          rw [normalizeLoop_cons hws, normalizeLoop_cons hws]
          exact ⟨(hbehind.cons ch).cons ' ', hbehind.cons ch⟩
      | true =>
          have hblank : ∀ c ∈ [' '], isWhitespace c = true := by
            intro c hc
            rw [List.mem_singleton.mp hc]
            decide
          have hboth : ∀ c ∈ [' ', ch], isWhitespace c = true := by
            intro c hc
            rcases List.mem_cons.mp hc with rfl | hc
            · decide
            · rw [List.mem_singleton.mp hc]
              exact hws
          rw [normalizeLoop, normalizeLoop, if_pos hws, if_pos hws, if_pos rfl,
            if_neg Bool.false_ne_true]
          constructor
          · have hstep := Respaced.mk (List.cons_ne_nil ' ' [ch]) (List.cons_ne_nil ' ' []) hboth
              hblank [] text
            exact hafter.head hstep
          · have hstep := Respaced.mk (List.cons_ne_nil ch []) (List.cons_ne_nil ' ' [])
              (fun c hc => hboth c (List.mem_cons_of_mem ' ' hc)) hblank [] text
            exact hafter.head hstep

/-- What the loop hides: how white space is written. -/
theorem sameButSpace_iff {text text' : List Char} :
    SameButSpace text text' ↔ normalizeLoop false text = normalizeLoop false text' := by
  constructor
  · intro h
    induction h with
    | refl => rfl
    | tail _ hstep ih => rw [ih, hstep.normalizeLoop_eq]
  · intro h
    have hback := (sameButSpace_normalizeLoop text').2.symm
    rw [← h] at hback
    exact (sameButSpace_normalizeLoop text).2.trans hback

/-! ## Tokens -/

/-- The body of a string or byte string: a backslash takes the next character with it. -/
inductive Cooked : List Char → Prop
  | nil : Cooked []
  | char {ch : Char} {body : List Char} (hquote : ch ≠ '"') (hescape : ch ≠ '\\')
      (hbody : Cooked body) : Cooked (ch :: body)
  | escape {ch : Char} {body : List Char} (hbody : Cooked body) : Cooked ('\\' :: ch :: body)

/-- A quote behind these characters opens a raw string: `r`, `br`, `cr` and hashes. -/
def opensRaw (start : List Char) : Bool :=
  (start.reverse.dropWhile fun ch => ch = '#').head? = some 'r'

/-- What closes it: a quote and as many hashes. -/
def rawClose (start : List Char) : List Char :=
  '"' :: List.replicate (start.reverse.takeWhile fun ch => ch = '#').length '#'

/-- The texts of tokens. -/
inductive IsToken : List Char → Prop
  | delimiter {ch : Char} (h : isDelimiter ch = true) : IsToken [ch]
  | plain {text : List Char} (hne : text ≠ []) (h : ∀ ch ∈ text, isPlain ch = true) : IsToken text
  | lifetime {start name : List Char} {ch : Char} (hstart : ∀ c ∈ start, isPlain c = true)
      (hescape : ch ≠ '\\') (hname : ∀ c ∈ ch :: name, isPlain c = true) :
      IsToken (start ++ '\'' :: ch :: name)
  | char {start suffix : List Char} {ch : Char} (hstart : ∀ c ∈ start, isPlain c = true)
      (hquote : ch ≠ '\'') (hescape : ch ≠ '\\') (hsuffix : ∀ c ∈ suffix, isPlain c = true) :
      IsToken (start ++ '\'' :: ch :: '\'' :: suffix)
  | escapedChar {start more suffix : List Char} {ch : Char} (hstart : ∀ c ∈ start, isPlain c = true)
      (hch : isWhitespace ch = false) (hmore : ∀ c ∈ more, isWhitespace c = false ∧ c ≠ '\'')
      (hsuffix : ∀ c ∈ suffix, isPlain c = true) :
      IsToken (start ++ '\'' :: '\\' :: ch :: (more ++ '\'' :: suffix))
  | string {start body suffix : List Char} (hstart : ∀ c ∈ start, isPlain c = true)
      (hcooked : opensRaw start = false) (hbody : Cooked body)
      (hsuffix : ∀ c ∈ suffix, isPlain c = true) :
      IsToken (start ++ '"' :: (body ++ '"' :: suffix))
  | rawString {start body suffix : List Char} (hstart : ∀ c ∈ start, isPlain c = true)
      (hraw : opensRaw start = true) (hbody : ¬ rawClose start <:+: body)
      (hsuffix : ∀ c ∈ suffix, isPlain c = true) :
      IsToken (start ++ '"' :: (body ++ rawClose start ++ suffix))

/-! ## Where a token ends -/

/-- Behind the body of a string. -/
def afterString : List Char → List Char
  | [] => []
  | '"' :: rest => rest
  | '\\' :: _ :: rest => afterString rest
  | _ :: rest => afterString rest

/-- Behind the first `close`. -/
def afterRaw (close : List Char) : List Char → List Char
  | [] => []
  | ch :: rest =>
    if close.isPrefixOf (ch :: rest) then (ch :: rest).drop close.length else afterRaw close rest

/-- Behind a character literal, where the text behind its quote is one. -/
def afterQuote : List Char → List Char
  | '\\' :: _ :: rest => (rest.dropWhile fun ch => ch ≠ '\'').drop 1
  | _ :: '\'' :: rest => rest
  | rest => rest

/-- Behind the first token of a text. -/
def afterToken (text : List Char) : List Char :=
  let start := text.takeWhile isPlain
  match text.dropWhile isPlain with
  | '"' :: rest =>
    (if opensRaw start then afterRaw (rawClose start) rest else afterString rest).dropWhile isPlain
  | '\'' :: rest => (afterQuote rest).dropWhile isPlain
  | rest => if start = [] then rest.drop 1 else rest

/-- A token may end before this text. -/
def Ends (rest : List Char) : Prop :=
  ∀ ch ∈ rest.head?, isWhitespace ch = true ∨ isDelimiter ch = true

theorem not_isPlain_of_ends {ch : Char} (h : isWhitespace ch = true ∨ isDelimiter ch = true) :
    isPlain ch = false := by
  unfold isPlain
  rcases h with h | h
  · simp [h]
  · simp [h]

theorem takeWhile_plain {start rest : List Char} (hstart : ∀ c ∈ start, isPlain c = true)
    (hrest : ∀ ch ∈ rest.head?, isPlain ch = false) :
    (start ++ rest).takeWhile isPlain = start ∧ (start ++ rest).dropWhile isPlain = rest := by
  have hstop : rest.takeWhile isPlain = [] ∧ rest.dropWhile isPlain = rest := by
    cases rest with
    | nil => exact ⟨rfl, rfl⟩
    | cons ch rest =>
        have hch := hrest ch rfl
        simp [hch]
  rw [List.takeWhile_append_of_pos hstart, List.dropWhile_append_of_pos hstart, hstop.1, hstop.2]
  simp

theorem Ends.dropWhile {suffix rest : List Char} (hends : Ends rest)
    (hsuffix : ∀ c ∈ suffix, isPlain c = true) : (suffix ++ rest).dropWhile isPlain = rest :=
  (takeWhile_plain hsuffix fun ch hch => not_isPlain_of_ends (hends ch hch)).2

theorem afterString_cooked {body : List Char} (h : Cooked body) (rest : List Char) :
    afterString (body ++ '"' :: rest) = rest := by
  induction h with
  | nil => rfl
  | char hquote hescape _ ih =>
      rw [List.cons_append, afterString]
      · exact ih
      · exact hquote
      · intro c r heq
        exact absurd heq hescape
  | escape _ ih => exact ih

/-- What begins a text does not reach over a character that it has not. -/
theorem prefix_of_prefix_append_cons {part body rest : List Char} {ch : Char} (hch : ch ∉ part)
    (h : part <+: body ++ ch :: rest) : part <+: body := by
  rcases List.prefix_or_prefix_of_prefix h (List.prefix_append body _) with hbody | ⟨beyond, hpart⟩
  · exact hbody
  · rw [← hpart, List.prefix_append_right_inj] at h
    cases beyond with
    | nil =>
        rw [List.append_nil] at hpart
        exact hpart ▸ List.prefix_rfl
    | cons c beyond =>
        obtain ⟨rfl, -⟩ := List.cons_prefix_cons.mp h
        rw [← hpart] at hch
        exact absurd (by simp) hch

/-- A closing quote and its hashes do not begin inside the body. -/
theorem afterRaw_body {n : ℕ} {body : List Char}
    (h : ¬ ('"' :: List.replicate n '#') <:+: body) (rest : List Char) :
    afterRaw ('"' :: List.replicate n '#') (body ++ ('"' :: List.replicate n '#') ++ rest) =
      rest := by
  induction body with
  | nil =>
      rw [List.nil_append, List.cons_append, afterRaw, if_pos]
      · rw [← List.cons_append, List.drop_left']
        rfl
      · rw [List.isPrefixOf_iff_prefix, ← List.cons_append]
        exact List.prefix_append _ _
  | cons ch body ih =>
      have hrest : ¬ ('"' :: List.replicate n '#') <:+: body := fun hpart =>
        h (hpart.trans (List.suffix_cons ch body).isInfix)
      rw [List.cons_append, List.cons_append, afterRaw, if_neg]
      · exact ih hrest
      · rw [List.isPrefixOf_iff_prefix]
        intro hprefix
        obtain ⟨rfl, hhashes⟩ := List.cons_prefix_cons.mp hprefix
        rw [List.append_assoc] at hhashes
        have hquote : '"' ∉ List.replicate n '#' := fun hmem =>
          absurd (List.eq_of_mem_replicate hmem) (by decide)
        have hinside := prefix_of_prefix_append_cons hquote hhashes
        exact h (List.cons_prefix_cons.mpr ⟨rfl, hinside⟩).isInfix

theorem not_plain_quote (rest : List Char) :
    (∀ ch ∈ ('"' :: rest).head?, isPlain ch = false) ∧
      ∀ ch ∈ ('\'' :: rest).head?, isPlain ch = false := by
  constructor
  · intro ch hch
    obtain rfl : '"' = ch := Option.some.inj hch
    decide
  · intro ch hch
    obtain rfl : '\'' = ch := Option.some.inj hch
    decide

/-- The text behind an opening quote decides how a literal goes on. -/
theorem afterToken_string {start : List Char} (hstart : ∀ c ∈ start, isPlain c = true)
    (rest : List Char) : afterToken (start ++ '"' :: rest) =
      (if opensRaw start then afterRaw (rawClose start) rest
        else afterString rest).dropWhile isPlain := by
  obtain ⟨htake, hdrop⟩ := takeWhile_plain hstart (not_plain_quote rest).1
  unfold afterToken
  rw [htake, hdrop]
  rfl

theorem afterToken_quote {start : List Char} (hstart : ∀ c ∈ start, isPlain c = true)
    (rest : List Char) :
    afterToken (start ++ '\'' :: rest) = (afterQuote rest).dropWhile isPlain := by
  obtain ⟨htake, hdrop⟩ := takeWhile_plain hstart (not_plain_quote rest).2
  unfold afterToken
  rw [htake, hdrop]
  rfl

/-- White space and delimiters open no literal. -/
theorem not_quote_of_ends {ch : Char} (h : isWhitespace ch = true ∨ isDelimiter ch = true) :
    ch ≠ '"' ∧ ch ≠ '\'' := by
  constructor
  · rintro rfl
    exact absurd h (by decide)
  · rintro rfl
    exact absurd h (by decide)

theorem afterToken_plain {text rest : List Char} (hne : text ≠ [])
    (h : ∀ c ∈ text, isPlain c = true) (hends : Ends rest) : afterToken (text ++ rest) = rest := by
  obtain ⟨htake, hdrop⟩ := takeWhile_plain h fun ch hch => not_isPlain_of_ends (hends ch hch)
  unfold afterToken
  rw [htake, hdrop]
  dsimp only
  split
  · exact absurd rfl (not_quote_of_ends (hends '"' rfl)).1
  · exact absurd rfl (not_quote_of_ends (hends '\'' rfl)).2
  · exact if_neg hne

theorem afterToken_delimiter {ch : Char} (h : isDelimiter ch = true) (rest : List Char) :
    afterToken (ch :: rest) = rest := by
  have hplain := not_isPlain_of_ends (.inr h)
  obtain ⟨hquote, htick⟩ := not_quote_of_ends (.inr h)
  have hnone : (ch :: rest).takeWhile isPlain = [] ∧
      (ch :: rest).dropWhile isPlain = ch :: rest := by
    simp [hplain]
  unfold afterToken
  rw [hnone.1, hnone.2]
  dsimp only
  split
  · next heq => exact absurd (List.head_eq_of_cons_eq heq) hquote
  · next heq => exact absurd (List.head_eq_of_cons_eq heq) htick
  · rfl

/-- The rest of a lifetime is no closing quote. -/
theorem afterQuote_lifetime {ch : Char} {name rest : List Char} (hescape : ch ≠ '\\')
    (hname : ∀ c ∈ ch :: name, isPlain c = true) (hends : Ends rest) :
    afterQuote (ch :: (name ++ rest)) = ch :: (name ++ rest) := by
  have hnext : ∀ more, name ++ rest ≠ '\'' :: more := by
    intro more heq
    cases name with
    | nil =>
        rw [List.nil_append] at heq
        rw [heq] at hends
        exact absurd rfl (not_quote_of_ends (hends '\'' rfl)).2
    | cons c name =>
        obtain rfl := List.head_eq_of_cons_eq heq
        exact absurd (hname '\'' (by simp)) (by decide)
  rw [afterQuote]
  · intro c more heq
    exact absurd (List.head_eq_of_cons_eq heq) hescape
  · intro c more heq
    exact absurd (List.tail_eq_of_cons_eq heq) (hnext more)

theorem afterQuote_char {ch : Char} (hescape : ch ≠ '\\') (rest : List Char) :
    afterQuote (ch :: '\'' :: rest) = rest := by
  rw [afterQuote]
  exact hescape

theorem afterQuote_escape {more : List Char} (hmore : ∀ c ∈ more, c ≠ '\'') (ch : Char)
    (rest : List Char) : afterQuote ('\\' :: ch :: (more ++ '\'' :: rest)) = rest := by
  have hdrop : (more ++ '\'' :: rest).dropWhile (fun c => c ≠ '\'') = '\'' :: rest := by
    rw [List.dropWhile_append_of_pos]
    · simp
    · intro c hc
      simpa using hmore c hc
  rw [afterQuote, hdrop]
  rfl

/-- A token ends where it ends. -/
theorem afterToken_append {text rest : List Char} (htoken : IsToken text)
    (h : Ends rest ∨ ∃ ch, text = [ch] ∧ isDelimiter ch = true) :
    afterToken (text ++ rest) = rest := by
  rcases h with hends | ⟨ch, rfl, hch⟩
  · cases htoken with
    | delimiter hch => exact afterToken_delimiter hch rest
    | plain hne hplain => exact afterToken_plain hne hplain hends
    | lifetime hstart hescape hname =>
        rw [List.append_assoc, List.cons_append, List.cons_append, afterToken_quote hstart,
          afterQuote_lifetime hescape hname hends, ← List.cons_append]
        exact hends.dropWhile hname
    | char hstart hquote hescape hsuffix =>
        rw [List.append_assoc, List.cons_append, List.cons_append, List.cons_append,
          afterToken_quote hstart, afterQuote_char hescape]
        exact hends.dropWhile hsuffix
    | escapedChar hstart _ hmore hsuffix =>
        rw [List.append_assoc, List.cons_append, List.cons_append, List.cons_append,
          List.append_assoc, List.cons_append, afterToken_quote hstart,
          afterQuote_escape fun c hc => (hmore c hc).2]
        exact hends.dropWhile hsuffix
    | string hstart hcooked hbody hsuffix =>
        rw [List.append_assoc, List.cons_append, List.append_assoc, List.cons_append,
          afterToken_string hstart, hcooked, if_neg Bool.false_ne_true, afterString_cooked hbody]
        exact hends.dropWhile hsuffix
    | rawString hstart hraw hbody hsuffix =>
        rw [List.append_assoc, List.cons_append, List.append_assoc,
          afterToken_string hstart, hraw, if_pos rfl]
        unfold rawClose at hbody ⊢
        rw [afterRaw_body hbody]
        exact hends.dropWhile hsuffix
  · exact afterToken_delimiter hch rest

/-! ## Tokens and white space -/

theorem solid_rawClose (start : List Char) : Solid (rawClose start) := by
  refine solid_cons.mpr ⟨by decide, fun ch hch => ?_⟩
  rw [List.eq_of_mem_replicate hch]
  decide

/-- A literal begins with plain characters and a quote. -/
theorem exists_first_of_plain {start : List Char} (hstart : ∀ c ∈ start, isPlain c = true)
    {quote : Char} (hquote : isWhitespace quote = false) (rest : List Char) :
    ∃ ch more, start ++ quote :: rest = ch :: more ∧ isWhitespace ch = false := by
  cases start with
  | nil => exact ⟨quote, rest, rfl, hquote⟩
  | cons c start =>
      exact ⟨c, start ++ quote :: rest, rfl,
        not_isWhitespace_of_isPlain (hstart c (List.mem_cons_self ..))⟩

/-- White space neither begins nor ends a token. -/
theorem IsToken.exists_first {text : List Char} (h : IsToken text) :
    ∃ ch rest, text = ch :: rest ∧ isWhitespace ch = false := by
  cases h with
  | delimiter h => exact ⟨_, [], rfl, not_isWhitespace_of_isDelimiter h⟩
  | plain hne h =>
      obtain ⟨c, rest, rfl⟩ := List.exists_cons_of_ne_nil hne
      exact ⟨c, rest, rfl, (solid_cons.mp (solid_of_isPlain h)).1⟩
  | lifetime hstart => exact exists_first_of_plain hstart rfl _
  | char hstart => exact exists_first_of_plain hstart rfl _
  | escapedChar hstart => exact exists_first_of_plain hstart rfl _
  | string hstart => exact exists_first_of_plain hstart rfl _
  | rawString hstart => exact exists_first_of_plain hstart rfl _

theorem Solid.exists_last {last : List Char} (h : Solid last) (hne : last ≠ [])
    (before : List Char) :
    ∃ init ch, before ++ last = init ++ [ch] ∧ isWhitespace ch = false := by
  obtain ⟨init, ch, rfl⟩ := (List.eq_nil_or_concat last).resolve_left hne
  exact ⟨before ++ init, ch, by simp, h ch (by simp)⟩

/-- What a literal ends with: its closing quote and the suffix. -/
theorem solid_close (quote : Char) (hquote : isWhitespace quote = false) {suffix : List Char}
    (hsuffix : ∀ c ∈ suffix, isPlain c = true) : Solid (quote :: suffix) :=
  solid_cons.mpr ⟨hquote, solid_of_isPlain hsuffix⟩

theorem IsToken.exists_last {text : List Char} (h : IsToken text) :
    ∃ init ch, text = init ++ [ch] ∧ isWhitespace ch = false := by
  cases h with
  | delimiter h => exact ⟨[], _, rfl, not_isWhitespace_of_isDelimiter h⟩
  | plain hne h => exact (solid_of_isPlain h).exists_last hne []
  | @lifetime start name ch _ _ hname =>
      have := (solid_of_isPlain hname).exists_last (List.cons_ne_nil ch name) (start ++ ['\''])
      rwa [List.append_assoc] at this
  | @char start suffix ch _ _ _ hsuffix =>
      have := (solid_close '\'' rfl hsuffix).exists_last (List.cons_ne_nil _ _)
        (start ++ ['\'', ch])
      rwa [List.append_assoc] at this
  | @escapedChar start more suffix ch _ _ _ hsuffix =>
      have := (solid_close '\'' rfl hsuffix).exists_last (List.cons_ne_nil _ _)
        (start ++ '\'' :: '\\' :: ch :: more)
      rwa [List.append_assoc] at this
  | @string start body suffix _ _ _ hsuffix =>
      have := (solid_close '"' rfl hsuffix).exists_last (List.cons_ne_nil _ _)
        (start ++ '"' :: body)
      rwa [List.append_assoc] at this
  | @rawString start body suffix _ _ _ hsuffix =>
      have hsolid : Solid (rawClose start ++ suffix) :=
        solid_append.mpr ⟨solid_rawClose start, solid_of_isPlain hsuffix⟩
      have := hsolid.exists_last (by simp [rawClose]) (start ++ '"' :: body)
      simpa only [List.append_assoc, List.cons_append] using this

/-- The body of a string stays one. -/
theorem Cooked.squeeze {body : List Char} (h : Cooked body) (prevWs : Bool) :
    Cooked (normalizeLoop prevWs body) := by
  induction h generalizing prevWs with
  | nil => exact .nil
  | @char ch body hquote hescape _ ih =>
      rw [normalizeLoop]
      split
      · split
        · exact ih true
        · exact .char (by decide) (by decide) (ih true)
      · exact .char hquote hescape (ih false)
  | @escape ch body _ ih =>
      rw [normalizeLoop_cons (by decide), normalizeLoop]
      split
      · rw [if_neg Bool.false_ne_true]
        exact .escape (ih true)
      · exact .escape (ih false)

/-- The loop reaches the inside of a literal as it is. -/
theorem normalizeLoop_quote {start : List Char} (hstart : ∀ c ∈ start, isPlain c = true)
    {quote : Char} (hquote : isWhitespace quote = false) (rest : List Char) :
    normalizeLoop false (start ++ quote :: rest) =
      start ++ quote :: normalizeLoop false rest := by
  rw [normalizeLoop_append_cons hquote, (solid_of_isPlain hstart).normalizeLoop_eq]

/-- The loop leaves a token a token. -/
theorem IsToken.squeeze {text : List Char} (h : IsToken text) :
    IsToken (normalizeLoop false text) := by
  cases h with
  | @delimiter ch h =>
      rw [normalizeLoop_cons (not_isWhitespace_of_isDelimiter h)]
      exact .delimiter h
  | plain hne h =>
      rw [(solid_of_isPlain h).normalizeLoop_eq]
      exact .plain hne h
  | lifetime hstart hescape hname =>
      rw [normalizeLoop_quote hstart rfl, (solid_of_isPlain hname).normalizeLoop_eq]
      exact .lifetime hstart hescape hname
  | @char start suffix ch hstart hquote hescape hsuffix =>
      have hclose := solid_close '\'' rfl hsuffix
      rw [normalizeLoop_quote hstart rfl, normalizeLoop]
      split
      · rw [if_neg Bool.false_ne_true, hclose.normalizeLoop_eq]
        exact .char hstart (by decide) (by decide) hsuffix
      · rw [hclose.normalizeLoop_eq]
        exact .char hstart hquote hescape hsuffix
  | @escapedChar start more suffix ch hstart hch hmore hsuffix =>
      have hsolid : Solid ('\\' :: ch :: (more ++ '\'' :: suffix)) :=
        solid_cons.mpr ⟨by decide, solid_cons.mpr ⟨hch,
          solid_append.mpr ⟨fun c hc => (hmore c hc).1, solid_close _ rfl hsuffix⟩⟩⟩
      rw [normalizeLoop_quote hstart rfl, hsolid.normalizeLoop_eq]
      exact .escapedChar hstart hch hmore hsuffix
  | @string start body suffix hstart hcooked hbody hsuffix =>
      rw [normalizeLoop_quote hstart rfl,
        (solid_close _ rfl hsuffix).normalizeLoop_append (List.cons_ne_nil _ _)]
      exact .string hstart hcooked (hbody.squeeze false) hsuffix
  | @rawString start body suffix hstart hraw hbody hsuffix =>
      have hsolid : Solid (rawClose start ++ suffix) :=
        solid_append.mpr ⟨solid_rawClose start, solid_of_isPlain hsuffix⟩
      have hclose : rawClose start ≠ [] := List.cons_ne_nil _ _
      rw [normalizeLoop_quote hstart rfl, List.append_assoc,
        hsolid.normalizeLoop_append (List.append_ne_nil_of_left_ne_nil hclose _),
        ← List.append_assoc]
      -- a close that the loop made would have been there before
      refine .rawString hstart hraw (fun hinfix => hbody ?_) hsuffix
      exact infix_of_infix_normalizeLoop hclose (solid_rawClose start) hinfix

end ArkheForge.Lint
