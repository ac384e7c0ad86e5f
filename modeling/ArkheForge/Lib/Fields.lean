/-
  Fields between separators, and the unsigned numbers in them.

  `splitn` cuts a text at the first occurrences of a separator and leaves the rest whole.
  `readUnsigned` reads a decimal number digit by digit and fails as soon as the value
  passes the bound; it takes one plus sign in front. What it takes is said without the
  loop in `readUnsigned_eq_some`.
-/
import Mathlib.Data.List.TakeWhile

namespace ArkheForge.Fields

/-! ## Splitting -/

/-- At most `n` fields, the last with the separators that are left. -/
def splitn (sep : Char) : ℕ → List Char → List (List Char)
  | 0, _ => []
  | 1, text => [text]
  | n + 2, text =>
    match text.dropWhile fun ch => ch ≠ sep with
    | [] => [text]
    | _ :: rest => (text.takeWhile fun ch => ch ≠ sep) :: splitn sep (n + 1) rest

section

variable {sep : Char} {text field rest : List Char}

theorem splitn_of_not_mem (h : sep ∉ text) (n : ℕ) : splitn sep (n + 1) text = [text] := by
  cases n with
  | zero => rfl
  | succ n =>
      have hdrop : text.dropWhile (fun ch => ch ≠ sep) = [] := by
        rw [List.dropWhile_eq_nil_iff]
        intro ch hch
        simpa using fun heq : ch = sep => h (heq ▸ hch)
      rw [splitn, hdrop]

theorem splitn_append (h : sep ∉ field) (n : ℕ) (rest : List Char) :
    splitn sep (n + 2) (field ++ sep :: rest) = field :: splitn sep (n + 1) rest := by
  have hfield : ∀ ch ∈ field, (decide (ch ≠ sep)) = true := by
    intro ch hch
    simpa using fun heq : ch = sep => h (heq ▸ hch)
  have hdrop : (field ++ sep :: rest).dropWhile (fun ch => ch ≠ sep) = sep :: rest := by
    rw [List.dropWhile_append_of_pos hfield]
    simp
  have htake : (field ++ sep :: rest).takeWhile (fun ch => ch ≠ sep) = field := by
    rw [List.takeWhile_append_of_pos hfield]
    simp
  rw [splitn, hdrop, htake]

/-- A text has no separator, or a first one. -/
theorem eq_field_or_append (sep : Char) (text : List Char) :
    sep ∉ text ∨ ∃ field rest, text = field ++ sep :: rest ∧ sep ∉ field := by
  by_cases h : sep ∈ text
  · exact .inr (List.eq_append_cons_of_mem h)
  · exact .inl h

end

/-! ## Decimal numbers -/

/-- The value of a digit. -/
def digit (ch : Char) : ℕ := ch.toNat - '0'.toNat

/-- A number with a digit behind it. -/
def push (n : ℕ) (ch : Char) : ℕ := n * 10 + digit ch

theorem le_push (n : ℕ) (ch : Char) : n ≤ push n ch := by
  unfold push
  omega

/-- The value of digits. -/
def value (text : List Char) : ℕ := text.foldl push 0

theorem le_foldl_push (n : ℕ) (text : List Char) : n ≤ text.foldl push n := by
  induction text generalizing n with
  | nil => exact Nat.le_refl n
  | cons ch text ih => exact (le_push n ch).trans (ih (push n ch))

/-- One digit or more, and nothing else. -/
def IsDecimal (text : List Char) : Prop := text ≠ [] ∧ ∀ ch ∈ text, ch.isDigit = true

/-- Read on behind a number; fail at what is no digit, and past the bound. -/
def readDigits (bound n : ℕ) : List Char → Option ℕ
  | [] => some n
  | ch :: text =>
    if ch.isDigit then
      if push n ch ≤ bound then readDigits bound (push n ch) text else none
    else none

/-- An unsigned number. -/
def readUnsigned (bound : ℕ) : List Char → Option ℕ
  | [] => none
  | ['+'] => none
  | '+' :: text => readDigits bound 0 text
  | text => readDigits bound 0 text

/-- The value only grows, so it passes the bound on the way only if it does in the end. -/
theorem readDigits_eq_some {bound n m : ℕ} (hn : n ≤ bound) {text : List Char} :
    readDigits bound n text = some m ↔
      (∀ ch ∈ text, ch.isDigit = true) ∧ text.foldl push n = m ∧ m ≤ bound := by
  induction text generalizing n with
  | nil =>
      rw [readDigits, List.foldl_nil, Option.some_inj]
      constructor
      · rintro rfl
        exact ⟨List.forall_mem_nil _, rfl, hn⟩
      · exact fun h => h.2.1
  | cons ch text ih =>
      rw [readDigits, List.foldl_cons, List.forall_mem_cons]
      by_cases hdigit : ch.isDigit = true
      · rw [if_pos hdigit]
        by_cases hbound : push n ch ≤ bound
        · rw [if_pos hbound, ih hbound]
          simp [hdigit]
        · rw [if_neg hbound]
          constructor
          · exact fun h => absurd h (by simp)
          · rintro ⟨-, rfl, hm⟩
            exact absurd ((le_foldl_push (push n ch) text).trans hm) hbound
      · rw [if_neg hdigit]
        simp [hdigit]

/-- An unsigned number is digits, with a plus sign in front or without. -/
theorem readUnsigned_eq_some {bound m : ℕ} {text : List Char} :
    readUnsigned bound text = some m ↔
      ∃ digits, (text = digits ∨ text = '+' :: digits) ∧ IsDecimal digits ∧
        value digits = m ∧ m ≤ bound := by
  have hread : ∀ digits, digits ≠ [] → (readDigits bound 0 digits = some m ↔
      IsDecimal digits ∧ value digits = m ∧ m ≤ bound) := by
    intro digits hne
    rw [readDigits_eq_some (Nat.zero_le bound)]
    simp [IsDecimal, value, hne]
  unfold readUnsigned
  split
  · simp [IsDecimal]
  · simp [IsDecimal]
  · next rest hne =>
      have hrest : rest ≠ [] := fun hnil => hne (by rw [hnil])
      rw [hread rest hrest]
      constructor
      · exact fun h => ⟨rest, .inr rfl, h⟩
      · rintro ⟨digits, rfl | heq, h⟩
        · exact absurd (h.1.2 '+' List.mem_cons_self) (by decide)
        · obtain rfl := List.tail_eq_of_cons_eq heq
          exact h
  · next hne _ hplus =>
      rw [hread text hne]
      constructor
      · exact fun h => ⟨text, .inl rfl, h⟩
      · rintro ⟨digits, rfl | heq, h⟩
        · exact h
        · exact absurd heq (hplus digits)

end ArkheForge.Fields
