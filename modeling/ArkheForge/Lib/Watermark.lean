/-
  Logs that climb above a watermark.

  A consumer of an ordered stream remembers the position it has reached, its mark,
  and takes an entry only from above it. `Climb start xs mark` is what such a
  consumer's log looks like: it began at `start`, took the positions `xs` one by one
  and stands at `mark`. The facts a delivery argument needs are read off it: the
  positions are strictly increasing, and the mark is the last of them.
-/
import Mathlib.Order.WithBot

/-- The log of a consumer that started at `start` and stands at `mark`. -/
inductive Climb {α : Type} [Preorder α] (start : WithBot α) : List α → WithBot α → Prop
  | nil : Climb start [] start
  | concat {xs : List α} {mark : WithBot α} {x : α} :
      Climb start xs mark → mark < x → Climb start (xs ++ [x]) x

namespace Climb

variable {α : Type} [Preorder α] {start mark : WithBot α} {xs : List α} {x : α}

theorem le_mark (h : Climb start xs mark) (hx : x ∈ xs) : (x : WithBot α) ≤ mark := by
  induction h with
  | nil => simp at hx
  | @concat xs mark y _ hlt ih =>
      rcases List.mem_append.mp hx with hold | hnew
      · exact (ih hold).trans hlt.le
      · rw [List.mem_singleton.mp hnew]

/-- No position is taken twice, and none is taken out of order. -/
theorem pairwise (h : Climb start xs mark) : xs.Pairwise (· < ·) := by
  induction h with
  | nil => exact List.Pairwise.nil
  | @concat xs mark y hclimb hlt ih =>
      refine List.pairwise_append.mpr ⟨ih, List.pairwise_singleton _ _, ?_⟩
      intro a ha b hb
      rw [List.mem_singleton.mp hb]
      have hbelow : (a : WithBot α) < y := (hclimb.le_mark ha).trans_lt hlt
      exact WithBot.coe_lt_coe.mp hbelow

theorem start_le (h : Climb start xs mark) : start ≤ mark := by
  induction h with
  | nil => exact le_rfl
  | concat _ hlt ih => exact ih.trans hlt.le

/-- Everything in the log lies beyond the start. -/
theorem start_lt (h : Climb start xs mark) (hx : x ∈ xs) : start < x := by
  induction h with
  | nil => simp at hx
  | @concat xs mark y hclimb hlt ih =>
      rcases List.mem_append.mp hx with hold | hnew
      · exact ih hold
      · rw [List.mem_singleton.mp hnew]
        exact hclimb.start_le.trans_lt hlt

/-- A consumer that moved stands at a position of its log. -/
theorem mark_mem (h : Climb start xs mark) : mark = start ∨ ∃ y ∈ xs, mark = y := by
  induction h with
  | nil => exact .inl rfl
  | @concat xs mark y _ _ _ => exact .inr ⟨y, by simp, rfl⟩

end Climb
