/-
  The hand evaluator (`evaluate_5` and `evaluate_7` in
  `examples/card_primitives/src/hand_eval.rs`).

  `Shows` says what strength a hand shows, by the ranks of its cards and by whether they
  share a suit or stand in a row, with nothing about sorting or grouping.

  * `evaluate5_eq_iff`: on five distinct cards the evaluator finds the one strength the hand
    shows. The arm for no strength at all is never taken.
  * `evaluate7_isGreatest`: on seven distinct cards it finds the greatest strength that five
    of them show.
-/
import ArkheForge.Cards.HandRank
import ArkheForge.Lib.Tally
import Mathlib.Data.List.Sublists
import Mathlib.Order.Bounds.Basic

namespace ArkheForge.Cards

open Tally

/-! ## The source functions -/

theorem size_sorted (cards : Vector Card 5) :
    (descending (cards.toList.map Card.rank)).toArray.size = 5 := by
  rw [List.size_toArray, (descending_perm _).length_eq, List.length_map, Vector.length_toList]

/-- The ranks, sorted descending. -/
def sortedRanks (cards : Vector Card 5) : Vector Rank 5 :=
  ⟨(descending (cards.toList.map Card.rank)).toArray, size_sorted cards⟩

theorem five_pos : 0 < 5 := Nat.succ_pos 4

/-- All five suits are that of the first card. -/
def isFlush (cards : Vector Card 5) : Bool :=
  cards.toList.all fun c => c.suit = (cards.get ⟨0, five_pos⟩).suit

/-- `ranks_are_consecutive_desc`. -/
def consecutiveDesc : List Rank → Bool
  | hi :: lo :: rest => hi.face == lo.face + 1 && consecutiveDesc (lo :: rest)
  | _ => true

/-- The ace-low straight. -/
def isWheel (ranks : Vector Rank 5) : Bool :=
  ranks.toList == [.ace, .five, .four, .three, .two]

def isStraight (ranks : Vector Rank 5) : Bool := consecutiveDesc ranks.toList || isWheel ranks

def straightTop (ranks : Vector Rank 5) : Rank :=
  if isWheel ranks then .five else ranks.get ⟨0, five_pos⟩

/-- The runs of the sorted ranks, sorted by length and rank. -/
def rankGroups (ranks : Vector Rank 5) : List (ℕ × Rank) :=
  (runs ranks.toList).insertionSort Before

/-- The match on the lengths of the first two groups; the slots behind the groups are filled
    with none of `Two`. -/
def dispatch (flush straight : Bool) (ranks : Vector Rank 5) (groups : List (ℕ × Rank)) :
    HandRank :=
  let group (k : ℕ) : ℕ × Rank := groups.getD k (0, .two)
  match (group 0).1, (group 1).1 with
  | 4, _ => .fourOfAKind (group 0).2 (group 1).2
  | 3, 2 => .fullHouse (group 0).2 (group 1).2
  | 3, _ => .threeOfAKind (group 0).2 #v[(group 1).2, (group 2).2]
  | 2, 2 => .twoPair (group 0).2 (group 1).2 (group 2).2
  | 2, _ => .pair (group 0).2 #v[(group 1).2, (group 2).2, (group 3).2]
  | 1, _ =>
    if flush then .flush ranks
    else if straight then .straight (straightTop ranks)
    else .highCard ranks
  | _, _ => .highCard ranks

/-- `evaluate_5`. -/
def evaluate5 (cards : Vector Card 5) : HandRank :=
  let ranks := sortedRanks cards
  if isFlush cards && isStraight ranks then .straightFlush (straightTop ranks)
  else dispatch (isFlush cards) (isStraight ranks) ranks (rankGroups ranks)

/-- The pairs of positions the two loops of `evaluate_7` leave out. -/
def exclusions : List (ℕ × ℕ) :=
  (List.range 7).flatMap fun i => (List.range' (i + 1) (6 - i)).map fun j => (i, j)

/-- The cards at the other positions, in order. -/
def others (cards : List Card) (out : ℕ × ℕ) : List Card :=
  (cards.zipIdx.filter fun (_, k) => k ≠ out.1 ∧ k ≠ out.2).map Prod.fst

/-- The work buffer `sub` once it is filled with the others. -/
def subHand (cards : Vector Card 7) (out : ℕ × ℕ) : Vector Card 5 :=
  Vector.ofFn fun k => (others cards.toList out).getD k cards[0]

/-- The better of the best so far and a candidate. -/
def better (best candidate : HandRank) : HandRank := if best < candidate then candidate else best

/-- `evaluate_7`. -/
def evaluate7 (cards : Vector Card 7) : HandRank :=
  exclusions.foldl (fun best out => better best (evaluate5 (subHand cards out)))
    (.highCard (Vector.replicate 5 .two))

/-! ## What a hand shows -/

/-- The ranks of the cards. -/
def ranksOf (hand : List Card) : List Rank := hand.map Card.rank

/-- All cards are of one suit. -/
def Suited (hand : List Card) : Prop := ∃ suit, ∀ c ∈ hand, c.suit = suit

/-- Each rank is one above the next. -/
def OneBelow (hi lo : Rank) : Prop := hi.face.toNat = lo.face.toNat + 1

/-- The ranks stand in a row from `top` down, or the ace stands below the two. -/
def InARow (hand : List Card) (top : Rank) : Prop :=
  (∃ row : List Rank, row.Perm (ranksOf hand) ∧ row.IsChain OneBelow ∧ row.head? = some top) ∨
    (ranksOf hand).Perm [.ace, .five, .four, .three, .two] ∧ top = .five

/-- The strength five cards show. -/
inductive Shows (hand : List Card) : HandRank → Prop
  | straightFlush {top : Rank} : Suited hand → InARow hand top → Shows hand (.straightFlush top)
  | fourOfAKind {q k : Rank} : (ranksOf hand).Perm [q, q, q, q, k] → q ≠ k →
      Shows hand (.fourOfAKind q k)
  | fullHouse {t p : Rank} : (ranksOf hand).Perm [t, t, t, p, p] → t ≠ p →
      Shows hand (.fullHouse t p)
  | flush {ranks : Vector Rank 5} : Suited hand → (∀ top, ¬InARow hand top) →
      (ranksOf hand).Perm ranks.toList → ranks.toList.Pairwise (· > ·) → Shows hand (.flush ranks)
  | straight {top : Rank} : ¬Suited hand → InARow hand top → Shows hand (.straight top)
  | threeOfAKind {t a b : Rank} : (ranksOf hand).Perm [t, t, t, a, b] → t ∉ [a, b] → a > b →
      Shows hand (.threeOfAKind t #v[a, b])
  | twoPair {hi lo k : Rank} : (ranksOf hand).Perm [hi, hi, lo, lo, k] → hi > lo → k ∉ [hi, lo] →
      Shows hand (.twoPair hi lo k)
  | pair {p a b c : Rank} : (ranksOf hand).Perm [p, p, a, b, c] → p ∉ [a, b, c] → a > b → b > c →
      Shows hand (.pair p #v[a, b, c])
  | highCard {ranks : Vector Rank 5} : ¬Suited hand → (∀ top, ¬InARow hand top) →
      (ranksOf hand).Perm ranks.toList → ranks.toList.Pairwise (· > ·) →
      Shows hand (.highCard ranks)

/-! ## The order of the cards -/

section

variable {hand hand' : List Card}

theorem Suited.congr (hperm : hand.Perm hand') : Suited hand ↔ Suited hand' := by
  unfold Suited
  simp only [hperm.mem_iff]

theorem InARow.congr (hperm : hand.Perm hand') {top : Rank} :
    InARow hand top ↔ InARow hand' top := by
  have hranks : (ranksOf hand).Perm (ranksOf hand') := hperm.map _
  have hrow (row : List Rank) : row.Perm (ranksOf hand) ↔ row.Perm (ranksOf hand') :=
    ⟨fun h => h.trans hranks, fun h => h.trans hranks.symm⟩
  exact or_congr (exists_congr fun row => and_congr_left' (hrow row))
    (and_congr_left' ⟨fun h => hranks.symm.trans h, fun h => hranks.trans h⟩)

/-- A hand shows the same in every order. -/
theorem Shows.congr (hperm : hand.Perm hand') {strength : HandRank} (h : Shows hand strength) :
    Shows hand' strength := by
  have hranks : (ranksOf hand').Perm (ranksOf hand) := (hperm.map _).symm
  cases h with
  | straightFlush hsuited hrow =>
      exact .straightFlush ((Suited.congr hperm).mp hsuited) ((InARow.congr hperm).mp hrow)
  | fourOfAKind h hne => exact .fourOfAKind (hranks.trans h) hne
  | fullHouse h hne => exact .fullHouse (hranks.trans h) hne
  | flush hsuited hrow h hgt =>
      exact .flush ((Suited.congr hperm).mp hsuited)
        (fun top htop => hrow top ((InARow.congr hperm).mpr htop)) (hranks.trans h) hgt
  | straight hsuited hrow =>
      exact .straight (mt (Suited.congr hperm).mpr hsuited) ((InARow.congr hperm).mp hrow)
  | threeOfAKind h hnot hgt => exact .threeOfAKind (hranks.trans h) hnot hgt
  | twoPair h hgt hnot => exact .twoPair (hranks.trans h) hgt hnot
  | pair h hnot hab hbc => exact .pair (hranks.trans h) hnot hab hbc
  | highCard hsuited hrow h hgt =>
      exact .highCard (mt (Suited.congr hperm).mpr hsuited)
        (fun top htop => hrow top ((InARow.congr hperm).mpr htop)) (hranks.trans h) hgt

end

/-! ## Suits and rows -/

section

variable {cards : Vector Card 5}

theorem length_ranksOf (cards : Vector Card 5) : (ranksOf cards.toList).length = 5 := by
  unfold ranksOf
  rw [List.length_map, Vector.length_toList]

theorem sortedRanks_perm (cards : Vector Card 5) :
    (sortedRanks cards).toList.Perm (ranksOf cards.toList) := descending_perm _

/-- A descending order of the ranks is the sorted array. -/
theorem sortedRanks_eq {ranks : Vector Rank 5} (hranks : ranks.toList.Pairwise (· ≥ ·))
    (hperm : (ranksOf cards.toList).Perm ranks.toList) : sortedRanks cards = ranks :=
  Vector.toList_inj.mp (descending_eq hranks hperm.symm)

theorem isFlush_iff (cards : Vector Card 5) : isFlush cards = true ↔ Suited cards.toList := by
  unfold isFlush
  rw [List.all_eq_true]
  constructor
  · intro h
    exact ⟨(cards.get ⟨0, five_pos⟩).suit, fun c hc => of_decide_eq_true (h c hc)⟩
  · rintro ⟨suit, h⟩ c hc
    have hfirst : cards.get ⟨0, five_pos⟩ ∈ cards.toList := by
      rw [HandRank.toList_five cards]
      exact List.mem_cons_self
    exact decide_eq_true ((h c hc).trans (h _ hfirst).symm)

/-- Faces are far below the overflow of a byte. -/
theorem face_eq_succ_iff {hi lo : Rank} : hi.face = lo.face + 1 ↔ OneBelow hi lo := by
  have hone : (1 : UInt8).toNat = 1 := rfl
  have hlo := lo.face_bounds
  unfold OneBelow
  rw [← UInt8.toNat_inj, UInt8.toNat_add, hone, Nat.mod_eq_of_lt (by omega)]

theorem consecutiveDesc_iff (ranks : List Rank) :
    consecutiveDesc ranks = true ↔ ranks.IsChain OneBelow := by
  induction ranks with
  | nil => simp [consecutiveDesc]
  | cons hi rest ih =>
      cases rest with
      | nil => simp [consecutiveDesc]
      | cons lo rest =>
          unfold consecutiveDesc
          rw [Bool.and_eq_true, ih, List.isChain_cons_cons, beq_iff_eq, face_eq_succ_iff]

theorem OneBelow.gt {hi lo : Rank} (h : OneBelow hi lo) : hi > lo := by
  unfold OneBelow at h
  exact Rank.lt_iff_face.mpr (by omega)

/-- A row is strictly descending. -/
theorem pairwise_gt_of_isChain {row : List Rank} (h : row.IsChain OneBelow) :
    row.Pairwise (· > ·) :=
  List.isChain_iff_pairwise.mp (h.imp fun _ _ => OneBelow.gt)

theorem pairwise_ge_of_gt {row : List Rank} (h : row.Pairwise (· > ·)) : row.Pairwise (· ≥ ·) :=
  h.imp le_of_lt

theorem isWheel_iff (ranks : Vector Rank 5) :
    isWheel ranks = true ↔ ranks.toList = [.ace, .five, .four, .three, .two] := by
  unfold isWheel
  rw [beq_iff_eq]

/-- The test for a straight and its top are exact. -/
theorem inARow_iff (cards : Vector Card 5) (top : Rank) :
    InARow cards.toList top ↔
      isStraight (sortedRanks cards) = true ∧ straightTop (sortedRanks cards) = top := by
  have hlow : ([.ace, .five, .four, .three, .two] : List Rank).Pairwise (· > ·) := by decide
  have hgap : ¬([.ace, .five, .four, .three, .two] : List Rank).IsChain OneBelow := by
    rw [← consecutiveDesc_iff]
    decide
  have hhead : (sortedRanks cards).toList.head? = some (sortedRanks cards)[0] := by
    rw [HandRank.toList_five]
    rfl
  unfold isStraight straightTop
  simp only [Bool.or_eq_true, consecutiveDesc_iff, isWheel_iff]
  constructor
  · rintro (⟨row, hperm, hchain, htop⟩ | ⟨hperm, rfl⟩)
    · have hsorted : (sortedRanks cards).toList = row :=
        descending_eq (pairwise_ge_of_gt (pairwise_gt_of_isChain hchain)) hperm
      have hnot : (sortedRanks cards).toList ≠ [.ace, .five, .four, .three, .two] := by
        intro heq
        rw [← heq, hsorted] at hgap
        exact hgap hchain
      rw [hsorted] at hhead hnot ⊢
      refine ⟨.inl hchain, ?_⟩
      rw [if_neg hnot]
      exact Option.some.inj (hhead.symm.trans htop)
    · have hsorted : (sortedRanks cards).toList = [.ace, .five, .four, .three, .two] :=
        descending_eq (pairwise_ge_of_gt hlow) hperm.symm
      exact ⟨.inr hsorted, if_pos hsorted⟩
  · rintro ⟨hrow, htop⟩
    by_cases hwheel : (sortedRanks cards).toList = [.ace, .five, .four, .three, .two]
    · rw [if_pos hwheel] at htop
      exact .inr ⟨hwheel ▸ (sortedRanks_perm cards).symm, htop.symm⟩
    · rw [if_neg hwheel] at htop
      have hchain := hrow.resolve_right hwheel
      exact .inl ⟨_, sortedRanks_perm cards, hchain, hhead.trans (congrArg some htop)⟩

/-- The ranks of a row are distinct. -/
theorem InARow.pairwise {top : Rank} (h : InARow cards.toList top) :
    (sortedRanks cards).toList.Pairwise (· > ·) := by
  rcases h with ⟨row, hperm, hchain, -⟩ | ⟨hperm, -⟩
  · have hrow := pairwise_gt_of_isChain hchain
    have hsorted : (sortedRanks cards).toList = row := descending_eq (pairwise_ge_of_gt hrow) hperm
    rw [hsorted]
    exact hrow
  · have hlow : ([.ace, .five, .four, .three, .two] : List Rank).Pairwise (· > ·) := by decide
    have hsorted : (sortedRanks cards).toList = [.ace, .five, .four, .three, .two] :=
      descending_eq (pairwise_ge_of_gt hlow) hperm.symm
    rw [hsorted]
    exact hlow

theorem isStraight_false (h : ∀ top, ¬InARow cards.toList top) :
    isStraight (sortedRanks cards) = false := by
  by_contra hstraight
  rw [Bool.not_eq_false] at hstraight
  exact h _ ((inARow_iff cards _).mpr ⟨hstraight, rfl⟩)

/-! ## Groups -/

theorem rankGroups_eq (cards : Vector Card 5) :
    rankGroups (sortedRanks cards) = tally (ranksOf cards.toList) := rfl

/-- With a rank that occurs twice there is no row, and the groups decide. -/
theorem evaluate5_grouped {groups : List (ℕ × Rank)} (h : IsTally (ranksOf cards.toList) groups)
    {n : ℕ} {r : Rank} (hr : (n, r) ∈ groups) (hn : 2 ≤ n) :
    evaluate5 cards = dispatch (isFlush cards) false (sortedRanks cards) groups := by
  have hrow : ∀ top, ¬InARow cards.toList top := by
    intro top htop
    have hnodup : (sortedRanks cards).toList.Nodup := htop.pairwise.imp ne_of_gt
    exact h.not_nodup hr hn ((sortedRanks_perm cards).nodup_iff.mp hnodup)
  unfold evaluate5
  simp only [isStraight_false hrow, Bool.and_false, Bool.false_eq_true, if_false,
    rankGroups_eq, tally_eq h]

/-- With distinct ranks the suits and the row decide. -/
theorem evaluate5_singles (h : (sortedRanks cards).toList.Pairwise (· > ·)) :
    evaluate5 cards =
      if isFlush cards && isStraight (sortedRanks cards) then
        .straightFlush (straightTop (sortedRanks cards))
      else if isFlush cards then .flush (sortedRanks cards)
      else if isStraight (sortedRanks cards) then .straight (straightTop (sortedRanks cards))
      else .highCard (sortedRanks cards) := by
  have hgroups := tally_eq (isTally_singles h (sortedRanks_perm cards))
  unfold evaluate5
  simp only [rankGroups_eq, hgroups]
  rw [HandRank.toList_five (sortedRanks cards)]
  rfl

/-- The ways five can be split, the largest parts first. -/
theorem parts_of_five {sizes : List ℕ} (hpos : ∀ n ∈ sizes, 0 < n)
    (hordered : sizes.Pairwise (· ≥ ·)) (hsum : sizes.sum = 5) :
    sizes ∈ [[5], [4, 1], [3, 2], [3, 1, 1], [2, 2, 1], [2, 1, 1, 1], [1, 1, 1, 1, 1]] := by
  match sizes with
  | [] => cases hsum
  | [n] =>
      obtain rfl : n = 5 := hsum
      decide
  | [n, m] =>
      simp at hpos hordered hsum
      have : n = 4 ∧ m = 1 ∨ n = 3 ∧ m = 2 := by omega
      rcases this with ⟨rfl, rfl⟩ | ⟨rfl, rfl⟩ <;> decide
  | [n, m, l] =>
      simp at hpos hordered hsum
      have : n = 3 ∧ m = 1 ∧ l = 1 ∨ n = 2 ∧ m = 2 ∧ l = 1 := by omega
      rcases this with ⟨rfl, rfl, rfl⟩ | ⟨rfl, rfl, rfl⟩ <;> decide
  | [n, m, l, k] =>
      simp at hpos hordered hsum
      have : n = 2 ∧ m = 1 ∧ l = 1 ∧ k = 1 := by omega
      obtain ⟨rfl, rfl, rfl, rfl⟩ := this
      decide
  | [n, m, l, k, j] =>
      simp at hpos hsum
      have : n = 1 ∧ m = 1 ∧ l = 1 ∧ k = 1 ∧ j = 1 := by omega
      obtain ⟨rfl, rfl, rfl, rfl, rfl⟩ := this
      decide
  | n :: m :: l :: k :: j :: i :: rest =>
      simp at hpos hsum
      omega

/-- The ways five ranks can be grouped. -/
theorem tally_shapes {groups : List (ℕ × Rank)} (h : IsTally (ranksOf cards.toList) groups) :
    (∃ a, groups = [(5, a)]) ∨ (∃ a b, groups = [(4, a), (1, b)]) ∨
    (∃ a b, groups = [(3, a), (2, b)]) ∨ (∃ a b c, groups = [(3, a), (1, b), (1, c)]) ∨
    (∃ a b c, groups = [(2, a), (2, b), (1, c)]) ∨
    (∃ a b c d, groups = [(2, a), (1, b), (1, c), (1, d)]) ∨
    ∃ a b c d e, groups = [(1, a), (1, b), (1, c), (1, d), (1, e)] := by
  have hpos : ∀ n ∈ groups.map Prod.fst, 0 < n := by
    intro n hn
    obtain ⟨g, hg, rfl⟩ := List.mem_map.mp hn
    exact h.pos g hg
  have hordered : (groups.map Prod.fst).Pairwise (· ≥ ·) := by
    refine List.pairwise_map.mpr (h.ordered.imp ?_)
    intro g g' hbefore
    rcases before_iff.mp hbefore with hlt | ⟨heq, -⟩
    · exact le_of_lt hlt
    · exact le_of_eq heq
  have hshape := parts_of_five hpos hordered (h.sum_eq.trans (length_ranksOf cards))
  simp only [List.mem_cons, List.not_mem_nil, or_false, List.map_eq_cons_iff,
    List.map_eq_nil_iff] at hshape
  rcases hshape with h | h | h | h | h | h | h
  · obtain ⟨⟨_, a⟩, _, rfl, rfl, rfl⟩ := h
    exact .inl ⟨a, rfl⟩
  · obtain ⟨⟨_, a⟩, _, rfl, rfl, ⟨_, b⟩, _, rfl, rfl, rfl⟩ := h
    exact .inr (.inl ⟨a, b, rfl⟩)
  · obtain ⟨⟨_, a⟩, _, rfl, rfl, ⟨_, b⟩, _, rfl, rfl, rfl⟩ := h
    exact .inr (.inr (.inl ⟨a, b, rfl⟩))
  · obtain ⟨⟨_, a⟩, _, rfl, rfl, ⟨_, b⟩, _, rfl, rfl, ⟨_, c⟩, _, rfl, rfl, rfl⟩ := h
    exact .inr (.inr (.inr (.inl ⟨a, b, c, rfl⟩)))
  · obtain ⟨⟨_, a⟩, _, rfl, rfl, ⟨_, b⟩, _, rfl, rfl, ⟨_, c⟩, _, rfl, rfl, rfl⟩ := h
    exact .inr (.inr (.inr (.inr (.inl ⟨a, b, c, rfl⟩))))
  · obtain ⟨⟨_, a⟩, _, rfl, rfl, ⟨_, b⟩, _, rfl, rfl, ⟨_, c⟩, _, rfl, rfl, ⟨_, d⟩, _, rfl, rfl,
      rfl⟩ := h
    exact .inr (.inr (.inr (.inr (.inr (.inl ⟨a, b, c, d, rfl⟩)))))
  · obtain ⟨⟨_, a⟩, _, rfl, rfl, ⟨_, b⟩, _, rfl, rfl, ⟨_, c⟩, _, rfl, rfl, ⟨_, d⟩, _, rfl, rfl,
      ⟨_, e⟩, _, rfl, rfl, rfl⟩ := h
    exact .inr (.inr (.inr (.inr (.inr (.inr ⟨a, b, c, d, e, rfl⟩)))))

/-! ## Five cards -/

/-- What a hand shows is what the evaluator finds. -/
theorem Shows.evaluate5_eq {strength : HandRank} (h : Shows cards.toList strength) :
    evaluate5 cards = strength := by
  cases h with
  | straightFlush hsuited hrow =>
      obtain ⟨hstraight, htop⟩ := (inARow_iff cards _).mp hrow
      rw [evaluate5_singles hrow.pairwise, (isFlush_iff cards).mpr hsuited, hstraight, htop]
      rfl
  | @fourOfAKind q k hperm hne =>
      have h : IsTally (ranksOf cards.toList) [(4, q), (1, k)] :=
        ⟨hperm.symm, by simp, by simpa using hne, by simp [before_iff]⟩
      rw [evaluate5_grouped h List.mem_cons_self (by decide)]
      rfl
  | @fullHouse t p hperm hne =>
      have h : IsTally (ranksOf cards.toList) [(3, t), (2, p)] :=
        ⟨hperm.symm, by simp, by simpa using hne, by simp [before_iff]⟩
      rw [evaluate5_grouped h List.mem_cons_self (by decide)]
      rfl
  | flush hsuited hrow hperm hranks =>
      have hsorted := sortedRanks_eq (pairwise_ge_of_gt hranks) hperm
      rw [evaluate5_singles (hsorted ▸ hranks), (isFlush_iff cards).mpr hsuited,
        isStraight_false hrow, hsorted]
      rfl
  | straight hsuited hrow =>
      obtain ⟨hstraight, htop⟩ := (inARow_iff cards _).mp hrow
      rw [evaluate5_singles hrow.pairwise, Bool.eq_false_iff.mpr (mt (isFlush_iff cards).mp hsuited),
        hstraight, htop]
      rfl
  | @threeOfAKind t a b hperm hnot hgt =>
      have h : IsTally (ranksOf cards.toList) [(3, t), (1, a), (1, b)] :=
        ⟨hperm.symm, by simp, by simp_all [hgt.ne'], by simp [before_iff, hgt.le]⟩
      rw [evaluate5_grouped h List.mem_cons_self (by decide)]
      rfl
  | @twoPair hi lo k hperm hgt hnot =>
      have h : IsTally (ranksOf cards.toList) [(2, hi), (2, lo), (1, k)] :=
        ⟨hperm.symm, by simp, by simp_all [hgt.ne', eq_comm], by simp [before_iff, hgt.le]⟩
      rw [evaluate5_grouped h List.mem_cons_self (by decide)]
      rfl
  | @pair p a b c hperm hnot hab hbc =>
      have h : IsTally (ranksOf cards.toList) [(2, p), (1, a), (1, b), (1, c)] :=
        ⟨hperm.symm, by simp, by simp_all [hab.ne', hbc.ne', (hbc.trans hab).ne'],
          by simp [before_iff, hab.le, hbc.le, (hbc.trans hab).le]⟩
      rw [evaluate5_grouped h List.mem_cons_self (by decide)]
      rfl
  | highCard hsuited hrow hperm hranks =>
      have hsorted := sortedRanks_eq (pairwise_ge_of_gt hranks) hperm
      rw [evaluate5_singles (hsorted ▸ hranks),
        Bool.eq_false_iff.mpr (mt (isFlush_iff cards).mp hsuited), isStraight_false hrow, hsorted]
      rfl

/-- Five distinct cards are not all of one rank. -/
theorem not_five_of_a_kind (hdistinct : cards.toList.Nodup) (a : Rank) :
    ¬(ranksOf cards.toList).Perm (List.replicate 5 a) := by
  intro hperm
  have hrank : ∀ c ∈ cards.toList, c.rank = a := by
    intro c hc
    exact List.eq_of_mem_replicate (hperm.mem_iff.mp (List.mem_map_of_mem hc))
  have hsuits : (cards.toList.map Card.suit).Nodup := by
    refine List.Nodup.map_on ?_ hdistinct
    intro c hc d hd hsuit
    exact Card.ext_rank_suit ((hrank c hc).trans (hrank d hd).symm) hsuit
  have hfour := hsuits.length_le_card
  rw [List.length_map, Vector.length_toList] at hfour
  exact absurd hfour (by decide)

/-- With single ranks the suits and the row are all there is to show. -/
theorem shows_singles (hranks : (sortedRanks cards).toList.Pairwise (· > ·)) :
    Shows cards.toList (evaluate5 cards) := by
  have hperm := (sortedRanks_perm cards).symm
  rw [evaluate5_singles hranks]
  by_cases hrow : isStraight (sortedRanks cards) = true
  · have hinRow := (inARow_iff cards _).mpr ⟨hrow, rfl⟩
    by_cases hsuited : isFlush cards = true
    · rw [hrow, hsuited]
      exact .straightFlush ((isFlush_iff cards).mp hsuited) hinRow
    · rw [hrow, Bool.eq_false_iff.mpr hsuited]
      exact .straight (mt (isFlush_iff cards).mpr hsuited) hinRow
  · have hnot : ∀ top, ¬InARow cards.toList top :=
      fun top htop => hrow ((inARow_iff cards top).mp htop).1
    by_cases hsuited : isFlush cards = true
    · rw [Bool.eq_false_iff.mpr hrow, hsuited]
      exact .flush ((isFlush_iff cards).mp hsuited) hnot hperm hranks
    · rw [Bool.eq_false_iff.mpr hrow, Bool.eq_false_iff.mpr hsuited]
      exact .highCard (mt (isFlush_iff cards).mpr hsuited) hnot hperm hranks

/-- Every hand of distinct cards shows what the evaluator finds. -/
theorem shows_evaluate5 (hdistinct : cards.toList.Nodup) :
    Shows cards.toList (evaluate5 cards) := by
  have h := isTally_tally (ranksOf cards.toList)
  generalize tally (ranksOf cards.toList) = groups at h
  have hperm := h.perm.symm
  have hnodup := h.distinct
  have hordered := h.ordered
  rcases tally_shapes h with ⟨a, rfl⟩ | ⟨a, b, rfl⟩ | ⟨a, b, rfl⟩ | ⟨a, b, c, rfl⟩ | ⟨a, b, c, rfl⟩ |
    ⟨a, b, c, d, rfl⟩ | ⟨a, b, c, d, e, rfl⟩
  · exact absurd hperm (not_five_of_a_kind hdistinct a)
  · rw [evaluate5_grouped h List.mem_cons_self (by decide)]
    exact .fourOfAKind hperm (by simpa using hnodup)
  · rw [evaluate5_grouped h List.mem_cons_self (by decide)]
    exact .fullHouse hperm (by simpa using hnodup)
  · simp [before_iff] at hnodup hordered
    rw [evaluate5_grouped h List.mem_cons_self (by decide)]
    exact .threeOfAKind hperm (by simp [hnodup]) (lt_of_le_of_ne hordered (Ne.symm hnodup.2))
  · simp [before_iff] at hnodup hordered
    obtain ⟨⟨hab, hac⟩, hbc⟩ := hnodup
    rw [evaluate5_grouped h List.mem_cons_self (by decide)]
    exact .twoPair hperm (lt_of_le_of_ne hordered (Ne.symm hab)) (by simp [Ne.symm hac, Ne.symm hbc])
  · simp [before_iff] at hnodup hordered
    obtain ⟨hnot, ⟨hbc, hbd⟩, hcd⟩ := hnodup
    rw [evaluate5_grouped h List.mem_cons_self (by decide)]
    exact .pair hperm (by simp [hnot]) (lt_of_le_of_ne hordered.1.1 (Ne.symm hbc))
      (lt_of_le_of_ne hordered.2 (Ne.symm hcd))
  · have hge : [a, b, c, d, e].Pairwise (· ≥ ·) := by
      simpa [before_iff] using hordered
    have hgt : [a, b, c, d, e].Pairwise (· > ·) :=
      (hge.and hnodup).imp fun hboth => lt_of_le_of_ne hboth.1 (Ne.symm hboth.2)
    have hsorted : (sortedRanks cards).toList = [a, b, c, d, e] := descending_eq hge h.perm
    exact shows_singles (hsorted ▸ hgt)

/-- **Five cards.** The strength found for five distinct cards is the one they show, whatever
    order they are held in. -/
theorem evaluate5_eq_iff (cards : Vector Card 5) (hdistinct : cards.toList.Nodup)
    (strength : HandRank) : evaluate5 cards = strength ↔ Shows cards.toList strength := by
  constructor
  · rintro rfl
    exact shows_evaluate5 hdistinct
  · exact Shows.evaluate5_eq

/-- The lowest straight flush, held out of order. -/
def steelWheel : Vector Card 5 :=
  #v[.new .four .spades, .new .ace .spades, .new .two .spades, .new .five .spades,
    .new .three .spades]

theorem evaluate5_eq_iff_steel_wheel :
    evaluate5 steelWheel = .straightFlush .five ∧
      Shows steelWheel.toList (.straightFlush .five) := by
  have hvalue : evaluate5 steelWheel = .straightFlush .five := by decide
  exact ⟨hvalue, (evaluate5_eq_iff steelWheel (by decide) _).mp hvalue⟩

end

/-! ## Seven cards -/

theorem better_eq_max (best candidate : HandRank) : better best candidate = max best candidate := by
  unfold better
  split
  · next h => exact (max_eq_right h.le).symm
  · next h => exact (max_eq_left (not_lt.mp h)).symm

/-- The loop keeps the greatest strength it has seen. -/
theorem foldl_better_isGreatest {α : Type} (f : α → HandRank) (start : HandRank) (xs : List α) :
    IsGreatest {strength | strength = start ∨ ∃ x ∈ xs, f x = strength}
      (xs.foldl (fun best x => better best (f x)) start) := by
  induction xs generalizing start with
  | nil =>
      refine ⟨.inl rfl, ?_⟩
      rintro strength (rfl | ⟨x, hx, -⟩)
      · exact le_rfl
      · cases hx
  | cons x xs ih =>
      obtain ⟨hmem, hbound⟩ := ih (better start (f x))
      rw [better_eq_max] at hmem hbound
      rw [List.foldl_cons, better_eq_max]
      constructor
      · rcases hmem with hmax | ⟨y, hy, hfy⟩
        · rw [hmax]
          rcases max_choice start (f x) with h | h
          · exact .inl h
          · exact .inr ⟨x, List.mem_cons_self, h.symm⟩
        · exact .inr ⟨y, List.mem_cons_of_mem x hy, hfy⟩
      · have hfirst := hbound (.inl rfl)
        rintro strength (rfl | ⟨y, hy, rfl⟩)
        · exact (le_max_left _ _).trans hfirst
        · rcases List.mem_cons.mp hy with rfl | hy
          · exact (le_max_right _ _).trans hfirst
          · exact hbound (.inr ⟨y, hy, rfl⟩)

theorem not_lt_replicate_two (ranks : List Rank) : ¬ranks < List.replicate ranks.length .two := by
  induction ranks with
  | nil => exact List.lt_irrefl _
  | cons r ranks ih =>
      rw [List.length_cons, List.replicate_succ, List.cons_lt_cons_iff]
      rintro (hlt | ⟨-, hlt⟩)
      · have hface := Rank.lt_iff_face.mp hlt
        have htwo : Rank.two.face.toNat = 2 := rfl
        have := r.face_bounds
        omega
      · exact ih hlt

/-- The strength the loop starts from is the weakest. -/
theorem sentinel_le (strength : HandRank) : .highCard (Vector.replicate 5 .two) ≤ strength := by
  refine not_lt.mp fun hlt => ?_
  rcases HandRank.lt_iff.mp hlt with hcategory | ⟨hcategory, hfields⟩
  · exact absurd hcategory (Nat.not_lt_zero _)
  · have hlength := HandRank.length_fields hcategory
    have hnot := not_lt_replicate_two strength.fields
    rw [hlength] at hnot
    exact hnot hfields

section

variable {cards : Vector Card 7}

/-- The hands the loops build are the ways to leave two of the cards out. -/
theorem map_others (cards : Vector Card 7) :
    exclusions.map (others cards.toList) = cards.toList.sublistsLen 5 := by
  obtain ⟨⟨items⟩, hsize⟩ := cards
  match items, hsize with
  | [_, _, _, _, _, _, _], _ => rfl

theorem others_sublist (cards : Vector Card 7) {out : ℕ × ℕ} (hout : out ∈ exclusions) :
    (others cards.toList out).Sublist cards.toList ∧ (others cards.toList out).length = 5 := by
  have hmem : others cards.toList out ∈ cards.toList.sublistsLen 5 := by
    rw [← map_others]
    exact List.mem_map_of_mem hout
  exact List.mem_sublistsLen.mp hmem

theorem toList_subHand (cards : Vector Card 7) {out : ℕ × ℕ} (hout : out ∈ exclusions) :
    (subHand cards out).toList = others cards.toList out := by
  have hlength := (others_sublist cards hout).2
  refine List.ext_getElem (by rw [Vector.length_toList, hlength]) ?_
  intro k hk hk'
  simp [subHand, hk']

/-- Any five of the cards are, in some order, the others of a pair left out. -/
theorem exists_others {five : List Card} (hlength : five.length = 5)
    (hsub : five.Subperm cards.toList) :
    ∃ out ∈ exclusions, (others cards.toList out).Perm five := by
  obtain ⟨kept, hperm, hsublist⟩ := hsub
  have hkept : kept ∈ cards.toList.sublistsLen 5 :=
    List.mem_sublistsLen.mpr ⟨hsublist, hperm.length_eq.trans hlength⟩
  rw [← map_others] at hkept
  obtain ⟨out, hout, rfl⟩ := List.mem_map.mp hkept
  exact ⟨out, hout, hperm⟩

/-- A hand the loops build shows its candidate. -/
theorem shows_candidate (hdistinct : cards.toList.Nodup) {out : ℕ × ℕ} (hout : out ∈ exclusions) :
    Shows (others cards.toList out) (evaluate5 (subHand cards out)) := by
  have hlist := toList_subHand cards hout
  rw [← hlist]
  refine shows_evaluate5 ?_
  rw [hlist]
  exact (others_sublist cards hout).1.nodup hdistinct

/-- **The best five of seven.** The strength found for seven distinct cards is the greatest one
    that any five of them show. -/
theorem evaluate7_isGreatest (cards : Vector Card 7) (hdistinct : cards.toList.Nodup) :
    IsGreatest {strength | ∃ five : List Card, five.length = 5 ∧ five.Subperm cards.toList ∧
      Shows five strength} (evaluate7 cards) := by
  have hgreatest := foldl_better_isGreatest (fun out => evaluate5 (subHand cards out))
    (.highCard (Vector.replicate 5 .two)) exclusions
  obtain ⟨hmem, hbound⟩ := hgreatest
  have hcandidate : ∃ out ∈ exclusions, evaluate5 (subHand cards out) = evaluate7 cards := by
    rcases hmem with hstart | hfound
    · -- nothing beat the sentinel, so the first candidate is the sentinel
      have hfirst : (0, 1) ∈ exclusions := by decide
      have hle : evaluate5 (subHand cards (0, 1)) ≤ evaluate7 cards :=
        hbound (.inr ⟨_, hfirst, rfl⟩)
      refine ⟨_, hfirst, le_antisymm hle ?_⟩
      exact le_trans (le_of_eq hstart) (sentinel_le _)
    · exact hfound
  constructor
  · obtain ⟨out, hout, hfound⟩ := hcandidate
    rw [← hfound]
    obtain ⟨hsublist, hlength⟩ := others_sublist cards hout
    exact ⟨_, hlength, hsublist.subperm, shows_candidate hdistinct hout⟩
  · rintro strength ⟨five, hlength, hsub, hshows⟩
    obtain ⟨out, hout, hperm⟩ := exists_others hlength hsub
    refine hbound (.inr ⟨out, hout, ?_⟩)
    have hsame := hshows.congr hperm.symm
    rw [← toList_subHand cards hout] at hsame
    exact hsame.evaluate5_eq

/-- A full house among seven cards. -/
def acesFull : Vector Card 7 :=
  #v[.new .ace .spades, .new .three .diamonds, .new .ace .hearts, .new .king .clubs,
    .new .ace .diamonds, .new .two .clubs, .new .king .spades]

theorem evaluate7_isGreatest_aces_full :
    IsGreatest {strength | ∃ five : List Card, five.length = 5 ∧ five.Subperm acesFull.toList ∧
      Shows five strength} (.fullHouse .ace .king) := by
  have hvalue : evaluate7 acesFull = .fullHouse .ace .king := by decide +kernel
  exact hvalue ▸ evaluate7_isGreatest acesFull (by decide)

end

end ArkheForge.Cards
