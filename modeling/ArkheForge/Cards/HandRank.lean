/-
  The strength of a hand (`HandRank` in `examples/card_primitives/src/hand_eval.rs`) and its
  six-byte encoding.

  The order is the derived one: the variant first, then the ranks the variant carries, in
  order. The encoding puts the variant and the ranks into bytes and fills up with zeros. It
  keeps the order (`compareHands_eq_bytes`), bytes being compared one after the other, so
  two strengths never share an encoding.
-/
import ArkheForge.Cards.Card
import Mathlib.Data.List.Lex
import Mathlib.Data.Prod.Lex

namespace ArkheForge.Cards

/-- `HandRank`. -/
inductive HandRank
  | highCard (ranks : Vector Rank 5)
  | pair (pair : Rank) (kickers : Vector Rank 3)
  | twoPair (high low kicker : Rank)
  | threeOfAKind (trips : Rank) (kickers : Vector Rank 2)
  | straight (top : Rank)
  | flush (ranks : Vector Rank 5)
  | fullHouse (trips pair : Rank)
  | fourOfAKind (quads kicker : Rank)
  | straightFlush (top : Rank)
  deriving DecidableEq, Repr

namespace HandRank

/-- `HandRank::category_index`. -/
def categoryIndex : HandRank → UInt8
  | highCard _ => 0
  | pair _ _ => 1
  | twoPair _ _ _ => 2
  | threeOfAKind _ _ => 3
  | straight _ => 4
  | flush _ => 5
  | fullHouse _ _ => 6
  | fourOfAKind _ _ => 7
  | straightFlush _ => 8

/-- `HandRank::to_chain_hash_bytes`. -/
def toChainHashBytes : HandRank → Vector UInt8 6
  | highCard r => #v[0, r[0].face, r[1].face, r[2].face, r[3].face, r[4].face]
  | pair p k => #v[1, p.face, k[0].face, k[1].face, k[2].face, 0]
  | twoPair hi lo k => #v[2, hi.face, lo.face, k.face, 0, 0]
  | threeOfAKind t k => #v[3, t.face, k[0].face, k[1].face, 0, 0]
  | straight top => #v[4, top.face, 0, 0, 0, 0]
  | flush r => #v[5, r[0].face, r[1].face, r[2].face, r[3].face, r[4].face]
  | fullHouse t p => #v[6, t.face, p.face, 0, 0, 0]
  | fourOfAKind q k => #v[7, q.face, k.face, 0, 0, 0]
  | straightFlush top => #v[8, top.face, 0, 0, 0, 0]

/-! ## The order -/

/-- The ranks a strength carries, in the order of its fields. -/
def fields : HandRank → List Rank
  | highCard ranks => ranks.toList
  | pair p kickers => p :: kickers.toList
  | twoPair high low kicker => [high, low, kicker]
  | threeOfAKind trips kickers => trips :: kickers.toList
  | straight top => [top]
  | flush ranks => ranks.toList
  | fullHouse trips p => [trips, p]
  | fourOfAKind quads kicker => [quads, kicker]
  | straightFlush top => [top]

/-- What the derived order compares. -/
def key (h : HandRank) : ℕ ×ₗ List Rank := toLex (h.categoryIndex.toNat, h.fields)

theorem eq_of_fields {a b : HandRank} (hcategory : a.categoryIndex = b.categoryIndex)
    (hfields : a.fields = b.fields) : a = b := by
  cases a <;> cases b <;> simp_all [categoryIndex, fields, Vector.toList_inj]

theorem key_injective : Function.Injective key := by
  intro a b h
  obtain ⟨hcategory, hfields⟩ := Prod.mk.inj (toLex.injective h)
  exact eq_of_fields (UInt8.toNat_inj.mp hcategory) hfields

/-- The derived order. -/
instance linearOrder : LinearOrder HandRank := LinearOrder.lift' key key_injective

/-- `compare_hands`. -/
def compareHands (a b : HandRank) : Ordering := compare a b

theorem lt_iff {a b : HandRank} :
    a < b ↔ a.categoryIndex.toNat < b.categoryIndex.toNat ∨
      a.categoryIndex = b.categoryIndex ∧ a.fields < b.fields := by
  have hkey : a < b ↔ a.key < b.key := Iff.rfl
  rw [hkey, Prod.Lex.lt_iff]
  exact or_congr Iff.rfl (and_congr_left' UInt8.toNat_inj)

/-! ## The encoding keeps it -/

theorem length_fields {a b : HandRank} (h : a.categoryIndex = b.categoryIndex) :
    a.fields.length = b.fields.length := by
  cases a <;> cases b <;> simp_all [categoryIndex, fields]

theorem toList_three {α : Type} (v : Vector α 3) : v.toList = [v[0], v[1], v[2]] := by
  obtain ⟨⟨items⟩, hsize⟩ := v
  match items, hsize with
  | [_, _, _], _ => rfl

theorem toList_two {α : Type} (v : Vector α 2) : v.toList = [v[0], v[1]] := by
  obtain ⟨⟨items⟩, hsize⟩ := v
  match items, hsize with
  | [_, _], _ => rfl

theorem toList_five {α : Type} (v : Vector α 5) : v.toList = [v[0], v[1], v[2], v[3], v[4]] := by
  obtain ⟨⟨items⟩, hsize⟩ := v
  match items, hsize with
  | [_, _, _, _, _], _ => rfl

/-- The variant, the ranks, and zeros up to six bytes. -/
theorem toList_toChainHashBytes (h : HandRank) :
    h.toChainHashBytes.toList =
      h.categoryIndex :: (h.fields.map Rank.face ++ List.replicate (5 - h.fields.length) 0) := by
  cases h with
  | highCard r => simp [toChainHashBytes, fields, categoryIndex, toList_five r]
  | pair p k => simp [toChainHashBytes, fields, categoryIndex, toList_three k]
  | twoPair hi lo k => rfl
  | threeOfAKind t k => simp [toChainHashBytes, fields, categoryIndex, toList_two k]
  | straight top => rfl
  | flush r => simp [toChainHashBytes, fields, categoryIndex, toList_five r]
  | fullHouse t p => rfl
  | fourOfAKind q k => rfl
  | straightFlush top => rfl

/-- Faces are compared as the ranks are. -/
theorem map_face_lt {xs ys : List Rank} : xs.map Rank.face < ys.map Rank.face ↔ xs < ys := by
  induction xs generalizing ys with
  | nil =>
      cases ys with
      | nil => exact ⟨fun h => absurd h (List.lt_irrefl _), fun h => absurd h (List.lt_irrefl _)⟩
      | cons y ys => exact ⟨fun _ => List.nil_lt_cons y ys, fun _ => List.nil_lt_cons _ _⟩
  | cons x xs ih =>
      cases ys with
      | nil => exact ⟨fun h => absurd h (List.not_lt_nil _), fun h => absurd h (List.not_lt_nil _)⟩
      | cons y ys =>
          rw [List.map_cons, List.map_cons, List.cons_lt_cons_iff, List.cons_lt_cons_iff, ih,
            UInt8.lt_iff_toNat_lt, ← Rank.lt_iff_face, Rank.face_injective.eq_iff]

/-- What follows two lists of one length does not change how they compare. -/
theorem append_lt_append {xs ys : List UInt8} (h : xs.length = ys.length) (zs : List UInt8) :
    xs ++ zs < ys ++ zs ↔ xs < ys := by
  induction xs generalizing ys with
  | nil =>
      obtain rfl := List.length_eq_zero_iff.mp h.symm
      exact ⟨fun h => absurd h (List.lt_irrefl zs), fun h => absurd h (List.lt_irrefl _)⟩
  | cons x xs ih =>
      cases ys with
      | nil => cases h
      | cons y ys =>
          rw [List.cons_append, List.cons_append, List.cons_lt_cons_iff, List.cons_lt_cons_iff,
            ih (Nat.succ.inj h)]

/-- Bytes are compared as the strengths are. -/
theorem lt_iff_toChainHashBytes_lt {a b : HandRank} :
    a < b ↔ a.toChainHashBytes.toList < b.toChainHashBytes.toList := by
  rw [lt_iff, toList_toChainHashBytes, toList_toChainHashBytes, List.cons_lt_cons_iff,
    UInt8.lt_iff_toNat_lt]
  refine or_congr Iff.rfl (and_congr_right fun hcategory => ?_)
  have hlength := length_fields hcategory
  have hmap : (a.fields.map Rank.face).length = (b.fields.map Rank.face).length := by
    rw [List.length_map, List.length_map, hlength]
  rw [hlength, append_lt_append hmap, map_face_lt]

theorem toChainHashBytes_injective : Function.Injective toChainHashBytes := by
  intro a b h
  refine le_antisymm (not_lt.mp ?_) (not_lt.mp ?_)
  · rw [lt_iff_toChainHashBytes_lt, h]
    exact List.lt_irrefl _
  · rw [lt_iff_toChainHashBytes_lt, h]
    exact List.lt_irrefl _

/-- **Encodings are compared as hands are.** For any two strengths: `compare_hands` answers what the
    comparison of their six bytes, one after the other, answers, and two strengths never share
    an encoding. -/
theorem compareHands_eq_bytes (a b : HandRank) :
    (compareHands a b = .lt ↔ a.toChainHashBytes.toList < b.toChainHashBytes.toList) ∧
    (compareHands a b = .eq ↔ a.toChainHashBytes = b.toChainHashBytes) ∧
    (compareHands a b = .gt ↔ b.toChainHashBytes.toList < a.toChainHashBytes.toList) := by
  unfold compareHands
  rw [compare_lt_iff_lt, compare_eq_iff_eq, compare_gt_iff_gt,
    lt_iff_toChainHashBytes_lt, lt_iff_toChainHashBytes_lt, toChainHashBytes_injective.eq_iff]
  exact ⟨Iff.rfl, Iff.rfl, Iff.rfl⟩

end HandRank

end ArkheForge.Cards
