/-
  Playing cards (`examples/card_primitives/src/card.rs`).

  A card is one byte below 52: the rank above `Two` times four, plus the suit. The byte is
  private in the source, so the bound is a field here. Cards are the pairs of a rank and a
  suit (`new_rank_suit`), in rank-major order (`lt_iff`), and the two decoders, of a byte
  and of a text, take exactly what the encoders write.
-/
import ArkheForge.Lib.BigEndian
import Mathlib.Data.Fintype.Basic
import Mathlib.Data.Fintype.Prod
import Mathlib.Order.Lattice

namespace ArkheForge.Cards

open BigEndian

/-! ## Ranks and suits -/

/-- `Rank`. -/
inductive Rank
  | two
  | three
  | four
  | five
  | six
  | seven
  | eight
  | nine
  | ten
  | jack
  | queen
  | king
  | ace
  deriving DecidableEq, Repr

/-- `Suit`. -/
inductive Suit
  | clubs
  | diamonds
  | hearts
  | spades
  deriving DecidableEq, Repr

/-- `CardError`. -/
inductive CardError
  | invalidRank (face : UInt8)
  | invalidSuit (index : UInt8)
  | invalidLength (len : ℕ)
  deriving DecidableEq, Repr

namespace Rank

/-- `Rank::ALL`. -/
def all : List Rank :=
  [two, three, four, five, six, seven, eight, nine, ten, jack, queen, king, ace]

theorem all_nodup : all.Nodup := by decide

theorem mem_all (r : Rank) : r ∈ all := by cases r <;> decide

instance fintype : Fintype Rank := ⟨⟨all, all_nodup⟩, mem_all⟩

/-- `rank as u8`. -/
def face : Rank → UInt8
  | two => 2
  | three => 3
  | four => 4
  | five => 5
  | six => 6
  | seven => 7
  | eight => 8
  | nine => 9
  | ten => 10
  | jack => 11
  | queen => 12
  | king => 13
  | ace => 14

/-- `Rank::try_from_face`. -/
def tryFromFace : UInt8 → Except CardError Rank
  | 2 => .ok two
  | 3 => .ok three
  | 4 => .ok four
  | 5 => .ok five
  | 6 => .ok six
  | 7 => .ok seven
  | 8 => .ok eight
  | 9 => .ok nine
  | 10 => .ok ten
  | 11 => .ok jack
  | 12 => .ok queen
  | 13 => .ok king
  | 14 => .ok ace
  | face => .error (.invalidRank face)

theorem face_toNat_injective : Function.Injective fun r : Rank => r.face.toNat := by
  intro r s h
  revert r s
  decide

theorem face_injective : Function.Injective face :=
  fun _ _ h => face_toNat_injective (congrArg UInt8.toNat h)

theorem face_bounds (r : Rank) : 2 ≤ r.face.toNat ∧ r.face.toNat ≤ 14 := by
  revert r
  decide

/-- The derived order is that of the discriminants. -/
instance linearOrder : LinearOrder Rank :=
  LinearOrder.lift' (fun r => r.face.toNat) face_toNat_injective

theorem lt_iff_face {r s : Rank} : r < s ↔ r.face.toNat < s.face.toNat := Iff.rfl

theorem le_iff_face {r s : Rank} : r ≤ s ↔ r.face.toNat ≤ s.face.toNat := Iff.rfl

theorem tryFromFace_eq_ok {face : UInt8} {r : Rank} : tryFromFace face = .ok r ↔ r.face = face := by
  constructor
  · intro h
    unfold tryFromFace at h
    split at h
    all_goals first
      | obtain rfl := Except.ok.inj h
        rfl
      | cases h
  · rintro rfl
    cases r <;> rfl

end Rank

namespace Suit

/-- `Suit::ALL`. -/
def all : List Suit := [clubs, diamonds, hearts, spades]

theorem all_nodup : all.Nodup := by decide

theorem mem_all (s : Suit) : s ∈ all := by cases s <;> decide

instance fintype : Fintype Suit := ⟨⟨all, all_nodup⟩, mem_all⟩

/-- `suit as u8`. -/
def index : Suit → UInt8
  | clubs => 0
  | diamonds => 1
  | hearts => 2
  | spades => 3

/-- `Suit::try_from_index`. -/
def tryFromIndex : UInt8 → Except CardError Suit
  | 0 => .ok clubs
  | 1 => .ok diamonds
  | 2 => .ok hearts
  | 3 => .ok spades
  | index => .error (.invalidSuit index)

theorem index_toNat_injective : Function.Injective fun s : Suit => s.index.toNat := by
  intro s t h
  revert s t
  decide

/-- `impl Ord for Suit`. -/
instance linearOrder : LinearOrder Suit :=
  LinearOrder.lift' (fun s => s.index.toNat) index_toNat_injective

theorem lt_iff_index {s t : Suit} : s < t ↔ s.index.toNat < t.index.toNat := Iff.rfl

end Suit

/-! ## Cards -/

/-- `Card`. -/
structure Card where
  byte : UInt8
  byte_le : byte.toNat ≤ 51
  deriving DecidableEq, Repr

namespace Card

theorem new_le (rank : Rank) (suit : Suit) : ((rank.face - 2) * 4 + suit.index).toNat ≤ 51 := by
  cases rank <;> cases suit <;> decide

/-- `Card::new`. -/
def new (rank : Rank) (suit : Suit) : Card := ⟨(rank.face - 2) * 4 + suit.index, new_le rank suit⟩

/-- `Card::from_byte`. -/
def fromByte (b : UInt8) : Except CardError Card :=
  if h : 51 < b.toNat then .error (.invalidRank (b / 4 + 2)) else .ok ⟨b, Nat.le_of_not_lt h⟩

/-- `Card::to_byte`. -/
def toByte (c : Card) : UInt8 := c.byte

/-- `Card::rank`. -/
def rank (c : Card) : Rank :=
  match c.byte / 4 with
  | 0 => .two
  | 1 => .three
  | 2 => .four
  | 3 => .five
  | 4 => .six
  | 5 => .seven
  | 6 => .eight
  | 7 => .nine
  | 8 => .ten
  | 9 => .jack
  | 10 => .queen
  | 11 => .king
  | _ => .ace

/-- `Card::suit`. -/
def suit (c : Card) : Suit :=
  match c.byte % 4 with
  | 0 => .clubs
  | 1 => .diamonds
  | 2 => .hearts
  | _ => .spades

theorem toByte_injective : Function.Injective toByte := by
  rintro ⟨b, hb⟩ ⟨b', hb'⟩ (rfl : b = b')
  rfl

theorem byte_toNat_injective : Function.Injective fun c : Card => c.byte.toNat :=
  fun _ _ h => toByte_injective (UInt8.toNat_inj.mp h)

/-- The derived order is that of the byte. -/
instance linearOrder : LinearOrder Card :=
  LinearOrder.lift' (fun c => c.byte.toNat) byte_toNat_injective

/-! ## Cards as pairs of a rank and a suit -/

/-- The cards by number. -/
def ofFin (n : Fin 52) : Card := ⟨UInt8.ofNat n, by
  rw [UInt8.toNat_ofNat']
  omega⟩

theorem ofFin_byte (c : Card) : ofFin ⟨c.byte.toNat, Nat.lt_succ_of_le c.byte_le⟩ = c := by
  apply toByte_injective
  exact UInt8.ofNat_toNat

/-- What holds of the 52 cards by number holds of every card. -/
theorem forall_of_ofFin {p : Card → Prop} (h : ∀ n : Fin 52, p (ofFin n)) (c : Card) : p c :=
  ofFin_byte c ▸ h _

theorem new_rank_suit (c : Card) : new c.rank c.suit = c :=
  forall_of_ofFin (p := fun c => new c.rank c.suit = c) (by decide) c

@[simp] theorem rank_new (rank : Rank) (suit : Suit) : (new rank suit).rank = rank := by
  revert rank suit
  decide

@[simp] theorem suit_new (rank : Rank) (suit : Suit) : (new rank suit).suit = suit := by
  revert rank suit
  decide

theorem ext_rank_suit {c d : Card} (hrank : c.rank = d.rank) (hsuit : c.suit = d.suit) : c = d := by
  rw [← new_rank_suit c, ← new_rank_suit d, hrank, hsuit]

theorem byte_eq (c : Card) :
    c.byte.toNat = (c.rank.face.toNat - 2) * 4 + c.suit.index.toNat := by
  rw [← new_rank_suit c]
  generalize c.rank = rank
  generalize c.suit = suit
  revert rank suit
  decide

/-- The order goes by the rank first. -/
theorem lt_iff {c d : Card} : c < d ↔ c.rank < d.rank ∨ c.rank = d.rank ∧ c.suit < d.suit := by
  have hbounds : ∀ s : Suit, s.index.toNat ≤ 3 := by decide
  have hbyte : c < d ↔ c.byte.toNat < d.byte.toNat := Iff.rfl
  have hsame : c.rank = d.rank ↔ c.rank.face.toNat = d.rank.face.toNat :=
    Rank.face_toNat_injective.eq_iff.symm
  rw [hbyte, hsame, Rank.lt_iff_face, Suit.lt_iff_index, byte_eq c, byte_eq d]
  have := hbounds c.suit
  have := hbounds d.suit
  have := c.rank.face_bounds
  have := d.rank.face_bounds
  omega

theorem fromByte_eq_ok {b : UInt8} {c : Card} : fromByte b = .ok c ↔ c.toByte = b := by
  unfold fromByte
  split
  · next h =>
      constructor
      · intro hc
        cases hc
      · rintro rfl
        exact absurd c.byte_le (Nat.not_le_of_lt h)
  · next h =>
      constructor
      · intro hc
        obtain rfl := Except.ok.inj hc
        rfl
      · rintro rfl
        rfl

/-! ## Texts -/

/-- The first character `Display` writes. -/
def rankChar : Rank → UInt8
  | .two => 50
  | .three => 51
  | .four => 52
  | .five => 53
  | .six => 54
  | .seven => 55
  | .eight => 56
  | .nine => 57
  | .ten => 84
  | .jack => 74
  | .queen => 81
  | .king => 75
  | .ace => 65

/-- The second one. -/
def suitChar : Suit → UInt8
  | .clubs => 67
  | .diamonds => 68
  | .hearts => 72
  | .spades => 83

/-- `Display`, as bytes of ASCII. -/
def display (c : Card) : Bytes := [rankChar c.rank, suitChar c.suit]

/-- The match on the first byte of a text. -/
def parseRank : UInt8 → Except CardError Rank
  | 50 => .ok .two
  | 51 => .ok .three
  | 52 => .ok .four
  | 53 => .ok .five
  | 54 => .ok .six
  | 55 => .ok .seven
  | 56 => .ok .eight
  | 57 => .ok .nine
  | 84 => .ok .ten
  | 74 => .ok .jack
  | 81 => .ok .queen
  | 75 => .ok .king
  | 65 => .ok .ace
  | other => .error (.invalidRank other)

/-- The match on the second byte. -/
def parseSuit : UInt8 → Except CardError Suit
  | 67 => .ok .clubs
  | 68 => .ok .diamonds
  | 72 => .ok .hearts
  | 83 => .ok .spades
  | other => .error (.invalidSuit other)

/-- `FromStr`, on the bytes of the text. -/
def fromStr : Bytes → Except CardError Card
  | [first, second] => do
    let rank ← parseRank first
    let suit ← parseSuit second
    .ok (new rank suit)
  | bytes => .error (.invalidLength bytes.length)

theorem parseRank_eq_ok {b : UInt8} {r : Rank} : parseRank b = .ok r ↔ rankChar r = b := by
  constructor
  · intro h
    unfold parseRank at h
    split at h
    all_goals first
      | obtain rfl := Except.ok.inj h
        rfl
      | cases h
  · rintro rfl
    cases r <;> rfl

theorem parseSuit_eq_ok {b : UInt8} {s : Suit} : parseSuit b = .ok s ↔ suitChar s = b := by
  constructor
  · intro h
    unfold parseSuit at h
    split at h
    all_goals first
      | obtain rfl := Except.ok.inj h
        rfl
      | cases h
  · rintro rfl
    cases s <;> rfl

/-- A text is accepted exactly when it is the one written for the card. -/
theorem fromStr_eq_ok {bytes : Bytes} {c : Card} : fromStr bytes = .ok c ↔ c.display = bytes := by
  constructor
  · intro h
    unfold fromStr at h
    split at h
    · next first second =>
        cases hrank : parseRank first with
        | error e =>
            rw [hrank] at h
            cases h
        | ok rank =>
            cases hsuit : parseSuit second with
            | error e =>
                rw [hrank, hsuit] at h
                cases h
            | ok suit =>
                rw [hrank, hsuit] at h
                obtain rfl := Except.ok.inj h
                unfold display
                rw [rank_new, suit_new, parseRank_eq_ok.mp hrank, parseSuit_eq_ok.mp hsuit]
    · cases h
  · rintro rfl
    show (do
      let rank ← parseRank (rankChar c.rank)
      let suit ← parseSuit (suitChar c.suit)
      .ok (new rank suit) : Except CardError Card) = .ok c
    rw [parseRank_eq_ok.mpr rfl, parseSuit_eq_ok.mpr rfl]
    exact congrArg Except.ok (new_rank_suit c)

end Card

end ArkheForge.Cards
