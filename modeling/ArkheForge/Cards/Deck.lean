/-
  The deck (`examples/card_primitives/src/deck.rs`): 52 cards and a cursor. The cards
  below the cursor have been drawn, and a shuffle permutes the others in place.

  * `exec_shuffle`: a shuffle of the deck is the shuffle of `arkhe-rand` on the slice of
    the undrawn cards, and leaves the drawn ones and the cursor as they are.
  * `dealt_without_repetition`: over every run of draws and shuffles the cards dealt are
    the drawn region in the order they were dealt in, and no card is dealt twice.
  * `undrawn_shuffled_uniformly`: at every moment of such a run each order of the undrawn
    cards comes from exactly one vector of draws.
-/
import ArkheForge.Cards.Card
import ArkheForge.Rand.Shuffle
import Mathlib.Data.List.Perm.Basic

namespace ArkheForge.Cards

open ArkheForge.Rand Fallible FisherYates
open scoped Nat

/-- A target. `usize` has at least 16 bits. -/
structure Target extends PointerWidth where
  sixteen_le : 16 ≤ bits

theorem Target.fifty_two_lt (target : Target) : 52 < 2 ^ target.bits :=
  lt_of_lt_of_le (by decide) (Nat.pow_le_pow_right Nat.two_pos target.sixteen_le)

/-! ## The source functions -/

/-- `Deck`. -/
structure Deck where
  cards : Vector Card 52
  cursor : UInt8
  cursor_le : cursor.toNat ≤ 52
  deriving DecidableEq

/-- The cards in the order of the nested loop of `standard`. -/
def standardOrder : List Card := Rank.all.flatMap fun rank => Suit.all.map (Card.new rank)

theorem length_standardOrder : standardOrder.toArray.size = 52 := rfl

namespace Deck

/-- `Deck::standard`. -/
def standard : Deck := ⟨⟨standardOrder.toArray, length_standardOrder⟩, 0, Nat.zero_le _⟩

theorem cursor_succ_le {d : Deck} (h : d.cursor.toNat < 52) : (d.cursor + 1).toNat ≤ 52 := by
  have hone : (1 : UInt8).toNat = 1 := rfl
  rw [UInt8.toNat_add, hone]
  omega

/-- The deck behind a draw. -/
def advanced (d : Deck) (h : d.cursor.toNat < 52) : Deck :=
  { d with
    cursor := d.cursor + 1
    cursor_le := cursor_succ_le h }

/-- `Deck::draw`. -/
def draw (d : Deck) : Option Card × Deck :=
  if h : d.cursor.toNat < 52 then (some (d.cards.get ⟨d.cursor.toNat, h⟩), d.advanced h)
  else (none, d)

/-- `Deck::remaining`. -/
def remaining (d : Deck) : ℕ := 52 - d.cursor.toNat

/-- `self.cards.swap`, where both slots are in bounds. -/
def swapped (d : Deck) (i j : ℕ) : Deck := { d with cards := d.cards.swapIfInBounds i j }

end Deck

/-- The receiver and the argument of `Deck::shuffle`. -/
structure Dealer where
  rng : RngSource
  deck : Deck

namespace Dealer

/-- `self.cards.swap`. -/
def swap (i j : ℕ) : Fallible Dealer Stop Unit := do
  let s ← get
  if i < 52 ∧ j < 52 then set { s with deck := s.deck.swapped i j }
  else throw .indexOutOfBounds

/-- A call that takes the source. -/
def onRng {α : Type} (m : Fallible RngSource Stop α) : Fallible Dealer Stop α :=
  zoom Dealer.rng (fun rng s => { s with rng := rng }) id m

variable (build : Build) (fuel : ℕ) (target : Target)

/-- The loop of `Deck::shuffle` from `i` on. -/
def shuffleLoop (start : ℕ) : ℕ → Fallible Dealer Stop Unit
  | 0 => pure ()
  | i + 1 => do
    let j ← onRng (drawSlot build fuel target.toPointerWidth (i + 1))
    swap (start + (i + 1)) (start + j.toNat)
    shuffleLoop start i

/-- `Deck::shuffle`. -/
def shuffle : Fallible Dealer Stop Unit := do
  let start := (← get).deck.cursor.toNat
  if 52 ≤ start then pure ()
  else if 52 - start < 2 then pure ()
  else shuffleLoop build fuel target start (52 - start - 1)

end Dealer

/-! ## The two regions -/

namespace Deck

/-- The cards drawn so far. -/
def drawn (d : Deck) : List Card := d.cards.toList.take d.cursor.toNat

/-- The cards still to come. -/
def undrawn (d : Deck) : List Card := d.cards.toList.drop d.cursor.toNat

theorem drawn_append_undrawn (d : Deck) : d.drawn ++ d.undrawn = d.cards.toList :=
  List.take_append_drop _ _

theorem length_drawn (d : Deck) : d.drawn.length = d.cursor.toNat := by
  have := d.cursor_le
  unfold drawn
  rw [List.length_take, Vector.length_toList]
  omega

theorem length_undrawn (d : Deck) : d.undrawn.length = d.remaining := by
  unfold undrawn remaining
  rw [List.length_drop, Vector.length_toList]

variable (target : Target)

theorem undrawn_fits (d : Deck) : d.undrawn.toArray.size < 2 ^ target.bits := by
  rw [List.size_toArray, length_undrawn]
  have := target.fifty_two_lt
  unfold remaining
  omega

/-- `cards[cursor..]`. -/
def undrawnSlice (d : Deck) : Slice target.toPointerWidth Card :=
  ⟨d.undrawn.toArray, d.undrawn_fits target⟩

theorem size_undrawnSlice (d : Deck) : (d.undrawnSlice target).items.size = 52 - d.cursor.toNat :=
  d.length_undrawn

theorem getElem?_undrawnSlice (d : Deck) (k : ℕ) :
    (d.undrawnSlice target).items[k]? = d.cards.toArray[d.cursor.toNat + k]? := by
  show d.undrawn.toArray[k]? = _
  unfold undrawn
  rw [List.getElem?_toArray, List.getElem?_drop]
  exact Array.getElem?_toList

theorem swapped_cards_toArray (d : Deck) (i j : ℕ) :
    (d.swapped i j).cards.toArray = d.cards.toArray.swapIfInBounds i j := rfl

variable {d : Deck} {i j : ℕ}

/-- A swap above the cursor is a swap of the undrawn cards. -/
theorem undrawnSlice_swapped (hi : i < d.remaining) (hj : j < d.remaining) :
    (d.swapped (d.cursor.toNat + i) (d.cursor.toNat + j)).undrawnSlice target =
      (d.undrawnSlice target).swapped i j := by
  have hsize : d.cards.toArray.size = 52 := d.cards.size_toArray
  have hslice := d.size_undrawnSlice target
  have hcursor := d.cursor_le
  unfold remaining at hi hj
  have hitems : ((d.swapped (d.cursor.toNat + i) (d.cursor.toNat + j)).undrawnSlice target).items =
      ((d.undrawnSlice target).swapped i j).items := by
    refine Array.ext_getElem? fun k => ?_
    rw [getElem?_undrawnSlice, swapped_cards_toArray]
    show (d.cards.toArray.swapIfInBounds _ _)[d.cursor.toNat + k]? =
      ((d.undrawnSlice target).items.swapIfInBounds i j)[k]?
    rw [getElem?_swapIfInBounds (by omega) (by omega),
      getElem?_swapIfInBounds (by omega) (by omega), getElem?_undrawnSlice, getElem?_undrawnSlice,
      getElem?_undrawnSlice]
    simp only [Nat.add_left_cancel_iff]
  cases h : (d.undrawnSlice target).swapped i j with
  | mk items fits =>
      rw [h] at hitems
      cases h' : (d.swapped (d.cursor.toNat + i) (d.cursor.toNat + j)).undrawnSlice target with
      | mk items' fits' =>
          rw [h'] at hitems
          obtain rfl : items' = items := hitems
          rfl

/-- A swap above the cursor moves no drawn card. -/
theorem drawn_swapped (hi : i < d.remaining) (hj : j < d.remaining) :
    (d.swapped (d.cursor.toNat + i) (d.cursor.toNat + j)).drawn = d.drawn := by
  have hsize : d.cards.toArray.size = 52 := d.cards.size_toArray
  unfold remaining at hi hj
  refine List.ext_getElem? fun k => ?_
  show (List.take d.cursor.toNat _)[k]? = (List.take d.cursor.toNat _)[k]?
  rw [List.getElem?_take, List.getElem?_take]
  split
  · next hk =>
      show (d.cards.toArray.swapIfInBounds _ _).toList[k]? = d.cards.toArray.toList[k]?
      rw [Array.getElem?_toList, Array.getElem?_toList,
        getElem?_swapIfInBounds (by omega) (by omega), if_neg (by omega), if_neg (by omega)]
  · rfl

/-- What a shuffle of the undrawn cards leaves of the deck. -/
structure ShuffledTo (d d' : Deck) (slice : Slice target.toPointerWidth Card) : Prop where
  cursor : d'.cursor = d.cursor
  drawn : d'.drawn = d.drawn
  undrawn : d'.undrawnSlice target = slice

theorem ShuffledTo.refl (d : Deck) : ShuffledTo target d d (d.undrawnSlice target) :=
  ⟨rfl, rfl, rfl⟩

end Deck

/-! ## A shuffle of the deck is a shuffle of the undrawn cards -/

section

variable (build : Build) (fuel : ℕ) (target : Target)

variable {build fuel target} {rng mid : RngSource} {d : Deck} {i : ℕ}

/-- A round whose draw returns goes on with the slots swapped. -/
theorem Dealer.exec_shuffleLoop_ok {value : (RandInt.usize target.toPointerWidth).Value}
    (hi : i + 1 < d.remaining)
    (hdraw : (drawSlot build fuel target.toPointerWidth (i + 1)).exec rng = (.ok value, mid))
    (hvalue : value.toNat ≤ i + 1) :
    (shuffleLoop build fuel target d.cursor.toNat (i + 1)).exec ⟨rng, d⟩ =
      (shuffleLoop build fuel target d.cursor.toNat i).exec
        ⟨mid, d.swapped (d.cursor.toNat + (i + 1)) (d.cursor.toNat + value.toNat)⟩ := by
  have hbound : d.cursor.toNat + (i + 1) < 52 ∧ d.cursor.toNat + value.toNat < 52 := by
    unfold Deck.remaining at hi
    omega
  have hfirst : (onRng (drawSlot build fuel target.toPointerWidth (i + 1))).exec
      (⟨rng, d⟩ : Dealer) = (.ok value, ⟨mid, d⟩) := by
    unfold onRng
    rw [exec_zoom, hdraw]
    rfl
  have hswap : (swap (d.cursor.toNat + (i + 1)) (d.cursor.toNat + value.toNat)).exec
      (⟨mid, d⟩ : Dealer) =
      (.ok (), ⟨mid, d.swapped (d.cursor.toNat + (i + 1)) (d.cursor.toNat + value.toNat)⟩) := by
    unfold swap
    rw [exec_bind, exec_get]
    show (if _ then _ else _ : Fallible Dealer Stop Unit).exec _ = _
    rw [if_pos hbound]
    rfl
  rw [shuffleLoop, exec_bind_ok hfirst, exec_bind_ok hswap]

/-- A round whose draw does not return leaves the deck as it is. -/
theorem Dealer.exec_shuffleLoop_error {stopped : Stop} {start : ℕ}
    (hdraw : (drawSlot build fuel target.toPointerWidth (i + 1)).exec rng =
      (.error stopped, mid)) :
    (shuffleLoop build fuel target start (i + 1)).exec ⟨rng, d⟩ =
      (.error stopped, ⟨mid, d⟩) := by
  have hfirst : (onRng (drawSlot build fuel target.toPointerWidth (i + 1))).exec
      (⟨rng, d⟩ : Dealer) = (.error stopped, ⟨mid, d⟩) := by
    unfold onRng
    rw [exec_zoom, hdraw]
    rfl
  rw [shuffleLoop, exec_bind_error hfirst]

variable (build fuel target) (rng d)

/-- The loop ends as the loop of `arkhe-rand` does on the undrawn cards. -/
theorem Dealer.exec_shuffleLoop (hi : i ≤ d.remaining - 1) :
    ∃ d', (shuffleLoop build fuel target d.cursor.toNat i).exec ⟨rng, d⟩ =
        (((Rand.shuffleLoop build fuel i).exec ⟨rng, d.undrawnSlice target⟩).1,
          ⟨((Rand.shuffleLoop build fuel i).exec ⟨rng, d.undrawnSlice target⟩).2.rng, d'⟩) ∧
      d.ShuffledTo target d'
        ((Rand.shuffleLoop build fuel i).exec ⟨rng, d.undrawnSlice target⟩).2.slice := by
  induction i generalizing rng d with
  | zero => exact ⟨d, rfl, .refl target d⟩
  | succ i ih =>
      have hslot : i + 1 < d.remaining := by omega
      have hsize := d.size_undrawnSlice target
      have hinSlice : i + 1 < (d.undrawnSlice target).items.size := by
        rw [hsize]
        exact hslot
      rcases exec_drawSlot build fuel (hinSlice.trans (d.undrawnSlice target).fits) rng with
        ⟨value, mid, hdraw, hvalue⟩ | ⟨mid, hdraw⟩
      · rw [exec_shuffleLoop_ok hslot hdraw hvalue,
          Rand.exec_shuffleLoop_ok hinSlice hdraw hvalue]
        have hvalueSlot : value.toNat < d.remaining := by omega
        have hundrawn := Deck.undrawnSlice_swapped target hslot hvalueSlot
        have hdrawn := Deck.drawn_swapped hslot hvalueSlot
        obtain ⟨d', hexec, hto⟩ := ih mid
          (d.swapped (d.cursor.toNat + (i + 1)) (d.cursor.toNat + value.toNat))
          (show i ≤ d.remaining - 1 by omega)
        rw [hundrawn] at hexec hto
        exact ⟨d', hexec, hto.cursor, hto.drawn.trans hdrawn, hto.undrawn⟩
      · rw [exec_shuffleLoop_error hdraw, Rand.exec_shuffleLoop_error hdraw]
        exact ⟨d, rfl, .refl target d⟩

/-- A shuffle ends as the shuffle of `arkhe-rand` does on the undrawn cards, and only moves
    those. -/
theorem Dealer.exec_shuffle :
    ∃ d', (shuffle build fuel target).exec ⟨rng, d⟩ =
        (((Rand.shuffle build fuel).exec ⟨rng, d.undrawnSlice target⟩).1,
          ⟨((Rand.shuffle build fuel).exec ⟨rng, d.undrawnSlice target⟩).2.rng, d'⟩) ∧
      d.ShuffledTo target d'
        ((Rand.shuffle build fuel).exec ⟨rng, d.undrawnSlice target⟩).2.slice := by
  have hsize := d.size_undrawnSlice target
  have hloop := exec_shuffleLoop build fuel target rng d (le_refl (d.remaining - 1))
  rw [Rand.exec_shuffle, hsize]
  unfold shuffle
  rw [exec_bind, exec_get]
  show ∃ d', (if 52 ≤ d.cursor.toNat then _ else _ : Fallible Dealer Stop Unit).exec _ = _ ∧ _
  by_cases hsmall : 52 - d.cursor.toNat < 2
  · have hzero : 52 - d.cursor.toNat - 1 = 0 := by omega
    rw [hzero]
    refine ⟨d, ?_, .refl target d⟩
    split
    · rfl
    · rfl
  · rw [if_neg (by omega), if_neg hsmall]
    exact hloop

end

/-! ## Every order of the undrawn cards -/

theorem standardOrder_nodup : standardOrder.Nodup := by decide

/-- The deck has every card once. -/
def Deck.Complete (d : Deck) : Prop := d.cards.toList.Perm standardOrder

theorem Deck.complete_standard : standard.Complete := List.Perm.refl _

section

variable {build : Build} {fuel : ℕ} {target : Target} {d d' : Deck}
  {slice : Slice target.toPointerWidth Card}

theorem Deck.Complete.nodup (h : d.Complete) : d.cards.toList.Nodup :=
  (List.Perm.nodup_iff h).mpr standardOrder_nodup

/-- A shuffled deck is complete: only the undrawn cards have changed places. -/
theorem Deck.ShuffledTo.cards (h : d.ShuffledTo target d' slice)
    (hperm : slice.items.Perm (d.undrawnSlice target).items) :
    d'.cards.toList.Perm d.cards.toList := by
  have hundrawn : d'.undrawn.Perm d.undrawn := by
    have hitems : d'.undrawn.toArray.Perm d.undrawn.toArray := by
      rw [← h.undrawn] at hperm
      exact hperm
    exact Array.perm_iff_toList_perm.mp hitems
  rw [← d'.drawn_append_undrawn, ← d.drawn_append_undrawn, h.drawn]
  exact List.Perm.append_left _ hundrawn

/-- The two regions and the cursor tell a deck. -/
theorem Deck.ext_regions (hcursor : d'.cursor = d.cursor) (hdrawn : d'.drawn = d.drawn)
    (hundrawn : d'.undrawn = d.undrawn) : d' = d := by
  have hcards : d'.cards.toList = d.cards.toList := by
    rw [← d'.drawn_append_undrawn, ← d.drawn_append_undrawn, hdrawn, hundrawn]
  obtain ⟨cards, cursor, hle⟩ := d
  obtain ⟨cards', cursor', hle'⟩ := d'
  obtain rfl : cursor' = cursor := hcursor
  obtain rfl : cards' = cards := Vector.toList_inj.mp hcards
  rfl

theorem Deck.Complete.undrawn_nodup (h : d.Complete) : d.undrawn.Nodup :=
  (List.drop_sublist _ _).nodup h.nodup

/-- Each order of the undrawn cards comes from exactly one vector of draws. -/
theorem Deck.Complete.existsUnique_order (h : d.Complete) {order : List Card}
    (horder : order.Perm d.undrawn) : ∃! v : Draws (d.remaining - 1),
      arrange (d.remaining - 1) v d.undrawn.toArray = order.toArray := by
  have hsize : d.undrawn.toArray.size = d.remaining := d.length_undrawn
  have hlength : order.toArray.size = d.remaining := horder.length_eq.trans hsize
  have hperm : order.toArray.Perm d.undrawn.toArray := Array.perm_iff_toList_perm.mpr horder
  rcases Nat.eq_zero_or_pos d.remaining with hzero | hpos
  · rw [hzero]
    refine ⟨(), ?_, fun _ _ => rfl⟩
    show d.undrawn.toArray = order.toArray
    rw [Array.eq_empty_of_size_eq_zero (hsize.trans hzero),
      Array.eq_empty_of_size_eq_zero (hlength.trans hzero)]
  · refine existsUnique_arrange h.undrawn_nodup (by omega) hperm ?_
    intro k hk
    rw [Array.getElem?_eq_none (by omega), Array.getElem?_eq_none (by omega)]

/-- A shuffle of a complete deck, and the vectors of draws it returns on. -/
theorem Deck.Complete.exec_shuffle (hd : d.Complete) (build : Build) (fuel : ℕ)
    (target : Target) (rng : RngSource) :
    (((Dealer.shuffle build fuel target).exec ⟨rng, d⟩).2.deck.cursor = d.cursor ∧
      ((Dealer.shuffle build fuel target).exec ⟨rng, d⟩).2.deck.drawn = d.drawn ∧
      ((Dealer.shuffle build fuel target).exec ⟨rng, d⟩).2.deck.Complete ∧
      (((Dealer.shuffle build fuel target).exec ⟨rng, d⟩).1 = .ok () ∨
        ((Dealer.shuffle build fuel target).exec ⟨rng, d⟩).1 = .error .outOfFuel)) ∧
    (∀ s', (Dealer.shuffle build fuel target).exec ⟨rng, d⟩ = (.ok (), s') ↔
      s'.deck.cursor = d.cursor ∧ s'.deck.drawn = d.drawn ∧
        ∃ v, Drawn build fuel target.toPointerWidth (d.remaining - 1) rng v s'.rng ∧
          s'.deck.undrawn.toArray = arrange (d.remaining - 1) v d.undrawn.toArray) := by
  have hsize : (d.undrawnSlice target).items.size = d.remaining := d.size_undrawnSlice target
  have hbound : d.remaining - 1 ≤ (d.undrawnSlice target).items.size - 1 := by rw [hsize]
  have hloop : (Rand.shuffle build fuel).exec ⟨rng, d.undrawnSlice target⟩ =
      (Rand.shuffleLoop build fuel (d.remaining - 1)).exec ⟨rng, d.undrawnSlice target⟩ := by
    rw [Rand.exec_shuffle, hsize]
  obtain ⟨hperm, hends⟩ := shuffleLoop_permutes build fuel rng (d.undrawnSlice target) hbound
  have hok := shuffleLoop_eq_ok build fuel rng (d.undrawnSlice target) hbound
  rw [← hloop] at hperm hends hok
  obtain ⟨d', hexec, hto⟩ := Dealer.exec_shuffle build fuel target rng d
  rw [hexec]
  refine ⟨⟨hto.cursor, hto.drawn, (hto.cards hperm).trans hd, hends⟩, fun s' => ?_⟩
  have hitems : d'.undrawn.toArray =
      ((Rand.shuffle build fuel).exec ⟨rng, d.undrawnSlice target⟩).2.slice.items :=
    congrArg Slice.items hto.undrawn
  constructor
  · intro h
    obtain ⟨hresult, rfl⟩ := Prod.mk.inj h
    obtain ⟨v, hdrawn, hslice⟩ := (hok _).mp (Prod.ext hresult rfl)
    exact ⟨hto.cursor, hto.drawn, v, hdrawn, hitems.trans (congrArg Slice.items hslice)⟩
  · rintro ⟨hcursor, hdrawn, v, hdraws, hundrawn⟩
    have hrun := (hok ⟨s'.rng, (d.undrawnSlice target).arranged (d.remaining - 1) v⟩).mpr
      ⟨v, hdraws, rfl⟩
    have hsame : d'.undrawn.toArray = s'.deck.undrawn.toArray := by
      rw [hitems, hundrawn, hrun]
      rfl
    have hdeck : s'.deck = d' := Deck.ext_regions (hcursor.trans hto.cursor.symm)
      (hdrawn.trans hto.drawn.symm) (congrArg Array.toList hsame).symm
    rw [hrun, ← hdeck]

end

/-! ## Draws -/

namespace Deck

variable {d : Deck}

theorem draw_of_lt (h : d.cursor.toNat < 52) :
    d.draw = (some (d.cards.get ⟨d.cursor.toNat, h⟩), d.advanced h) := dif_pos h

theorem draw_of_le (h : 52 ≤ d.cursor.toNat) : d.draw = (none, d) := dif_neg (Nat.not_lt.mpr h)

theorem cursor_advanced (h : d.cursor.toNat < 52) :
    (d.advanced h).cursor.toNat = d.cursor.toNat + 1 := by
  have hone : (1 : UInt8).toNat = 1 := rfl
  show (d.cursor + 1).toNat = _
  rw [UInt8.toNat_add, hone]
  omega

/-- A draw takes the next card into the drawn region. -/
theorem drawn_advanced (h : d.cursor.toNat < 52) :
    (d.advanced h).drawn = d.drawn ++ [d.cards.get ⟨d.cursor.toNat, h⟩] := by
  have hlength : d.cursor.toNat < d.cards.toList.length := by
    rw [Vector.length_toList]
    exact h
  show List.take (d.advanced h).cursor.toNat d.cards.toList = _
  rw [cursor_advanced, List.take_succ_eq_append_getElem hlength, Vector.getElem_toList]
  rfl

end Deck

/-! ## Runs -/

/-- A call on a deck. -/
inductive DeckCall
  | draw
  | shuffle (fuel : ℕ) (rng : RngSource)

/-- A deck, with the cards it has handed out. -/
structure Dealt where
  deck : Deck
  hands : List Card

namespace Dealt

variable (build : Build) (target : Target)

/-- A fresh deck. -/
def fresh : Dealt := ⟨Deck.standard, []⟩

/-- The deck behind one call. A shuffle that does not return leaves what it has swapped. -/
def step (s : Dealt) : DeckCall → Dealt
  | .draw => ⟨s.deck.draw.2, s.hands ++ s.deck.draw.1.toList⟩
  | .shuffle fuel rng =>
    { s with deck := ((Dealer.shuffle build fuel target).exec ⟨rng, s.deck⟩).2.deck }

/-- The deck behind a run. -/
def run (calls : List DeckCall) : Dealt := calls.foldl (step build target) fresh

/-- The deck itself. -/
def deckAfter (calls : List DeckCall) : Deck := (run build target calls).deck

/-- What holds of a deck at every moment. -/
structure Sound (s : Dealt) : Prop where
  complete : s.deck.Complete
  hands : s.hands = s.deck.drawn

variable {build target} {s : Dealt}

theorem sound_fresh : fresh.Sound := ⟨Deck.complete_standard, rfl⟩

theorem Sound.step (h : s.Sound) (build : Build) (target : Target) (call : DeckCall) :
    (s.step build target call).Sound := by
  cases call with
  | draw =>
      by_cases hcursor : s.deck.cursor.toNat < 52
      · have hdraw := Deck.draw_of_lt hcursor
        refine ⟨?_, ?_⟩
        · show s.deck.draw.2.Complete
          rw [hdraw]
          exact h.complete
        · show s.hands ++ s.deck.draw.1.toList = s.deck.draw.2.drawn
          rw [hdraw, h.hands]
          exact (Deck.drawn_advanced hcursor).symm
      · have hdraw := Deck.draw_of_le (Nat.le_of_not_lt hcursor)
        refine ⟨?_, ?_⟩
        · show s.deck.draw.2.Complete
          rw [hdraw]
          exact h.complete
        · show s.hands ++ s.deck.draw.1.toList = s.deck.draw.2.drawn
          rw [hdraw, h.hands]
          exact List.append_nil _
  | shuffle fuel rng =>
      obtain ⟨⟨-, hdrawn, hcomplete, -⟩, -⟩ := h.complete.exec_shuffle build fuel target rng
      exact ⟨hcomplete, h.hands.trans hdrawn.symm⟩

theorem Sound.run (h : s.Sound) (build : Build) (target : Target) (calls : List DeckCall) :
    (calls.foldl (Dealt.step build target) s).Sound := by
  induction calls generalizing s with
  | nil => exact h
  | cons call calls ih => exact ih (h.step build target call)

theorem Sound.length_hands (h : s.Sound) : s.hands.length = s.deck.cursor.toNat := by
  rw [h.hands, Deck.length_drawn]

/-- Whether a call draws. -/
def draws : DeckCall → Bool
  | .draw => true
  | .shuffle _ _ => false

/-- A draw hands out a card exactly while fewer than 52 are out. -/
theorem Sound.length_step (h : s.Sound) (build : Build) (target : Target) (call : DeckCall) :
    (s.step build target call).hands.length =
      if draws call ∧ s.hands.length < 52 then s.hands.length + 1 else s.hands.length := by
  have hcursor := h.length_hands
  cases call with
  | draw =>
      show (s.hands ++ s.deck.draw.1.toList).length = _
      rw [List.length_append]
      by_cases hlt : s.deck.cursor.toNat < 52
      · rw [Deck.draw_of_lt hlt, if_pos ⟨rfl, hcursor ▸ hlt⟩]
        rfl
      · rw [Deck.draw_of_le (Nat.le_of_not_lt hlt), if_neg (fun hboth => hlt (hcursor ▸ hboth.2))]
        rfl
  | shuffle fuel rng =>
      rw [if_neg (fun hboth => Bool.false_ne_true hboth.1)]
      rfl

theorem Sound.length_run (h : s.Sound) (build : Build) (target : Target) (calls : List DeckCall) :
    (calls.foldl (Dealt.step build target) s).hands.length =
      min 52 (s.hands.length + calls.countP draws) := by
  have hle : s.hands.length ≤ 52 := by
    rw [h.length_hands]
    exact s.deck.cursor_le
  induction calls generalizing s with
  | nil =>
      show s.hands.length = _
      rw [List.countP_nil]
      omega
  | cons call calls ih =>
      have hstep := h.length_step build target call
      have hnext := (h.step build target call).length_hands
      have hbound := (s.step build target call).deck.cursor_le
      rw [List.foldl_cons, ih (h.step build target call) (by omega), hstep, List.countP_cons]
      split
      · next hboth =>
          rw [if_pos hboth.1]
          omega
      · next hboth =>
          split
          · next hdraws =>
              have : ¬s.hands.length < 52 := fun hlt => hboth ⟨hdraws, hlt⟩
              omega
          · rfl

theorem hands_prefix_step (call : DeckCall) : s.hands <+: (s.step build target call).hands := by
  cases call with
  | draw => exact List.prefix_append _ _
  | shuffle fuel rng => exact List.prefix_rfl

theorem hands_prefix_run (calls : List DeckCall) :
    s.hands <+: (calls.foldl (step build target) s).hands := by
  induction calls generalizing s with
  | nil => exact List.prefix_rfl
  | cons call calls ih => exact (hands_prefix_step call).trans ih

variable (build target)

/-- **No card is dealt twice.** Over every run of draws and shuffles on a fresh deck, each
    shuffle with any source: the cards handed out are the region below the cursor, in the
    order they were handed out in, they are distinct, and with the undrawn ones they make up
    the 52; a draw fails exactly once all 52 are out, and nothing later takes a card back. -/
theorem dealt_without_repetition (calls : List DeckCall) :
    (run build target calls).hands = (run build target calls).deck.drawn ∧
    (run build target calls).hands.Nodup ∧
    ((run build target calls).hands ++ (run build target calls).deck.undrawn).Perm
      standardOrder ∧
    (run build target calls).hands.length = min 52 (calls.countP draws) ∧
    ((run build target calls).deck.draw.1 = none ↔ 52 ≤ calls.countP draws) ∧
    ∀ more, (run build target calls).hands <+: (run build target (calls ++ more)).hands := by
  have h : (run build target calls).Sound := sound_fresh.run build target calls
  have hparts : (run build target calls).hands ++ (run build target calls).deck.undrawn =
      (run build target calls).deck.cards.toList := by
    rw [h.hands, Deck.drawn_append_undrawn]
  have hlength : (run build target calls).hands.length = min 52 (calls.countP draws) := by
    have hrun := sound_fresh.length_run build target calls
    rwa [fresh, List.length_nil, Nat.zero_add] at hrun
  refine ⟨h.hands, ?_, ?_, hlength, ?_, ?_⟩
  · rw [h.hands]
    exact (List.take_sublist _ _).nodup h.complete.nodup
  · rw [hparts]
    exact h.complete
  · have hcursor := h.length_hands
    constructor
    · intro hnone
      by_contra hfew
      rw [Deck.draw_of_lt (by omega)] at hnone
      cases hnone
    · intro hall
      rw [Deck.draw_of_le (by omega)]
  · intro more
    unfold run
    rw [List.foldl_append]
    exact hands_prefix_run more

/-- **Every shuffle deals evenly.** At every moment of every run on a fresh deck, and for
    every source: a shuffle does not panic, keeps the drawn cards and the cursor, and returns
    exactly on the vectors of draws, with the undrawn cards in the order of the vector. Each
    order of the undrawn cards is that of exactly one vector, and the vectors are as many as
    the orders. -/
theorem undrawn_shuffled_uniformly (calls : List DeckCall) (fuel : ℕ) (rng : RngSource) :
    ((((Dealer.shuffle build fuel target).exec ⟨rng, deckAfter build target calls⟩).2.deck.cursor =
          (deckAfter build target calls).cursor ∧
        ((Dealer.shuffle build fuel target).exec ⟨rng, deckAfter build target calls⟩).2.deck.drawn =
          (deckAfter build target calls).drawn ∧
        ((Dealer.shuffle build fuel target).exec
          ⟨rng, deckAfter build target calls⟩).2.deck.Complete ∧
        (((Dealer.shuffle build fuel target).exec ⟨rng, deckAfter build target calls⟩).1 = .ok () ∨
          ((Dealer.shuffle build fuel target).exec ⟨rng, deckAfter build target calls⟩).1 =
            .error .outOfFuel)) ∧
      ∀ s', (Dealer.shuffle build fuel target).exec ⟨rng, deckAfter build target calls⟩ =
          (.ok (), s') ↔
        s'.deck.cursor = (deckAfter build target calls).cursor ∧
          s'.deck.drawn = (deckAfter build target calls).drawn ∧
          ∃ v, Drawn build fuel target.toPointerWidth
              ((deckAfter build target calls).remaining - 1) rng v s'.rng ∧
            s'.deck.undrawn.toArray = arrange ((deckAfter build target calls).remaining - 1) v
              (deckAfter build target calls).undrawn.toArray) ∧
    (∀ order : List Card, order.Perm (deckAfter build target calls).undrawn →
      ∃! v : Draws ((deckAfter build target calls).remaining - 1),
        arrange ((deckAfter build target calls).remaining - 1) v
          (deckAfter build target calls).undrawn.toArray = order.toArray) ∧
    Nat.card (Draws ((deckAfter build target calls).remaining - 1)) =
      (deckAfter build target calls).remaining ! := by
  have h : (deckAfter build target calls).Complete := (sound_fresh.run build target calls).complete
  exact ⟨h.exec_shuffle build fuel target rng, fun _ => h.existsUnique_order,
    card_drawVectors _⟩

end Dealt

end ArkheForge.Cards
