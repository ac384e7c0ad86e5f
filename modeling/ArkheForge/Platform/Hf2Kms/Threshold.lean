/-
  Threshold secret sharing (`hf2_kms/threshold.rs`): `split_secret` and
  `combine_shares` over the bytes of a secret.

  Every byte of the secret is the constant term of a polynomial of its own, whose
  higher coefficients are one slice of the random buffer; a share holds the values of
  all of them at its index. The entropy source is a parameter. The loops of
  `combine_shares` are sums and products over the selected shares (`combineByte_eq`),
  which are `Shamir.secret_eq_sum` at the field of bytes.
-/
import ArkheForge.Kernel.Instance
import ArkheForge.Lib.Shamir
import ArkheForge.Platform.Hf2Kms.Gf256

namespace ArkheForge.Platform

open BigEndian

/-! ## The source functions -/

/-- `ThresholdConfig`. -/
structure ThresholdConfig where
  t : UInt8
  n : UInt8
  deriving DecidableEq, Repr

/-- `ThresholdConfig::is_valid`. -/
def ThresholdConfig.isValid (config : ThresholdConfig) : Bool :=
  config.t ≥ 2 && config.t ≤ config.n

/-- `Share`. -/
structure Share where
  index : UInt8
  bytes : Bytes
  deriving DecidableEq, Repr, Inhabited

/-- `ThresholdError`. -/
inductive ThresholdError
  | invalidConfig (t n : UInt8)
  | insufficientShares (need got : ℕ)
  | invalidShareIndex (index : UInt8)
  | duplicateShares
  | shareLengthMismatch (expected got : ℕ)
  | entropyFailure (message : String)
  deriving DecidableEq, Repr

/-- `gf_poly_eval_with_const`. -/
def gfPolyEvalWithConst (constTerm : UInt8) (coeffs : Bytes) (x : UInt8) : UInt8 :=
  let acc := coeffs.reverse.foldl (fun acc c => gfAdd (gfMul acc x) c) 0
  gfAdd (gfMul acc x) constTerm

/-- The bytes of the share at an index. -/
def shareBytes (secret : Bytes) (t : ℕ) (randomCoeffs : Bytes) (shareIdx : UInt8) : Bytes :=
  secret.zipIdx.map fun (secretByte, byteIdx) =>
    let start := byteIdx * (t - 1)
    gfPolyEvalWithConst secretByte ((randomCoeffs.drop start).take (t - 1)) shareIdx

/-- The share loop of `split_secret`. -/
def emitShares (secret : Bytes) (config : ThresholdConfig) (randomCoeffs : Bytes) : List Share :=
  (List.range config.n.toNat).map fun k =>
    let shareIdx := UInt8.ofNat (k + 1)
    { index := shareIdx, bytes := shareBytes secret config.t.toNat randomCoeffs shareIdx }

/-- `split_secret`, over what `getrandom` answers when asked for a number of bytes. -/
def splitSecret (osGetrandom : ℕ → Except String Bytes) (secret : Bytes)
    (config : ThresholdConfig) : Except ThresholdError (List Share) :=
  if !config.isValid then .error (.invalidConfig config.t config.n)
  else
    let drawn := secret.length * (config.t.toNat - 1)
    if drawn = 0 then .ok (emitShares secret config [])
    else
      match osGetrandom drawn with
      | .error e => .error (.entropyFailure e)
      | .ok randomCoeffs => .ok (emitShares secret config randomCoeffs)

/-- The duplicate check of `combine_shares`. -/
def hasDuplicateIndex : List Share → Bool
  | [] => false
  | a :: rest => rest.any (fun b => a.index = b.index) || hasDuplicateIndex rest

/-- The inner loop of `combine_shares`: the basis weight of the share at position `i`. -/
def basisAt (selected : List Share) (sᵢ : Share) (i : ℕ) : UInt8 :=
  let (num, den) := selected.zipIdx.foldl
    (fun (num, den) (sⱼ, j) =>
      if i = j then (num, den) else (gfMul num sⱼ.index, gfMul den (gfAdd sᵢ.index sⱼ.index)))
    (1, 1)
  gfMul num (gfInv den)

/-- One byte of the secret. Every share has a byte there: the lengths were compared before. -/
def combineByte (selected : List Share) (byteIdx : ℕ) : UInt8 :=
  selected.zipIdx.foldl
    (fun acc (sᵢ, i) => gfAdd acc (gfMul (sᵢ.bytes.getD byteIdx 0) (basisAt selected sᵢ i))) 0

/-- `combine_shares`. -/
def combineShares (shares : List Share) (config : ThresholdConfig) :
    Except ThresholdError Bytes :=
  if !config.isValid then .error (.invalidConfig config.t config.n)
  else if shares.length < config.t.toNat then
    .error (.insufficientShares config.t.toNat shares.length)
  else if shares.any (fun s => s.index = 0) then .error (.invalidShareIndex 0)
  else if hasDuplicateIndex shares then .error .duplicateShares
  else
    let secretLen := (shares.getD 0 default).bytes.length
    match shares.find? (fun s => s.bytes.length ≠ secretLen) with
    | some s => .error (.shareLengthMismatch secretLen s.bytes.length)
    | none => .ok ((List.range secretLen).map (combineByte (shares.take config.t.toNat)))

/-! ## The loops as sums and products -/

theorem zipIdx_eq_map_range {α : Type} [Inhabited α] (l : List α) :
    l.zipIdx = (List.range l.length).map fun i => (l.getD i default, i) := by
  refine List.ext_getElem (by simp) ?_
  intro i hi hi'
  have hlt : i < l.length := by simpa using hi
  simp [List.getD_eq_getElem?_getD, hlt]

theorem foldl_range_add (f : ℕ → UInt8) (n : ℕ) :
    (⟨(List.range n).foldl (fun acc i => gfAdd acc (f i)) 0⟩ : GF256) =
      ∑ i ∈ Finset.range n, ⟨f i⟩ := by
  induction n with
  | zero => rfl
  | succ n ih =>
      rw [List.range_succ, List.foldl_append, Finset.sum_range_succ, ← ih]
      rfl

/-- The two running products of the inner loop, the position `i` left out. -/
theorem foldl_range_mul (f g : ℕ → UInt8) (i n : ℕ) :
    let products := (List.range n).foldl
      (fun (p : UInt8 × UInt8) j => if i = j then p else (gfMul p.1 (f j), gfMul p.2 (g j))) (1, 1)
    (⟨products.1⟩ : GF256) = ∏ j ∈ (Finset.range n).erase i, ⟨f j⟩ ∧
      (⟨products.2⟩ : GF256) = ∏ j ∈ (Finset.range n).erase i, ⟨g j⟩ := by
  induction n with
  | zero => exact ⟨rfl, rfl⟩
  | succ n ih =>
      rw [List.range_succ, List.foldl_append, Finset.range_add_one]
      simp only [List.foldl_cons, List.foldl_nil]
      by_cases hi : i = n
      · subst hi
        rw [if_pos rfl, Finset.erase_insert (by simp)]
        rw [Finset.erase_eq_of_notMem (by simp)] at ih
        exact ih
      · rw [if_neg hi, Finset.erase_insert_of_ne (Ne.symm hi), Finset.prod_insert (by simp),
          Finset.prod_insert (by simp), mul_comm, mul_comm (⟨g n⟩ : GF256), ← ih.1, ← ih.2]
        exact ⟨rfl, rfl⟩

theorem gfPolyEvalWithConst_eq (constTerm : UInt8) (coeffs : Bytes) (x : UInt8) :
    (⟨gfPolyEvalWithConst constTerm coeffs x⟩ : GF256) =
      Shamir.evalWithConst ⟨constTerm⟩ (coeffs.map GF256.mk) ⟨x⟩ := by
  have hfold : (⟨coeffs.foldr (fun c acc => gfAdd (gfMul acc x) c) 0⟩ : GF256) =
      (coeffs.map GF256.mk).foldr (fun c acc => acc * ⟨x⟩ + c) 0 := by
    induction coeffs with
    | nil => rfl
    | cons c cs ih =>
        rw [List.map_cons, List.foldr_cons, List.foldr_cons, ← ih]
        rfl
  unfold gfPolyEvalWithConst Shamir.evalWithConst
  rw [List.foldl_reverse, ← hfold]
  rfl

section

variable (selected : List Share)

/-- The points of selected shares, by position. -/
def pointAt (i : ℕ) : GF256 := ⟨(selected.getD i default).index⟩

/-- Their values for one byte of the secret. -/
def valueAt (byteIdx i : ℕ) : GF256 := ⟨(selected.getD i default).bytes.getD byteIdx 0⟩

theorem basisAt_eq (i : ℕ) :
    (⟨basisAt selected (selected.getD i default) i⟩ : GF256) =
      Shamir.weight (Finset.range selected.length) (pointAt selected) i := by
  obtain ⟨hnum, hden⟩ := foldl_range_mul (fun j => (selected.getD j default).index)
    (fun j => gfAdd (selected.getD i default).index (selected.getD j default).index) i
    selected.length
  have hsub : ∀ j, (⟨gfAdd (selected.getD i default).index (selected.getD j default).index⟩ :
      GF256) = pointAt selected j - pointAt selected i := by
    intro j
    rw [GF256.sub_eq_add, add_comm]
    rfl
  unfold basisAt Shamir.weight
  rw [zipIdx_eq_map_range, List.foldl_map]
  simp only [hsub] at hden
  show (⟨_⟩ : GF256) * (⟨_⟩ : GF256)⁻¹ = _
  rw [hnum, hden]
  rfl

theorem combineByte_eq (byteIdx : ℕ) :
    (⟨combineByte selected byteIdx⟩ : GF256) =
      ∑ i ∈ Finset.range selected.length, valueAt selected byteIdx i *
        Shamir.weight (Finset.range selected.length) (pointAt selected) i := by
  unfold combineByte
  rw [zipIdx_eq_map_range, List.foldl_map, foldl_range_add]
  refine Finset.sum_congr rfl ?_
  intro i _
  rw [GF256.mk_mul, basisAt_eq]
  rfl

end

/-! ## What is emitted -/

theorem shareBytes_length (secret : Bytes) (t : ℕ) (randomCoeffs : Bytes) (shareIdx : UInt8) :
    (shareBytes secret t randomCoeffs shareIdx).length = secret.length := by
  simp [shareBytes]

theorem shareBytes_getD {secret : Bytes} {byteIdx : ℕ} (h : byteIdx < secret.length) (t : ℕ)
    (randomCoeffs : Bytes) (shareIdx : UInt8) :
    (shareBytes secret t randomCoeffs shareIdx).getD byteIdx 0 =
      gfPolyEvalWithConst secret[byteIdx]
        ((randomCoeffs.drop (byteIdx * (t - 1))).take (t - 1)) shareIdx := by
  simp [shareBytes, List.getD_eq_getElem?_getD, h]

theorem mem_emitShares {secret : Bytes} {config : ThresholdConfig} {randomCoeffs : Bytes}
    {s : Share} :
    s ∈ emitShares secret config randomCoeffs ↔
      1 ≤ s.index.toNat ∧ s.index.toNat ≤ config.n.toNat ∧
        s.bytes = shareBytes secret config.t.toNat randomCoeffs s.index := by
  have hn := config.n.toNat_lt
  unfold emitShares
  rw [List.mem_map]
  constructor
  · intro h
    obtain ⟨k, hk, rfl⟩ := h
    rw [List.mem_range] at hk
    have hindex : (UInt8.ofNat (k + 1)).toNat = k + 1 := by
      rw [UInt8.toNat_ofNat']
      omega
    refine ⟨?_, ?_, rfl⟩
    · show 1 ≤ (UInt8.ofNat (k + 1)).toNat
      omega
    · show (UInt8.ofNat (k + 1)).toNat ≤ config.n.toNat
      omega
  · intro h
    obtain ⟨hpos, hle, hbytes⟩ := h
    have hindex : UInt8.ofNat (s.index.toNat - 1 + 1) = s.index := by
      rw [Nat.sub_add_cancel hpos, UInt8.ofNat_toNat]
    refine ⟨s.index.toNat - 1, List.mem_range.mpr (by omega), ?_⟩
    cases s
    simp_all

theorem index_ne_zero {s : Share} (h : 1 ≤ s.index.toNat) : s.index ≠ 0 := by
  intro hzero
  rw [hzero] at h
  exact absurd h (by decide)

/-- Emitted shares with one index are one share. -/
theorem eq_of_index_eq {secret : Bytes} {config : ThresholdConfig} {randomCoeffs : Bytes}
    {s s' : Share} (hs : s ∈ emitShares secret config randomCoeffs)
    (hs' : s' ∈ emitShares secret config randomCoeffs) (hindex : s.index = s'.index) : s = s' := by
  have hbytes := (mem_emitShares.mp hs).2.2
  have hbytes' := (mem_emitShares.mp hs').2.2
  cases s
  cases s'
  simp_all

/-- With a valid configuration and entropy the split returns shares. -/
theorem splitSecret_ok {osGetrandom : ℕ → Except String Bytes} {secret : Bytes}
    {config : ThresholdConfig} {randomCoeffs : Bytes} (hvalid : config.isValid = true)
    (hdrawn : secret ≠ [] →
      osGetrandom (secret.length * (config.t.toNat - 1)) = .ok randomCoeffs) :
    splitSecret osGetrandom secret config = .ok (emitShares secret config randomCoeffs) := by
  have ht : 2 ≤ config.t.toNat := by
    unfold ThresholdConfig.isValid at hvalid
    simp only [Bool.and_eq_true, decide_eq_true_eq] at hvalid
    exact hvalid.1
  unfold splitSecret
  simp only [hvalid, Bool.not_true, Bool.false_eq_true, if_false]
  by_cases hempty : secret = []
  · subst hempty
    simp [emitShares, shareBytes]
  · have hpos : secret.length * (config.t.toNat - 1) ≠ 0 := by
      have hlength := List.length_pos_iff.mpr hempty
      exact Nat.mul_ne_zero (by omega) (by omega)
    rw [if_neg hpos, hdrawn hempty]

/-! ## The round trip -/

theorem hasDuplicateIndex_false {shares : List Share} (h : (shares.map Share.index).Nodup) :
    hasDuplicateIndex shares = false := by
  induction shares with
  | nil => rfl
  | cons a rest ih =>
      rw [List.map_cons, List.nodup_cons] at h
      unfold hasDuplicateIndex
      rw [ih h.2, Bool.or_false, List.any_eq_false]
      intro b hb heq
      rw [decide_eq_true_eq] at heq
      exact h.1 (heq ▸ List.mem_map_of_mem hb)

/-- Checked shares combine to what the loops compute. -/
theorem combineShares_ok {shares : List Share} {config : ThresholdConfig} {len : ℕ}
    (hvalid : config.isValid = true) (hcount : config.t.toNat ≤ shares.length)
    (hne : shares ≠ []) (hindex : ∀ s ∈ shares, s.index ≠ 0)
    (hdistinct : (shares.map Share.index).Nodup) (hlength : ∀ s ∈ shares, s.bytes.length = len) :
    combineShares shares config =
      .ok ((List.range len).map (combineByte (shares.take config.t.toNat))) := by
  have hzero : shares.any (fun s => s.index = 0) = false := by
    rw [List.any_eq_false]
    intro s hs heq
    exact hindex s hs (of_decide_eq_true heq)
  have hhead : (shares.getD 0 default).bytes.length = len := by
    cases shares with
    | nil => exact absurd rfl hne
    | cons s rest => exact hlength s (by simp)
  have hfind : shares.find? (fun s => s.bytes.length ≠ len) = none := by
    rw [List.find?_eq_none]
    intro s hs hbad
    exact of_decide_eq_true hbad (hlength s hs)
  unfold combineShares
  simp only [hvalid, Bool.not_true, Bool.false_eq_true, if_false, if_neg (not_lt.mpr hcount), hzero,
    hasDuplicateIndex_false hdistinct, hhead, hfind]

/-- Shares of distinct indices are at distinct points. -/
theorem pointAt_injOn {selected : List Share} (h : (selected.map Share.index).Nodup) :
    Set.InjOn (pointAt selected) (Finset.range selected.length) := by
  intro i hi j hj heq
  have hlt : i < selected.length := Finset.mem_range.mp (Finset.mem_coe.mp hi)
  have hlt' : j < selected.length := Finset.mem_range.mp (Finset.mem_coe.mp hj)
  have hi' : i < (selected.map Share.index).length := by rwa [List.length_map]
  have hj' : j < (selected.map Share.index).length := by rwa [List.length_map]
  have hindex : (selected.map Share.index)[i] = (selected.map Share.index)[j] := by
    have hbyte := congrArg GF256.byte heq
    simpa [pointAt, List.getD_eq_getElem?_getD, hlt, hlt'] using hbyte
  exact h.getElem_inj_iff.mp hindex

/-- Any `t` emitted shares give back a byte of the secret. -/
theorem combineByte_emitted {secret : Bytes} {config : ThresholdConfig} {randomCoeffs : Bytes}
    {selected : List Share} (hmem : ∀ s ∈ selected, s ∈ emitShares secret config randomCoeffs)
    (hdistinct : (selected.map Share.index).Nodup) (hcount : config.t.toNat - 1 < selected.length)
    {byteIdx : ℕ} (hbyte : byteIdx < secret.length) :
    combineByte selected byteIdx = secret[byteIdx] := by
  have hat : ∀ i ∈ Finset.range selected.length, selected.getD i default ∈ selected := by
    intro i hi
    have hlt := Finset.mem_range.mp hi
    rw [List.getD_eq_getElem?_getD, List.getElem?_eq_getElem hlt]
    exact List.getElem_mem hlt
  have hvalue : ∀ i ∈ Finset.range selected.length, valueAt selected byteIdx i =
      Shamir.evalWithConst ⟨secret[byteIdx]⟩ (((randomCoeffs.drop
        (byteIdx * (config.t.toNat - 1))).take (config.t.toNat - 1)).map GF256.mk)
        (pointAt selected i) := by
    intro i hi
    obtain ⟨-, -, hbytes⟩ := mem_emitShares.mp (hmem _ (hat i hi))
    unfold valueAt
    rw [hbytes, shareBytes_getD hbyte, gfPolyEvalWithConst_eq]
    rfl
  refine congrArg GF256.byte (?_ : (⟨combineByte selected byteIdx⟩ : GF256) = ⟨secret[byteIdx]⟩)
  rw [combineByte_eq, Finset.sum_congr rfl fun i hi => by rw [hvalue i hi]]
  refine Shamir.secret_eq_sum (pointAt_injOn hdistinct) _ ?_
  rw [List.length_map, List.length_take, Finset.card_range]
  omega

/-- Any `t` or more distinct shares of a split, in any order, combine to the secret. -/
theorem threshold_round_trip {config : ThresholdConfig} (hvalid : config.isValid = true)
    (secret : Bytes) {osGetrandom : ℕ → Except String Bytes} {randomCoeffs : Bytes}
    (hdrawn : secret ≠ [] →
      osGetrandom (secret.length * (config.t.toNat - 1)) = .ok randomCoeffs) :
    ∃ shares, splitSecret osGetrandom secret config = .ok shares ∧
      ∀ selection : List Share, selection.Nodup → (∀ s ∈ selection, s ∈ shares) →
        config.t.toNat ≤ selection.length → combineShares selection config = .ok secret := by
  refine ⟨_, splitSecret_ok hvalid hdrawn, ?_⟩
  intro selection hnodup hmem hcount
  have ht : 2 ≤ config.t.toNat := by
    unfold ThresholdConfig.isValid at hvalid
    simp only [Bool.and_eq_true, decide_eq_true_eq] at hvalid
    exact hvalid.1
  have hne : selection ≠ [] := by
    intro hnil
    rw [hnil, List.length_nil] at hcount
    omega
  have hdistinct : (selection.map Share.index).Nodup := by
    refine hnodup.map_on ?_
    intro s hs s' hs' hindex
    exact eq_of_index_eq (hmem s hs) (hmem s' hs') hindex
  have hindex : ∀ s ∈ selection, s.index ≠ 0 := by
    intro s hs
    exact index_ne_zero (mem_emitShares.mp (hmem s hs)).1
  have hlength : ∀ s ∈ selection, s.bytes.length = secret.length := by
    intro s hs
    rw [(mem_emitShares.mp (hmem s hs)).2.2, shareBytes_length]
  rw [combineShares_ok hvalid hcount hne hindex hdistinct hlength]
  refine congrArg Except.ok (List.ext_getElem (by simp) ?_)
  intro byteIdx hi hbyte
  rw [List.getElem_map, List.getElem_range]
  have hselected : ∀ s ∈ selection.take config.t.toNat,
      s ∈ emitShares secret config randomCoeffs := fun s hs => hmem s (List.mem_of_mem_take hs)
  refine combineByte_emitted hselected ?_ ?_ hbyte
  · rw [List.map_take]
    exact hdistinct.sublist (List.take_sublist _ _)
  · rw [List.length_take]
    omega

/-- A split in which three of five shares are needed, its entropy and its shares. -/
def threeOfFive : ThresholdConfig where
  t := 3
  n := 5

def fixedEntropy : ℕ → Except String Bytes := fun _ => .ok [0x11, 0x83, 0xF0, 0x01]

def fiveShares : List Share :=
  [⟨1, [184, 54]⟩, ⟨2, [50, 56]⟩, ⟨3, [160, 201]⟩, ⟨4, [134, 58]⟩, ⟨5, [20, 203]⟩]

/-- Four of the shares, out of order. -/
theorem threshold_round_trip_three_of_five :
    splitSecret fixedEntropy [0x2A, 0xC7] threeOfFive = .ok fiveShares ∧
      combineShares [⟨5, [20, 203]⟩, ⟨2, [50, 56]⟩, ⟨4, [134, 58]⟩, ⟨1, [184, 54]⟩]
        threeOfFive = .ok [0x2A, 0xC7] := by
  have hsplit : splitSecret fixedEntropy [0x2A, 0xC7] threeOfFive = .ok fiveShares := by
    decide +kernel
  have hvalid : threeOfFive.isValid = true := by decide
  have hdrawn : fixedEntropy (([0x2A, 0xC7] : Bytes).length * (threeOfFive.t.toNat - 1)) =
      .ok [0x11, 0x83, 0xF0, 0x01] := rfl
  obtain ⟨shares, hshares, hcombine⟩ := threshold_round_trip hvalid [0x2A, 0xC7] fun _ => hdrawn
  obtain rfl := Except.ok.inj (hsplit.symm.trans hshares)
  exact ⟨hsplit, hcombine _ (by decide) (by decide) (by decide)⟩

end ArkheForge.Platform
