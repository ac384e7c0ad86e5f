/-
  A share that was tampered with (`hf2_kms/threshold.rs`).

  `combine_shares` checks indices, lengths and the count, and interpolates through the
  first `t` shares. Its documentation leaves the integrity of their bytes to the caller,
  who compares the hash of the token. `one_share_decides` says how much that leaves: past
  the first `t` the bytes of a share do not matter, and each of the first `t` decides the
  secret alone. Whatever secret is wanted, exactly one content of that share gives it, so
  every change of its bytes changes the secret; only a change of its length is an error.
-/
import ArkheForge.Platform.Hf2Kms.Threshold

namespace ArkheForge.Platform

open BigEndian

/-! ## When shares combine -/

/-- What `combine_shares` checks. -/
structure Combinable (shares : List Share) (config : ThresholdConfig) (len : ℕ) : Prop where
  valid : config.isValid = true
  count : config.t.toNat ≤ shares.length
  index : ∀ s ∈ shares, s.index ≠ 0
  distinct : (shares.map Share.index).Nodup
  length : ∀ s ∈ shares, s.bytes.length = len

section

variable {shares : List Share} {config : ThresholdConfig} {len : ℕ}

theorem two_le_t (h : config.isValid = true) : 2 ≤ config.t.toNat := by
  unfold ThresholdConfig.isValid at h
  simp only [Bool.and_eq_true, decide_eq_true_eq] at h
  exact h.1

theorem nodup_of_hasDuplicateIndex (h : hasDuplicateIndex shares = false) :
    (shares.map Share.index).Nodup := by
  induction shares with
  | nil => exact List.nodup_nil
  | cons a rest ih =>
      unfold hasDuplicateIndex at h
      obtain ⟨hhead, hrest⟩ := Bool.or_eq_false_iff.mp h
      rw [List.map_cons, List.nodup_cons]
      refine ⟨?_, ih hrest⟩
      intro hmem
      obtain ⟨b, hb, hindex⟩ := List.mem_map.mp hmem
      exact List.any_eq_false.mp hhead b hb (decide_eq_true hindex.symm)

theorem Combinable.ne_nil (h : Combinable shares config len) : shares ≠ [] := by
  rintro rfl
  have hcount := h.count
  have htwo := two_le_t h.valid
  rw [List.length_nil] at hcount
  omega

theorem Combinable.combined (h : Combinable shares config len) :
    combineShares shares config =
      .ok ((List.range len).map (combineByte (shares.take config.t.toNat))) :=
  combineShares_ok h.valid h.count h.ne_nil h.index h.distinct h.length

theorem combinable_of_ok {secret : Bytes} (h : combineShares shares config = .ok secret) :
    Combinable shares config secret.length := by
  unfold combineShares at h
  by_cases hvalid : config.isValid = true
  case neg => simp [hvalid] at h
  by_cases hcount : shares.length < config.t.toNat
  case pos => simp [hvalid, hcount] at h
  by_cases hzero : shares.any (fun s => s.index = 0) = true
  case pos => simp [hvalid, hcount, hzero] at h
  by_cases hduplicate : hasDuplicateIndex shares = true
  case pos => simp [hvalid, hcount, hzero, hduplicate] at h
  rw [Bool.not_eq_true] at hzero hduplicate
  simp only [hvalid, hcount, hzero, hduplicate, Bool.not_true, Bool.false_eq_true, if_false] at h
  cases hfind : shares.find? (fun s => s.bytes.length ≠ (shares.getD 0 default).bytes.length) with
  | some s =>
      rw [hfind] at h
      simp at h
  | none =>
      rw [hfind] at h
      obtain rfl := Except.ok.inj h
      refine ⟨hvalid, not_lt.mp hcount, ?_, nodup_of_hasDuplicateIndex hduplicate, ?_⟩
      · intro s hs hindex
        exact List.any_eq_false.mp hzero s hs (decide_eq_true hindex)
      · intro s hs
        rw [List.length_map, List.length_range]
        by_contra hlength
        exact List.find?_eq_none.mp hfind s hs (decide_eq_true hlength)

end

/-! ## One share replaced -/

/-- The shares with the bytes of one of them replaced. -/
def tamper (shares : List Share) (i : ℕ) (bytes : Bytes) : List Share :=
  shares.set i ⟨(shares.getD i default).index, bytes⟩

section

variable {shares : List Share} {config : ThresholdConfig} {len i : ℕ} {bytes : Bytes}

theorem tamper_map_index (shares : List Share) (i : ℕ) (bytes : Bytes) :
    (tamper shares i bytes).map Share.index = shares.map Share.index := by
  unfold tamper
  rw [List.map_set]
  refine List.ext_getElem? ?_
  intro j
  by_cases hij : i = j
  · subst hij
    rw [List.getElem?_set_self', List.getElem?_map]
    cases hshare : shares[i]? with
    | none => rfl
    | some s => simp [List.getD_eq_getElem?_getD, hshare]
  · rw [List.getElem?_set_ne hij]

theorem Combinable.tamper (h : Combinable shares config len) (hbytes : bytes.length = len) :
    Combinable (tamper shares i bytes) config len := by
  refine ⟨h.valid, ?_, ?_, ?_, ?_⟩
  · unfold Platform.tamper
    rw [List.length_set]
    exact h.count
  · intro s hs
    have hmem : s.index ∈ (Platform.tamper shares i bytes).map Share.index :=
      List.mem_map_of_mem hs
    rw [tamper_map_index] at hmem
    obtain ⟨s', hs', heq⟩ := List.mem_map.mp hmem
    rw [← heq]
    exact h.index s' hs'
  · rw [tamper_map_index]
    exact h.distinct
  · intro s hs
    rcases List.mem_or_eq_of_mem_set hs with hold | rfl
    · exact h.length s hold
    · exact hbytes

theorem tamper_take (t : ℕ) (hi : i < t) :
    (tamper shares i bytes).take t = tamper (shares.take t) i bytes := by
  unfold tamper
  rw [List.take_set, List.getD_eq_getElem?_getD, List.getD_eq_getElem?_getD,
    List.getElem?_take_of_lt hi]

theorem tamper_take_beyond (t : ℕ) (hi : t ≤ i) :
    (tamper shares i bytes).take t = shares.take t := by
  unfold tamper
  rw [List.take_set, List.set_eq_of_length_le]
  rw [List.length_take]
  omega

/-- Every change of the length is found. -/
theorem Combinable.tamper_length (h : Combinable shares config len) (hi : i < shares.length)
    (hbytes : bytes.length ≠ len) :
    ∃ expected got, combineShares (Platform.tamper shares i bytes) config =
      .error (.shareLengthMismatch expected got) := by
  have hlength : (Platform.tamper shares i bytes).length = shares.length := List.length_set
  have hcount : ¬ (Platform.tamper shares i bytes).length < config.t.toNat := by
    rw [hlength]
    exact not_lt.mpr h.count
  have hindex := tamper_map_index shares i bytes
  have hzero : (Platform.tamper shares i bytes).any (fun s => s.index = 0) = false := by
    rw [List.any_eq_false]
    intro s hs heq
    have hmem : s.index ∈ (Platform.tamper shares i bytes).map Share.index :=
      List.mem_map_of_mem hs
    rw [hindex] at hmem
    obtain ⟨s', hs', hsame⟩ := List.mem_map.mp hmem
    exact h.index s' hs' (hsame.trans (of_decide_eq_true heq))
  have hduplicate : hasDuplicateIndex (Platform.tamper shares i bytes) = false := by
    refine hasDuplicateIndex_false ?_
    rw [hindex]
    exact h.distinct
  unfold combineShares
  simp only [h.valid, hcount, hzero, hduplicate, Bool.not_true, Bool.false_eq_true, if_false]
  cases hfind : (Platform.tamper shares i bytes).find? (fun s => s.bytes.length ≠
      ((Platform.tamper shares i bytes).getD 0 default).bytes.length) with
  | some s => exact ⟨_, _, rfl⟩
  | none =>
      -- all lengths agree, though there is a second share and it was not tampered with
      exfalso
      have hall : ∀ s ∈ Platform.tamper shares i bytes, s.bytes.length =
          ((Platform.tamper shares i bytes).getD 0 default).bytes.length := by
        intro s hs
        by_contra hne
        exact List.find?_eq_none.mp hfind s hs (decide_eq_true hne)
      have htampered : (⟨(shares.getD i default).index, bytes⟩ : Share) ∈
          Platform.tamper shares i bytes := List.mem_set hi _
      obtain ⟨j, hj, hne⟩ : ∃ j < shares.length, i ≠ j := by
        have htwo := (two_le_t h.valid).trans h.count
        rcases Nat.eq_zero_or_pos i with rfl | hpos
        · exact ⟨1, by omega, by omega⟩
        · exact ⟨0, by omega, by omega⟩
      have hother : shares[j] ∈ Platform.tamper shares i bytes := by
        refine List.mem_of_getElem? (i := j) ?_
        unfold Platform.tamper
        rw [List.getElem?_set_ne hne, List.getElem?_eq_getElem hj]
      have hsame := (hall _ htampered).trans (hall _ hother).symm
      rw [h.length _ (List.getElem_mem hj)] at hsame
      exact hbytes hsame

end

/-! ## What a share decides -/

section

variable {selected : List Share} {i : ℕ} {bytes : Bytes}

theorem pointAt_ne_zero (h : ∀ s ∈ selected, s.index ≠ 0) :
    ∀ j ∈ Finset.range selected.length, pointAt selected j ≠ 0 := by
  intro j hj hzero
  have hlt := Finset.mem_range.mp hj
  have hindex : (selected.getD j default).index = 0 := congrArg GF256.byte hzero
  rw [List.getD_eq_getElem?_getD, List.getElem?_eq_getElem hlt] at hindex
  exact h _ (List.getElem_mem hlt) hindex

theorem tamper_getD_self (hi : i < selected.length) : (tamper selected i bytes).getD i default =
    ⟨(selected.getD i default).index, bytes⟩ := by
  unfold tamper
  rw [List.getD_eq_getElem?_getD, List.getElem?_set_self hi]
  rfl

theorem tamper_getD_of_ne {j : ℕ} (hij : i ≠ j) :
    (tamper selected i bytes).getD j default = selected.getD j default := by
  unfold tamper
  rw [List.getD_eq_getElem?_getD, List.getElem?_set_ne hij, ← List.getD_eq_getElem?_getD]

theorem pointAt_tamper (selected : List Share) (i : ℕ) (bytes : Bytes) :
    pointAt (tamper selected i bytes) = pointAt selected := by
  funext j
  have hindex := congrArg (fun l : Bytes => l[j]?) (tamper_map_index selected i bytes)
  simp only [List.getElem?_map] at hindex
  unfold pointAt
  rw [List.getD_eq_getElem?_getD, List.getD_eq_getElem?_getD]
  cases htampered : (tamper selected i bytes)[j]? with
  | none =>
      rw [htampered] at hindex
      rw [Option.map_eq_none_iff.mp hindex.symm]
  | some s =>
      rw [htampered] at hindex
      obtain ⟨s', hs', hsame⟩ := Option.map_eq_some_iff.mp hindex.symm
      rw [hs']
      exact congrArg GF256.mk hsame.symm

variable (bytes) in
/-- The byte that comes out, as the weight of the tampered share and what the others give. -/
theorem combineByte_tamper (hi : i < selected.length) (byteIdx : ℕ) :
    (⟨combineByte (tamper selected i bytes) byteIdx⟩ : GF256) =
      ⟨bytes.getD byteIdx 0⟩ *
          Shamir.weight (Finset.range selected.length) (pointAt selected) i +
        ∑ j ∈ (Finset.range selected.length).erase i, valueAt selected byteIdx j *
          Shamir.weight (Finset.range selected.length) (pointAt selected) j := by
  have hlength : (tamper selected i bytes).length = selected.length := List.length_set
  have hself : valueAt (tamper selected i bytes) byteIdx i = ⟨bytes.getD byteIdx 0⟩ := by
    unfold valueAt
    rw [tamper_getD_self hi]
  have hother : ∀ j, i ≠ j → valueAt (tamper selected i bytes) byteIdx j =
      valueAt selected byteIdx j := by
    intro j hij
    unfold valueAt
    rw [tamper_getD_of_ne hij]
  rw [combineByte_eq, hlength, pointAt_tamper,
    ← Finset.add_sum_erase _ _ (Finset.mem_range.mpr hi), hself]
  refine congrArg (_ + ·) (Finset.sum_congr rfl ?_)
  intro j hj
  rw [hother j (Finset.ne_of_mem_erase hj).symm]

/-- One byte of a share decides one byte of the secret. -/
theorem exists_byte (hindex : ∀ s ∈ selected, s.index ≠ 0)
    (hdistinct : (selected.map Share.index).Nodup) (hi : i < selected.length) (byteIdx : ℕ)
    (wanted : UInt8) :
    ∃ v : UInt8, ∀ bytes : Bytes,
      combineByte (tamper selected i bytes) byteIdx = wanted ↔ bytes.getD byteIdx 0 = v := by
  obtain ⟨v, hv, hunique⟩ := Shamir.existsUnique_value (pointAt_injOn hdistinct)
    (pointAt_ne_zero hindex) (Finset.mem_range.mpr hi)
    (∑ j ∈ (Finset.range selected.length).erase i, valueAt selected byteIdx j *
      Shamir.weight (Finset.range selected.length) (pointAt selected) j) ⟨wanted⟩
  refine ⟨v.byte, ?_⟩
  intro bytes
  have hbyte := combineByte_tamper bytes hi byteIdx
  constructor
  · intro hwanted
    rw [hwanted] at hbyte
    exact congrArg GF256.byte (hunique ⟨bytes.getD byteIdx 0⟩ hbyte.symm)
  · intro hsame
    rw [hsame] at hbyte
    exact congrArg GF256.byte (hbyte.trans hv)

end

/-- **One share decides.** Shares that combine to some secret, and any one of them with other
    bytes. Past the first `t` the secret stays. Among them there is, for every secret that is
    wanted, exactly one content of the share with which they combine to it. Other lengths
    are an error. -/
theorem one_share_decides {shares : List Share} {config : ThresholdConfig} {secret : Bytes}
    (hcombined : combineShares shares config = .ok secret) {i : ℕ} (hi : i < shares.length) :
    (config.t.toNat ≤ i → ∀ bytes : Bytes, bytes.length = secret.length →
      combineShares (tamper shares i bytes) config = .ok secret) ∧
    (i < config.t.toNat → ∀ wanted : Bytes, wanted.length = secret.length →
      ∃! bytes : Bytes, bytes.length = secret.length ∧
        combineShares (tamper shares i bytes) config = .ok wanted) ∧
    ∀ bytes : Bytes, bytes.length ≠ secret.length → ∃ expected got,
      combineShares (tamper shares i bytes) config = .error (.shareLengthMismatch expected got) := by
  have hchecked := combinable_of_ok hcombined
  refine ⟨?_, ?_, fun bytes hbytes => hchecked.tamper_length hi hbytes⟩
  · intro hbeyond bytes hbytes
    rw [(hchecked.tamper hbytes).combined, tamper_take_beyond _ hbeyond, ← hchecked.combined]
    exact hcombined
  · intro hselected wanted hwanted
    have hlt : i < (shares.take config.t.toNat).length := by
      rw [List.length_take]
      omega
    have hindex : ∀ s ∈ shares.take config.t.toNat, s.index ≠ 0 :=
      fun s hs => hchecked.index s (List.mem_of_mem_take hs)
    have hdistinct : ((shares.take config.t.toNat).map Share.index).Nodup := by
      rw [List.map_take]
      exact hchecked.distinct.sublist (List.take_sublist _ _)
    choose decisive hdecisive using fun byteIdx =>
      exists_byte hindex hdistinct hlt byteIdx (wanted.getD byteIdx 0)
    -- the bytes that come out are the wanted ones where the share has the decisive bytes
    have hiff : ∀ bytes : Bytes, bytes.length = secret.length →
        (combineShares (tamper shares i bytes) config = .ok wanted ↔
          ∀ byteIdx < secret.length, bytes.getD byteIdx 0 = decisive byteIdx) := by
      intro bytes hbytes
      rw [(hchecked.tamper hbytes).combined, tamper_take _ hselected]
      constructor
      · intro hok byteIdx hbyte
        rw [← hdecisive]
        have hout := congrArg (fun l : Bytes => l.getD byteIdx 0) (Except.ok.inj hok)
        simpa [List.getD_eq_getElem?_getD, hbyte] using hout
      · intro hall
        refine congrArg Except.ok (List.ext_getElem (by simp [hwanted]) ?_)
        intro byteIdx hbyte hbyte'
        rw [List.length_map, List.length_range] at hbyte
        have hout := (hdecisive byteIdx bytes).mpr (hall byteIdx hbyte)
        rw [List.getElem_map, List.getElem_range, hout, List.getD_eq_getElem?_getD,
          List.getElem?_eq_getElem hbyte']
        rfl
    refine ⟨(List.range secret.length).map decisive, ⟨by simp, ?_⟩, ?_⟩
    · rw [hiff _ (by simp)]
      intro byteIdx hbyte
      simp [List.getD_eq_getElem?_getD, hbyte]
    · rintro bytes ⟨hbytes, hok⟩
      have hall := (hiff bytes hbytes).mp hok
      refine List.ext_getElem (by simp [hbytes]) ?_
      intro byteIdx hbyte _
      rw [List.getElem_map, List.getElem_range, ← hall byteIdx (hbytes ▸ hbyte),
        List.getD_eq_getElem?_getD, List.getElem?_eq_getElem hbyte]
      rfl

/-- The holder of the second of three shares chooses the token. -/
theorem one_share_decides_three_of_five :
    ∃! bytes : Bytes, bytes.length = 2 ∧
      combineShares (tamper [⟨5, [20, 203]⟩, ⟨2, [50, 56]⟩, ⟨4, [134, 58]⟩] 1 bytes) threeOfFive =
        .ok [0xFF, 0xFF] := by
  have hcombined : combineShares [⟨5, [20, 203]⟩, ⟨2, [50, 56]⟩, ⟨4, [134, 58]⟩] threeOfFive =
      .ok [0x2A, 0xC7] := by decide +kernel
  exact (one_share_decides hcombined (i := 1) (by decide)).2.1 (by decide) [0xFF, 0xFF] rfl

end ArkheForge.Platform
