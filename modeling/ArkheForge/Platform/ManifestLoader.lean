/-
  The version gates of the shell manifest: `parse_version` and `ManifestLoader::validate`
  (`manifest.rs`).

  `parse_version` cuts the text in at most three fields and hands each to
  `u16::from_str`. That parser takes a plus sign in front of the digits, which the
  grammar `M.N` or `M.N.P` has not. So the texts taken are the grammar with optional plus
  signs (`parseVersion_eq_some`), and both functions keep to the grammar exactly where
  no plus sign stands in such a text (`versions_exact_iff`). Reading the manifest from TOML
  and its digest are not in here.
-/
import ArkheForge.Core.Primitives
import ArkheForge.Lib.Fallible
import ArkheForge.Lib.Fields

namespace ArkheForge.Platform

open ArkheForge.Core Fallible Fields

/-! ## Versions -/

/-- Major, minor and patch. -/
abbrev Version := UInt16 × UInt16 × UInt16

/-- `<` of the tuples. -/
def Version.before (v w : Version) : Bool :=
  v.1 < w.1 || (v.1 = w.1 && (v.2.1 < w.2.1 || (v.2.1 = w.2.1 && v.2.2 < w.2.2)))

/-- `(major, minor) > (0, 15)`. -/
def Version.past015 (v : Version) : Bool := 0 < v.1 || (v.1 = 0 && 15 < v.2.1)

/-- `u16::from_str`. -/
def u16FromStr (text : List Char) : Option UInt16 :=
  (readUnsigned 65535 text).map UInt16.ofNat

/-- `parse_version`. -/
def parseVersion (s : String) : Option Version := do
  let parts := splitn '.' 3 s.toList
  let major ← parts[0]? >>= u16FromStr
  let minor ← parts[1]? >>= u16FromStr
  let patch ←
    match parts[2]? with
    | some p => u16FromStr p
    | none => some 0
  return (major, minor, patch)

/-! ## The grammar -/

/-- A part: one decimal digit or more, with a value of 16 bits. -/
def IsPart (text : List Char) (x : UInt16) : Prop :=
  IsDecimal text ∧ value text ≤ 65535 ∧ x.toNat = value text

/-- A part, or a plus sign and a part. -/
def IsSignedPart (text : List Char) (x : UInt16) : Prop :=
  ∃ digits, (text = digits ∨ text = '+' :: digits) ∧ IsPart digits x

/-- `M.N` or `M.N.P`, the parts being told by a predicate. -/
inductive Dotted (part : List Char → UInt16 → Prop) : List Char → Version → Prop
  | two {m n : List Char} {x y : UInt16} (hm : part m x) (hn : part n y) :
      Dotted part (m ++ '.' :: n) (x, y, 0)
  | three {m n p : List Char} {x y z : UInt16} (hm : part m x) (hn : part n y) (hp : part p z) :
      Dotted part (m ++ '.' :: (n ++ '.' :: p)) (x, y, z)

/-- The grammar of versions. -/
def IsVersion (s : String) (v : Version) : Prop := Dotted IsPart s.toList v

/-- The grammar with plus signs, one at least. -/
def HasSign (s : String) : Prop := '+' ∈ s.toList ∧ ∃ v, Dotted IsSignedPart s.toList v

theorem Dotted.mono {part part' : List Char → UInt16 → Prop}
    (h : ∀ text x, part text x → part' text x) {text : List Char} {v : Version}
    (hdotted : Dotted part text v) : Dotted part' text v := by
  cases hdotted with
  | two hm hn => exact .two (h _ _ hm) (h _ _ hn)
  | three hm hn hp => exact .three (h _ _ hm) (h _ _ hn) (h _ _ hp)

theorem IsPart.not_mem {text : List Char} {x : UInt16} (h : IsPart text x) {ch : Char}
    (hch : ch.isDigit = false) : ch ∉ text := by
  intro hmem
  rw [h.1.2 ch hmem] at hch
  exact Bool.noConfusion hch

theorem IsPart.not_mem_plus {text : List Char} {x : UInt16} (h : IsPart text x) : '+' ∉ text :=
  h.not_mem (by decide)

theorem IsPart.signed {text : List Char} {x : UInt16} (h : IsPart text x) :
    IsSignedPart text x := ⟨text, .inl rfl, h⟩

theorem IsSignedPart.not_mem_dot {text : List Char} {x : UInt16} (h : IsSignedPart text x) :
    '.' ∉ text := by
  obtain ⟨digits, rfl | rfl, hpart⟩ := h
  · exact hpart.not_mem (by decide)
  · intro hmem
    rcases List.mem_cons.mp hmem with heq | hmem
    · exact absurd heq (by decide)
    · exact hpart.not_mem (by decide) hmem

theorem IsSignedPart.of_not_mem {text : List Char} {x : UInt16} (h : IsSignedPart text x)
    (hplus : '+' ∉ text) : IsPart text x := by
  obtain ⟨digits, rfl | rfl, hpart⟩ := h
  · exact hpart
  · exact absurd List.mem_cons_self hplus

/-- No plus sign is in a text of the grammar, and a text without one is in the grammar if it
    is in the other. -/
theorem isVersion_iff {s : String} {v : Version} :
    IsVersion s v ↔ Dotted IsSignedPart s.toList v ∧ '+' ∉ s.toList := by
  unfold IsVersion
  generalize s.toList = text
  constructor
  · intro h
    refine ⟨h.mono fun _ _ hpart => hpart.signed, ?_⟩
    cases h with
    | two hm hn => simp [hm.not_mem_plus, hn.not_mem_plus]
    | three hm hn hp => simp [hm.not_mem_plus, hn.not_mem_plus, hp.not_mem_plus]
  · rintro ⟨h, hplus⟩
    cases h with
    | two hm hn =>
        simp only [List.mem_append, List.mem_cons, not_or] at hplus
        exact .two (hm.of_not_mem hplus.1) (hn.of_not_mem hplus.2.2)
    | three hm hn hp =>
        simp only [List.mem_append, List.mem_cons, not_or] at hplus
        exact .three (hm.of_not_mem hplus.1) (hn.of_not_mem hplus.2.2.1)
          (hp.of_not_mem hplus.2.2.2.2)

/-! ## What `parse_version` takes -/

theorem u16FromStr_eq_some {text : List Char} {x : UInt16} :
    u16FromStr text = some x ↔ IsSignedPart text x := by
  unfold u16FromStr IsSignedPart IsPart
  rw [Option.map_eq_some_iff]
  constructor
  · rintro ⟨n, hn, rfl⟩
    obtain ⟨digits, htext, hdecimal, rfl, hbound⟩ := readUnsigned_eq_some.mp hn
    refine ⟨digits, htext, hdecimal, hbound, ?_⟩
    rw [UInt16.toNat_ofNat']
    omega
  · rintro ⟨digits, htext, hdecimal, hbound, hx⟩
    refine ⟨value digits, readUnsigned_eq_some.mpr ⟨digits, htext, hdecimal, rfl, hbound⟩, ?_⟩
    rw [← hx, UInt16.ofNat_toNat]

/-! The three ways a text falls into fields. -/

section

variable {s : String} {m n p : List Char}

theorem parseVersion_one (hm : '.' ∉ s.toList) : parseVersion s = none := by
  unfold parseVersion
  rw [splitn_of_not_mem hm 2]
  cases u16FromStr s.toList with
  | none => simp
  | some x => simp

theorem parseVersion_two (hs : s.toList = m ++ '.' :: n) (hm : '.' ∉ m) (hn : '.' ∉ n)
    (v : Version) : parseVersion s = some v ↔
      ∃ x y, u16FromStr m = some x ∧ u16FromStr n = some y ∧ (x, y, 0) = v := by
  unfold parseVersion
  rw [hs, splitn_append hm 1, splitn_of_not_mem hn 1]
  simp [Option.bind_eq_some_iff]

theorem parseVersion_three (hs : s.toList = m ++ '.' :: (n ++ '.' :: p)) (hm : '.' ∉ m)
    (hn : '.' ∉ n) (v : Version) : parseVersion s = some v ↔
      ∃ x y z, u16FromStr m = some x ∧ u16FromStr n = some y ∧ u16FromStr p = some z ∧
        (x, y, z) = v := by
  unfold parseVersion
  rw [hs, splitn_append hm 1, splitn_append hn 0]
  simp [Option.bind_eq_some_iff, splitn]

end

/-- The parser takes the grammar with optional plus signs. -/
theorem parseVersion_eq_some {s : String} {v : Version} :
    parseVersion s = some v ↔ Dotted IsSignedPart s.toList v := by
  constructor
  · intro h
    rcases eq_field_or_append '.' s.toList with hs | ⟨m, rest, hs, hm⟩
    · rw [parseVersion_one hs] at h
      exact absurd h (by simp)
    · rcases eq_field_or_append '.' rest with hn | ⟨n, p, rfl, hn⟩
      · obtain ⟨x, y, hx, hy, rfl⟩ := (parseVersion_two hs hm hn v).mp h
        rw [hs]
        exact .two (u16FromStr_eq_some.mp hx) (u16FromStr_eq_some.mp hy)
      · obtain ⟨x, y, z, hx, hy, hz, rfl⟩ := (parseVersion_three hs hm hn v).mp h
        rw [hs]
        exact .three (u16FromStr_eq_some.mp hx) (u16FromStr_eq_some.mp hy)
          (u16FromStr_eq_some.mp hz)
  · intro h
    generalize hs : s.toList = text at h
    cases h with
    | two hm hn =>
        exact (parseVersion_two hs hm.not_mem_dot hn.not_mem_dot _).mpr
          ⟨_, _, u16FromStr_eq_some.mpr hm, u16FromStr_eq_some.mpr hn, rfl⟩
    | three hm hn hp =>
        exact (parseVersion_three hs hm.not_mem_dot hn.not_mem_dot _).mpr
          ⟨_, _, _, u16FromStr_eq_some.mpr hm, u16FromStr_eq_some.mpr hn,
            u16FromStr_eq_some.mpr hp, rfl⟩

example : parseVersion "0.13.3.4" = none := by decide

/-- `parse_version` takes the texts of the grammar, and those only. -/
def ParsesExactly (s : String) : Prop := ∀ v, parseVersion s = some v ↔ IsVersion s v

theorem parsesExactly_iff (s : String) : ParsesExactly s ↔ ¬ HasSign s := by
  unfold ParsesExactly HasSign
  simp only [parseVersion_eq_some, isVersion_iff]
  constructor
  · rintro h ⟨hplus, v, hdotted⟩
    exact ((h v).mp hdotted).2 hplus
  · intro h v
    constructor
    · exact fun hdotted => ⟨hdotted, fun hplus => h ⟨hplus, v, hdotted⟩⟩
    · exact fun hboth => hboth.1

/-! ## The manifest -/

/-- `ManifestError`, as far as `validate` returns it. -/
inductive ManifestError
  | tierBackendMismatch (tier : UInt8) (backend : String)
  | softwareKekProductionRefused (current : String)
  | versionMismatch
  | invalidValue (field reason : String)
  deriving DecidableEq, Repr

structure ShellSection where
  shellId : String

structure RuntimeSection where
  runtimeMax : String
  runtimeCurrent : String

structure AuditSection where
  dekBackend : String
  signatureClass : String
  complianceTier : UInt8

/-- `ManifestSnapshot`, as far as it is validated. -/
structure ManifestSnapshot where
  shell : ShellSection
  runtime : RuntimeSection
  audit : AuditSection

/-- `RuntimeSignatureClass::from_manifest_str`. -/
def fromManifestStr (s : String) : Option RuntimeSignatureClass :=
  match s with
  | "none" => some .none
  | "ed25519" => some .ed25519
  | "ml-dsa-65" => some .mlDsa65
  | "hybrid" => some .hybrid
  | _ => none

/-- A runtime version is parsed, or the error names its field. -/
def runtimeVersion (field s : String) : Except ManifestError Version :=
  match parseVersion s with
  | some v => .ok v
  | none => .error (.invalidValue field ("not a 'M.N' or 'M.N.P' semver: " ++ s))

/-- The match of `validate` on tier and backend. -/
def checkTierBackend (tier : UInt8) (backend : String) : Except ManifestError Unit :=
  if tier = 0 then
    if backend = "software-kek" then .ok ()
    else .error (.tierBackendMismatch 0 backend)
  else if tier = 1 ∨ tier = 2 then
    if backend = "software-kek" then .error (.tierBackendMismatch tier "software-kek")
    else .ok ()
  else .error (.invalidValue "audit.compliance_tier" ("unsupported tier " ++ toString tier))

/-- `ManifestLoader::validate`. -/
def validate (m : ManifestSnapshot) : Except ManifestError Unit :=
  if m.shell.shellId.utf8ByteSize > 32 then
    .error (.invalidValue "shell.shell_id"
      ("length " ++ toString m.shell.shellId.utf8ByteSize ++ " > 32"))
  else do
    let current ← runtimeVersion "runtime.runtime_current" m.runtime.runtimeCurrent
    let max ← runtimeVersion "runtime.runtime_max" m.runtime.runtimeMax
    if max.before current then .error .versionMismatch
    else do
      checkTierBackend m.audit.complianceTier m.audit.dekBackend
      if m.audit.dekBackend = "software-kek" && current.past015 then
        .error (.softwareKekProductionRefused m.runtime.runtimeCurrent)
      else if (fromManifestStr m.audit.signatureClass).isNone then
        .error (.invalidValue "audit.signature_class"
          ("unknown signature class " ++ m.audit.signatureClass))
      else .ok ()

/-! ## What `validate` accepts -/

theorem runtimeVersion_eq_ok {field s : String} {v : Version} :
    runtimeVersion field s = .ok v ↔ parseVersion s = some v := by
  unfold runtimeVersion
  cases parseVersion s with
  | none => simp
  | some w => simp

/-- Tier 0 goes with the software KEK, tiers 1 and 2 with any other backend. -/
def TierFits (tier : UInt8) (backend : String) : Prop :=
  if backend = "software-kek" then tier = 0 else tier = 1 ∨ tier = 2

theorem checkTierBackend_eq_ok {tier : UInt8} {backend : String} :
    checkTierBackend tier backend = .ok () ↔ TierFits tier backend := by
  unfold checkTierBackend TierFits
  by_cases hzero : tier = 0
  · rw [if_pos hzero, hzero]
    split
    · simp
    · simp
  · rw [if_neg hzero]
    split
    · split
      · simp [hzero]
      · simp [*]
    · next hother =>
        split
        · simp [hzero]
        · simp [hother]

theorem fromManifestStr_eq_none {s : String} :
    fromManifestStr s = none ↔ s ∉ ["none", "ed25519", "ml-dsa-65", "hybrid"] := by
  unfold fromManifestStr
  split
  · simp
  · simp
  · simp
  · simp
  · next hnone hed hml hhybrid =>
      simp only [List.mem_cons, List.not_mem_nil, or_false, not_or, true_iff]
      exact ⟨hnone, hed, hml, hhybrid⟩

/-- What `validate` asks of a manifest, its versions read with optional plus signs. -/
structure Acceptable (m : ManifestSnapshot) (current max : Version) : Prop where
  shellId : m.shell.shellId.utf8ByteSize ≤ 32
  currentTaken : Dotted IsSignedPart m.runtime.runtimeCurrent.toList current
  maxTaken : Dotted IsSignedPart m.runtime.runtimeMax.toList max
  ordered : max.before current = false
  tier : TierFits m.audit.complianceTier m.audit.dekBackend
  softwareKek : m.audit.dekBackend = "software-kek" → current.past015 = false
  signatureClass : m.audit.signatureClass ∈ ["none", "ed25519", "ml-dsa-65", "hybrid"]

theorem validate_eq_ok {m : ManifestSnapshot} :
    validate m = .ok () ↔ ∃ current max, Acceptable m current max := by
  unfold validate
  simp only [except_guard_eq_ok, except_bind_eq_ok, runtimeVersion_eq_ok, parseVersion_eq_some,
    Option.isNone_iff_eq_none, fromManifestStr_eq_none, not_not]
  constructor
  · rintro ⟨hlength, current, hcurrent, max, hmax, hordered, _, htier, hkek, hclass, -⟩
    refine ⟨current, max, ?_⟩
    exact
      { shellId := by omega
        currentTaken := hcurrent
        maxTaken := hmax
        ordered := by simpa using hordered
        tier := checkTierBackend_eq_ok.mp htier
        softwareKek := fun hbackend => by simpa [hbackend] using hkek
        signatureClass := hclass }
  · rintro ⟨current, max, h⟩
    have hkek : ¬ (decide (m.audit.dekBackend = "software-kek") && current.past015) = true := by
      intro hboth
      rw [Bool.and_eq_true, decide_eq_true_iff] at hboth
      rw [h.softwareKek hboth.1] at hboth
      exact Bool.false_ne_true hboth.2
    have hordered : ¬ max.before current = true := by simp [h.ordered]
    exact ⟨by have := h.shellId; omega, current, h.currentTaken, max, h.maxTaken, hordered, (),
      checkTierBackend_eq_ok.mpr h.tier, hkek, h.signatureClass, trivial⟩

/-- `validate` accepts runtime versions of the grammar only. -/
def AcceptsExactly (m : ManifestSnapshot) : Prop :=
  validate m = .ok () →
    (∃ v, IsVersion m.runtime.runtimeCurrent v) ∧ ∃ v, IsVersion m.runtime.runtimeMax v

/-- A text that is taken is in the grammar, or has a sign. -/
theorem exists_isVersion_iff {s : String} {v : Version}
    (h : Dotted IsSignedPart s.toList v) : (∃ v, IsVersion s v) ↔ ¬ HasSign s := by
  constructor
  · rintro ⟨w, hw⟩ hsign
    exact (isVersion_iff.mp hw).2 hsign.1
  · intro hsign
    exact ⟨v, isVersion_iff.mpr ⟨h, fun hplus => hsign ⟨hplus, v, h⟩⟩⟩

theorem acceptsExactly_iff (m : ManifestSnapshot) :
    AcceptsExactly m ↔ ¬ ((∃ current max, Acceptable m current max) ∧
      (HasSign m.runtime.runtimeCurrent ∨ HasSign m.runtime.runtimeMax)) := by
  unfold AcceptsExactly
  rw [validate_eq_ok, not_and, not_or]
  constructor
  · rintro h ⟨current, max, hm⟩
    obtain ⟨hcurrent, hmax⟩ := h ⟨current, max, hm⟩
    exact ⟨(exists_isVersion_iff hm.currentTaken).mp hcurrent,
      (exists_isVersion_iff hm.maxTaken).mp hmax⟩
  · rintro h ⟨current, max, hm⟩
    obtain ⟨hcurrent, hmax⟩ := h ⟨current, max, hm⟩
    exact ⟨(exists_isVersion_iff hm.currentTaken).mpr hcurrent,
      (exists_isVersion_iff hm.maxTaken).mpr hmax⟩

/-- **When versions are taken by exactly their grammar.** Every text is, unless it is a
    version with plus signs in front of parts; every manifest is, unless it is acceptable and
    one of its versions is such a text. -/
theorem versions_exact_iff (s : String) (m : ManifestSnapshot) :
    (ParsesExactly s ↔ ¬ HasSign s) ∧
      (AcceptsExactly m ↔ ¬ ((∃ current max, Acceptable m current max) ∧
        (HasSign m.runtime.runtimeCurrent ∨ HasSign m.runtime.runtimeMax))) :=
  ⟨parsesExactly_iff s, acceptsExactly_iff m⟩

/-- A manifest for development. -/
def devManifest (runtimeCurrent : String) : ManifestSnapshot where
  shell := ⟨"shell.dev.example"⟩
  runtime := ⟨"0.15", runtimeCurrent⟩
  audit := ⟨"software-kek", "ed25519", 0⟩

/-- `+0.13` is taken as 0.13, on its own and in a manifest. -/
theorem not_exact_plus : ¬ ParsesExactly "+0.13" ∧ ¬ AcceptsExactly (devManifest "+0.13") := by
  have hsign : ∀ v, ¬ IsVersion "+0.13" v := by
    intro v hv
    exact (isVersion_iff.mp hv).2 (by decide)
  constructor
  · intro h
    have htaken : parseVersion "+0.13" = some (0, 13, 0) := by decide
    exact hsign (0, 13, 0) ((h (0, 13, 0)).mp htaken)
  · intro h
    have haccepted : validate (devManifest "+0.13") = .ok () := rfl
    obtain ⟨v, hv⟩ := (h haccepted).1
    exact hsign v hv

end ArkheForge.Platform
