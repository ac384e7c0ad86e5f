/-
  The PII markers that shells register (`ShellPiiType`, `ShellPiiRegistry`, `pii.rs`).

  A registry is filled from a manifest and only ever added to. Whatever was offered to it, in
  range or not, a code is held by the first marker in the shell range that was offered under it
  (`registry_holds_first`). So the associated data of an envelope names one marker, and
  no marker's is that of a canonical type.
-/
import ArkheForge.Core.Pii
import ArkheForge.Lib.Fallible
import ArkheForge.Lib.FirstWrite

namespace ArkheForge.Core

open BigEndian Fallible

/-- `Sensitivity`. -/
inductive Sensitivity
  | low
  | medium
  | high
  deriving DecidableEq, Repr

/-- `ShellPiiType`. -/
structure ShellPiiType where
  piiCode : UInt16
  sensitivity : Sensitivity
  aeadKind : AeadKind
  deriving DecidableEq, Repr

/-- The variants of `PiiError` that the registry raises. -/
inductive ShellPiiError
  | shellPiiCodeOutOfRange
  | shellPiiAlreadyRegistered
  deriving DecidableEq, Repr

/-- `SHELL_PII_CODE_RANGE.contains`. -/
def inShellRange (piiCode : UInt16) : Bool := 0x0100 ≤ piiCode && piiCode ≤ 0xFFFF

/-- `ShellPiiType::new`. -/
def ShellPiiType.new (piiCode : UInt16) (sensitivity : Sensitivity) (aeadKind : AeadKind) :
    Except ShellPiiError ShellPiiType :=
  if inShellRange piiCode then .ok ⟨piiCode, sensitivity, aeadKind⟩
  else .error .shellPiiCodeOutOfRange

/-- `ShellPiiRegistry`. -/
structure ShellPiiRegistry where
  entries : FirstWrite.Table UInt16 ShellPiiType

namespace ShellPiiRegistry

/-- `ShellPiiRegistry::new`. -/
def new : ShellPiiRegistry := ⟨∅⟩

/-- `ShellPiiRegistry::register`. -/
def register (entry : ShellPiiType) : Fallible ShellPiiRegistry ShellPiiError Unit := do
  if ¬ inShellRange entry.piiCode then throw .shellPiiCodeOutOfRange
  let registry ← get
  if (registry.entries.lookup entry.piiCode).isSome then throw .shellPiiAlreadyRegistered
  set (⟨registry.entries.insert entry.piiCode entry⟩ : ShellPiiRegistry)

/-- `ShellPiiRegistry::get`. -/
def get (registry : ShellPiiRegistry) (piiCode : UInt16) : Option ShellPiiType :=
  registry.entries.lookup piiCode

/-- `ShellPiiRegistry::len`. -/
def len (registry : ShellPiiRegistry) : ℕ := registry.entries.keys.card

/-- `ShellPiiRegistry::is_empty`. -/
def isEmpty (registry : ShellPiiRegistry) : Bool := registry.len = 0

theorem exec_register (entry : ShellPiiType) (registry : ShellPiiRegistry) :
    (register entry).exec registry =
      if ¬ inShellRange entry.piiCode then (.error .shellPiiCodeOutOfRange, registry)
      else if (registry.get entry.piiCode).isSome then (.error .shellPiiAlreadyRegistered, registry)
      else (.ok (), ⟨registry.entries.insert entry.piiCode entry⟩) := by
  unfold register get
  by_cases hrange : inShellRange entry.piiCode = true
  · simp only [hrange, not_true_eq_false, if_false, exec_bind, exec_get]
    split
    · rfl
    · rfl
  · rw [if_pos hrange, if_pos hrange]
    rfl

/-- The registry after entries were offered to it one after another. -/
def run (entries : List ShellPiiType) (registry : ShellPiiRegistry) : ShellPiiRegistry :=
  entries.foldl (fun registry entry => ((register entry).exec registry).2) registry

/-- What is offered within the range, under its code. -/
def offers (entries : List ShellPiiType) : List (UInt16 × ShellPiiType) :=
  (entries.filter fun entry => inShellRange entry.piiCode).map fun entry => (entry.piiCode, entry)

theorem entries_run (entries : List ShellPiiType) (registry : ShellPiiRegistry) :
    (run entries registry).entries =
      (offers entries).foldl (fun t w => FirstWrite.add w.1 w.2 t) registry.entries := by
  induction entries generalizing registry with
  | nil => rfl
  | cons entry later ih =>
      show (run later ((register entry).exec registry).2).entries = _
      rw [ih, exec_register]
      unfold offers
      by_cases hrange : inShellRange entry.piiCode = true
      · rw [if_neg (not_not_intro hrange), List.filter_cons, if_pos hrange, List.map_cons,
          List.foldl_cons]
        unfold FirstWrite.add get
        split
        · rfl
        · rfl
      · rw [if_pos hrange, List.filter_cons, if_neg hrange]

theorem lookup_offers (piiCode : UInt16) (entries : List ShellPiiType) :
    (offers entries).lookup piiCode =
      if inShellRange piiCode then entries.find? fun entry => entry.piiCode = piiCode
      else none := by
  induction entries with
  | nil => simp [offers]
  | cons entry later ih =>
      unfold offers at ih ⊢
      by_cases hcode : entry.piiCode = piiCode
      · subst hcode
        by_cases hrange : inShellRange entry.piiCode = true
        · simp [hrange]
        · simp only [hrange] at ih
          simp [hrange, ih]
      · have hne : (piiCode == entry.piiCode) = false := beq_false_of_ne (Ne.symm hcode)
        rw [List.find?_cons_of_neg (by simpa using hcode), ← ih]
        by_cases hrange : inShellRange entry.piiCode = true
        · rw [List.filter_cons, if_pos hrange, List.map_cons, List.lookup_cons, hne]
        · rw [List.filter_cons, if_neg hrange]

/-- A code has the first marker offered under it, if it is in the range. -/
theorem get_run (entries : List ShellPiiType) (piiCode : UInt16) :
    (run entries new).get piiCode =
      if inShellRange piiCode then entries.find? fun entry => entry.piiCode = piiCode
      else none := by
  unfold get
  rw [entries_run, FirstWrite.lookup_foldl_add, lookup_offers]
  exact Option.none_or

/-- What is held under a code has that code, which is in the range. -/
theorem code_of_get {entries : List ShellPiiType} {piiCode : UInt16} {marker : ShellPiiType}
    (h : (run entries new).get piiCode = some marker) :
    marker.piiCode = piiCode ∧ inShellRange piiCode = true := by
  rw [get_run] at h
  split at h
  · next hrange =>
      have hfound := List.find?_some h
      exact ⟨of_decide_eq_true hfound, hrange⟩
  · cases h

theorem register_ok_iff (entries : List ShellPiiType) (entry : ShellPiiType) :
    ((register entry).exec (run entries new)).1 = .ok () ↔
      inShellRange entry.piiCode ∧ entry.piiCode ∉ entries.map ShellPiiType.piiCode := by
  rw [exec_register, get_run]
  by_cases hrange : inShellRange entry.piiCode = true
  · rw [if_neg (not_not_intro hrange), if_pos hrange]
    cases hfirst : entries.find? fun other => other.piiCode = entry.piiCode with
    | none =>
        have hnew := List.find?_eq_none.mp hfirst
        simpa [hrange] using hnew
    | some other =>
        have hmem := List.mem_of_find?_eq_some hfirst
        have hfound := List.find?_some hfirst
        have hcode : other.piiCode = entry.piiCode := of_decide_eq_true hfound
        simpa [hrange] using ⟨other, hmem, hcode⟩
  · simp [hrange]

/-- A refused entry leaves the registry as it was. -/
theorem register_refused {entry : ShellPiiType} {registry : ShellPiiRegistry} {err : ShellPiiError}
    (h : ((register entry).exec registry).1 = .error err) :
    ((register entry).exec registry).2 = registry := by
  rw [exec_register] at h ⊢
  split
  · rfl
  · split
    · rfl
    · next hrange hfree =>
        rw [if_neg hrange, if_neg hfree] at h
        cases h

end ShellPiiRegistry

/-- The codes of the canonical types. -/
def canonicalCodes : List UInt16 :=
  [PiiType.piiCode ActorHandle, PiiType.piiCode EntryBody, PiiType.piiCode ActivityExtraBytes,
    PiiType.piiCode AuthCredentialSecret]

theorem canonical_out_of_range {piiCode : UInt16} (h : piiCode ∈ canonicalCodes) :
    inShellRange piiCode = false := by
  unfold canonicalCodes at h
  simp only [List.mem_cons, List.not_mem_nil, or_false] at h
  rcases h with rfl | rfl | rfl | rfl
  · rfl
  · rfl
  · rfl
  · rfl

namespace ShellPiiRegistry

/-- Whatever entries were offered to a registry, one of them many times or out of range: a code
    is held by the first marker in the shell range that was offered under it, and the next
    entry is taken exactly if its code is in the range and was not offered before. No two
    envelopes, of registered markers or of one and a canonical type, have the same associated
    data unless DEK and marker are the same. -/
theorem registry_holds_first (entries : List ShellPiiType) :
    let registry := run entries new
    (∀ piiCode, registry.get piiCode =
      if inShellRange piiCode then entries.find? fun entry => entry.piiCode = piiCode else none) ∧
    (∀ entry, ((register entry).exec registry).1 = .ok () ↔
      inShellRange entry.piiCode ∧ entry.piiCode ∉ entries.map ShellPiiType.piiCode) ∧
    (∀ entry err, ((register entry).exec registry).1 = .error err →
      ((register entry).exec registry).2 = registry) ∧
    ∀ piiCode marker dekId, registry.get piiCode = some marker →
      (∀ piiCode' marker' dekId', registry.get piiCode' = some marker' →
        computeAad dekId marker.piiCode marker.aeadKind =
          computeAad dekId' marker'.piiCode marker'.aeadKind → dekId = dekId' ∧ marker = marker') ∧
      ∀ canonical ∈ canonicalCodes, ∀ dekId' aeadKind,
        computeAad dekId marker.piiCode marker.aeadKind ≠ computeAad dekId' canonical aeadKind := by
  intro registry
  refine ⟨get_run entries, register_ok_iff entries, fun _ _ => register_refused, ?_⟩
  intro piiCode marker dekId hmarker
  obtain ⟨hcode, hrange⟩ := code_of_get hmarker
  refine ⟨?_, ?_⟩
  · intro piiCode' marker' dekId' hmarker' haad
    obtain ⟨hcode', -⟩ := code_of_get hmarker'
    obtain ⟨hdek, hsame, -⟩ := computeAad_inj.mp haad
    have hcodes : piiCode = piiCode' := hcode.symm.trans (hsame.trans hcode')
    rw [hcodes, hmarker'] at hmarker
    exact ⟨hdek, (Option.some.inj hmarker).symm⟩
  · intro canonical hcanonical dekId' aeadKind haad
    obtain ⟨-, hsame, -⟩ := computeAad_inj.mp haad
    have hout := canonical_out_of_range hcanonical
    rw [← hsame, hcode, hrange] at hout
    cases hout

/-- The second of two markers under one code is refused, and so is one in the canonical range. -/
example : (run [⟨0x0300, .low, .xChaCha20Poly1305⟩, ⟨0x0300, .medium, .aes256Gcm⟩,
    ⟨0x00FF, .medium, .aes256Gcm⟩] new).get 0x0300 = some ⟨0x0300, .low, .xChaCha20Poly1305⟩ := by
  rw [get_run]
  rfl

end ShellPiiRegistry

end ArkheForge.Core
