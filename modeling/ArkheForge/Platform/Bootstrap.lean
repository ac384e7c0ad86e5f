/-
  The bootstrap receipt: `RuntimeBootstrap` (`event.rs`), what its derive emits
  (`arkhe-forge-macros`), and the helper that emits it (`manifest.rs`).

  The event's documentation has the derive sort the type-code pins before they are
  serialized. The derive looks at the attribute and checks the type of its field; it
  emits two constants. The helper and the encoder leave the pins as they come, so two
  lists of pins are emitted as the same bytes exactly where they are the same list
  (`bootstrap_canonical_iff`).
-/
import ArkheForge.Core.Context
import ArkheForge.Core.PostcardWire

namespace ArkheForge.Core

open BigEndian Fallible

/-- `SemVer`. -/
structure SemVer where
  major : UInt16
  minor : UInt16
  patch : UInt16
  deriving DecidableEq, Repr

/-- A vector of pins: its length is a `usize`. -/
abbrev TypeCodePins : Type := { pins : List TypeCode // pins.length < UInt64.size }

/-- `RuntimeBootstrap`. -/
structure RuntimeBootstrap where
  schemaVersion : UInt16
  l0Semver : SemVer
  runtimeSemver : SemVer
  manifestDigest : Vector UInt8 32
  typecodePins : TypeCodePins
  bootstrapTick : Tick

/-- What `#[derive(ArkheEvent)]` emits for it. `canonical_sort` adds nothing. -/
instance runtimeBootstrapEvent : ArkheEvent RuntimeBootstrap where
  typeCode := 0x00030F01

/-- `emit_runtime_bootstrap`. -/
def emitRuntimeBootstrap [Postcard RuntimeBootstrap] (digest : Vector UInt8 32)
    (l0Semver runtimeSemver : SemVer) (typecodePins : TypeCodePins) (bootstrapTick : Tick) :
    Compute Unit :=
  let event : RuntimeBootstrap :=
    { schemaVersion := 1
      l0Semver := l0Semver
      runtimeSemver := runtimeSemver
      manifestDigest := digest
      typecodePins := typecodePins
      bootstrapTick := bootstrapTick }
  emitEvent event

namespace Wire

def semVer : Codec SemVer :=
  (Codec.u16.pair (Codec.u16.pair Codec.u16)).via (fun (a, b, c) => some ⟨a, b, c⟩)
    (fun x => (x.major, x.minor, x.patch)) fun _ => rfl

def runtimeBootstrap : Codec RuntimeBootstrap :=
  (Codec.u16.pair (semVer.pair (semVer.pair ((Codec.fixed 32).pair
    (Codec.u32.list.pair Codec.u64))))).via
    (fun (v, l, r, d, p, t) => some ⟨v, l, r, d, p, t⟩)
    (fun x => (x.schemaVersion, x.l0Semver, x.runtimeSemver, x.manifestDigest, x.typecodePins,
      x.bootstrapTick)) fun _ => rfl

end Wire

/-! ## Reorderings -/

theorem pinFirst_fits {pins : TypeCodePins} {pin : TypeCode} (h : pin ∈ pins.1) :
    (pin :: pins.1.erase pin).length < UInt64.size := by
  rw [(List.perm_cons_erase h).symm.length_eq]
  exact pins.2

/-- A list with one of its members in front. -/
def pinFirst (pins : TypeCodePins) (pin : TypeCode) (h : pin ∈ pins.1) : TypeCodePins :=
  ⟨pin :: pins.1.erase pin, pinFirst_fits h⟩

/-- A list without two different members has one order. -/
theorem eq_of_perm_same {pins pins' : TypeCodePins} (h : ∀ a ∈ pins.1, ∀ b ∈ pins.1, a = b)
    (hperm : pins'.1.Perm pins.1) : pins' = pins := by
  have hall : ∀ as : List TypeCode, as.Pairwise fun _ _ => True :=
    fun _ => List.pairwise_of_forall fun _ _ => trivial
  refine Subtype.ext (List.Perm.eq_of_pairwise ?_ (hall pins'.1) (hall pins.1) hperm)
  intro a b ha hb _ _
  exact h a (hperm.mem_iff.mp ha) b hb

/-! ## What is emitted -/

/-- What was serialized tells the value. -/
theorem encoded_inj {α : Type} [Postcard α] (htotal : Postcard.Total α)
    (hround : Postcard.RoundTrip α) {x y : α} (h : encoded x = encoded y) : x = y := by
  have hx := hround x _ (toStdvec_eq_encoded htotal x)
  have hy := hround y _ (toStdvec_eq_encoded htotal y)
  rw [h, hy] at hx
  exact (Except.ok.inj hx).symm

section

variable [Postcard RuntimeBootstrap] (digest : Vector UInt8 32)
  (l0Semver runtimeSemver : SemVer) (bootstrapTick : Tick) (ctx : ActionContext)

/-- The payloads of the events that the helper appends. -/
def bootstrapPayloads (pins : TypeCodePins) : List Bytes :=
  ((((emitRuntimeBootstrap digest l0Semver runtimeSemver pins bootstrapTick).exec ctx).2.events).drop
    ctx.events.length).map EventRecord.payload

/-- One payload, the serialized event. -/
theorem bootstrapPayloads_eq (htotal : Postcard.Total RuntimeBootstrap) (pins : TypeCodePins) :
    bootstrapPayloads digest l0Semver runtimeSemver bootstrapTick ctx pins =
      [encoded (⟨1, l0Semver, runtimeSemver, digest, pins, bootstrapTick⟩ : RuntimeBootstrap)] := by
  unfold bootstrapPayloads emitRuntimeBootstrap
  rw [exec_emitEvent htotal]
  simp

theorem bootstrapPayloads_inj (htotal : Postcard.Total RuntimeBootstrap)
    (hround : Postcard.RoundTrip RuntimeBootstrap) {pins pins' : TypeCodePins}
    (h : bootstrapPayloads digest l0Semver runtimeSemver bootstrapTick ctx pins =
      bootstrapPayloads digest l0Semver runtimeSemver bootstrapTick ctx pins') :
    pins = pins' := by
  rw [bootstrapPayloads_eq _ _ _ _ _ htotal, bootstrapPayloads_eq _ _ _ _ _ htotal] at h
  have hevent := encoded_inj htotal hround (List.head_eq_of_cons_eq h)
  exact congrArg RuntimeBootstrap.typecodePins hevent

/-- **When the bootstrap event is canonical.** Two lists of pins are emitted as the same bytes
    exactly where they are the same list; a list is emitted as the same bytes in each of
    its orders exactly where it has no two different pins. -/
theorem bootstrap_canonical_iff (htotal : Postcard.Total RuntimeBootstrap)
    (hround : Postcard.RoundTrip RuntimeBootstrap) :
    (∀ pins pins' : TypeCodePins,
      bootstrapPayloads digest l0Semver runtimeSemver bootstrapTick ctx pins =
        bootstrapPayloads digest l0Semver runtimeSemver bootstrapTick ctx pins' ↔
          pins.1 = pins'.1) ∧
    ∀ pins : TypeCodePins,
      (∀ pins' : TypeCodePins, pins'.1.Perm pins.1 →
        bootstrapPayloads digest l0Semver runtimeSemver bootstrapTick ctx pins' =
          bootstrapPayloads digest l0Semver runtimeSemver bootstrapTick ctx pins) ↔
      ∀ a ∈ pins.1, ∀ b ∈ pins.1, a = b := by
  constructor
  · intro pins pins'
    constructor
    · intro h
      exact congrArg Subtype.val (bootstrapPayloads_inj _ _ _ _ _ htotal hround h)
    · intro h
      rw [Subtype.ext h]
  · intro pins
    constructor
    · intro h a ha b hb
      have hfirst : ∀ (pin : TypeCode) (hpin : pin ∈ pins.1),
          pin :: pins.1.erase pin = pins.1 := by
        intro pin hpin
        have hsame := h (pinFirst pins pin hpin) (List.perm_cons_erase hpin).symm
        exact congrArg Subtype.val (bootstrapPayloads_inj _ _ _ _ _ htotal hround hsame)
      have heads := (hfirst a ha).trans (hfirst b hb).symm
      exact List.head_eq_of_cons_eq heads
    · intro h pins' hperm
      rw [eq_of_perm_same h hperm]

end

section

/-- `postcard` at the event. -/
abbrev postcardBootstrap : Postcard RuntimeBootstrap := .ofCodec Wire.runtimeBootstrap

attribute [local instance] postcardBootstrap

theorem pinPair_fits (a b : TypeCode) : [a, b].length < UInt64.size := by
  show 2 < UInt64.size
  decide

/-- Two pins. -/
def pinPair (a b : TypeCode) : TypeCodePins := ⟨[a, b], pinPair_fits a b⟩

/-- Bytes of a digest and of a seed. -/
def someBytes : Vector UInt8 32 := .replicate 32 0xAB

/-- The payloads of a bootstrap of two pins. -/
def pairPayloads (a b : TypeCode) : List Bytes :=
  bootstrapPayloads someBytes ⟨0, 14, 0⟩ ⟨0, 15, 0⟩ 1
    (ActionContext.new someBytes firstInstance 1 .system .system) (pinPair a b)

/-- The two orders of two pins. -/
theorem bootstrap_canonical_iff_pair :
    pairPayloads 0x30001 0x30002 = pairPayloads 0x30002 0x30001 ↔
      [(0x30001 : TypeCode), 0x30002] = [0x30002, 0x30001] :=
  (bootstrap_canonical_iff _ _ _ _ _ (Postcard.ofCodec_total Wire.runtimeBootstrap)
    (Postcard.ofCodec_roundTrip Wire.runtimeBootstrap)).1 (pinPair 0x30001 0x30002)
      (pinPair 0x30002 0x30001)

/-- Two pins and their reversal are emitted as different bytes. -/
theorem not_canonical_pair :
    ¬ ∀ pins pins' : TypeCodePins, pins.1.Perm pins'.1 →
      bootstrapPayloads someBytes ⟨0, 14, 0⟩ ⟨0, 15, 0⟩ 1
          (ActionContext.new someBytes firstInstance 1 .system .system) pins =
        bootstrapPayloads someBytes ⟨0, 14, 0⟩ ⟨0, 15, 0⟩ 1
          (ActionContext.new someBytes firstInstance 1 .system .system) pins' := by
  intro hclaim
  have hswap : [(0x30001 : TypeCode), 0x30002].Perm [0x30002, 0x30001] :=
    List.Perm.swap 0x30002 0x30001 []
  have hsame := hclaim (pinPair 0x30001 0x30002) (pinPair 0x30002 0x30001) hswap
  have hpins := bootstrapPayloads_inj _ _ _ _ _ (Postcard.ofCodec_total Wire.runtimeBootstrap)
    (Postcard.ofCodec_roundTrip Wire.runtimeBootstrap) hsame
  have hfirst := List.head_eq_of_cons_eq (congrArg Subtype.val hpins)
  exact absurd hfirst (by decide)

end

end ArkheForge.Core
