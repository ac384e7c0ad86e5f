/-
  What the erasure cascade relies on in its two backends.

  A world is lawful when it keeps an attestation it has handed out and when the rows
  it answers with change through a successful tombstone alone. Which calls fail is up
  to it: the pair of in-memory backends is lawful, and so is any lawful world with a
  schedule of faults in front (`Flaky`).
-/
import ArkheForge.Platform.Erasure.Cascade

namespace ArkheForge.Platform

open ArkheForge.Core BigEndian Fallible

/-! ## The laws -/

/-- What the cascade relies on. No law says when a call succeeds. -/
class LawfulBackends (W : Type) [PiiRowStore W] [DekShredder W] where
  /-- The attestation kept for a shredded DEK. -/
  cached : W → DekId → Option DekShredAttestation
  cached_of_shred : ∀ {dekId : DekId} {tick : Tick} {w w' : W} {result : ShredResult},
    (DekShredder.shredWithRegions dekId tick).exec w = (.ok result, w') →
      cached w' dekId = some result.overall
  cached_shred : ∀ (dekId : DekId) (tick : Tick) {w : W} {other : DekId} {a : DekShredAttestation},
    cached w other = some a →
      cached ((DekShredder.shredWithRegions dekId tick).exec w).2 other = some a
  cached_tombstone : ∀ (user : UserId) {w : W} {other : DekId} {a : DekShredAttestation},
    cached w other = some a → cached ((PiiRowStore.tombstone user).exec w).2 other = some a
  rowsFor_shred : ∀ (dekId : DekId) (tick : Tick) (w : W) (user : UserId),
    PiiRowStore.rowsFor ((DekShredder.shredWithRegions dekId tick).exec w).2 user =
      PiiRowStore.rowsFor w user
  rowsFor_tombstone_error : ∀ {user : UserId} {w w' : W} {e : ProjectionError} (other : UserId),
    (PiiRowStore.tombstone user).exec w = (.error e, w') →
      PiiRowStore.rowsFor w' other = PiiRowStore.rowsFor w other

section

open ErasureCascadeObserver (shredNamed)

/-- What every shred of a DEK keeps, the shred step keeps. -/
theorem shredNamed_holds {W : Type} [DekShredder W] {P : W → Prop}
    (hkept : ∀ dekId tick w, P w → P ((DekShredder.shredWithRegions dekId tick).exec w).2)
    {dekId : Option DekId} {tick : Tick} {w w' : W} {outcome : Except DekShredError ShredResult}
    (h : (shredNamed dekId tick).exec w = (outcome, w')) (hw : P w) : P w' := by
  cases dekId with
  | none =>
      obtain ⟨-, rfl⟩ := Prod.mk.inj h
      exact hw
  | some dekId =>
      have hshred := hkept dekId tick w hw
      rw [show (DekShredder.shredWithRegions dekId tick).exec w = (outcome, w') from h] at hshred
      exact hshred

/-- What no shred of a DEK changes, the shred step does not change. -/
theorem shredNamed_keeps {W α : Type} [DekShredder W] {f : W → α}
    (hkept : ∀ dekId tick w, f ((DekShredder.shredWithRegions dekId tick).exec w).2 = f w)
    {dekId : Option DekId} {tick : Tick} {w w' : W} {outcome : Except DekShredError ShredResult}
    (h : (shredNamed dekId tick).exec w = (outcome, w')) : f w' = f w :=
  shredNamed_holds (P := fun r => f r = f w)
    (fun dekId tick r hr => (hkept dekId tick r).trans hr) h rfl

variable {W : Type} [PiiRowStore W] [DekShredder W] [LawfulBackends W]

theorem rowsFor_shredNamed {dekId : Option DekId} {tick : Tick} {w w' : W}
    {outcome : Except DekShredError ShredResult}
    (h : (shredNamed dekId tick).exec w = (outcome, w')) (user : UserId) :
    PiiRowStore.rowsFor w' user = PiiRowStore.rowsFor w user :=
  shredNamed_keeps (f := fun w => PiiRowStore.rowsFor w user)
    (fun dekId tick w => LawfulBackends.rowsFor_shred dekId tick w user) h

theorem cached_exec_tombstone {user : UserId} {w w' : W} {d : DekId} {a : DekShredAttestation}
    {outcome : Except ProjectionError Unit} (hcached : LawfulBackends.cached w d = some a)
    (h : (PiiRowStore.tombstone user).exec w = (outcome, w')) :
    LawfulBackends.cached w' d = some a := by
  have hkept := LawfulBackends.cached_tombstone user hcached
  rw [h] at hkept
  exact hkept

end

/-! ## In memory -/

section

variable [Blake3]

/-- A shred that returns has its attestation in the cache. -/
theorem InMemoryDekShredder.shredded_of_shred {dekId : DekId} {s s' : InMemoryDekShredder}
    {a : DekShredAttestation} (h : (shred dekId).exec s = (.ok a, s')) :
    s'.shredded dekId = some a := by
  rw [exec_shred] at h
  cases hcached : s.shredded dekId with
  | some cached =>
      simp only [hcached, Prod.mk.injEq, Except.ok.injEq] at h
      obtain ⟨rfl, rfl⟩ := h
      exact hcached
  | none =>
      simp only [hcached] at h
      split at h
      · cases h
      · split at h
        · cases h
        · obtain ⟨ha, rfl⟩ := Prod.mk.inj h
          rw [Except.ok.inj ha]
          exact Function.update_self dekId _ s.shredded

/-- The cache never loses an entry. -/
theorem InMemoryDekShredder.shredded_shred (dekId : DekId) {s : InMemoryDekShredder}
    {other : DekId} {a : DekShredAttestation} (h : s.shredded other = some a) :
    ((shred dekId).exec s).2.shredded other = some a := by
  rw [exec_shred]
  cases hcached : s.shredded dekId with
  | some cached => exact h
  | none =>
      have hne : other ≠ dekId := by
        intro heq
        rw [heq, hcached] at h
        cases h
      dsimp only
      split
      · exact h
      · split
        · exact h
        · exact (Function.update_of_ne hne _ s.shredded).trans h

end

instance inMemoryLawful [Blake3] : LawfulBackends (InMemoryPiiRowStore × InMemoryDekShredder) where
  cached w := w.2.shredded
  cached_of_shred := by
    intro dekId tick w w' result h
    rw [exec_shredWithRegions_pair, InMemoryDekShredder.exec_shredWithRegions] at h
    obtain ⟨hresult, rfl⟩ := Prod.mk.inj h
    cases hshred : (InMemoryDekShredder.shred dekId).exec w.2 with
    | mk outcome shredder =>
        simp only [hshred] at hresult ⊢
        cases outcome with
        | error e => cases hresult
        | ok overall =>
            rw [← Except.ok.inj hresult]
            exact InMemoryDekShredder.shredded_of_shred hshred
  cached_shred := by
    intro dekId tick w other a h
    rw [exec_shredWithRegions_pair, InMemoryDekShredder.exec_shredWithRegions]
    exact InMemoryDekShredder.shredded_shred dekId h
  cached_tombstone := by
    intro user w other a h
    exact h
  rowsFor_shred := by
    intro dekId tick w user
    rw [exec_shredWithRegions_pair]
    rfl
  rowsFor_tombstone_error := by
    intro user w w' e other h
    cases h

/-! ## Faults -/

/-- A world whose next calls fail where the schedule says so. -/
structure Flaky (W : Type) where
  world : W
  faults : List Bool

namespace Flaky

variable {W : Type}

/-- A call that the schedule may refuse. -/
def scheduled {ε α : Type} (fault : ε) (m : Fallible W ε α) : Fallible (Flaky W) ε α := do
  let s ← get
  set { s with faults := s.faults.tail }
  if s.faults.head? = some true then throw fault
  zoom world (fun w s => { s with world := w }) id m

theorem exec_scheduled {ε α : Type} (fault : ε) (m : Fallible W ε α) (s : Flaky W) :
    (scheduled fault m).exec s =
      if s.faults.head? = some true then (.error fault, ⟨s.world, s.faults.tail⟩)
      else ((m.exec s.world).1, ⟨(m.exec s.world).2, s.faults.tail⟩) := by
  unfold scheduled
  simp only [exec_bind, exec_get, exec_set]
  by_cases hfault : s.faults.head? = some true
  · simp only [hfault, if_true, exec_bind, exec_throw]
  · simp only [hfault, if_false, exec_zoom]
    rcases m.exec s.world with ⟨e | a, w⟩
    · rfl
    · rfl

instance [PiiRowStore W] : PiiRowStore (Flaky W) where
  rowsFor s := PiiRowStore.rowsFor s.world
  tombstone user := scheduled (.storage "row store unavailable") (PiiRowStore.tombstone user)
  isTombstoned s := PiiRowStore.isTombstoned s.world

instance [DekShredder W] : DekShredder (Flaky W) where
  shred dekId := scheduled (.backend "shredder unavailable") (DekShredder.shred dekId)
  shredWithRegions dekId tick :=
    scheduled (.backend "shredder unavailable") (DekShredder.shredWithRegions dekId tick)

theorem exec_shredWithRegions [DekShredder W] (dekId : DekId) (tick : Tick) (s : Flaky W) :
    (DekShredder.shredWithRegions dekId tick).exec s =
      if s.faults.head? = some true then
        (.error (.backend "shredder unavailable"), ⟨s.world, s.faults.tail⟩)
      else
        (((DekShredder.shredWithRegions dekId tick).exec s.world).1,
          ⟨((DekShredder.shredWithRegions dekId tick).exec s.world).2, s.faults.tail⟩) :=
  exec_scheduled _ _ s

theorem exec_tombstone [PiiRowStore W] (user : UserId) (s : Flaky W) :
    (PiiRowStore.tombstone user).exec s =
      if s.faults.head? = some true then
        (.error (.storage "row store unavailable"), ⟨s.world, s.faults.tail⟩)
      else
        (((PiiRowStore.tombstone user).exec s.world).1,
          ⟨((PiiRowStore.tombstone user).exec s.world).2, s.faults.tail⟩) :=
  exec_scheduled _ _ s

/-- A call that returned is the call of the world. -/
theorem exec_tombstone_ok [PiiRowStore W] {user : UserId} {s s' : Flaky W}
    (h : (PiiRowStore.tombstone user).exec s = (.ok (), s')) :
    (PiiRowStore.tombstone user).exec s.world = (.ok (), s'.world) := by
  rw [exec_tombstone] at h
  split at h
  · cases h
  · obtain ⟨hok, rfl⟩ := Prod.mk.inj h
    exact Prod.ext hok rfl

/-- A call that failed was refused before it reached the world, or failed there. -/
theorem exec_tombstone_error [PiiRowStore W] {user : UserId} {s s' : Flaky W} {e : ProjectionError}
    (h : (PiiRowStore.tombstone user).exec s = (.error e, s')) :
    s'.world = s.world ∨ (PiiRowStore.tombstone user).exec s.world = (.error e, s'.world) := by
  rw [exec_tombstone] at h
  split at h
  · obtain ⟨-, rfl⟩ := Prod.mk.inj h
    exact .inl rfl
  · obtain ⟨he, rfl⟩ := Prod.mk.inj h
    exact .inr (Prod.ext he rfl)

instance [PiiRowStore W] [DekShredder W] [LawfulBackends W] : LawfulBackends (Flaky W) where
  cached s := LawfulBackends.cached s.world
  cached_of_shred := by
    intro dekId tick s s' result h
    rw [exec_shredWithRegions] at h
    split at h
    · cases h
    · obtain ⟨hresult, rfl⟩ := Prod.mk.inj h
      exact LawfulBackends.cached_of_shred (Prod.ext hresult rfl)
  cached_shred := by
    intro dekId tick s other a h
    rw [exec_shredWithRegions]
    split
    · exact h
    · exact LawfulBackends.cached_shred dekId tick h
  cached_tombstone := by
    intro user s other a h
    rw [exec_tombstone]
    split
    · exact h
    · exact LawfulBackends.cached_tombstone user h
  rowsFor_shred := by
    intro dekId tick s user
    rw [exec_shredWithRegions]
    split
    · rfl
    · exact LawfulBackends.rowsFor_shred dekId tick s.world user
  rowsFor_tombstone_error := by
    intro user s s' e other h
    show PiiRowStore.rowsFor s'.world other = PiiRowStore.rowsFor s.world other
    rcases exec_tombstone_error h with hsame | hexec
    · rw [hsame]
    · exact LawfulBackends.rowsFor_tombstone_error other hexec

end Flaky

end ArkheForge.Platform
