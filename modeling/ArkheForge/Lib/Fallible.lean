/-
  State-passing computations that may fail.

  A method that takes a mutable receiver and returns a result type leaves the
  receiver as it stands at the point of failure: an early error is not a
  rollback. `Fallible σ ε α` is that reading (`ExceptT` over `StateM`), `exec`
  runs one call, and the rules below take a run of a sequential program apart
  into the runs of its statements.
-/
import Mathlib.Init

/-- A computation over a state `σ` that returns an `α` or fails with an `ε`, the
    state written so far being kept in both cases. -/
abbrev Fallible (σ ε α : Type) := ExceptT ε (StateM σ) α

namespace Fallible

variable {σ τ ε δ α β : Type}

/-- One call: the outcome and the state left behind. -/
def exec (m : Fallible σ ε α) (s : σ) : Except ε α × σ := m.run s

/-- Run `m` on a part of the state, its errors translated by `wrap`. -/
def zoom (view : σ → τ) (update : τ → σ → σ) (wrap : δ → ε) (m : Fallible τ δ α) :
    Fallible σ ε α := do
  let s ← get
  let (r, t) := m.exec (view s)
  set (update t s)
  match r with
  | .ok a => pure a
  | .error e => throw (wrap e)

/-- Run `m`, its errors translated by `wrap`. -/
def adapt (wrap : δ → ε) (m : Fallible σ δ α) : Fallible σ ε α := zoom id (fun t _ => t) wrap m

/-- Run `m` and hand its outcome, error or not, to the rest of the computation. -/
def attempt (m : Fallible σ δ α) : Fallible σ ε (Except δ α) := do
  let (r, s) := m.exec (← get)
  set s
  pure r

/-! ## Running the primitives -/

@[simp] theorem exec_pure (a : α) (s : σ) : exec (pure a : Fallible σ ε α) s = (.ok a, s) := rfl

@[simp] theorem exec_throw (e : ε) (s : σ) :
    exec (throw e : Fallible σ ε α) s = (.error e, s) := rfl

@[simp] theorem exec_get (s : σ) : exec (get : Fallible σ ε σ) s = (.ok s, s) := rfl

@[simp] theorem exec_set (s' s : σ) :
    exec (set s' : Fallible σ ε PUnit) s = (.ok ⟨⟩, s') := rfl

@[simp] theorem exec_modify (f : σ → σ) (s : σ) :
    exec (modify f : Fallible σ ε PUnit) s = (.ok ⟨⟩, f s) := rfl

@[simp] theorem exec_ofExcept (r : Except ε α) (s : σ) :
    exec (ofExcept r : Fallible σ ε α) s = (r, s) := by
  cases r <;> rfl

@[simp] theorem exec_ite (c : Prop) [Decidable c] (m n : Fallible σ ε α) (s : σ) :
    exec (if c then m else n) s = if c then exec m s else exec n s := by
  split <;> rfl

/-! ## Running a sequence -/

/-- A pure sequence returns exactly when its first statement does and the rest does. -/
theorem except_bind_eq_ok {r : Except ε α} {k : α → Except ε β} {b : β} :
    (r >>= k) = .ok b ↔ ∃ a, r = .ok a ∧ k a = .ok b := by
  cases r with
  | error e => simp [bind, Except.bind]
  | ok a => simp [bind, Except.bind]

/-- A pure sequence fails exactly when its first statement does or the rest does. -/
theorem except_bind_eq_error {r : Except ε α} {k : α → Except ε β} {e : ε} :
    (r >>= k) = .error e ↔ r = .error e ∨ ∃ a, r = .ok a ∧ k a = .error e := by
  cases r with
  | error e => simp [bind, Except.bind]
  | ok a => simp [bind, Except.bind]

theorem except_guard_eq_ok {c : Prop} [Decidable c] {e : ε} {r : Except ε α} {a : α} :
    (if c then .error e else r) = .ok a ↔ ¬ c ∧ r = .ok a := by
  split
  · simp [*]
  · simp [*]

theorem except_seq_eq_ok {r s : Except ε Unit} :
    (do r; s) = .ok () ↔ r = .ok () ∧ s = .ok () := by
  cases r with
  | error e => simp [bind, Except.bind]
  | ok u => simp [bind, Except.bind]

theorem exec_bind (m : Fallible σ ε α) (k : α → Fallible σ ε β) (s : σ) :
    exec (m >>= k) s =
      match exec m s with
      | (.ok a, s') => exec (k a) s'
      | (.error e, s') => (.error e, s') := by
  simp only [exec, bind, ExceptT.bind, ExceptT.run, ExceptT.mk, StateT.bind]
  show ExceptT.bindCont k (m s).1 (m s).2 = _
  rcases m s with ⟨_ | a, s'⟩ <;> rfl

theorem exec_bind_ok {m : Fallible σ ε α} {s s' : σ} {a : α} (h : exec m s = (.ok a, s'))
    (k : α → Fallible σ ε β) : exec (m >>= k) s = exec (k a) s' := by
  rw [exec_bind, h]

theorem exec_bind_error {m : Fallible σ ε α} {s s' : σ} {e : ε}
    (h : exec m s = (.error e, s')) (k : α → Fallible σ ε β) :
    exec (m >>= k) s = (.error e, s') := by
  rw [exec_bind, h]

/-- A sequence returns exactly when its first statement does and the rest returns from there. -/
theorem exec_bind_eq_ok {m : Fallible σ ε α} {k : α → Fallible σ ε β} {s t : σ} {b : β} :
    exec (m >>= k) s = (.ok b, t) ↔
      ∃ a s', exec m s = (.ok a, s') ∧ exec (k a) s' = (.ok b, t) := by
  rw [exec_bind]
  rcases exec m s with ⟨e | a, s'⟩
  · simp
  · refine ⟨fun h => ⟨a, s', rfl, h⟩, ?_⟩
    rintro ⟨_, _, ⟨rfl, rfl⟩, h⟩
    exact h

/-- A sequence fails exactly when its first statement does or the rest fails from there. -/
theorem exec_bind_eq_error {m : Fallible σ ε α} {k : α → Fallible σ ε β} {s t : σ} {e : ε} :
    exec (m >>= k) s = (.error e, t) ↔ exec m s = (.error e, t) ∨
      ∃ a s', exec m s = (.ok a, s') ∧ exec (k a) s' = (.error e, t) := by
  rw [exec_bind]
  rcases exec m s with ⟨e' | a, s'⟩
  · simp
  · constructor
    · intro h
      exact .inr ⟨a, s', rfl, h⟩
    · rintro (h | ⟨_, _, ⟨rfl, rfl⟩, h⟩)
      · cases h
      · exact h

theorem exec_map (f : α → β) (m : Fallible σ ε α) (s : σ) :
    exec (f <$> m) s = ((exec m s).1.map f, (exec m s).2) := by
  rw [← bind_pure_comp, exec_bind]
  rcases exec m s with ⟨e | a, s'⟩ <;> rfl

@[simp] theorem exec_zoom (view : σ → τ) (update : τ → σ → σ) (wrap : δ → ε)
    (m : Fallible τ δ α) (s : σ) :
    exec (zoom view update wrap m) s =
      ((exec m (view s)).1.mapError wrap, update (exec m (view s)).2 s) := by
  simp only [zoom, exec_bind, exec_get]
  rcases exec m (view s) with ⟨e | a, t⟩ <;> rfl

@[simp] theorem exec_adapt (wrap : δ → ε) (m : Fallible σ δ α) (s : σ) :
    exec (adapt wrap m) s = ((exec m s).1.mapError wrap, (exec m s).2) := by
  simp [adapt]

theorem except_mapError_eq_ok {r : Except δ α} {wrap : δ → ε} {a : α} :
    r.mapError wrap = .ok a ↔ r = .ok a := by
  cases r with
  | error d => exact ⟨fun h => (nomatch h), fun h => (nomatch h)⟩
  | ok b => exact ⟨fun h => congrArg _ (Except.ok.inj h), fun h => congrArg _ (Except.ok.inj h)⟩

theorem except_mapError_eq_error {r : Except δ α} {wrap : δ → ε} {e : ε} :
    r.mapError wrap = .error e ↔ ∃ d, wrap d = e ∧ r = .error d := by
  cases r with
  | error d =>
      constructor
      · intro h
        exact ⟨d, Except.error.inj h, rfl⟩
      · rintro ⟨_, hwrap, hd⟩
        obtain rfl := Except.error.inj hd
        exact congrArg _ hwrap
  | ok b =>
      constructor
      · intro h
        cases h
      · rintro ⟨_, -, hd⟩
        cases hd

theorem exec_adapt_eq_ok {m : Fallible σ δ α} {wrap : δ → ε} {s t : σ} {a : α} :
    exec (adapt wrap m) s = (.ok a, t) ↔ exec m s = (.ok a, t) := by
  rw [exec_adapt, Prod.mk.injEq, except_mapError_eq_ok]
  constructor
  · rintro ⟨hr, ht⟩
    exact Prod.ext hr ht
  · intro h
    exact ⟨congrArg Prod.fst h, congrArg Prod.snd h⟩

theorem exec_adapt_eq_error {m : Fallible σ δ α} {wrap : δ → ε} {s t : σ} {e : ε} :
    exec (adapt wrap m) s = (.error e, t) ↔ ∃ d, wrap d = e ∧ exec m s = (.error d, t) := by
  rw [exec_adapt, Prod.mk.injEq, except_mapError_eq_error]
  constructor
  · rintro ⟨⟨d, hwrap, hr⟩, ht⟩
    exact ⟨d, hwrap, Prod.ext hr ht⟩
  · rintro ⟨d, hwrap, h⟩
    exact ⟨⟨d, hwrap, congrArg Prod.fst h⟩, congrArg Prod.snd h⟩

@[simp] theorem exec_attempt (m : Fallible σ δ α) (s : σ) :
    exec (attempt m : Fallible σ ε (Except δ α)) s = (.ok (exec m s).1, (exec m s).2) := rfl

/-! ## Two runs side by side -/

/-- `m'` does on the view of a state what `m` does on the state. -/
def Follows (view : σ → τ) (m : Fallible σ ε α) (m' : Fallible τ ε α) : Prop :=
  ∀ s, exec m' (view s) = ((exec m s).1, view (exec m s).2)

section

variable {view : σ → τ}

theorem Follows.exec_eq {m : Fallible σ ε α} {m' : Fallible τ ε α} (h : Follows view m m')
    {s s' : σ} {outcome : Except ε α} (hexec : exec m s = (outcome, s')) :
    exec m' (view s) = (outcome, view s') := by
  rw [h s, hexec]

theorem follows_pure (a : α) : Follows view (pure a : Fallible σ ε α) (pure a) := fun _ => rfl

theorem follows_throw (e : ε) : Follows view (throw e : Fallible σ ε α) (throw e) := fun _ => rfl

theorem follows_ofExcept (r : Except ε α) :
    Follows view (ofExcept r : Fallible σ ε α) (ofExcept r) := by
  intro s
  rw [exec_ofExcept, exec_ofExcept]

theorem follows_modify {f : σ → σ} {f' : τ → τ} (h : ∀ s, f' (view s) = view (f s)) :
    Follows view (modify f : Fallible σ ε PUnit) (modify f') := by
  intro s
  rw [exec_modify, exec_modify, h]

theorem follows_bind {m : Fallible σ ε α} {m' : Fallible τ ε α} {k : α → Fallible σ ε β}
    {k' : α → Fallible τ ε β} (hm : Follows view m m') (hk : ∀ a, Follows view (k a) (k' a)) :
    Follows view (m >>= k) (m' >>= k') := by
  intro s
  rw [exec_bind, exec_bind, hm s]
  cases exec m s with
  | mk outcome s' =>
      cases outcome with
      | error e => rfl
      | ok a => exact hk a s'

/-- What was read of the state may be used on either side. -/
theorem follows_get_bind {k : σ → Fallible σ ε β} {k' : τ → Fallible τ ε β}
    (hk : ∀ s, Follows view (k s) (k' (view s))) : Follows view (get >>= k) (get >>= k') := by
  intro s
  rw [exec_bind, exec_bind, exec_get, exec_get]
  exact hk s s

theorem follows_attempt {m : Fallible σ δ α} {m' : Fallible τ δ α} (hm : Follows view m m') :
    Follows view (attempt m : Fallible σ ε (Except δ α)) (attempt m') := by
  intro s
  rw [exec_attempt, exec_attempt, hm s]

theorem follows_zoom {σ' τ' : Type} {part : σ → σ'} {part' : τ → τ'} {view' : σ' → τ'}
    {update : σ' → σ → σ} {update' : τ' → τ → τ} {wrap : δ → ε} {m : Fallible σ' δ α}
    {m' : Fallible τ' δ α} (hm : Follows view' m m') (hpart : ∀ s, part' (view s) = view' (part s))
    (hupdate : ∀ t s, update' (view' t) (view s) = view (update t s)) :
    Follows view (zoom part update wrap m) (zoom part' update' wrap m') := by
  intro s
  rw [exec_zoom, exec_zoom, hpart, hm, hupdate]

end

end Fallible
