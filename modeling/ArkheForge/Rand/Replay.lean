/-
  Compute bodies that replay draws.

  The two recording actions of the examples check their own fields, recomputing digests
  and replaying a sampler, and then emit one event. Neither reads the view, so what they do
  is a verdict on the action alone (`exec_checkThenEmit`). A replay may draw for ever; then
  the body does not return.
-/
import ArkheForge.Core.Plan
import ArkheForge.Rand.Range

namespace ArkheForge.Rand

open ArkheForge.Core BigEndian Fallible

/-- The bytes of a text. -/
def textBytes (s : String) : Bytes := s.toUTF8.data.toList

/-- `blake3::Hasher` over what it was updated with, as an array. -/
def digest [Blake3Hash] (message : Bytes) : Vector UInt8 32 := digestArray (Blake3Hash.hash message)

/-- Why a body that replays draws ends without a result: an error of the action, or no
    return at all. -/
inductive Fault
  | action (error : ActionError)
  | stopped (stop : Stop)
  deriving DecidableEq, Repr

namespace Fault

/-- The `?` on a check of the action. -/
def ofAction {α : Type} : Except ActionError α → Except Fault α
  | .ok a => .ok a
  | .error e => .error (.action e)

/-- A replay as part of a body. -/
def ofReplay {α : Type} : Except Stop α → Except Fault α
  | .ok a => .ok a
  | .error stop => .error (.stopped stop)

theorem ofAction_eq_ok {α : Type} {r : Except ActionError α} {a : α} :
    ofAction r = .ok a ↔ r = .ok a := by
  cases r <;> simp [ofAction]

theorem ofAction_ne_stopped {α : Type} {r : Except ActionError α} {stop : Stop} :
    ofAction r ≠ .error (.stopped stop) := by
  cases r <;> simp [ofAction]

theorem ofReplay_eq_stopped {α : Type} {r : Except Stop α} {stop : Stop} :
    ofReplay r = .error (.stopped stop) ↔ r = .error stop := by
  cases r <;> simp [ofReplay]

theorem ofReplay_eq_ok {α : Type} {r : Except Stop α} {a : α} :
    ofReplay r = .ok a ↔ r = .ok a := by
  cases r <;> simp [ofReplay]

end Fault

/-- `InvalidInput`. -/
def invalid {α : Type} (reason : String) : Except Fault α := .error (.action (.invalidInput reason))

/-- Return `InvalidInput` unless the condition holds. -/
def require (c : Prop) [Decidable c] (reason : String) : Except Fault Unit :=
  if c then .ok () else invalid reason

theorem require_ne_stopped {c : Prop} [Decidable c] {reason : String} {stop : Stop} :
    require c reason ≠ .error (.stopped stop) := by
  unfold require invalid
  split
  · simp
  · simp

theorem require_eq_ok {c : Prop} [Decidable c] {reason : String} {u : Unit} :
    require c reason = .ok u ↔ c := by
  unfold require invalid
  split
  · next h => simp [h]
  · next h => simp [h]

section

variable {E : Type} [ArkheEvent E] [Postcard E]

/-- The context with one event more. -/
def withEvent (ctx : ActionContext) (event : E) : ActionContext :=
  { ctx with
    eventSeq := saturatingSucc ctx.eventSeq
    events := ctx.events ++ [⟨ArkheEvent.typeCode E, ctx.eventSeq, ctx.tick, encoded event⟩]
    ops := ctx.ops ++ [.emitEvent none (ArkheEvent.typeCode E) (encoded event)] }

/-- The checks of an action, then its event. -/
def checkThenEmit (checks : Except Fault Unit) (event : Tick → E) :
    Fallible ActionContext Fault Unit := do
  ofExcept checks
  let ctx ← get
  adapt Fault.action (emitEvent (event ctx.tick))

theorem exec_checkThenEmit (h : Postcard.Total E) (checks : Except Fault Unit) (event : Tick → E)
    (ctx : ActionContext) :
    (checkThenEmit checks event).exec ctx =
      (checks, if checks = .ok () then withEvent ctx (event ctx.tick) else ctx) := by
  unfold checkThenEmit
  rw [exec_bind, exec_ofExcept]
  cases checks with
  | error fault => rfl
  | ok u =>
      have hemit : (adapt Fault.action (emitEvent (event ctx.tick))).exec ctx =
          (.ok (), withEvent ctx (event ctx.tick)) := by
        unfold adapt
        rw [exec_zoom]
        simp only [id, exec_emitEvent h]
        rfl
      exact hemit

end

end ArkheForge.Rand
