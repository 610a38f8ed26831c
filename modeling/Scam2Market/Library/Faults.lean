import Scam2Market.Library.Procedure

/-!
# Operations that may fail

An operation on a remote store is carried out and acknowledged, or refused, or carried out without the
caller learning of it.  The caller sees the same exception in the last two cases.

A database refuses a row that violates a constraint (`Violation`).
-/

namespace Scam2Market
namespace Library

/-- What befalls an operation; a fault carries what the caller sees. -/
inductive Fault (ε : Type) where
  | absent
  | refused (e : ε)
  | unacknowledged (e : ε)
  deriving DecidableEq

namespace Fault

variable {σ ε α β : Type}

/-- Whether the operation is not carried out. -/
def isRefused : Fault ε → Bool
  | refused _ => true
  | _ => false

/-- Whether the operation is carried out and acknowledged. -/
def isAbsent : Fault ε → Bool
  | absent => true
  | _ => false

/-- An operation under a fault. -/
def on (fault : Fault ε) (p : Procedure σ ε α) : Procedure σ ε α :=
  match fault with
  | absent => p
  | refused e => Procedure.raise e
  | unacknowledged e => do
    let _ ← p
    Procedure.raise e

theorem eq_absent_of_isAbsent {fault : Fault ε} (h : fault.isAbsent = true) : fault = absent := by
  cases fault with
  | absent => rfl
  | refused e => exact absurd h (by simp [isAbsent])
  | unacknowledged e => exact absurd h (by simp [isAbsent])

@[simp] theorem on_absent (p : Procedure σ ε α) : (absent : Fault ε).on p = p := rfl

/-- An operation under a fault returns only if there is none. -/
theorem on_eq_ok {fault : Fault ε} {p : Procedure σ ε α} {s s' : σ} {a : α} :
    fault.on p s = (.ok a, s') ↔ fault.isAbsent = true ∧ p s = (.ok a, s') := by
  cases fault with
  | absent => simp [isAbsent]
  | refused e => simp [on, isAbsent]
  | unacknowledged e =>
    refine iff_of_false (fun h => ?_) (by simp [isAbsent])
    obtain ⟨_, _, -, hraise⟩ := Procedure.bind_eq_ok.mp h
    simp at hraise

/-- An operation that is not refused is carried out. -/
theorem on_state (fault : Fault ε) (p : Procedure σ ε α) (s : σ) :
    (fault.on p s).2 = if fault.isRefused then s else (p s).2 := by
  cases fault with
  | absent => rfl
  | refused e => rfl
  | unacknowledged e =>
    show ((p >>= fun _ => Procedure.raise e) s).2 = (p s).2
    rw [Procedure.bind_apply]
    rcases p s with ⟨outcome | outcome, s'⟩ <;> rfl

/-- What follows an operation is reached only if the operation is acknowledged. -/
theorem on_bind_of_faulty {fault : Fault ε} (h : fault.isAbsent = false) (p : Procedure σ ε α)
    (f : α → Procedure σ ε β) (s : σ) : ((fault.on p >>= f) s).2 = (fault.on p s).2 := by
  rw [Procedure.bind_apply]
  cases hp : fault.on p s with
  | mk outcome s' =>
    cases outcome with
    | error e => rfl
    | ok a => exact absurd (on_eq_ok.mp hp).1 (by simp [h])

end Fault

/-- What a database refuses a row for, with the name of the constraint. -/
inductive Violation where
  | unique (constraint : String)
  | foreignKey (constraint : String)

/-- The violations of a unique key. -/
def Violation.isUnique : Violation → Bool
  | unique _ => true
  | foreignKey _ => false

def Violation.constraint : Violation → String
  | unique constraint | foreignKey constraint => constraint

end Library
end Scam2Market
