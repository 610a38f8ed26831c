import Mathlib.Tactic.Common

/-!
# Errors of requests

What the handlers of the API raise.
-/

namespace Scam2Market
namespace Api

/-- What a request raises: an error of the API, or one of the database or of Python that the API does
not handle. -/
inductive RequestError where
  | httpException (statusCode : ℕ) (detail : String)
  | integrityError (constraint : String)
  | dataError (column : String)
  | typeError (operation : String)
  | staleDataError (table : String)
  deriving DecidableEq, Repr

/-- `raise HTTPException(...)` if the condition is met. -/
def raiseIf (condition : Prop) [Decidable condition] (error : RequestError) :
    Except RequestError Unit :=
  if condition then .error error else .ok ()

theorem raiseIf_eq_ok {condition : Prop} [Decidable condition] {error : RequestError} {u : Unit} :
    raiseIf condition error = .ok u ↔ ¬ condition := by
  rw [raiseIf]
  split_ifs with h
  · exact iff_of_false (fun h => by cases h) (not_not.mpr h)
  · exact iff_of_true rfl h

end Api
end Scam2Market
