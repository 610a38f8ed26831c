import Mathlib.Data.Nat.Cast.Defs

/-!
# Numerals

A numeral of an arbitrary field stands for the natural number when that number is at least two.  The
definitions over a field take the proofs of it from here, by name, so that each of them is the same in every
module.
-/

namespace Scam2Market
namespace Library

theorem atLeastTwo_two : Nat.AtLeastTwo 2 := inferInstance

theorem atLeastTwo_five : Nat.AtLeastTwo 5 := inferInstance

theorem atLeastTwo_ten : Nat.AtLeastTwo 10 := inferInstance

theorem atLeastTwo_hundred : Nat.AtLeastTwo 100 := inferInstance

end Library
end Scam2Market
