import Multirotor.Binary32.Basic

/-!
# Shortest decimals

The decimal that stands for a positive binary32 number in text: of the decimals that read back to
the number, one with the fewest digits, and among those the nearest.  A decimal reads back when it
lies between the midpoints to the two neighbouring numbers; a midpoint itself belongs to the number
of even rank.  All comparisons are exact.
-/

namespace Multirotor

/-- The decimal number `digits * 10 ^ exponent`. -/
structure Decimal where
  /-- The significant digits, read as one natural number. -/
  digits : Nat
  /-- The power of ten of the last digit. -/
  exponent : Int
  deriving DecidableEq

namespace Decimal

/-- Compares a decimal with `halves * 2 ^ -150`, exactly. -/
def compareHalves (d : Decimal) (halves : Nat) : Ordering :=
  compare ((d.digits * Nat.pow 10 d.exponent.toNat) <<< 150)
    (halves * Nat.pow 10 (-d.exponent).toNat)

/-- Whether the decimal reads back to the number of the given rank.  In half units the midpoints to
the neighbours are the sums of neighbouring magnitudes. -/
def ReadsBack (rank : Nat) (d : Decimal) : Prop :=
  let below := Binary32.magnitude (rank - 1) + Binary32.magnitude rank
  let above := Binary32.magnitude rank + Binary32.magnitude (rank + 1)
  (d.compareHalves below = .gt ∨ rank % 2 = 0 ∧ d.compareHalves below = .eq) ∧
    (d.compareHalves above = .lt ∨ rank % 2 = 0 ∧ d.compareHalves above = .eq)

instance (rank : Nat) (d : Decimal) : Decidable (ReadsBack rank d) := by
  unfold ReadsBack
  infer_instance

/-- The number of decimal digits before the point, or minus the number of zeros right after it: the
least `k` such that the magnitude at `rank` is below `10 ^ k`, for a rank above 0. -/
def scale (rank : Nat) : Int :=
  ((Nat.toDigits 10 ((Binary32.magnitude rank * Nat.pow 10 45) >>> 149)).length : Int) - 45

/-- The best decimal on the grid of step `10 ^ exponent`: of the two grid points around the number
those that read back, the nearer of two, and the upper of two that are equally near. -/
def onGrid? (rank : Nat) (exponent : Int) : Option Decimal :=
  let lower : Decimal :=
    ⟨Binary32.magnitude rank * Nat.pow 10 (-exponent).toNat / (Nat.pow 10 exponent.toNat <<< 149),
      exponent⟩
  let upper : Decimal := ⟨lower.digits + 1, exponent⟩
  if ReadsBack rank lower then
    if ReadsBack rank upper ∧
        (⟨lower.digits + upper.digits, exponent⟩ : Decimal).compareHalves
          (4 * Binary32.magnitude rank) ≠ .gt then some upper
    else some lower
  else if ReadsBack rank upper then some upper
  else none

/-- The exact decimal value of the magnitude at a rank. -/
def exact (rank : Nat) : Decimal := ⟨Binary32.magnitude rank * Nat.pow 5 149, -149⟩

/-- Moves trailing zeros from the digits to the exponent. -/
def dropZeros (d : Decimal) : Decimal :=
  if h : d.digits ≠ 0 ∧ d.digits % 10 = 0 then dropZeros ⟨d.digits / 10, d.exponent + 1⟩ else d
termination_by d.digits
decreasing_by exact Nat.div_lt_self (Nat.pos_of_ne_zero h.1) (by decide)

/-- The shortest decimal for the positive number of the given rank.  Nine digits always suffice. -/
def shortest (rank : Nat) : Decimal :=
  let grids := (List.range 9).map fun (extra : Nat) => scale rank - 1 - (extra : Int)
  ((grids.findSome? (onGrid? rank)).getD (exact rank)).dropZeros

end Decimal

end Multirotor
