/-!
# Binary32 numbers

Command axes, motor speeds and pulse widths are 32-bit binary floating-point numbers.  The finite
magnitudes are numbered in increasing order, and a finite number is a sign and such a rank, so
neighbouring ranks are neighbouring numbers and every comparison is a comparison of integers.
Exact values are counted in units of `2 ^ -149`, the smallest positive magnitude.
`ofRatio` rounds an exact quotient to the nearest number; every arithmetic operation is one exact
computation followed by one such rounding.
-/

namespace Multirotor

/-- A 32-bit binary floating-point number.  All NaNs are one value, zeros keep their sign. -/
inductive Binary32 where
  | nan
  /-- An infinity with its sign. -/
  | infinity (negative : Bool)
  /-- A finite number: its sign and the rank of its magnitude among the finite magnitudes. -/
  | finite (negative : Bool) (rank : Fin 0x7f800000)
  deriving DecidableEq

namespace Binary32

/-- The magnitude at a rank, in units of `2 ^ -149`: below rank `2 ^ 23` the rank itself, and then
`2 ^ 23` magnitudes for each power of two, twice as far apart each time. -/
def magnitude (rank : Nat) : Nat :=
  let binade := rank / 0x800000
  let step := rank % 0x800000
  if binade = 0 then step else (0x800000 + step) <<< (binade - 1)

/-- The integer nearest to `num / den`, the even one of two that are equally near. -/
def nearestEven (num den : Nat) : Nat :=
  let floor := num / den
  let rest := num % den
  if 2 * rest < den then floor
  else if den < 2 * rest then floor + 1
  else floor + floor % 2

/-- The rank whose magnitude is nearest to `num / den` units, the even rank on a tie.  The quotient
is rounded to a multiple of the spacing `2 ^ shift` that holds around it; a result beyond the
finite ranks stands for a magnitude that overflows. -/
def nearestRank (num den : Nat) : Nat :=
  let shift := (num / den).log2 - 23
  nearestEven num (den <<< shift) + shift * 0x800000

/-- The number nearest to `num / den` units with the given sign; infinite when that magnitude
overflows. -/
def ofRatio (negative : Bool) (num den : Nat) : Binary32 :=
  if h : nearestRank num den < 0x7f800000 then .finite negative ⟨nearestRank num den, h⟩
  else .infinity negative

/-- The number nearest to a natural number. -/
def ofNat (n : Nat) : Binary32 := ofRatio false (n <<< 149) 1

/-- The number nearest to `mantissa * 10 ^ exponent`, where `below` makes the exponent negative. -/
def ofDecimal (mantissa : Nat) (below : Bool) (exponent : Nat) : Binary32 :=
  if below then ofRatio false (mantissa <<< 149) (Nat.pow 10 exponent)
  else ofRatio false ((mantissa * Nat.pow 10 exponent) <<< 149) 1

instance (n : Nat) : OfNat Binary32 n := ⟨ofNat n⟩

instance : OfScientific Binary32 := ⟨ofDecimal⟩

instance : Inhabited Binary32 := ⟨0⟩

/-- The exact value of a finite number in units of `2 ^ -149`. -/
def units (negative : Bool) (rank : Nat) : Int :=
  if negative then -(magnitude rank : Int) else magnitude rank

/-- The place of a number in the order of all numbers, `none` for NaN.  Both zeros share place 0 and
the infinities come right after the last finite number on their side. -/
def place? : Binary32 → Option Int
  | nan => none
  | infinity true => some (-0x7f800000)
  | infinity false => some 0x7f800000
  | finite true rank => some (-(rank.val : Int))
  | finite false rank => some rank.val

/-- The strict order of numbers; NaN is not below or above anything. -/
def Less (x y : Binary32) : Prop :=
  match x.place?, y.place? with
  | some a, some b => a < b
  | _, _ => False

/-- The weak order of numbers, in which both zeros are equal; NaN is not related to anything. -/
def AtMost (x y : Binary32) : Prop :=
  match x.place?, y.place? with
  | some a, some b => a ≤ b
  | _, _ => False

instance : LT Binary32 := ⟨Less⟩

instance : LE Binary32 := ⟨AtMost⟩

instance (x y : Binary32) : Decidable (x < y) := by
  show Decidable (Less x y)
  unfold Less
  split <;> infer_instance

instance (x y : Binary32) : Decidable (x ≤ y) := by
  show Decidable (AtMost x y)
  unfold AtMost
  split <;> infer_instance

/-- The number with the given interchange bits: sign, exponent and fraction. -/
def ofBits (bits : UInt32) : Binary32 :=
  let negative := decide (0x80000000 ≤ bits)
  let rank := bits.toNat % 0x80000000
  if h : rank < 0x7f800000 then .finite negative ⟨rank, h⟩
  else if rank = 0x7f800000 then .infinity negative
  else .nan

/-- The interchange bits of a number; NaN is written as the quiet NaN without payload. -/
def toBits : Binary32 → UInt32
  | nan => 0x7fc00000
  | infinity negative => (if negative then 0x80000000 else 0) + 0x7f800000
  | finite negative rank => (if negative then 0x80000000 else 0) + UInt32.ofNat rank

/-- Whether the sign of a number is negative; NaN has none. -/
def isNegative : Binary32 → Bool
  | nan => false
  | infinity negative => negative
  | finite negative _ => negative

/-- The strict order is the order of the places. -/
theorem lt_iff {x y : Binary32} :
    x < y ↔ ∃ a b, x.place? = some a ∧ y.place? = some b ∧ a < b := by
  show Less x y ↔ _
  unfold Less
  split
  · rename_i a b hx hy
    simp [hx, hy]
  · rename_i h
    constructor
    · exact False.elim
    · rintro ⟨a, b, hx, hy, _⟩
      exact h a b hx hy

/-- The weak order is the order of the places. -/
theorem le_iff {x y : Binary32} :
    x ≤ y ↔ ∃ a b, x.place? = some a ∧ y.place? = some b ∧ a ≤ b := by
  show AtMost x y ↔ _
  unfold AtMost
  split
  · rename_i a b hx hy
    simp [hx, hy]
  · rename_i h
    constructor
    · exact False.elim
    · rintro ⟨a, b, hx, hy, _⟩
      exact h a b hx hy

/-- A number is determined by its interchange bits. -/
theorem ofBits_toBits (x : Binary32) : ofBits x.toBits = x := by
  cases x with
  | nan => decide
  | infinity negative => cases negative <;> decide
  | finite negative rank =>
    have bound := rank.isLt
    have small : (UInt32.ofNat rank).toNat = rank := by
      rw [UInt32.toNat_ofNat']
      omega
    cases negative with
    | false =>
      have bits : (toBits (finite false rank)).toNat = rank := by simp [toBits, small]
      have sign : ¬ 0x80000000 ≤ toBits (finite false rank) := by
        rw [UInt32.le_iff_toNat_le, bits]
        simp
        omega
      have rest : (toBits (finite false rank)).toNat % 0x80000000 = rank := by
        rw [bits]
        omega
      simp [ofBits, sign, rest, bound]
    | true =>
      have bits : (toBits (finite true rank)).toNat = 0x80000000 + rank := by
        simp [toBits, UInt32.toNat_add, small]
        omega
      have sign : 0x80000000 ≤ toBits (finite true rank) := by
        rw [UInt32.le_iff_toNat_le, bits]
        simp
      have rest : (toBits (finite true rank)).toNat % 0x80000000 = rank := by
        rw [bits]
        omega
      simp [ofBits, sign, rest, bound]

end Binary32

end Multirotor
