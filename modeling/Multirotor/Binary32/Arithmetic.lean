import Multirotor.Binary32.Basic

/-!
# Arithmetic of binary32 numbers

Each operation computes the exact result in units of `2 ^ -149` and rounds once.  A sum that
cancels is a positive zero, products and quotients multiply the signs, and an operation without a
value (such as infinity minus infinity) gives NaN.
-/

namespace Multirotor.Binary32

def neg : Binary32 → Binary32
  | nan => nan
  | infinity negative => infinity (!negative)
  | finite negative rank => finite (!negative) rank

def abs : Binary32 → Binary32
  | nan => nan
  | infinity _ => infinity false
  | finite _ rank => finite false rank

/-- The magnitude of the first number with the sign of the second. -/
def copySign (x y : Binary32) : Binary32 :=
  if y.isNegative then x.abs.neg else x.abs

/-- The number nearest to an exact value in units of `2 ^ -149`, where a zero has the sign
`zeroSign`. -/
def ofUnits (zeroSign : Bool) (value : Int) : Binary32 :=
  ofRatio (if value = 0 then zeroSign else decide (value < 0)) value.natAbs 1

/-- The sum, rounded once. -/
def add : Binary32 → Binary32 → Binary32
  | nan, _ => nan
  | _, nan => nan
  | infinity s, infinity t => if s = t then infinity s else nan
  | infinity s, finite _ _ => infinity s
  | finite _ _, infinity t => infinity t
  | finite s a, finite t b => ofUnits (s && t) (units s a + units t b)

/-- The difference, rounded once. -/
def sub (x y : Binary32) : Binary32 := x.add y.neg

/-- The product, rounded once. -/
def mul : Binary32 → Binary32 → Binary32
  | nan, _ => nan
  | _, nan => nan
  | infinity s, infinity t => infinity (s != t)
  | infinity s, finite t b => if b.val = 0 then nan else infinity (s != t)
  | finite s a, infinity t => if a.val = 0 then nan else infinity (s != t)
  | finite s a, finite t b => ofRatio (s != t) (magnitude a * magnitude b) (1 <<< 149)

/-- The quotient, rounded once. -/
def div : Binary32 → Binary32 → Binary32
  | nan, _ => nan
  | _, nan => nan
  | infinity _, infinity _ => nan
  | infinity s, finite t _ => infinity (s != t)
  | finite s _, infinity t => finite (s != t) 0
  | finite s a, finite t b =>
    if b.val = 0 then
      if a.val = 0 then nan else infinity (s != t)
    else
      ofRatio (s != t) (magnitude a <<< 149) (magnitude b)

instance : Neg Binary32 := ⟨neg⟩

instance : Add Binary32 := ⟨add⟩

instance : Sub Binary32 := ⟨sub⟩

instance : Mul Binary32 := ⟨mul⟩

instance : Div Binary32 := ⟨div⟩

/-- Negation only turns the sign of a rounded quotient. -/
theorem neg_ofRatio (negative : Bool) (num den : Nat) :
    -ofRatio negative num den = ofRatio (!negative) num den := by
  change (ofRatio negative num den).neg = _
  rw [ofRatio, ofRatio]
  split <;> rfl

/-- The lesser of two numbers; NaN gives way to the other. -/
def least (x y : Binary32) : Binary32 :=
  if y = nan ∨ x < y then x else y

/-- The greater of two numbers; NaN gives way to the other. -/
def greatest (x y : Binary32) : Binary32 :=
  if x = nan ∨ x < y then y else x

/-- The member of the unit interval nearest to a number.  Negative zero and NaN stay as they are. -/
def clampUnit (x : Binary32) : Binary32 :=
  if x < 0 then 0 else if 1 < x then 1 else x

end Multirotor.Binary32
