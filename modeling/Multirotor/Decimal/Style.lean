import Multirotor.Decimal.Shortest

/-!
# Writing numbers

How a binary32 number appears in messages.  `Style` holds the decisions of a text format, and two
styles are in use: `plain` for measured quantities and `diagnostic` for the fields of a value.
-/

namespace Multirotor

/-- The layout decisions for a decimal in text. -/
structure Decimal.Style where
  /-- Whole numbers keep a point and a zero, as in `12.0`. -/
  keepsPoint : Bool
  /-- The exponents of the leading digit that are written positionally, from the first bound and
  below the second; `none` when all are. -/
  positional? : Option (Int × Int)
  deriving DecidableEq

namespace Decimal.Style

/-- Always positional, and whole numbers without a point. -/
def plain : Style := ⟨false, none⟩

/-- Positional from `0.0001` up to and without `10 ^ 16`, and whole numbers with a point. -/
def diagnostic : Style := ⟨true, some (-4, 16)⟩

end Decimal.Style

namespace Decimal

/-- Whether the style writes a decimal with this exponent of the leading digit positionally. -/
def Style.IsPositional (style : Style) (leading : Int) : Prop :=
  match style.positional? with
  | none => True
  | some (first, bound) => first ≤ leading ∧ leading < bound

instance (style : Style) (leading : Int) : Decidable (style.IsPositional leading) := by
  unfold Style.IsPositional
  split <;> infer_instance

def zeros (count : Nat) : String := "".pushn '0' count

/-- The decimal with a point where it belongs. -/
def positionalText (style : Style) (d : Decimal) : String :=
  let digits := toString d.digits
  let fraction := (-d.exponent).toNat
  if 0 ≤ d.exponent then
    digits ++ zeros d.exponent.toNat ++ (if style.keepsPoint then ".0" else "")
  else if fraction < digits.length then
    let whole := digits.toList.take (digits.length - fraction)
    let rest := digits.toList.drop (digits.length - fraction)
    String.ofList whole ++ "." ++ String.ofList rest
  else
    "0." ++ zeros (fraction - digits.length) ++ digits

/-- The decimal with one digit before the point and the power of ten behind the letter `e`. -/
def scientificText (d : Decimal) (leading : Int) : String :=
  match (toString d.digits).toList with
  | [] => ""
  | [digit] => String.singleton digit ++ "e" ++ toString leading
  | digit :: rest => String.singleton digit ++ "." ++ String.ofList rest ++ "e" ++ toString leading

/-- The decimal laid out in a style. -/
def text (style : Style) (d : Decimal) : String :=
  let leading := d.exponent + (toString d.digits).length - 1
  if style.IsPositional leading then d.positionalText style else d.scientificText leading

end Decimal

namespace Binary32

/-- The text of a number in a style: its shortest decimal with a sign, also on a negative zero. -/
def text (style : Decimal.Style) : Binary32 → String
  | nan => "NaN"
  | infinity negative => if negative then "-inf" else "inf"
  | finite negative rank =>
    let magnitude :=
      if rank.val = 0 then Decimal.text style ⟨0, 0⟩ else (Decimal.shortest rank).text style
    if negative then "-" ++ magnitude else magnitude

end Binary32

end Multirotor
