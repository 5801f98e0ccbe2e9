/-!
# Integers on the command line

Reading whole numbers in decimal with an optional sign.  The text is read from left to right, and
the first character that is no digit or takes the number past the limit decides what is wrong.
-/

namespace Multirotor

/-- Why a text is no number. -/
inductive IntegerError where
  | empty
  | invalidDigit
  | tooLarge
  | tooSmall
  deriving DecidableEq

/-- The fault in words. -/
def IntegerError.message : IntegerError → String
  | empty => "cannot parse integer from empty string"
  | invalidDigit => "invalid digit found in string"
  | tooLarge => "number too large to fit in target type"
  | tooSmall => "number too small to fit in target type"

namespace Integer

/-- Reads digits behind the number `value` as long as the number stays within the limit. -/
def readDigits (limit : Nat) (overflow : IntegerError) (value : Nat) :
    List Char → Except IntegerError Nat
  | [] => .ok value
  | c :: rest =>
    if c.isDigit then
      let next := value * 10 + (c.toNat - '0'.toNat)
      if limit < next then .error overflow else readDigits limit overflow next rest
    else .error .invalidDigit

/-- Reads at least one digit. -/
def readNumber (limit : Nat) (overflow : IntegerError) : List Char → Except IntegerError Nat
  | [] => .error .invalidDigit
  | digits => readDigits limit overflow 0 digits

/-- Reads a natural number of at most `limit`; a plus sign is allowed. -/
def readUnsigned (limit : Nat) (text : String) : Except IntegerError Nat :=
  match text.toList with
  | [] => .error .empty
  | '+' :: digits => readNumber limit .tooLarge digits
  | digits => readNumber limit .tooLarge digits

/-- Reads an integer of 64 bits with an optional sign. -/
def readSigned (text : String) : Except IntegerError Int :=
  match text.toList with
  | [] => .error .empty
  | '+' :: digits => (readNumber 0x7fffffffffffffff .tooLarge digits).map Int.ofNat
  | '-' :: digits => (readNumber 0x8000000000000000 .tooSmall digits).map fun n => -Int.ofNat n
  | digits => (readNumber 0x7fffffffffffffff .tooLarge digits).map Int.ofNat

end Integer

end Multirotor
