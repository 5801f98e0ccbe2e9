/-!
# Plain text

What is left of a text when everything that controls a terminal is taken out: control characters
except white space, and control sequences.  A sequence begins with the escape character; the
character behind it tells of what kind it is and how it ends.  An escape character begins a new
sequence everywhere, and the characters CAN and SUB break every sequence off.

Text without control characters stays as it is (`plain_eq_self`).
-/

namespace Multirotor.Terminal

/-- What is being read. -/
inductive Mode where
  /-- Text outside of sequences. -/
  | text
  /-- The character that tells of what kind a sequence is. -/
  | escape
  /-- An escape sequence with intermediate characters, up to its final character. -/
  | intermediate
  /-- A control sequence, up to its final character. -/
  | controlSequence
  /-- A device control string before its first parameter. -/
  | deviceHead
  /-- A device control string in its parameters. -/
  | deviceParameters
  /-- A device control string in the intermediate characters before its data. -/
  | deviceIntermediates
  /-- A system command, up to the bell. -/
  | systemCommand
  /-- Data up to the string terminator. -/
  | controlString
  deriving DecidableEq

/-- White space other than the space itself. -/
def IsBlank (c : Char) : Prop := c = '\t' ∨ c = '\n' ∨ c = '\x0c' ∨ c = '\r'

instance (c : Char) : Decidable (IsBlank c) := inferInstanceAs (Decidable (_ ∨ _))

/-- A character that text shows. -/
def IsVisible (c : Char) : Prop := (' ' ≤ c ∧ c ≠ '\x7f') ∨ IsBlank c

instance (c : Char) : Decidable (IsVisible c) := inferInstanceAs (Decidable (_ ∨ _))

namespace Mode

/-- The kind of a sequence by the character behind the escape character. -/
def ofIntroducer (c : Char) : Mode :=
  if c = '[' then controlSequence
  else if c = ']' then systemCommand
  else if c = 'P' then deviceHead
  else if c = 'X' ∨ c = '^' ∨ c = '_' then controlString
  else if ' ' ≤ c ∧ c ≤ '/' then intermediate
  else if '0' ≤ c ∧ c ≤ '~' then text
  else escape

/-- What is read after a character of a sequence.  The string terminator is looked for among the
encoded bytes, so it also counts inside another character. -/
def next (mode : Mode) (c : Char) : Mode :=
  if c = '\x18' ∨ c = '\x1a' then text
  else if c = '\x1b' then escape
  else
    match mode with
    | text => text
    | escape => ofIntroducer c
    | intermediate => if '0' ≤ c ∧ c ≤ '~' then text else intermediate
    | controlSequence => if '@' ≤ c ∧ c ≤ '~' then text else controlSequence
    | deviceHead =>
      if ' ' ≤ c ∧ c ≤ '/' then deviceIntermediates
      else if '0' ≤ c ∧ c ≤ '?' then deviceParameters
      else if '@' ≤ c ∧ c ≤ '~' then controlString
      else deviceHead
    | deviceParameters =>
      if ' ' ≤ c ∧ c ≤ '/' then deviceIntermediates
      else if '<' ≤ c ∧ c ≤ '~' then controlString
      else deviceParameters
    | deviceIntermediates => if '0' ≤ c ∧ c ≤ '~' then controlString else deviceIntermediates
    | systemCommand => if c = '\x07' then text else systemCommand
    | controlString => if 0x9c ∈ String.utf8EncodeChar c then text else controlString

/-- White space inside a sequence of this kind is shown. -/
def ShowsBlanks (mode : Mode) : Prop :=
  mode = escape ∨ mode = intermediate ∨ mode = controlSequence

instance (mode : Mode) : Decidable mode.ShowsBlanks := inferInstanceAs (Decidable (_ ∨ _))

end Mode

/-- A reader of terminal text. -/
structure Reader where
  /-- What is being read. -/
  mode : Mode := .text
  /-- The sequence was interrupted by white space: what follows is text, and the sequence goes on at
  the next control character unless a character beyond ASCII comes first. -/
  interrupted : Bool := false
  deriving DecidableEq

namespace Reader

/-- The reader is in text, be it only that a sequence was interrupted. -/
def InText (r : Reader) : Prop := r.mode = .text ∨ r.interrupted = true

instance (r : Reader) : Decidable r.InText := inferInstanceAs (Decidable (_ ∨ _))

/-- A character is part of the plain text. -/
def Shows (r : Reader) (c : Char) : Prop :=
  if r.InText then IsVisible c else r.mode.ShowsBlanks ∧ IsBlank c

instance (r : Reader) (c : Char) : Decidable (r.Shows c) := by
  unfold Shows
  split <;> infer_instance

/-- The reader after a character. -/
def step (r : Reader) (c : Char) : Reader :=
  if r.Shows c then
    if r.InText then
      if c ≤ '\x7f' then r else {}
    else { r with interrupted := true }
  else ⟨r.mode.next c, false⟩

/-- The part of a text that is shown. -/
def read (r : Reader) : List Char → List Char
  | [] => []
  | c :: rest =>
    if r.Shows c then c :: (r.step c).read rest else (r.step c).read rest

end Reader

/-- A text without its control characters and control sequences. -/
def plain (text : String) : String := String.ofList (({} : Reader).read text.toList)

/-- Visible characters outside of sequences leave the reader in text. -/
theorem Reader.step_text {c : Char} (visible : IsVisible c) : ({} : Reader).step c = {} := by
  simp [step, Shows, InText, visible]

/-- A text of visible characters is shown as it is. -/
theorem Reader.read_eq_self {text : List Char} (visible : ∀ c ∈ text, IsVisible c) :
    ({} : Reader).read text = text := by
  induction text with
  | nil => rfl
  | cons c rest induction =>
    have shown : ({} : Reader).Shows c := by simp [Shows, InText, visible c]
    rw [read, if_pos shown, step_text (visible c List.mem_cons_self)]
    rw [induction fun d member => visible d (List.mem_cons_of_mem c member)]

/-- Text without control characters stays as it is. -/
theorem plain_eq_self {text : String} (visible : ∀ c ∈ text.toList, IsVisible c) :
    plain text = text := by
  rw [plain, Reader.read_eq_self visible, String.ofList_toList]

end Multirotor.Terminal
