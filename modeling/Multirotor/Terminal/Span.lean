import Multirotor.Terminal.Plain

/-!
# Styled messages

A message for the terminal is a list of spans, some of which stand out.  The style of a span is
switched on and off by control sequences, which the program takes out again because it writes plain
text only; control sequences that a user typed go the same way, and one that a user left open ends
where the next style begins or ends.
-/

namespace Multirotor.Terminal

inductive Span where
  | normal (text : String)
  | bold (text : String)
  deriving DecidableEq

/-- A span with the sequences for its style. -/
def Span.styled : Span → String
  | normal text => text
  | bold text => "\x1b[1m" ++ text ++ "\x1b[0m"

/-- A message as plain text. -/
def plainMessage (spans : List Span) : String := plain (String.join (spans.map Span.styled))

end Multirotor.Terminal
