import Multirotor.CommandLine.Answer

/-!
# The program

Reads the command line, flies the mission and prints the journal.
-/

namespace Multirotor

/-- Prints an answer and gives the exit status. -/
def Answer.print : Answer → IO UInt32
  | refused e => do
    IO.eprint (complaint e)
    return usageStatus
  | help => do
    IO.print helpText
    return 0
  | ran status journal => do
    for line in visibleLines journal do
      IO.println line
    return status

end Multirotor

/-- Runs the program for its command line. -/
def main (arguments : List String) : IO UInt32 :=
  (Multirotor.Answer.ofArguments arguments (fun _ => 0) fun _ => 0).print
