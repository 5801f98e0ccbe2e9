import Multirotor.CommandLine.Reading
import Multirotor.Mission

/-!
# Answers to the command line

The program as a function: what a command line leads to.
-/

namespace Multirotor

/-- What a command line leads to. -/
inductive Answer where
  | refused (e : UsageError)
  | help
  /-- The program ran: its exit status and its journal. -/
  | ran (status : UInt32) (journal : Array Event)
  deriving DecidableEq

namespace Answer

/-- Exit status of a refused command line or of invalid settings. -/
def usageStatus : UInt32 := 2

/-- Exit status of a flight that broke off. -/
def failureStatus : UInt32 := 1

/-- Runs the program for well-formed arguments: the settings go through the store, and the mission
is flown with them. -/
def ofFlight (a : Arguments) (clock elapsedUs : Nat → Nat) : Answer :=
  let store : SettingsStore := {}
  match store.save (a.apply store.load) with
  | (.error e, _) => .ran usageStatus #[.settingsRefused e]
  | (.ok (), store) =>
    let mission : Mission := ⟨store.load, a.sweepSteps, a.cycles?⟩
    match mission.report clock elapsedUs with
    | (some (.error _), bench) => .ran failureStatus bench.journal
    | (_, bench) => .ran 0 bench.journal

/-- What a command line leads to. -/
def ofArguments (arguments : List String) (clock elapsedUs : Nat → Nat) : Answer :=
  match Request.ofArguments arguments with
  | .error e => .refused e
  | .ok .help => .help
  | .ok (.flight a) => ofFlight a clock elapsedUs

/-- The text that says why a command line was refused and where to find help. -/
def complaint (e : UsageError) : String :=
  Terminal.plainMessage
    ([.bold "error:", .normal " "] ++ e.spans ++
      [.normal "\n\nFor more information, try '", .bold "--help", .normal "'.\n"])

/-- The lines of a journal that users see. -/
def visibleLines (journal : Array Event) : List String :=
  (journal.toList.filter fun e => e.severity ≠ .debug).map fun e =>
    e.severity.label ++ " " ++ e.reporter.path ++ ": " ++ e.message

end Answer

end Multirotor
