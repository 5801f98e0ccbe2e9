import Multirotor.Fault

/-!
# Output tables

The table of bound outputs that a device fills while it is set up.
-/

namespace Multirotor

/-- The outputs bound so far. -/
structure OutputTable (α : Type) where
  /-- The outputs in the order in which they were bound. -/
  outputs : List α
  /-- An update broke off, so the table cannot be relied on any more. -/
  damaged : Bool
  deriving DecidableEq

/-- Adds an output at the end.  A damaged table stays as it is and the device is not ready. -/
def OutputTable.register {α : Type} (table : OutputTable α) (output : α) :
    Except WriteError Unit × OutputTable α :=
  if table.damaged then (.error .notReady, table)
  else (.ok (), { table with outputs := table.outputs ++ [output] })

end Multirotor
