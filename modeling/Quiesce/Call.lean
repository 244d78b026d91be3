import Quiesce.Activity
import Quiesce.Token
/-!
# Calls

The record of one call made to an activity: what was asked, on whose behalf, and how it ended. A
call that nobody waits for any more still runs to its end. Calls are the members' tasks of
`run_group` and the one call of `register_activity`.
-/

namespace Quiesce

/-- On whose behalf a call is made. -/
inductive CallOrigin
  /-- A run, for a member of one of its groups. -/
  | run (id : Nat) (priority : Priority)
  /-- A registration while the server was not running. -/
  | late (priority : Priority)
deriving DecidableEq, Repr

/-- One call made to an activity. -/
structure Call where
  activity : Activity
  request : Request
  token : Token
  origin : CallOrigin
  /-- How the call ended, once it has. -/
  ending? : Option Ending := none
deriving DecidableEq, Repr

/-- Records the end of a call; a call ends once. -/
def Call.finish (c : Call) (e : Ending) : Call :=
  { c with ending? := c.ending? <|> some e }

end Quiesce
