import Quiesce.Error
import Quiesce.Text.Quoted
/-!
# Diagnostic texts

How errors, completions and hook-backed activities are shown to a person who looks inside: the name
of each case, with its parts in braces. Only the texts of errors, of a `Completion` and of an
`ActivityFn` are here.
-/

namespace Quiesce

/-- A case with one named part. -/
def inspectCase (name part value : String) : String :=
  name ++ " \x7b " ++ part ++ ": " ++ value ++ " \x7d"

def ActivityError.inspect : ActivityError → String
  | fail text => inspectCase "Fail" "error" (Text.quote text)
  | panicked info => inspectCase "Panicked" "info" (Text.quote info)
  | canceled => "Canceled"

def SuspendError.inspect : SuspendError → String
  | aborted source => inspectCase "Aborted" "source" source.inspect
  | suspendFailed source => inspectCase "SuspendFailed" "source" source.inspect
  | resumeFailed source => inspectCase "ResumeFailed" "source" source.inspect
  | canceled => "Canceled"
  | timeout after => inspectCase "Timeout" "timeout" after.render

def Outcome.inspect : Outcome → String
  | ok => "Ok(())"
  | error e => "Err(" ++ e.inspect ++ ")"

/-- A completion shows its outcome, if it has one. -/
def inspectCompletion : Option Outcome → String
  | none => inspectCase "Completion" "outcome" "None"
  | some o => inspectCase "Completion" "outcome" ("Some(" ++ o.inspect ++ ")")

/-- An activity that is made of hooks: its name, and which phases have a hook. -/
structure HookedActivity where
  name : String
  prepare : Bool
  suspend : Bool
  resume : Bool
deriving DecidableEq, Repr

def HookedActivity.inspect (a : HookedActivity) : String :=
  "ActivityFn \x7b name: " ++ Text.quote a.name ++ ", prepare: " ++ toString a.prepare
    ++ ", suspend: " ++ toString a.suspend ++ ", resume: " ++ toString a.resume ++ " \x7d"

end Quiesce
