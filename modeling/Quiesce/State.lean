/-!
# The state of a server

```text
            suspend                 prepared                 suspended
 running ────────────► preSuspend ───────────► suspending ─────────────► suspended
    ▲                      │                       │                         │
    └──────────────────────┴──────── resume ───────┴─────────────────────────┘
```

Only a running server opens a suspend attempt. A failed attempt leaves the state where it stopped.
The type `State`; the cell it is kept in (`StateCell`) is a field of the controller.
-/

namespace Quiesce

/-- How far a server is from serving. -/
inductive State
  /-- Fully active. -/
  | running
  /-- The activities are asked to prepare. -/
  | preSuspend
  /-- The activities are asked to suspend. -/
  | suspending
  /-- Fully quiet. -/
  | suspended
deriving DecidableEq, Repr

namespace State

def all : List State := [running, preSuspend, suspending, suspended]

def label : State → String
  | running => "running"
  | preSuspend => "pre_suspend"
  | suspending => "suspending"
  | suspended => "suspended"

def rank : State → Nat
  | running => 0
  | preSuspend => 1
  | suspending => 2
  | suspended => 3

def ofLabel? (s : String) : Option State :=
  all.find? fun st => st.label = s

/-- A server starts either running or suspended, never half way. -/
def settled : State → State
  | running => running
  | _ => suspended

end State

end Quiesce
