import Quiesce.State
/-!
# Settings of a controller

`ControllerConfig`, with what the controller makes of each setting (`bus_capacity_clamped`,
`subscriber_queue_override`, `initial_state`).
-/

namespace Quiesce

structure Config where
  /-- How many events the bus keeps for a slow receiver. -/
  busCapacity : Nat := 1024
  /-- The queue length forced on every listener; zero leaves the choice to the listener. -/
  queueCapacity : Nat := 0
  /-- The state asked for at creation. -/
  requestedState : State := .suspended
deriving DecidableEq, Repr

namespace Config

/-- The bus keeps at least one event. -/
def effectiveBusCapacity (c : Config) : Nat := max c.busCapacity 1

/-- The queue length forced on every listener, if any. -/
def queueOverride? (c : Config) : Option Nat :=
  if c.queueCapacity = 0 then none else some c.queueCapacity

def initialState (c : Config) : State := c.requestedState.settled

end Config

end Quiesce
