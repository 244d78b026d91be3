import Quiesce.Inspect
import Quiesce.Simulation.World
/-!
# Commands

What a command does at once, and what is left to wait for. A command itself runs no task.
-/

namespace Quiesce.Simulation

/-- What a command comes to. -/
inductive Effect
  /-- It is answered at once. -/
  | reply (r : Reply)
  /-- Its answer comes from this work. -/
  | wait (frames : Task)

namespace World

/-! ## Gates and receivers -/

def openGate (w : World) (name : String) : World :=
  let g := w.gate name
  { w with gates := assign name ⟨true, g.openings + 1⟩ w.gates }

/-- Closes a gate to those that come later. -/
def closeGate (w : World) (name : String) : World :=
  { w with gates := assign name { w.gate name with isOpen := false } w.gates }

/-- Lets a receiver read on. -/
def drainReceiver (w : World) (name : String) (limit? : Option Nat) : World × Reply :=
  match w.receivers.lookup name with
  | none => (w, .badStep)
  | some r =>
    let bus := w.hub.bus
    let (items, r) := bus.drain (limit?.getD bus.drainLimit) r
    ({ w with receivers := assign name r w.receivers }, .receipts items)

/-! ## Completions -/

/-- Keeps a completion under a tag and has its outcome reported there. -/
def keep (w : World) (tag : String) (completion : Completion) : World × Reply :=
  let w := { w with completions := assign tag completion w.completions }
  let isDone := (w.controller?.bind fun c => c.outcome? completion).isSome
  (w.spawn [.await completion ⟨w.now, none⟩, .report tag], .completion isDone)

def attemptReply (c : Controller) (attempt : Attempt) : Reply :=
  .attempt (c.isCancelled (.attempt attempt.generation)) (c.outcome? attempt.completion).isSome

/-- The completion kept under a tag, or that of the attempt kept there. -/
def completionOf? (w : World) (tag : String) : Option Completion :=
  w.completions.lookup tag <|> (w.attempts.lookup tag).map Attempt.completion

/-! ## Registration -/

/-- Registers an activity. A call that this leads to is played by whoever waits for the answer. -/
def register (w : World) (c : Controller) (a : Activity) (level : Nat) : World × Effect :=
  let w := w.act (.register a level)
  match (c.registerAt a level).2 with
  | .refused e => (w, .wait [.answer (.registered (.error e))])
  | .done => (w, .wait [.answer (.registered .ok)])
  | .late id =>
    (w, .wait [.make a.key (.suspend c.attempt.context) (.token (.late id)), .late id])

/-! ## All commands -/

def performOnController (w : World) (c : Controller) (tag : String) : Command → World × Effect
  | .suspend context =>
    let (w, r) := (w.act (.suspend context)).keep tag (c.suspend context).2
    (w, .reply r)
  | .resume context =>
    let (w, r) := (w.act (.resume context)).keep tag (c.resume context).2
    (w, .reply r)
  | .ready =>
    let (w, r) := w.keep tag .ready
    (w, .reply r)
  | .register key via =>
    match w.activity? key with
    | some a => w.register c a via.rawLevel
    | none => (w, .reply .badStep)
  | .unregister key =>
    match w.activity? key with
    | some a => (w.act (.unregister a), .reply (.truth (c.registry.priorityOf? a).isSome))
    | none => (w, .reply .badStep)
  | .priorityOf key =>
    match w.activity? key with
    | some a => (w, .reply (.priority (c.registry.priorityOf? a)))
    | none => (w, .reply .badStep)
  | .activityCount => (w, .reply (.number c.registry.size))
  | .state => (w, .reply (.state c.state))
  | .config => (w, .reply (.config c.config))
  | .reset => (w.act .reset, .reply .none)
  | .active =>
    ({ w with attempts := assign tag c.attempt w.attempts }, .reply (attemptReply c c.attempt))
  | .handle of =>
    match w.attempts.lookup of with
    | some attempt => (w, .reply (attemptReply c attempt))
    | none => (w, .reply .badStep)
  | .cancel none => (w.act (.cancel c.attempt.generation), .reply .none)
  | .cancel (some of) =>
    match w.attempts.lookup of with
    | some attempt => (w.act (.cancel attempt.generation), .reply .none)
    | none => (w, .reply .badStep)
  | .peek of inspect =>
    match w.completions.lookup of with
    | some completion =>
      let outcome? := c.outcome? completion
      let inspected? := if inspect then some (inspectCompletion outcome?) else none
      (w, .reply (.peek outcome? inspected?))
    | none => (w, .reply .badStep)
  | .await of limit? =>
    match w.completionOf? of with
    | some completion => (w, .wait [.await completion ⟨w.now, limit?⟩])
    | none => (w, .reply .badStep)
  | .call key request cancelled =>
    match w.activity? key with
    | some _ => (w, .wait [.make key request (.fixed cancelled), .direct])
    | none => (w, .reply .badStep)
  | _ => (w, .reply .badStep)

def perform (w : World) (tag : String) : Command → World × Effect
  | .openGates names => (names.foldl openGate w, .reply .none)
  | .closeGates names => (names.foldl closeGate w, .reply .none)
  | .settle => (w, .reply .none)
  | .subscribe name =>
    ({ w with receivers := assign name w.hub.bus.subscribe w.receivers }, .reply .none)
  | .drain name limit? =>
    let (w, r) := w.drainReceiver name limit?
    (w, .reply r)
  | .unsubscribe name =>
    ({ w with receivers := w.receivers.filter fun entry => entry.1 ≠ name },
      .reply (.truth (w.receivers.lookup name).isSome))
  | .addListener key =>
    match w.listener? key with
    | some l => (w.actOnListeners (.add l), .reply (.truth (!w.hub.contains l)))
    | none => (w, .reply .badStep)
  | .removeListener key =>
    match w.listener? key with
    | some l => (w.actOnListeners (.remove l), .reply (.truth (w.hub.contains l)))
    | none => (w, .reply .badStep)
  | .hasListener key =>
    match w.listener? key with
    | some l => (w, .reply (.truth (w.hub.contains l)))
    | none => (w, .reply .badStep)
  | .listenerCount => (w, .reply (.listenerCount w.hub.size (w.hub.size = 0)))
  | .closeListeners => (w.actOnListeners .close, .wait [.closing w.hub.members])
  | .distribute n times => (Nat.repeat (actOnHub · (.distribute n)) times w, .reply .none)
  | .publish n times => (Nat.repeat (actOnHub · (.publish n)) times w, .reply .none)
  | .invalid => (w, .reply .badStep)
  | command =>
    match w.controller? with
    | some c => w.performOnController c tag command
    | none => (w, .reply .badStep)

end World

end Quiesce.Simulation
