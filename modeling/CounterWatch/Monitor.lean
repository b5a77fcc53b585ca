import CounterWatch.Session.Collection
import CounterWatch.Session.Opening

/-!
# Monitor — the actor that watches one target

A monitor opens the counters of its target and then turns every tick into a payload, until it is
told to stop: by the command `$TERM`, or because nobody is left to send it commands or ticks.
Commands go first.  Once stopped it accepts no more ticks, but those accepted before are still
handled.

* `Actor.pass` — one turn of the actor, the smallest step that nothing of its own comes between.
* `Actor.settle` — turns until there is nothing to do.
* `run` — a whole run, from opening the counters to closing them.
-/

namespace CounterWatch

variable {σ : Type}

/-- How far an actor has come. -/
inductive Phase where
  /-- It waits for commands and ticks. -/
  | running
  /-- It was told to stop. -/
  | stopping
  /-- It handles the ticks it had accepted. -/
  | draining
  | stopped
  deriving DecidableEq

/-- A monitor at work. -/
structure Actor (σ : Type) where
  /-- The name of the target. -/
  target : String
  tree : SessionTree
  phase : Phase
  machine : Machine σ

namespace Machine

/-- The machine with the monitor's ends of its channels gone. -/
def hangUp (m : Machine σ) : Machine σ :=
  { m with mailbox := {
      control := m.mailbox.control.dropReceiver
      ticks := m.mailbox.ticks.dropReceiver
      sink := m.mailbox.sink.dropSender } }

/-- The machine with other messages left for the monitor. -/
def withControl (m : Machine σ) (control : Channel String) : Machine σ :=
  { m with mailbox := { m.mailbox with control } }

/-- The machine with other ticks left for the monitor. -/
def withTicks (m : Machine σ) (ticks : Channel UInt64) : Machine σ :=
  { m with mailbox := { m.mailbox with ticks } }

/-- Sends a payload; one that nobody takes is logged. -/
def deliver (m : Machine σ) (payload : Payload) : Machine σ :=
  match m.mailbox.sink.send payload with
  | (true, sink) => { m with mailbox := { m.mailbox with sink } }
  | (false, _) => m.note (.payloadDropped payload.timestamp)

end Machine

namespace Actor

/-- The command that stops an actor. -/
def terminateCommand : String := "$TERM"

/-- Handles a tick: sends the payload, or logs why there is none. -/
def handleTick (pmu : Pmu σ) (time : UInt64) (a : Actor σ) : Actor σ :=
  let (result, tree, m) := a.tree.collect pmu time a.target a.machine
  match result with
  | .ok payload => { a with tree, machine := m.deliver payload }
  | .error e => { a with tree, machine := m.note (.tickFailed time e) }

/-- Takes a tick off the channel and handles it. -/
def takeTick (pmu : Pmu σ) (time : UInt64) (rest : Channel UInt64) (a : Actor σ) : Actor σ :=
  handleTick pmu time { a with machine := a.machine.withTicks rest }

/-- The actor about to stop, for a reason that is logged. -/
def stop (a : Actor σ) (reason : Notice) (m : Machine σ) : Actor σ :=
  { a with phase := .stopping, machine := m.note reason }

/-- Takes a command, if there is one, else a tick. -/
def select (pmu : Pmu σ) (a : Actor σ) : Option (Actor σ) :=
  match a.machine.mailbox.control.receive with
  | .message command rest =>
      let m := a.machine.withControl rest
      if command = terminateCommand then some (a.stop .terminated m)
      else some { a with machine := m.note (.unknownCommand command) }
  | .ended => some (a.stop .controlClosed a.machine)
  | .waiting =>
      match a.machine.mailbox.ticks.receive with
      | .message time rest => some (a.takeTick pmu time rest)
      | .ended => some (a.stop .tickerClosed a.machine)
      | .waiting => none

/-- The actor with its counters closed and its ends of the channels gone. -/
def finish (a : Actor σ) : Actor σ :=
  { a with phase := .stopped, machine := (a.tree.close a.machine).hangUp }

/-- **One turn of the actor**; nothing if it has to wait, or has stopped. -/
def pass (pmu : Pmu σ) (a : Actor σ) : Option (Actor σ) :=
  match a.phase with
  | .running => a.select pmu
  | .stopping =>
      let m := a.machine.withTicks a.machine.mailbox.ticks.close
      some { a with phase := .draining, machine := m }
  | .draining =>
      match a.machine.mailbox.ticks.receive with
      | .message time rest => some (a.takeTick pmu time rest)
      | .ended => some a.finish
      | .waiting => none
  | .stopped => none

/-- The actor after a step of its surroundings. -/
def outside (a : Actor σ) (step : OutsideStep) : Actor σ :=
  { a with machine := a.machine.outside step }

/-- The actor after at most so many turns, fewer if it has nothing to do. -/
def settle (pmu : Pmu σ) : (turns : Nat) → Actor σ → Actor σ
  | 0, a => a
  | turns + 1, a =>
      match a.pass pmu with
      | some next => settle pmu turns next
      | none => a

end Actor

namespace Monitor

/-- A monitor at work, or the failure that kept it from starting and what it left behind. -/
abbrev Started (σ : Type) := Except (Failure × Machine σ) (Actor σ)

/-- Opens and enables the counters of a configuration. -/
def start (pmu : Pmu σ) (config : MonitoringConfig) (backend : Option Backend) (m : Machine σ) :
    Started σ :=
  match config.target.name with
  | .error e => .error (.targetName e, (m.note (.noTargetName (.targetName e))).hangUp)
  | .ok target =>
      match SessionTree.start pmu config backend m with
      | (.error f, m) => .error (f, (m.note (.notStarted f)).hangUp)
      | (.ok tree, m) =>
          let (_, m) := tree.enable pmu m
          .ok ⟨target, tree, .running, m.note (.started tree.groups.size tree.inCgroup)⟩

/-- Enough turns to handle what the mailbox holds and so many further messages, and to stop. -/
def turns (box : Mailbox) (further : Nat) : Nat :=
  box.control.queue.length + box.ticks.queue.length + further + 4

/-- **A whole run** within so many turns: its outcome and the machine afterwards; nothing if the
monitor is still at work, or waits, after them. -/
def run (pmu : Pmu σ) (config : MonitoringConfig) (backend : Option Backend) (turns : Nat)
    (m : Machine σ) : Option (Except Failure Unit × Machine σ) :=
  match start pmu config backend m with
  | .error (f, m) => some (.error f, m)
  | .ok actor =>
      let last := actor.settle pmu turns
      if last.phase = .stopped then some (.ok (), last.machine) else none

end Monitor
end CounterWatch
