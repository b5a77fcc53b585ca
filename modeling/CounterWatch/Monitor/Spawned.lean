import CounterWatch.Monitor
import CounterWatch.Ticker

/-!
# Monitor/Spawned — a monitor on its own, and the handle to it

A spawned monitor works by itself, with a ticker that has it as its only subscriber.  Whoever holds
the handle sends commands and ticks and receives payloads; the monitor has worked off what it was
sent whenever somebody waits for it.
-/

namespace CounterWatch

variable {σ : Type}

/-- A monitor working on its own. -/
structure Spawned (σ : Type) where
  life : Monitor.Started σ
  /-- Whether the ticker still knows the monitor; nothing if there is no ticker any more. -/
  ticker : Option Bool

namespace Spawned

/-- A monitor that was just set to work. -/
def start (pmu : Pmu σ) (config : MonitoringConfig) (backend : Option Backend) (m : Machine σ) :
    Spawned σ :=
  ⟨Monitor.start pmu config backend m, some true⟩

/-- The machine of the monitor. -/
def machine (s : Spawned σ) : Machine σ :=
  match s.life with
  | .ok actor => actor.machine
  | .error (_, m) => m

/-- The monitor on a changed machine. -/
def onMachine (s : Spawned σ) (f : Machine σ → Machine σ) : Spawned σ :=
  { s with life := match s.life with
      | .ok actor => .ok { actor with machine := f actor.machine }
      | .error (failure, m) => .error (failure, f m) }

/-- Lets the monitor work until it has nothing to do. -/
def settle (pmu : Pmu σ) (s : Spawned σ) : Spawned σ :=
  { s with life := s.life.map (·.settle pmu (Monitor.turns s.machine.mailbox 0)) }

/-- Whether the monitor has come to its end. -/
def isFinished (s : Spawned σ) : Bool :=
  match s.life with
  | .ok actor => actor.phase = .stopped
  | .error _ => true

/-- How the monitor ended. -/
def outcome (s : Spawned σ) : Except Failure Unit :=
  match s.life with
  | .ok _ => .ok ()
  | .error (failure, _) => .error failure

/-- Sends a command: whether it was accepted. -/
def send (s : Spawned σ) (command : String) : Bool × Spawned σ :=
  let (accepted, control) := s.machine.mailbox.control.send command
  (accepted, s.onMachine (·.withControl control))

/-- Ticks: how many are still listening, if there is a ticker. -/
def tick (s : Spawned σ) (time : UInt64) : Option Nat × Spawned σ :=
  match s.ticker with
  | none => (none, s)
  | some known =>
      let (count, after) := Ticker.tick ⟨[⟨s.machine.mailbox.ticks, known⟩]⟩ time
      match after.subscriptions with
      | [subscription] =>
          (some count,
            { s.onMachine (·.withTicks subscription.channel) with
              ticker := some subscription.known })
      | _ => (some count, s)

/-- Lets the ticker go. -/
def dropTicker (s : Spawned σ) : Spawned σ :=
  { s.onMachine (fun m => m.withTicks m.mailbox.ticks.dropSender) with ticker := none }

/-- Waits for a payload; nothing if none will come any more. -/
def receive (pmu : Pmu σ) (s : Spawned σ) : Option Payload × Spawned σ :=
  let s := s.settle pmu
  match s.machine.mailbox.sink.queue with
  | [] => (none, s)
  | payload :: rest =>
      (some payload, s.onMachine fun m =>
        { m with mailbox := { m.mailbox with sink := { m.mailbox.sink with queue := rest } } })

/-- Stops the monitor and waits for its end. -/
def terminate (pmu : Pmu σ) (s : Spawned σ) : Spawned σ :=
  (s.send Actor.terminateCommand).2.settle pmu

end Spawned
end CounterWatch
