/-!
# Channel — messages on their way

A channel keeps messages in the order they were sent.  Sending works as long as there is a sender
and the receiver has not closed; messages that were accepted are received even after that.  A
receiver that finds nothing waits, or learns that nothing will come any more.
-/

namespace CounterWatch

/-- An unbounded channel. -/
structure Channel (α : Type) where
  /-- The messages accepted and not yet received, oldest first. -/
  queue : List α := []
  /-- Whether there is somebody to send. -/
  hasSender : Bool := true
  /-- Whether the receiver accepts messages. -/
  accepting : Bool := true
  deriving DecidableEq, Inhabited

namespace Channel

variable {α : Type}

/-- Whether a message sent now is accepted. -/
def isOpen (c : Channel α) : Bool := c.hasSender && c.accepting

/-- Sends a message: whether it was accepted, and the channel afterwards. -/
def send (c : Channel α) (a : α) : Bool × Channel α :=
  if c.isOpen then (true, { c with queue := c.queue ++ [a] }) else (false, c)

/-- The channel without its sender. -/
def dropSender (c : Channel α) : Channel α := { c with hasSender := false }

/-- The channel after its receiver stopped accepting messages; those accepted stay. -/
def close (c : Channel α) : Channel α := { c with accepting := false }

/-- The channel without its receiver. -/
def dropReceiver (c : Channel α) : Channel α := { c with accepting := false, queue := [] }

/-- What a receiver finds. -/
inductive Received (α : Type) where
  | message (a : α) (rest : Channel α)
  /-- There is nothing, and nothing can come any more. -/
  | ended
  /-- There is nothing yet. -/
  | waiting

/-- Looks for a message. -/
def receive (c : Channel α) : Received α :=
  match c.queue with
  | a :: rest => .message a { c with queue := rest }
  | [] => if c.isOpen then .waiting else .ended

end Channel
end CounterWatch
