import CounterWatch.Bytes
import CounterWatch.Channel
import CounterWatch.Payload

/-!
# Mailbox — the channels of one monitor

A monitor receives commands and ticks and sends payloads.  While it works, others send, leave, or
write into a ring; each of these is one step of theirs.
-/

namespace CounterWatch

/-- The number of an open counter; counters are numbered as they are opened. -/
abbrev CounterId := Nat

/-- The channels between a monitor and its surroundings. -/
structure Mailbox where
  control : Channel String := {}
  ticks : Channel UInt64 := {}
  /-- Where payloads go.  What its queue holds was delivered. -/
  sink : Channel Payload := {}
  deriving Inhabited

/-- One step of the surroundings. -/
inductive OutsideStep where
  | command (text : String)
  | tick (time : UInt64)
  /-- The sender of commands leaves. -/
  | dropControl
  /-- The sender of ticks leaves. -/
  | dropTicker
  /-- The receiver of payloads leaves. -/
  | dropSink
  /-- Bytes are appended to the ring of a counter. -/
  | produce (counter : CounterId) (bytes : Bytes)
  deriving DecidableEq

end CounterWatch
