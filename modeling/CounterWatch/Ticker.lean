import CounterWatch.Channel

/-!
# Ticker — the same ticks for every subscriber

The ticker sends each tick to everyone subscribed.  A subscriber whose receiver no longer accepts
ticks is forgotten at the next one.
-/

namespace CounterWatch

/-- A subscriber: its channel, and whether the ticker still knows it. -/
structure Subscription where
  channel : Channel UInt64
  known : Bool := true
  deriving DecidableEq, Inhabited

namespace Subscription

/-- The subscription after a tick: a known subscriber gets it, or is forgotten. -/
def tick (time : UInt64) (s : Subscription) : Subscription :=
  if s.known then
    match s.channel.send time with
    | (true, channel) => { s with channel }
    | (false, _) => { s with known := false }
  else s

end Subscription

/-- All subscribers there ever were, in the order of their subscription. -/
structure Ticker where
  subscriptions : List Subscription := []
  deriving DecidableEq, Inhabited

namespace Ticker

/-- The ticker with one more subscriber. -/
def subscribe (t : Ticker) : Ticker := ⟨t.subscriptions ++ [{ channel := {} }]⟩

/-- Sends a tick: how many subscribers are still listening, and the ticker afterwards. -/
def tick (t : Ticker) (time : UInt64) : Nat × Ticker :=
  let after := t.subscriptions.map (·.tick time)
  (after.countP (·.known), ⟨after⟩)

/-- The ticker after one subscriber's receiver changed. -/
def modify (t : Ticker) (subscriber : Nat) (f : Channel UInt64 → Channel UInt64) : Ticker :=
  ⟨t.subscriptions.modify subscriber fun s => { s with channel := f s.channel }⟩

end Ticker
end CounterWatch
