import CounterWatch.Machine

/-!
# Sampler — the samples of one counter

A sampled counter has a ring of 2^n data pages behind a page of metadata.  Taking its call chains
means to drain the ring and to render the samples among the records.
-/

namespace CounterWatch.Sampler

variable {σ : Type}

/-- The length of the mapping with two to this power data pages, as long as memory could have it. -/
def mapLength? (pagesExponent : UInt8) : Option Nat :=
  let length := (1 <<< pagesExponent.toNat + 1) * pageSize
  if length < UInt64.size then some length else none

/-- Maps the ring of a counter. -/
def start (pmu : Pmu σ) (counter : CounterId) (pagesExponent : UInt8) (m : Machine σ) :
    Except SystemError Unit × Machine σ :=
  match mapLength? pagesExponent with
  | none => (.error (.custom .other "allocation size overflow"), m)
  | some length => m.mapRing pmu counter length

/-- What rendering has come to: the text, and what is to be logged. -/
abbrev Rendering := String × List Notice

/-- Renders a record behind the text. -/
def renderRecord (c : Callchain) : Ring.Visitor Rendering := fun record ring (out, notices) =>
  match c.render record out with
  | .ok out => (ring.head, out, notices)
  | .error refusal => (ring.head, out, notices ++ (Notice.ofRefusal? refusal).toList)

/-- Drains a ring: the rendered samples, the ring afterwards and what is to be logged. -/
def drain (c : Callchain) (r : Ring) : Option (String × Ring × List Notice) :=
  (r.drain (renderRecord c) ("", [])).map fun d =>
    (d.state.1, d.ring, d.state.2 ++ (d.fault.map .ring).toList)

/-- Takes the call chains of a counter; nothing if nothing was written since the last time. -/
def callchains (c : Callchain) (counter : CounterId) (m : Machine σ) :
    Option String × Machine σ :=
  match (m.rings.get? counter).bind (drain c) with
  | some (text, ring, notices) =>
      (some text, { m with rings := m.rings.insert counter ring }.notes notices)
  | none => (none, m)

end CounterWatch.Sampler
