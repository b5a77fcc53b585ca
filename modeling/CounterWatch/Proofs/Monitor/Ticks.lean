import CounterWatch.Pmu.Scripted
import CounterWatch.Proofs.Except
import CounterWatch.Proofs.Monitor.Turns
import CounterWatch.Proofs.Session.Effect
import CounterWatch.Proofs.Session.Shape

/-!
# Proofs/Monitor/Ticks — no tick is lost, and none is handled twice

Ticks wait in a channel, and are taken off it one by one by whichever of its loops an actor is in.
Others send ticks all the time, also while one is being handled; from the moment the actor closes
the channel they are refused.

* `Machine.Listens` — what happens to the channels while an actor does something else.
* `Actor.Turn.listens_or_handles` — what a turn does to them.
* `TickAccount`, `PayloadAccount` — what every turn and every step of the surroundings preserves:
  the ticks accepted are those handled and those waiting, and the payloads made are those delivered
  and those dropped.
* `ticks_handled_once` — how the ticks accepted, the ticks handled and the payloads sent belong
  together, in every state that a monitor can come to.
-/

namespace CounterWatch

variable {σ : Type} {pmu : Pmu σ}

/-- The tick that a step of the surroundings sent, if it was accepted. -/
def Call.acceptedTick? : Call → Option UInt64
  | .ticked time true => some time
  | _ => none

/-- The time of the payload that a notice says nobody took. -/
def Notice.droppedTime? : Notice → Option UInt64
  | .payloadDropped time => some time
  | _ => none

/-- The payload that came of a tick. -/
def Handling.payload? (h : Handling) : Option Payload := h.outcome.toOption

namespace Machine

/-- The ticks accepted so far, in the order they were sent. -/
def acceptedTicks (m : Machine σ) : List UInt64 := m.trace.filterMap Call.acceptedTick?

/-- The times of the payloads nobody took. -/
def droppedTimes (m : Machine σ) : List UInt64 := m.log.filterMap Notice.droppedTime?

/-! ## Listening -/

/-- Between two machines no tick was taken and no payload sent, and these ticks were accepted. -/
structure Listens (m m' : Machine σ) (heard : List UInt64) : Prop where
  ticks : m'.mailbox.ticks.queue = m.mailbox.ticks.queue ++ heard
  accepted : m'.acceptedTicks = m.acceptedTicks ++ heard
  /-- A closed channel stays closed, and nothing is accepted any more. -/
  closed : m.mailbox.ticks.accepting = false → m'.mailbox.ticks.accepting = false ∧ heard = []
  delivered : m'.mailbox.sink.queue = m.mailbox.sink.queue
  dropped : m'.droppedTimes = m.droppedTimes
  sink : m.mailbox.sink.isOpen = false → m'.mailbox.sink.isOpen = false

theorem Listens.refl (m : Machine σ) : Listens m m [] where
  ticks := (List.append_nil _).symm
  accepted := (List.append_nil _).symm
  closed h := ⟨h, rfl⟩
  delivered := rfl
  dropped := rfl
  sink := id

theorem Listens.trans {m m' m'' : Machine σ} {heard heard' : List UInt64} (h : Listens m m' heard)
    (h' : Listens m' m'' heard') : Listens m m'' (heard ++ heard') where
  ticks := by rw [h'.ticks, h.ticks, List.append_assoc]
  accepted := by rw [h'.accepted, h.accepted, List.append_assoc]
  closed hc := by
    obtain ⟨hc', rfl⟩ := h.closed hc
    obtain ⟨hc'', rfl⟩ := h'.closed hc'
    exact ⟨hc'', rfl⟩
  delivered := h'.delivered.trans h.delivered
  dropped := h'.dropped.trans h.dropped
  sink := h'.sink ∘ h.sink

/-- What leaves the channels alone, and records no tick and no dropped payload, is listening. -/
theorem listens_of_eq {m m' : Machine σ} (hticks : m'.mailbox.ticks = m.mailbox.ticks)
    (hsink : m'.mailbox.sink = m.mailbox.sink) (haccepted : m'.acceptedTicks = m.acceptedTicks)
    (hdropped : m'.droppedTimes = m.droppedTimes) : Listens m m' [] where
  ticks := by rw [hticks, List.append_nil]
  accepted := by rw [haccepted, List.append_nil]
  closed h := ⟨by rw [hticks]; exact h, rfl⟩
  delivered := by rw [hsink]
  dropped := hdropped
  sink h := by rw [hsink]; exact h

/-- A call adds to the ticks accepted if it tells of one. -/
theorem acceptedTicks_call (m : Machine σ) (c : Call) :
    (m.call c).acceptedTicks = m.acceptedTicks ++ c.acceptedTick?.toList := by
  rw [acceptedTicks, call, List.filterMap_append]
  cases h : c.acceptedTick? <;> simp only [List.filterMap_cons, h, List.filterMap_nil] <;> rfl

theorem droppedTimes_note (m : Machine σ) (n : Notice) :
    (m.note n).droppedTimes = m.droppedTimes ++ n.droppedTime?.toList := by
  rw [droppedTimes, note, List.filterMap_append]
  cases h : n.droppedTime? <;> simp only [List.filterMap_cons, h, List.filterMap_nil] <;> rfl

theorem listens_note (m : Machine σ) {n : Notice} (h : n.droppedTime? = none) :
    Listens m (m.note n) [] := by
  refine listens_of_eq rfl rfl rfl ?_
  rw [droppedTimes_note, h]
  exact List.append_nil _

/-- A call that is recorded, and changes nothing of the channels. -/
theorem listens_call {m m' : Machine σ} {c : Call} (h : c.acceptedTick? = none)
    (hticks : m'.mailbox.ticks = m.mailbox.ticks) (hsink : m'.mailbox.sink = m.mailbox.sink)
    (htrace : m'.trace = m.trace ++ [c]) (hlog : m'.log = m.log) : Listens m m' [] := by
  refine listens_of_eq hticks hsink ?_ (by rw [droppedTimes, hlog]; rfl)
  have hcall := m.acceptedTicks_call c
  rw [h] at hcall
  rw [acceptedTicks, htrace]
  exact hcall.trans (List.append_nil _)

/-- A closed channel refuses a tick, and that is all that happens. -/
theorem outside_tick_of_closed {m : Machine σ} (h : m.mailbox.ticks.accepting = false)
    (time : UInt64) : m.outside (.tick time) = m.call (.ticked time false) := by
  have hsend : m.mailbox.ticks.send time = (false, m.mailbox.ticks) := by
    rw [Channel.send, Channel.isOpen, h, Bool.and_false, if_neg Bool.false_ne_true]
  rw [outside, hsend]
  rfl

/-- An open channel takes the tick in, behind those waiting. -/
theorem listens_tick_of_open {m : Machine σ} (h : m.mailbox.ticks.isOpen = true) (time : UInt64) :
    Listens m (m.outside (.tick time)) [time] := by
  have hsend : m.mailbox.ticks.send time
      = (true, { m.mailbox.ticks with queue := m.mailbox.ticks.queue ++ [time] }) := if_pos h
  rw [outside, hsend]
  exact {
    ticks := rfl
    accepted := m.acceptedTicks_call (.ticked time true)
    closed hc := by
      rw [Channel.isOpen, hc, Bool.and_false] at h
      cases h
    delivered := rfl
    dropped := rfl
    sink := id }

/-- **The surroundings add ticks to an open channel**, and none to a closed one. -/
theorem listens_outside (m : Machine σ) (step : OutsideStep) :
    ∃ heard, Listens m (m.outside step) heard := by
  cases step with
  | command text => exact ⟨[], listens_call (c := .sent text _) rfl rfl rfl rfl rfl⟩
  | tick time =>
      by_cases h : m.mailbox.ticks.isOpen = true
      · exact ⟨[time], listens_tick_of_open h time⟩
      · have hsend : m.mailbox.ticks.send time = (false, m.mailbox.ticks) := if_neg h
        refine ⟨[], ?_⟩
        rw [outside, hsend]
        exact listens_call (c := .ticked time false) rfl rfl rfl rfl rfl
  | dropControl => exact ⟨[], listens_of_eq rfl rfl rfl rfl⟩
  | dropTicker =>
      exact ⟨[], { Listens.refl m with }⟩
  | dropSink =>
      exact ⟨[], { Listens.refl m with sink := fun _ => Bool.and_false _ }⟩
  | produce id b =>
      refine ⟨[], ?_⟩
      rw [outside, produce]
      split
      · exact listens_of_eq rfl rfl rfl rfl
      · exact .refl m

/-- Steps of the surroundings in a row are heard one after the other. -/
theorem listens_meanwhile : ∀ (steps : List OutsideStep) (m : Machine σ),
    ∃ heard, Listens m (steps.foldl outside m) heard
  | [], m => ⟨[], .refl m⟩
  | step :: rest, m => by
      obtain ⟨heard, h⟩ := m.listens_outside step
      obtain ⟨heard', h'⟩ := listens_meanwhile rest (m.outside step)
      exact ⟨heard ++ heard', h.trans h'⟩

theorem droppedTime_of_not_ofActor {n : Notice} (h : n.ofActor = false) :
    n.droppedTime? = none := by
  cases n <;> first | rfl | cases h

theorem listens_lookup {m m' : Machine σ} (h : Lookup m m') : Listens m m' [] := by
  cases h with
  | note hn => exact m.listens_note (droppedTime_of_not_ofActor hn)
  | @call c hc =>
      refine listens_call (c := c) ?_ rfl rfl rfl rfl
      cases c <;> first | rfl | cases hc

/-- **Opening and closing counters is listening**, with nothing to be heard. -/
theorem listens_setup {m m' : Machine σ} (h : Setup pmu m m') : Listens m m' [] := by
  cases h with
  | lookup h => exact listens_lookup h
  | openCounter request =>
      rw [openCounter]
      split
      · exact listens_call (c := .opened m.nextId request) rfl rfl rfl rfl rfl
      · exact listens_call (c := .openFailed m.attempts) rfl rfl rfl rfl rfl
  | mapRing id length =>
      have hmap : Listens m (m.map pmu id length).2 [] :=
        listens_call (c := .map id length) rfl rfl rfl rfl rfl
      rw [mapRing]
      split
      next arena m₁ heq =>
        rw [heq] at hmap
        exact hmap.trans (listens_of_eq rfl rfl rfl rfl)
      next e m₁ heq =>
        rw [heq] at hmap
        exact hmap
  | unmapRing id => exact listens_of_eq rfl rfl rfl rfl
  | closeCounter c => exact listens_of_eq rfl rfl rfl rfl

/-- **Working with counters is listening**; what is heard is heard during reads. -/
theorem listens_use {m m' : Machine σ} (h : Use pmu m m') : ∃ heard, Listens m m' heard := by
  cases h with
  | note hn => exact ⟨[], m.listens_note (droppedTime_of_not_ofActor hn)⟩
  | enable id => exact ⟨[], listens_call (c := .enable id) rfl rfl rfl rfl rfl⟩
  | reset id => exact ⟨[], listens_call (c := .reset id) rfl rfl rfl rfl rfl⟩
  | read id buffer =>
      have hcall : Listens m (m.call (.read id buffer.length)) [] :=
        listens_call (c := .read id buffer.length) rfl rfl rfl rfl rfl
      obtain ⟨heard, hmeanwhile⟩ := listens_meanwhile (pmu.meanwhile id m.state)
        (m.call (.read id buffer.length))
      have hstate : Listens ((pmu.meanwhile id m.state).foldl outside
          (m.call (.read id buffer.length))) (m.read pmu id buffer).2.2 [] :=
        listens_of_eq rfl rfl rfl rfl
      exact ⟨_, (hcall.trans hmeanwhile).trans hstate⟩
  | drained id ring => exact ⟨[], listens_of_eq rfl rfl rfl rfl⟩

theorem listens_setups {m m' : Machine σ} (h : Setups pmu m m') : Listens m m' [] := by
  induction h with
  | refl => exact .refl m
  | tail _ hstep ih => exact ih.trans (listens_setup hstep)

/-- **Whatever is done with counters is listening**, for as long as it takes. -/
theorem listens_uses {m m' : Machine σ} (h : Uses pmu m m') : ∃ heard, Listens m m' heard := by
  induction h with
  | refl => exact ⟨[], .refl m⟩
  | tail _ hstep ih =>
      obtain ⟨heard, h⟩ := ih
      obtain ⟨heard', h'⟩ := listens_use hstep
      exact ⟨heard ++ heard', h.trans h'⟩

end Machine

open Machine

/-! ## Handling a tick -/

/-- What becomes of the outcome of a tick: a payload is delivered, or nobody is left to take it, or
there is none. -/
inductive Settles (m b : Machine σ) : Except Failure Payload → Prop
  | sent {p : Payload} (hopen : m.mailbox.sink.isOpen = true)
      (hsink : b.mailbox.sink.queue = m.mailbox.sink.queue ++ [p])
      (hdropped : b.droppedTimes = m.droppedTimes) : Settles m b (.ok p)
  | lost {p : Payload} (hopen : m.mailbox.sink.isOpen = false)
      (hsink : b.mailbox.sink = m.mailbox.sink)
      (hdropped : b.droppedTimes = m.droppedTimes ++ [p.timestamp]) : Settles m b (.ok p)
  | failed {e : Failure} (hsink : b.mailbox.sink = m.mailbox.sink)
      (hdropped : b.droppedTimes = m.droppedTimes) : Settles m b (.error e)

/-- A payload that is delivered is sent, or lost where nobody takes it. -/
theorem settles_deliver (m : Machine σ) (p : Payload) : Settles m (m.deliver p) (.ok p) := by
  by_cases hopen : m.mailbox.sink.isOpen = true
  · have hsend : m.mailbox.sink.send p
        = (true, { m.mailbox.sink with queue := m.mailbox.sink.queue ++ [p] }) := if_pos hopen
    rw [deliver, hsend]
    exact .sent hopen rfl rfl
  · have hsend : m.mailbox.sink.send p = (false, m.mailbox.sink) := if_neg hopen
    rw [deliver, hsend]
    exact .lost (Bool.not_eq_true _ ▸ hopen) rfl (m.droppedTimes_note (.payloadDropped p.timestamp))

theorem deliver_ticks (m : Machine σ) (p : Payload) :
    (m.deliver p).mailbox.ticks = m.mailbox.ticks ∧
      (m.deliver p).acceptedTicks = m.acceptedTicks := by
  rw [deliver]
  split
  · exact ⟨rfl, rfl⟩
  · exact ⟨rfl, rfl⟩

/-- **Handling a tick is working with counters**, and then delivering the payload or logging why
there is none. -/
theorem Actor.handleTick_uses (pmu : Pmu σ) (time : UInt64) (a : Actor σ) :
    (a.handleTick pmu time).phase = a.phase ∧ (a.handleTick pmu time).target = a.target ∧
    ∃ m, Uses pmu a.machine m ∧
      ((∃ p, a.handling pmu time = ⟨time, .ok p⟩ ∧
        (a.handleTick pmu time).machine = m.deliver p) ∨
      ∃ e, a.handling pmu time = ⟨time, .error e⟩ ∧
        (a.handleTick pmu time).machine = m.note (.tickFailed time e)) := by
  have huses : Uses pmu a.machine (a.tree.collect pmu time a.target a.machine).2.2 :=
    a.tree.collect_uses time a.target a.machine
  rw [handleTick, handling]
  rcases hc : a.tree.collect pmu time a.target a.machine with ⟨e | p, tree, m⟩
  · rw [hc] at huses
    exact ⟨rfl, rfl, m, huses, .inr ⟨e, rfl, rfl⟩⟩
  · rw [hc] at huses
    exact ⟨rfl, rfl, m, huses, .inl ⟨p, rfl, rfl⟩⟩

/-- **Handling a tick is listening until its counters are collected**, and then settling what came
of it. -/
theorem Actor.handleTick_listens (pmu : Pmu σ) (time : UInt64) (a : Actor σ) :
    (a.handleTick pmu time).phase = a.phase ∧ (a.handleTick pmu time).target = a.target ∧
    ∃ heard m, Listens a.machine m heard ∧
      (a.handleTick pmu time).machine.mailbox.ticks = m.mailbox.ticks ∧
      (a.handleTick pmu time).machine.acceptedTicks = m.acceptedTicks ∧
      Settles m (a.handleTick pmu time).machine (a.handling pmu time).outcome := by
  obtain ⟨hphase, htarget, m, huses, hsettled⟩ := a.handleTick_uses pmu time
  obtain ⟨heard, hlistens⟩ := listens_uses huses
  refine ⟨hphase, htarget, heard, m, hlistens, ?_⟩
  rcases hsettled with ⟨p, hhandling, hmachine⟩ | ⟨e, hhandling, hmachine⟩
  · obtain ⟨hticks, haccepted⟩ := deliver_ticks m p
    rw [hhandling, hmachine]
    exact ⟨hticks, haccepted, settles_deliver m p⟩
  · have hdropped := m.droppedTimes_note (.tickFailed time e)
    rw [hhandling, hmachine]
    exact ⟨rfl, rfl, .failed rfl (hdropped.trans (List.append_nil _))⟩

/-- How far a turn that handles no tick may bring an actor: it goes on, or is about to stop, or its
channel is closed; and the channel is empty when it has stopped. -/
def Actor.Advances (a b : Actor σ) : Prop :=
  b.phase = a.phase ∨ b.phase = .stopping ∨
    b.machine.mailbox.ticks.accepting = false ∧
      (b.phase = .stopped → b.machine.mailbox.ticks.queue = [])

/-- **A turn is listening, or handles the tick that came first.** -/
theorem Actor.Turn.listens_or_handles {a b : Actor σ} {handled : List Handling}
    (h : Turn pmu a handled b) :
    (handled = [] ∧ Listens a.machine b.machine [] ∧ b.target = a.target ∧ a.Advances b) ∨
    ∃ time rest, a.machine.mailbox.ticks.queue = time :: rest ∧ a.phase ≠ .stopped ∧
      handled = [(a.withTimes rest).handling pmu time] ∧
      b = (a.withTimes rest).handleTick pmu time := by
  have hcommands : ∀ rest, Listens a.machine (a.withCommands rest).machine [] :=
    fun rest => listens_of_eq rfl rfl rfl rfl
  cases h with
  | terminate hphase hcontrol =>
      exact .inl ⟨rfl, (hcommands _).trans (listens_note _ rfl), rfl, .inr (.inl rfl)⟩
  | reject hphase hcontrol hcommand =>
      exact .inl ⟨rfl, (hcommands _).trans (listens_note _ rfl), rfl, .inl rfl⟩
  | controlClosed hphase hcontrol hgone =>
      exact .inl ⟨rfl, listens_note _ rfl, rfl, .inr (.inl rfl)⟩
  | handle hphase hcontrol hthere hticks =>
      exact .inr ⟨_, _, hticks, by rw [hphase]; decide, rfl, rfl⟩
  | tickerClosed hphase hcontrol hthere hticks hgone =>
      exact .inl ⟨rfl, listens_note _ rfl, rfl, .inr (.inl rfl)⟩
  | closeTicks hphase =>
      refine .inl ⟨rfl, ?_, rfl, .inr (.inr ⟨rfl, nofun⟩)⟩
      exact { Listens.refl a.machine with closed := fun _ => ⟨rfl, rfl⟩ }
  | drain hphase hticks => exact .inr ⟨_, _, hticks, by rw [hphase]; decide, rfl, rfl⟩
  | finish hphase hticks hgone =>
      have hsetups : Setups pmu a.machine (a.tree.close a.machine) := a.tree.close_setups a.machine
      have hclose := listens_setups hsetups
      have hempty : (a.tree.close a.machine).mailbox.ticks.queue = [] := by
        rw [hclose.ticks, hticks, List.append_nil]
      have hhangUp : Listens (a.tree.close a.machine) a.finish.machine [] :=
        { Listens.refl (a.tree.close a.machine) with
          ticks := by rw [hempty]; rfl
          closed := fun _ => ⟨rfl, rfl⟩
          sink := fun _ => rfl }
      exact .inl ⟨rfl, hclose.trans hhangUp, rfl, .inr (.inr ⟨rfl, fun _ => rfl⟩)⟩

/-! ## The ticks of a run -/

/-- How the ticks heard since a machine was as it was and the ticks handled belong together. -/
structure TickAccount (m : Machine σ) (a : Actor σ) (hs : List Handling) (heard : List UInt64) :
    Prop where
  accepted : a.machine.acceptedTicks = m.acceptedTicks ++ heard
  /-- What was accepted was handled, or is waiting. -/
  ticks : m.mailbox.ticks.queue ++ heard = hs.map Handling.time ++ a.machine.mailbox.ticks.queue
  closed : a.phase = .draining ∨ a.phase = .stopped → a.machine.mailbox.ticks.accepting = false
  finished : a.phase = .stopped → a.machine.mailbox.ticks.queue = []

namespace TickAccount

variable {m : Machine σ} {a b : Actor σ} {hs : List Handling} {heard heard' : List UInt64}

/-- While no tick is handled, those accepted join those that wait. -/
theorem listens (h : TickAccount m a hs heard) (hlistens : Listens a.machine b.machine heard')
    (hadvances : a.Advances b) : TickAccount m b hs (heard ++ heard') where
  accepted := by rw [hlistens.accepted, h.accepted, List.append_assoc]
  ticks := by rw [← List.append_assoc, h.ticks, hlistens.ticks, List.append_assoc]
  closed hb := by
    rcases hadvances with hphase | hphase | ⟨hclosed, -⟩
    · rw [hphase] at hb
      exact (hlistens.closed (h.closed hb)).1
    · rw [hphase] at hb
      rcases hb with hb | hb <;> cases hb
    · exact hclosed
  finished hb := by
    rcases hadvances with hphase | hphase | ⟨-, hempty⟩
    · rw [hphase] at hb
      rw [hlistens.ticks, h.finished hb, (hlistens.closed (h.closed (.inr hb))).2, List.append_nil]
    · rw [hphase] at hb
      cases hb
    · exact hempty hb

/-- **A tick that is handled moves to the ticks handled.** -/
theorem handle (h : TickAccount m a hs heard) (pmu : Pmu σ) {time : UInt64} {rest : List UInt64}
    (hticks : a.machine.mailbox.ticks.queue = time :: rest) (hphase : a.phase ≠ .stopped) :
    ∃ heard', TickAccount m ((a.withTimes rest).handleTick pmu time)
      (hs ++ [(a.withTimes rest).handling pmu time]) (heard ++ heard') := by
  obtain ⟨hp, -, heard', m', hlistens, hmailbox, haccepted, -⟩ :=
    (a.withTimes rest).handleTick_listens pmu time
  refine ⟨heard', ?_, ?_, fun hb => ?_, fun hb => ?_⟩
  · rw [haccepted, hlistens.accepted, ← List.append_assoc, ← h.accepted]
    rfl
  · have hrest : m'.mailbox.ticks.queue = rest ++ heard' := hlistens.ticks
    rw [hmailbox, hrest, ← List.append_assoc, h.ticks, hticks, List.map_append, List.map_singleton,
      List.append_assoc, List.append_assoc]
    rfl
  · rw [hp] at hb
    rw [hmailbox]
    exact (hlistens.closed (h.closed hb)).1
  · rw [hp] at hb
    exact absurd hb hphase

/-- **A turn keeps the account of ticks.** -/
theorem turn (h : TickAccount m a hs heard) {handled : List Handling}
    (hturn : Actor.Turn pmu a handled b) :
    ∃ heard', TickAccount m b (hs ++ handled) (heard ++ heard') := by
  rcases hturn.listens_or_handles with
    ⟨rfl, hlistens, -, hadvances⟩ | ⟨time, rest, hticks, hphase, rfl, rfl⟩
  · rw [List.append_nil]
    exact ⟨[], h.listens hlistens hadvances⟩
  · exact h.handle pmu hticks hphase

/-- The account of ticks holds after any run. -/
theorem reaches (h : TickAccount m a [] heard) (hrun : Actor.Reaches pmu a hs b) :
    ∃ heard', TickAccount m b hs heard' := by
  induction hrun with
  | refl => exact ⟨heard, h⟩
  | @outside hs c _ step ih =>
      obtain ⟨heard', ih⟩ := ih
      obtain ⟨heard'', hlistens⟩ := listens_outside c.machine step
      exact ⟨_, ih.listens (b := c.outside step) hlistens (.inl rfl)⟩
  | turn _ hturn ih =>
      obtain ⟨heard', ih⟩ := ih
      obtain ⟨heard'', hnext⟩ := ih.turn hturn
      exact ⟨_, hnext⟩

end TickAccount

/-! ## The payloads of a run -/

/-- How the ticks handled since a machine was as it was and the payloads made of them belong
together: some were sent, and from then on they were lost. -/
structure PayloadAccount (m : Machine σ) (a : Actor σ) (hs : List Handling)
    (sent lost : List Payload) : Prop where
  labels : ∀ h ∈ hs, ∀ p, h.outcome = .ok p → p.timestamp = h.time ∧ p.target = a.target
  offered : hs.filterMap Handling.payload? = sent ++ lost
  delivered : a.machine.mailbox.sink.queue = m.mailbox.sink.queue ++ sent
  dropped : a.machine.droppedTimes = m.droppedTimes ++ lost.map Payload.timestamp
  /-- Payloads are lost only when nobody is left to take them. -/
  sink : lost ≠ [] → a.machine.mailbox.sink.isOpen = false

namespace PayloadAccount

variable {m : Machine σ} {a b : Actor σ} {hs : List Handling} {sent lost : List Payload}

theorem listens (h : PayloadAccount m a hs sent lost) {heard : List UInt64}
    (hlistens : Listens a.machine b.machine heard) (htarget : b.target = a.target) :
    PayloadAccount m b hs sent lost where
  labels := by rw [htarget]; exact h.labels
  offered := h.offered
  delivered := by rw [hlistens.delivered, h.delivered]
  dropped := by rw [hlistens.dropped, h.dropped]
  sink hlost := hlistens.sink (h.sink hlost)

/-- The account with one more tick, and the payload that came of it. -/
theorem settles (h : PayloadAccount m a hs sent lost) {handled : Handling}
    (htarget : b.target = a.target)
    (hlabel : ∀ p, handled.outcome = .ok p → p.timestamp = handled.time ∧ p.target = a.target)
    (hsettles : Settles a.machine b.machine handled.outcome) :
    ∃ sent' lost', PayloadAccount m b (hs ++ [handled]) sent' lost' := by
  have hlabels : ∀ h ∈ hs ++ [handled], ∀ p, h.outcome = .ok p →
      p.timestamp = h.time ∧ p.target = b.target := by
    intro h' hmem p hp
    rw [htarget]
    rcases List.mem_append.mp hmem with hmem | hmem
    · exact h.labels h' hmem p hp
    · obtain rfl := List.mem_singleton.mp hmem
      exact hlabel p hp
  have hoffered : (hs ++ [handled]).filterMap Handling.payload?
      = sent ++ lost ++ handled.payload?.toList := by
    rw [List.filterMap_append, h.offered]
    cases hp : handled.payload? <;> simp only [List.filterMap_cons, hp, List.filterMap_nil] <;> rfl
  obtain ⟨time, outcome⟩ := handled
  cases hsettles with
  | @sent p hopen hsink hdropped =>
      -- as long as payloads are taken, none was lost
      have hnone : lost = [] := by
        refine Classical.byContradiction fun hlost => ?_
        rw [h.sink hlost] at hopen
        cases hopen
      subst hnone
      refine ⟨sent ++ [p], [], hlabels, ?_, ?_, hdropped.trans h.dropped, nofun⟩
      · rw [hoffered, List.append_nil, List.append_nil]
        rfl
      · rw [hsink, h.delivered, List.append_assoc]
  | @lost p hopen hsink hdropped =>
      refine ⟨sent, lost ++ [p], hlabels, ?_, ?_, ?_, fun _ => ?_⟩
      · rw [hoffered, List.append_assoc]
        rfl
      · rw [hsink, h.delivered]
      · rw [hdropped, h.dropped, List.map_append, List.append_assoc]
        rfl
      · rw [hsink]
        exact hopen
  | @failed e hsink hdropped =>
      refine ⟨sent, lost, hlabels, ?_, ?_, hdropped.trans h.dropped, fun hlost => ?_⟩
      · rw [hoffered]
        exact List.append_nil _
      · rw [hsink, h.delivered]
      · rw [hsink]
        exact h.sink hlost

/-- **The payload of a tick that is handled is sent or lost**, behind those of the ticks before it.
-/
theorem handle (h : PayloadAccount m a hs sent lost) (pmu : Pmu σ) (time : UInt64)
    (rest : List UInt64) :
    ∃ sent' lost', PayloadAccount m ((a.withTimes rest).handleTick pmu time)
      (hs ++ [(a.withTimes rest).handling pmu time]) sent' lost' := by
  obtain ⟨-, htarget, heard, m', hlistens, -, -, hsettles⟩ :=
    (a.withTimes rest).handleTick_listens pmu time
  have htaken : PayloadAccount m (a.withTimes rest) hs sent lost := { h with }
  have hcollected : PayloadAccount m { a with machine := m' } hs sent lost :=
    htaken.listens hlistens rfl
  exact hcollected.settles htarget (fun p hp => SessionTree.collect_label hp) hsettles

/-- **A turn keeps the account of payloads.** -/
theorem turn (h : PayloadAccount m a hs sent lost) {handled : List Handling}
    (hturn : Actor.Turn pmu a handled b) :
    ∃ sent' lost', PayloadAccount m b (hs ++ handled) sent' lost' := by
  rcases hturn.listens_or_handles with
    ⟨rfl, hlistens, htarget, -⟩ | ⟨time, rest, -, -, rfl, rfl⟩
  · rw [List.append_nil]
    exact ⟨sent, lost, h.listens hlistens htarget⟩
  · exact h.handle pmu time rest

/-- The account of payloads holds after any run. -/
theorem reaches (h : PayloadAccount m a [] sent lost) (hrun : Actor.Reaches pmu a hs b) :
    ∃ sent' lost', PayloadAccount m b hs sent' lost' := by
  induction hrun with
  | refl => exact ⟨sent, lost, h⟩
  | @outside hs c _ step ih =>
      obtain ⟨sent', lost', ih⟩ := ih
      obtain ⟨heard, hlistens⟩ := listens_outside c.machine step
      exact ⟨sent', lost', ih.listens (b := c.outside step) hlistens rfl⟩
  | turn _ hturn ih =>
      obtain ⟨sent', lost', ih⟩ := ih
      exact ih.turn hturn

end PayloadAccount

/-! ## A whole run -/

/-- An actor keeps the name of its target. -/
theorem Actor.target_reaches {a b : Actor σ} {hs : List Handling} (h : Reaches pmu a hs b) :
    b.target = a.target := by
  induction h with
  | refl => rfl
  | outside _ step ih => exact ih
  | turn _ hturn ih =>
      rcases hturn.listens_or_handles with ⟨-, -, htarget, -⟩ | ⟨time, rest, -, -, -, rfl⟩
      · exact htarget.trans ih
      · exact ((Actor.withTimes _ rest).handleTick_listens pmu time).2.1.trans ih

/-- A turn does not open a channel that was closed. -/
theorem Actor.Turn.closed {a b : Actor σ} {handled : List Handling} (h : Turn pmu a handled b)
    (hclosed : a.machine.mailbox.ticks.accepting = false) :
    b.machine.acceptedTicks = a.machine.acceptedTicks ∧
      b.machine.mailbox.ticks.accepting = false := by
  rcases h.listens_or_handles with ⟨-, hlistens, -, -⟩ | ⟨time, rest, -, -, -, rfl⟩
  · refine ⟨?_, (hlistens.closed hclosed).1⟩
    rw [hlistens.accepted, List.append_nil]
  · obtain ⟨-, -, heard, m, hlistens, hticks, haccepted, -⟩ :=
      (a.withTimes rest).handleTick_listens pmu time
    obtain ⟨hstill, rfl⟩ := hlistens.closed hclosed
    refine ⟨?_, by rw [hticks]; exact hstill⟩
    rw [haccepted, hlistens.accepted, List.append_nil]
    rfl

/-- **What is closed stays closed**: an actor whose channel is closed accepts no tick any more. -/
theorem Actor.Reaches.closed {a b : Actor σ} {hs : List Handling} (h : Reaches pmu a hs b)
    (hclosed : a.machine.mailbox.ticks.accepting = false) :
    b.machine.acceptedTicks = a.machine.acceptedTicks ∧
      b.machine.mailbox.ticks.accepting = false := by
  induction h with
  | refl => exact ⟨rfl, hclosed⟩
  | @outside hs c _ step ih =>
      obtain ⟨heard, hlistens⟩ := listens_outside c.machine step
      obtain ⟨hstill, rfl⟩ := hlistens.closed ih.2
      refine ⟨?_, hstill⟩
      rw [← ih.1, ← List.append_nil c.machine.acceptedTicks]
      exact hlistens.accepted
  | turn _ hturn ih =>
      obtain ⟨haccepted, hstill⟩ := hturn.closed ih.2
      exact ⟨haccepted.trans ih.1, hstill⟩

/-- A monitor that starts has handled nothing, and goes by the name of its target. -/
theorem Monitor.start_listens {config : MonitoringConfig} {backend : Option Backend} {m : Machine σ}
    {a : Actor σ} (h : start pmu config backend m = .ok a) :
    a.phase = .running ∧ config.target.name = .ok a.target ∧
      ∃ heard, Listens m a.machine heard := by
  obtain ⟨hphase, hname, m₁, m₂, hsetups, huses, hmachine⟩ := start_ok h
  obtain ⟨heard, henable⟩ := listens_uses huses
  have hstarted : Listens m₂ a.machine [] := by
    rw [hmachine]
    exact listens_note m₂ rfl
  exact ⟨hphase, hname, _, ((listens_setups hsetups).trans henable).trans hstarted⟩

/-- **No tick is lost, and none is handled twice.**  A monitor starts, and turns of its actor and
steps of the surroundings come in any order.  The ticks handled are the first of those that were
waiting or were accepted since, and all of them when the actor has stopped.  While it drains its
channel, and afterwards, ticks are refused.  Every payload carries the time of its tick and the name
of the target, and those made are, in the order of their ticks, first delivered and then, with
nobody left to take them, dropped with a notice.  The states spoken of are those that passes of the
actor and steps of the surroundings lead to, and no others. -/
theorem ticks_handled_once {config : MonitoringConfig} {backend : Option Backend} {m : Machine σ}
    {a b : Actor σ} {hs : List Handling} (hstart : Monitor.start pmu config backend m = .ok a)
    (hrun : Actor.Reaches pmu a hs b) :
    (∃ accepted, b.machine.acceptedTicks = m.acceptedTicks ++ accepted ∧
      hs.map Handling.time <+: m.mailbox.ticks.queue ++ accepted ∧
      (b.phase = .stopped → hs.map Handling.time = m.mailbox.ticks.queue ++ accepted)) ∧
    (b.phase = .draining ∨ b.phase = .stopped → ∀ hs' c, Actor.Reaches pmu b hs' c →
      c.machine.acceptedTicks = b.machine.acceptedTicks ∧
      ∀ time, c.machine.outside (.tick time) = c.machine.call (.ticked time false)) ∧
    (∀ h ∈ hs, ∀ p, h.outcome = .ok p →
      p.timestamp = h.time ∧ config.target.name = .ok p.target) ∧
    (∃ sent lost, hs.filterMap Handling.payload? = sent ++ lost ∧
      b.machine.mailbox.sink.queue = m.mailbox.sink.queue ++ sent ∧
      b.machine.droppedTimes = m.droppedTimes ++ lost.map Payload.timestamp) ∧
    ∀ c, (∃ hs', Actor.Reaches pmu a hs' c) ↔ Relation.ReflTransGen (Actor.Moves pmu) a c := by
  obtain ⟨hphase, hname, heard, hlistens⟩ := Monitor.start_listens hstart
  have hticks : TickAccount m a [] heard := {
    accepted := hlistens.accepted
    ticks := by rw [hlistens.ticks]; rfl
    closed := by rw [hphase]; rintro (h | h) <;> cases h
    finished := by rw [hphase]; exact nofun }
  have hpayloads : PayloadAccount m a [] [] [] := {
    labels := fun _ h => absurd h List.not_mem_nil
    offered := rfl
    delivered := by rw [hlistens.delivered, List.append_nil]
    dropped := by rw [hlistens.dropped]; exact (List.append_nil _).symm
    sink := fun h => absurd rfl h }
  obtain ⟨accepted, haccount⟩ := hticks.reaches hrun
  obtain ⟨sent, lost, hpaid⟩ := hpayloads.reaches hrun
  refine ⟨⟨accepted, haccount.accepted, ?_, fun hstopped => ?_⟩, fun hb hs' c hmore => ?_,
    fun h hmem p hp => ?_, ⟨sent, lost, hpaid.offered, hpaid.delivered, hpaid.dropped⟩,
    fun c => Actor.exists_reaches_iff⟩
  · rw [haccount.ticks]
    exact List.prefix_append _ _
  · rw [haccount.ticks, haccount.finished hstopped, List.append_nil]
  · obtain ⟨hsame, hclosed⟩ := hmore.closed (haccount.closed hb)
    exact ⟨hsame, outside_tick_of_closed hclosed⟩
  · obtain ⟨htime, htarget⟩ := hpaid.labels h hmem p hp
    rw [htarget, Actor.target_reaches hrun, hname]
    exact ⟨htime, rfl⟩

/-- One event on one CPU, for all processes. -/
def MonitoringConfig.oneCpu : MonitoringConfig :=
  { topology := ⟨⟨[(0, ⟨[2], by decide⟩)], by decide⟩⟩
    groups := ⟨[("core", ⟨"core", .allCpus, [⟨"instr", Hardware.instr.event⟩]⟩)], by decide⟩
    target := .system
    sampling := {} }

/-- A tick is waiting at the start.  While the one leaf is read for it, another tick is sent and the
command to stop; while it is read for that one, a third is sent, to a closed channel. -/
theorem ticks_handled_once_around_stop :
    let pmu : Pmu ScriptProgress := Script.pmu {
      outside := [(0, .tick 8), (0, .command Actor.terminateCommand), (1, .tick 9)] }
    let m : Machine ScriptProgress := { state := {}, mailbox := { ticks := { queue := [7] } } }
    ∃ a b hs, Monitor.start pmu .oneCpu none m = .ok a ∧ Actor.Reaches pmu a hs b ∧
      hs.map Handling.time = [7, 8] ∧ .ticked 9 false ∈ b.machine.trace ∧
      b.machine.mailbox.sink.queue.map (fun p => (p.timestamp, p.target))
        = [(7, "all"), (8, "all")] ∧
      ∀ hs' c, Actor.Reaches pmu b hs' c → c.machine.acceptedTicks = [8] := by
  intro pmu m
  have hends : (Monitor.run pmu .oneCpu none 9 m).map (fun d => (d.1.toOption, d.2.acceptedTicks,
      decide (.ticked 9 false ∈ d.2.trace),
      d.2.mailbox.sink.queue.map fun p => (p.timestamp, p.target)))
      = some (some (), [8], true, [(7, "all"), (8, "all")]) := by decide +kernel
  obtain ⟨⟨r, m'⟩, hrun, hd⟩ := Option.map_eq_some_iff.mp hends
  simp only [Prod.mk.injEq, decide_eq_true_eq] at hd
  obtain ⟨hr, htaken, hrefused, hsent⟩ := hd
  obtain rfl := Except.toOption_eq_some_iff.mp hr
  obtain ⟨a, hs, b, hstart, hreach, hstopped, rfl⟩ := Monitor.run_reaches hrun
  obtain ⟨⟨accepted, haccepted, -, hall⟩, hclosed, -, -, -⟩ := ticks_handled_once hstart hreach
  have hnew : accepted = [8] := haccepted.symm.trans htaken
  refine ⟨a, b, hs, hstart, hreach, ?_, hrefused, hsent, fun hs' c hmore => ?_⟩
  · rw [hall hstopped, hnew]
    rfl
  · exact (hclosed (.inr hstopped) hs' c hmore).1.trans htaken

end CounterWatch
