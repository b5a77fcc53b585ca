import CounterWatch.Proofs.Monitor.Ticks
import CounterWatch.Proofs.Session.Record

/-!
# Proofs/Monitor/Commands — how commands stop an actor

Commands wait in a channel, like ticks, and go before them.  An actor turns down what it does not
know; it stops at the first command that says so, or when nobody is left to send commands or ticks.
Then it handles the ticks that wait, and none besides.

* `Machine.Hears` — what happens to the channel of commands while an actor does something else.
* `CommandAccount` — what every turn and every step of the surroundings preserves: the commands
  accepted are those turned down, in order, and those left over; and why the actor stopped, if it
  did.
* `Actor.Halting.reaches` — once an actor has to stop, its loop takes no further tick.
* `Actor.Reaches.drained` — a channel that is drained was closed: only what it held is handled.
* `stop_is_prompt` — all of this, in every state that a monitor can come to.
-/

namespace CounterWatch

variable {σ : Type} {pmu : Pmu σ}

/-- The command that a step of the surroundings sent, if it was accepted. -/
def Call.acceptedCommand? : Call → Option String
  | .sent text true => some text
  | _ => none

/-- Whether a notice answers a command, or says why an actor stops. -/
def Notice.isAnswer : Notice → Bool
  | .unknownCommand _ | .terminated | .controlClosed | .tickerClosed => true
  | _ => false

namespace Machine

/-- The commands accepted so far, in the order they were sent. -/
def acceptedCommands (m : Machine σ) : List String := m.trace.filterMap Call.acceptedCommand?

/-- What the actor said of commands, and of its stop. -/
def answers (m : Machine σ) : List Notice := m.log.filter Notice.isAnswer

/-! ## Hearing commands -/

/-- Between two machines no command was taken and nothing answered, and these were accepted. -/
structure Hears (m m' : Machine σ) (heard : List String) : Prop where
  commands : m'.mailbox.control.queue = m.mailbox.control.queue ++ heard
  accepted : m'.acceptedCommands = m.acceptedCommands ++ heard
  answers : m'.answers = m.answers
  /-- A channel that nothing can come from stays one. -/
  control : m.mailbox.control.isOpen = false → m'.mailbox.control.isOpen = false ∧ heard = []
  ticks : m.mailbox.ticks.isOpen = false →
    m'.mailbox.ticks.isOpen = false ∧ m'.mailbox.ticks.queue = m.mailbox.ticks.queue

theorem Hears.trans {m m' m'' : Machine σ} {heard heard' : List String} (h : Hears m m' heard)
    (h' : Hears m' m'' heard') : Hears m m'' (heard ++ heard') where
  commands := by rw [h'.commands, h.commands, List.append_assoc]
  accepted := by rw [h'.accepted, h.accepted, List.append_assoc]
  answers := h'.answers.trans h.answers
  control hc := by
    obtain ⟨hc', rfl⟩ := h.control hc
    obtain ⟨hc'', rfl⟩ := h'.control hc'
    exact ⟨hc'', rfl⟩
  ticks ht := by
    obtain ⟨ht', hqueue⟩ := h.ticks ht
    obtain ⟨ht'', hqueue'⟩ := h'.ticks ht'
    exact ⟨ht'', hqueue'.trans hqueue⟩

/-- What leaves the channels alone, and records no command and no answer, is hearing nothing. -/
theorem hears_of_eq {m m' : Machine σ} (hmailbox : m'.mailbox = m.mailbox)
    (haccepted : m'.acceptedCommands = m.acceptedCommands) (hanswers : m'.answers = m.answers) :
    Hears m m' [] where
  commands := by rw [hmailbox, List.append_nil]
  accepted := by rw [haccepted, List.append_nil]
  answers := hanswers
  control h := by rw [hmailbox]; exact ⟨h, rfl⟩
  ticks h := by rw [hmailbox]; exact ⟨h, rfl⟩

theorem answers_note_of_not (m : Machine σ) {n : Notice} (h : n.isAnswer = false) :
    (m.note n).answers = m.answers := by
  rw [answers, note, List.filter_append, List.filter_cons_of_neg (by rw [h]; decide)]
  exact List.append_nil _

theorem answers_note (m : Machine σ) {n : Notice} (h : n.isAnswer = true) :
    (m.note n).answers = m.answers ++ [n] := by
  rw [answers, note, List.filter_append, List.filter_cons_of_pos h]
  rfl

theorem acceptedCommands_call (m : Machine σ) (c : Call) :
    (m.call c).acceptedCommands = m.acceptedCommands ++ c.acceptedCommand?.toList := by
  rw [acceptedCommands, call, List.filterMap_append]
  cases h : c.acceptedCommand? <;> simp only [List.filterMap_cons, h, List.filterMap_nil] <;> rfl

theorem hears_quiet {m m' : Machine σ} (h : m.Quiet m') : Hears m m' [] := by
  obtain ⟨hmailbox, ⟨calls, htrace, hcalls⟩, ⟨notices, hlog, hnotices⟩⟩ := h
  refine hears_of_eq hmailbox ?_ ?_
  · have hnone : calls.filterMap Call.acceptedCommand? = [] := by
      refine List.filterMap_eq_nil_iff.mpr fun c hc => ?_
      have hmessage := hcalls c hc
      cases c <;> first | rfl | cases hmessage
    rw [acceptedCommands, htrace, List.filterMap_append, hnone, List.append_nil]
    rfl
  · have hnone : notices.filter Notice.isAnswer = [] := by
      refine List.filter_eq_nil_iff.mpr fun n hn => ?_
      have hother := hnotices n hn
      cases n <;> first | exact Bool.false_ne_true | cases hother
    rw [answers, hlog, List.filter_append, hnone, List.append_nil]
    rfl

/-- **The surroundings add commands to an open channel**, and none to a closed one. -/
theorem hears_outside (m : Machine σ) (step : OutsideStep) :
    ∃ heard, Hears m (m.outside step) heard := by
  cases step with
  | command text =>
      by_cases h : m.mailbox.control.isOpen = true
      · have hsend : m.mailbox.control.send text
            = (true, { m.mailbox.control with queue := m.mailbox.control.queue ++ [text] }) :=
          if_pos h
        refine ⟨[text], ?_⟩
        rw [outside, hsend]
        exact {
          commands := rfl
          accepted := m.acceptedCommands_call (.sent text true)
          answers := rfl
          control := fun hc => by rw [hc] at h; cases h
          ticks := fun ht => ⟨ht, rfl⟩ }
      · have hsend : m.mailbox.control.send text = (false, m.mailbox.control) := if_neg h
        refine ⟨[], ?_⟩
        rw [outside, hsend]
        refine hears_of_eq rfl ?_ rfl
        exact (m.acceptedCommands_call (.sent text false)).trans (List.append_nil _)
  | tick time =>
      by_cases h : m.mailbox.ticks.isOpen = true
      · have hsend : m.mailbox.ticks.send time
            = (true, { m.mailbox.ticks with queue := m.mailbox.ticks.queue ++ [time] }) :=
          if_pos h
        refine ⟨[], ?_⟩
        rw [outside, hsend]
        exact {
          commands := (List.append_nil _).symm
          accepted := m.acceptedCommands_call (.ticked time true)
          answers := rfl
          control := fun hc => ⟨hc, rfl⟩
          ticks := fun ht => by rw [ht] at h; cases h }
      · have hsend : m.mailbox.ticks.send time = (false, m.mailbox.ticks) := if_neg h
        refine ⟨[], ?_⟩
        rw [outside, hsend]
        refine hears_of_eq rfl ?_ rfl
        exact (m.acceptedCommands_call (.ticked time false)).trans (List.append_nil _)
  | dropControl =>
      exact ⟨[], { hears_of_eq (m := m) rfl rfl rfl with control := fun _ => ⟨rfl, rfl⟩ }⟩
  | dropTicker =>
      exact ⟨[], { hears_of_eq (m := m) rfl rfl rfl with ticks := fun _ => ⟨rfl, rfl⟩ }⟩
  | dropSink => exact ⟨[], { hears_of_eq (m := m) rfl rfl rfl with }⟩
  | produce id b =>
      refine ⟨[], ?_⟩
      rw [outside, produce]
      split
      · exact hears_of_eq rfl rfl rfl
      · exact hears_of_eq rfl rfl rfl

/-- **Working with counters is hearing**; what is heard is heard during reads. -/
theorem hears_uses {m m' : Machine σ} (h : Uses pmu m m') : ∃ heard, Hears m m' heard :=
  h.induction (R := fun m m' => ∃ heard, Hears m m' heard)
    (fun ⟨_, h⟩ ⟨_, h'⟩ => ⟨_, h.trans h'⟩) (fun h => ⟨[], hears_quiet h⟩) hears_outside

end Machine

open Machine

theorem Actor.handleTick_hears (pmu : Pmu σ) (time : UInt64) (a : Actor σ) :
    ∃ heard, Hears a.machine (a.handleTick pmu time).machine heard := by
  obtain ⟨-, -, m, huses, hsettled⟩ := a.handleTick_uses pmu time
  obtain ⟨heard, hhears⟩ := hears_uses huses
  refine ⟨heard ++ [], hhears.trans ?_⟩
  rcases hsettled with ⟨p, -, hmachine⟩ | ⟨e, -, hmachine⟩
  · rw [hmachine, deliver]
    split
    · exact { hears_of_eq (m := m) rfl rfl rfl with }
    · exact hears_of_eq rfl rfl (m.answers_note_of_not rfl)
  · rw [hmachine]
    exact hears_of_eq rfl rfl (m.answers_note_of_not rfl)

/-! ## What becomes of commands -/

/-- Why an actor stopped: it came to the command that says so, with others behind it; or nobody is
left to send commands, and there are none; or nobody is left to send ticks, and there are none. -/
inductive StoppedBy (m : Machine σ) : Notice → List String → Prop
  | command (behind : List String) : StoppedBy m .terminated (Actor.terminateCommand :: behind)
  | control (hgone : m.mailbox.control.isOpen = false) : StoppedBy m .controlClosed []
  | ticker (hgone : m.mailbox.ticks.isOpen = false) (hempty : m.mailbox.ticks.queue = [])
      (left : List String) : StoppedBy m .tickerClosed left

/-- How far an actor has come with its commands, some of which it took and turned down: the others
wait, or the actor has stopped at them. -/
inductive CommandsLeft (a : Actor σ) (before : List Notice) (taken left : List String) : Prop
  | waiting (hphase : a.phase = .running) (hleft : left = a.machine.mailbox.control.queue)
      (hanswers : a.machine.answers = before ++ taken.map .unknownCommand)
  | stopped (hphase : a.phase ≠ .running) {reason : Notice}
      (hreason : StoppedBy a.machine reason left)
      (hanswers : a.machine.answers = before ++ taken.map .unknownCommand ++ [reason])

/-- How the commands heard since a machine was as it was belong together with those taken and those
left. -/
structure CommandAccount (m : Machine σ) (a : Actor σ) (heard taken left : List String) : Prop where
  accepted : a.machine.acceptedCommands = m.acceptedCommands ++ heard
  commands : m.mailbox.control.queue ++ heard = taken ++ left
  harmless : Actor.terminateCommand ∉ taken
  left : CommandsLeft a m.answers taken left

theorem StoppedBy.of_mailbox_eq {m m' : Machine σ} {reason : Notice} {left : List String}
    (h : StoppedBy m reason left) (hmailbox : m'.mailbox = m.mailbox) :
    StoppedBy m' reason left := by
  cases h with
  | command behind => exact .command behind
  | control hgone => exact .control (by rw [hmailbox]; exact hgone)
  | ticker hgone hempty left =>
      exact .ticker (by rw [hmailbox]; exact hgone) (by rw [hmailbox]; exact hempty) left

theorem StoppedBy.hears {m m' : Machine σ} {reason : Notice} {left heard : List String}
    (h : StoppedBy m reason left) (hhears : Hears m m' heard) :
    StoppedBy m' reason (left ++ heard) := by
  cases h with
  | command behind => exact .command (behind ++ heard)
  | control hgone =>
      obtain ⟨hgone', rfl⟩ := hhears.control hgone
      exact .control hgone'
  | ticker hgone hempty left =>
      obtain ⟨hgone', hqueue⟩ := hhears.ticks hgone
      exact .ticker hgone' (hqueue.trans hempty) _

namespace CommandAccount

variable {m : Machine σ} {a b : Actor σ} {heard taken left : List String}

theorem hears (h : CommandAccount m a heard taken left) {heard' : List String}
    (hhears : Hears a.machine b.machine heard') (hphase : b.phase = .running ↔ a.phase = .running) :
    CommandAccount m b (heard ++ heard') taken (left ++ heard') where
  accepted := by rw [hhears.accepted, h.accepted, List.append_assoc]
  commands := by rw [← List.append_assoc, h.commands, List.append_assoc]
  harmless := h.harmless
  left := by
    rcases h.left with ⟨ha, hleft, hanswers⟩ | ⟨ha, hreason, hanswers⟩
    · refine .waiting (hphase.mpr ha) ?_ (hhears.answers.trans hanswers)
      rw [hhears.commands, hleft]
    · exact .stopped (fun hb => ha (hphase.mp hb)) (hreason.hears hhears)
        (hhears.answers.trans hanswers)

/-- What is left to a running actor waits in its channel. -/
theorem left_of_running (h : CommandAccount m a heard taken left) (hphase : a.phase = .running) :
    left = a.machine.mailbox.control.queue ∧
      a.machine.answers = m.answers ++ taken.map .unknownCommand := by
  rcases h.left with ⟨-, hleft, hanswers⟩ | ⟨ha, -, -⟩
  · exact ⟨hleft, hanswers⟩
  · exact absurd hphase ha

/-- The actor stops, and says why. -/
theorem stop (h : CommandAccount m a heard taken left) (hphase : a.phase = .running)
    {reason : Notice} {m' : Machine σ} (hreason : StoppedBy m' reason left)
    (haccepted : m'.acceptedCommands = a.machine.acceptedCommands)
    (hanswers : m'.answers = a.machine.answers) (hanswer : reason.isAnswer = true) :
    CommandAccount m (a.stop reason m') heard taken left where
  accepted := haccepted.trans h.accepted
  commands := h.commands
  harmless := h.harmless
  left := by
    refine .stopped nofun (hreason.of_mailbox_eq rfl) ?_
    exact (m'.answers_note hanswer).trans (by rw [hanswers, (h.left_of_running hphase).2])

/-- A tick that is taken is none of the commands. -/
theorem withTimes (h : CommandAccount m a heard taken left) {time : UInt64} {rest : List UInt64}
    (hticks : a.machine.mailbox.ticks.queue = time :: rest) :
    CommandAccount m (a.withTimes rest) heard taken left where
  accepted := h.accepted
  commands := h.commands
  harmless := h.harmless
  left := by
    rcases h.left with ⟨hphase, hleft, hanswers⟩ | ⟨hphase, hreason, hanswers⟩
    · exact .waiting hphase hleft hanswers
    · refine .stopped hphase ?_ hanswers
      cases hreason with
      | command behind => exact .command behind
      | control hgone => exact .control hgone
      | ticker hgone hempty left =>
          rw [hticks] at hempty
          cases hempty

theorem handle (h : CommandAccount m a heard taken left) (pmu : Pmu σ) {time : UInt64}
    {rest : List UInt64} (hticks : a.machine.mailbox.ticks.queue = time :: rest) :
    ∃ heard', CommandAccount m ((a.withTimes rest).handleTick pmu time) (heard ++ heard') taken
      (left ++ heard') := by
  obtain ⟨heard', hhears⟩ := (a.withTimes rest).handleTick_hears pmu time
  obtain ⟨hsame, -⟩ := (a.withTimes rest).handleTick_listens pmu time
  exact ⟨heard', (h.withTimes hticks).hears hhears (by rw [hsame])⟩

/-- An actor that has drained its channel lets go of it. -/
theorem finish (h : CommandAccount m a heard taken left) (pmu : Pmu σ)
    (hphase : a.phase = .draining) : CommandAccount m a.finish heard taken left := by
  have hsetups : Setups pmu a.machine (a.tree.close a.machine) := a.tree.close_setups a.machine
  have hclose := hears_quiet hsetups.quiet
  refine ⟨?_, h.commands, h.harmless, ?_⟩
  · rw [← h.accepted, ← List.append_nil a.machine.acceptedCommands]
    exact hclose.accepted
  · rcases h.left with ⟨ha, -, -⟩ | ⟨-, hreason, hanswers⟩
    · rw [hphase] at ha
      cases ha
    · refine .stopped nofun ?_ (hclose.answers.trans hanswers)
      cases hreason with
      | command behind => exact .command behind
      | control hgone => exact .control (Bool.and_false _)
      | ticker hgone hempty left =>
          exact .ticker (m := a.finish.machine) (Bool.and_false _) rfl left

/-- **A turn takes a command and turns it down, or stops, or leaves the commands alone.** -/
theorem turn (h : CommandAccount m a heard taken left) {handled : List Handling}
    (hturn : Actor.Turn pmu a handled b) :
    ∃ heard' taken' left', CommandAccount m b heard' taken' left' := by
  cases hturn with
  | @terminate rest hphase hcontrol =>
      obtain ⟨rfl, -⟩ := h.left_of_running hphase
      refine ⟨heard, taken, _, h.stop hphase ?_ rfl rfl rfl⟩
      rw [hcontrol]
      exact .command rest
  | @reject command rest hphase hcontrol hcommand =>
      obtain ⟨rfl, hanswers⟩ := h.left_of_running hphase
      refine ⟨heard, taken ++ [command], rest, h.accepted, ?_, ?_, ?_⟩
      · rw [h.commands, hcontrol, List.append_assoc]
        rfl
      · rw [List.mem_append, List.mem_singleton]
        exact not_or.mpr ⟨h.harmless, fun heq => hcommand heq.symm⟩
      · refine .waiting hphase rfl ?_
        refine ((a.withCommands rest).machine.answers_note rfl).trans ?_
        rw [List.map_append, ← List.append_assoc, ← hanswers]
        rfl
  | controlClosed hphase hcontrol hgone =>
      obtain ⟨rfl, -⟩ := h.left_of_running hphase
      refine ⟨heard, taken, _, h.stop hphase ?_ rfl rfl rfl⟩
      rw [hcontrol]
      exact .control hgone
  | handle hphase hcontrol hthere hticks =>
      obtain ⟨heard', hnext⟩ := h.handle pmu hticks
      exact ⟨_, _, _, hnext⟩
  | tickerClosed hphase hcontrol hthere hticks hgone =>
      obtain ⟨rfl, -⟩ := h.left_of_running hphase
      exact ⟨heard, taken, _, h.stop hphase (.ticker hgone hticks _) rfl rfl rfl⟩
  | closeTicks hphase =>
      have hclosed : Hears a.machine a.closeTicks.machine [] :=
        { hears_of_eq (m := a.machine) rfl rfl rfl with ticks := fun _ => ⟨Bool.and_false _, rfl⟩ }
      exact ⟨_, _, _, h.hears hclosed (by rw [hphase]; exact ⟨nofun, nofun⟩)⟩
  | drain hphase hticks =>
      obtain ⟨heard', hnext⟩ := h.handle pmu hticks
      exact ⟨_, _, _, hnext⟩
  | finish hphase hticks hgone => exact ⟨_, _, _, h.finish pmu hphase⟩

theorem reaches (h : CommandAccount m a heard taken left) {hs : List Handling}
    (hrun : Actor.Reaches pmu a hs b) :
    ∃ heard' taken' left', CommandAccount m b heard' taken' left' := by
  induction hrun with
  | refl => exact ⟨heard, taken, left, h⟩
  | @outside _ c _ step ih =>
      obtain ⟨_, _, _, ih⟩ := ih
      obtain ⟨heard', hhears⟩ := hears_outside c.machine step
      exact ⟨_, _, _, ih.hears (b := c.outside step) hhears .rfl⟩
  | turn _ hturn ih =>
      obtain ⟨_, _, _, ih⟩ := ih
      exact ih.turn hturn

end CommandAccount

/-! ## Stopping -/

namespace Actor

variable {a b : Actor σ} {hs : List Handling}

/-- Whether an actor, if it is in its loop, has to leave it before it takes another tick: it was
told to stop, or nobody can tell it to any more. -/
def Halting (a : Actor σ) : Prop :=
  a.phase = .running →
    terminateCommand ∈ a.machine.mailbox.control.queue ∨ a.machine.mailbox.control.isOpen = false

theorem Halting.hears (h : a.Halting) {heard : List String}
    (hhears : Hears a.machine b.machine heard) (hphase : b.phase = a.phase) : b.Halting := by
  intro hb
  rcases h (hphase.symm.trans hb) with hmem | hclosed
  · refine .inl ?_
    rw [hhears.commands]
    exact List.mem_append_left _ hmem
  · exact .inr (hhears.control hclosed).1

/-- **The loop takes a tick only when no command waits**, and somebody is there to send one. -/
theorem Turn.idle_of_handles (h : Turn pmu a hs b) (hphase : a.phase = .running) (hne : hs ≠ []) :
    a.machine.mailbox.control.queue = [] ∧ a.machine.mailbox.control.isOpen = true := by
  cases h with
  | terminate | reject | controlClosed | tickerClosed | closeTicks | finish =>
      exact absurd rfl hne
  | handle _ hcontrol hthere => exact ⟨hcontrol, hthere⟩
  | drain hdraining => cases hphase.symm.trans hdraining

/-- An actor in its loop, or about to leave it, comes from its loop. -/
theorem Turn.running_of_loop (h : Turn pmu a hs b)
    (hb : b.phase = .running ∨ b.phase = .stopping) : a.phase = .running := by
  cases h with
  | terminate hphase | reject hphase | controlClosed hphase | handle hphase
  | tickerClosed hphase => exact hphase
  | closeTicks | finish => rcases hb with hb | hb <;> cases hb
  | @drain time rest hphase hticks =>
      obtain ⟨hsame, -⟩ := (a.withTimes rest).handleTick_listens pmu time
      rw [hsame] at hb
      rcases hb with hb | hb <;> cases hphase.symm.trans hb

/-- **Why the loop ends**: it came to the command to stop, or nobody is left to send commands, or
ticks, and none are waiting. -/
theorem Turn.reason_of_stops (h : Turn pmu a hs b) (hphase : a.phase = .running)
    (hb : b.phase ≠ .running) :
    (∃ behind, a.machine.mailbox.control.queue = terminateCommand :: behind) ∨
    (a.machine.mailbox.control.queue = [] ∧ a.machine.mailbox.control.isOpen = false) ∨
    a.machine.mailbox.ticks.queue = [] ∧ a.machine.mailbox.ticks.isOpen = false := by
  cases h with
  | terminate _ hcontrol => exact .inl ⟨_, hcontrol⟩
  | reject => exact absurd hphase hb
  | controlClosed _ hcontrol hgone => exact .inr (.inl ⟨hcontrol, hgone⟩)
  | @handle time rest =>
      obtain ⟨hsame, -⟩ := (a.withTimes rest).handleTick_listens pmu time
      exact absurd (hsame.trans hphase) hb
  | tickerClosed _ _ _ hticks hgone => exact .inr (.inr ⟨hticks, hgone⟩)
  | closeTicks hstopping => cases hphase.symm.trans hstopping
  | drain hdraining => cases hphase.symm.trans hdraining
  | finish hdraining => cases hphase.symm.trans hdraining

/-- A turn of an actor that has to stop handles no tick in its loop, and leaves it one that has to
stop. -/
theorem Turn.halting (h : Turn pmu a hs b) (hhalt : a.Halting) :
    b.Halting ∧ (b.phase = .running ∨ b.phase = .stopping → hs = []) := by
  have hidle : b.phase = .running ∨ b.phase = .stopping → hs = [] := by
    intro hloop
    have hphase := h.running_of_loop hloop
    refine Classical.byContradiction fun hne => ?_
    obtain ⟨hempty, hopen⟩ := h.idle_of_handles hphase hne
    rcases hhalt hphase with hmem | hclosed
    · rw [hempty] at hmem
      cases hmem
    · rw [hclosed] at hopen
      cases hopen
  refine ⟨fun hb => ?_, hidle⟩
  cases h with
  | @reject command rest hphase hcontrol hcommand =>
      rcases hhalt hphase with hmem | hclosed
      · rw [hcontrol] at hmem
        exact .inl ((List.mem_cons.mp hmem).resolve_left fun heq => hcommand heq.symm)
      · exact .inr hclosed
  | terminate | controlClosed | tickerClosed | closeTicks | finish => cases hb
  | handle | drain => cases hidle (.inl hb)

/-- **Once an actor has to stop, its loop takes no further tick.** -/
theorem Halting.reaches (hhalt : a.Halting) (hrun : Reaches pmu a hs b) :
    b.Halting ∧ (b.phase = .running ∨ b.phase = .stopping → hs = []) := by
  induction hrun with
  | refl => exact ⟨hhalt, fun _ => rfl⟩
  | @outside hs c _ step ih =>
      obtain ⟨heard, hhears⟩ := hears_outside c.machine step
      exact ⟨ih.1.hears (b := c.outside step) hhears rfl, ih.2⟩
  | turn _ hturn ih =>
      obtain ⟨hhalting, hnone⟩ := hturn.halting ih.1
      refine ⟨hhalting, fun hloop => ?_⟩
      rw [hnone hloop, ih.2 (.inl (hturn.running_of_loop hloop))]
      rfl

/-- **The loop of an actor that has to stop never waits.** -/
theorem Halting.exists_turn (hhalt : a.Halting) (hphase : a.phase = .running) :
    ∃ c, Turn pmu a [] c := by
  rcases hqueue : a.machine.mailbox.control.queue with _ | ⟨command, rest⟩
  · rcases hhalt hphase with hmem | hclosed
    · rw [hqueue] at hmem
      cases hmem
    · exact ⟨_, .controlClosed hphase hqueue hclosed⟩
  · by_cases hcommand : command = terminateCommand
    · exact ⟨_, .terminate hphase (hcommand ▸ hqueue)⟩
    · exact ⟨_, .reject hphase hqueue hcommand⟩

/-! ## Draining -/

/-- What an actor has accounted for, before it handles a tick. -/
theorem tickAccount_refl (hphase : a.phase ≠ .stopped)
    (hclosed : a.phase = .draining → a.machine.mailbox.ticks.accepting = false) :
    TickAccount a.machine a [] [] where
  accepted := (List.append_nil _).symm
  ticks := List.append_nil _
  closed h := hclosed (h.resolve_right hphase)
  finished h := absurd h hphase

/-- An actor drains a channel that it has closed. -/
theorem Reaches.accepting_of_draining (hrun : Reaches pmu a hs b) (ha : a.phase = .running)
    (hb : b.phase = .draining) : b.machine.mailbox.ticks.accepting = false := by
  have hnow := tickAccount_refl (a := a) (by rw [ha]; decide) (by rw [ha]; exact nofun)
  obtain ⟨heard, haccount⟩ := hnow.reaches hrun
  exact haccount.closed (.inl hb)

/-- **What is drained is what the channel held when it was closed**, whatever is sent since. -/
theorem Reaches.drained (hrun : Reaches pmu a hs b) (hphase : a.phase = .draining)
    (hclosed : a.machine.mailbox.ticks.accepting = false) :
    hs.map Handling.time <+: a.machine.mailbox.ticks.queue ∧
      (b.phase = .stopped → hs.map Handling.time = a.machine.mailbox.ticks.queue) := by
  have hnow := tickAccount_refl (by rw [hphase]; decide) fun _ => hclosed
  obtain ⟨heard, haccount⟩ := hnow.reaches hrun
  have hnone : heard = [] := by
    have haccepted := haccount.accepted
    rw [(hrun.closed hclosed).1] at haccepted
    exact List.self_eq_append_right.mp haccepted
  have hticks := haccount.ticks
  rw [hnone, List.append_nil] at hticks
  rw [hticks]
  refine ⟨List.prefix_append _ _, fun hstopped => ?_⟩
  rw [haccount.finished hstopped, List.append_nil]

/-- **A channel that was closed is drained without waiting.** -/
theorem exists_turn_of_draining (hphase : a.phase = .draining)
    (hclosed : a.machine.mailbox.ticks.accepting = false) : ∃ handled c, Turn pmu a handled c := by
  rcases hqueue : a.machine.mailbox.ticks.queue with _ | ⟨time, rest⟩
  · have hgone : a.machine.mailbox.ticks.isOpen = false := by
      rw [Channel.isOpen, hclosed, Bool.and_false]
    exact ⟨_, _, .finish hphase hqueue hgone⟩
  · exact ⟨_, _, .drain hphase hqueue⟩

end Actor

/-! ## A whole run -/

/-- A monitor that starts has taken no command. -/
theorem Monitor.start_commandAccount {config : MonitoringConfig} {backend : Option Backend}
    {m : Machine σ} {a : Actor σ} (h : start pmu config backend m = .ok a) :
    ∃ heard, CommandAccount m a heard [] (m.mailbox.control.queue ++ heard) := by
  obtain ⟨hphase, -, m₁, m₂, hsetups, huses, hmachine⟩ := start_ok h
  obtain ⟨heard, henabled⟩ := hears_uses huses
  have hstarted : Hears m₂ a.machine [] := by
    rw [hmachine]
    exact hears_of_eq rfl rfl (m₂.answers_note_of_not rfl)
  have hhears := ((hears_quiet hsetups.quiet).trans henabled).trans hstarted
  refine ⟨_, hhears.accepted, rfl, List.not_mem_nil, .waiting hphase hhears.commands.symm ?_⟩
  exact hhears.answers.trans (List.append_nil _).symm

/-- **A monitor stops promptly, and for a reason; its last ticks are those that waited.**  A monitor
starts, and turns of its actor and steps of the surroundings come in any order.  The commands that
were waiting or accepted since are taken in order, each turned down with a notice, up to the first
that says to stop; those behind it are never taken.  Once that command was accepted, or the sender
of commands is gone, the loop never waits, and takes no further tick until it ends.  In the loop a
tick is taken only when no command waits and its sender is there, and the loop ends only at the
command to stop, or with nobody left to send commands, or ticks, and none waiting.  Once the channel
of ticks was closed, exactly the ticks in it are handled, and nothing is waited for.  A turn is what
a pass of the actor does. -/
theorem stop_is_prompt {config : MonitoringConfig} {backend : Option Backend} {m : Machine σ}
    {a b : Actor σ} {hs : List Handling} (hstart : Monitor.start pmu config backend m = .ok a)
    (hrun : Actor.Reaches pmu a hs b) :
    (∃ heard taken left, CommandAccount m b heard taken left ∧
      (Actor.terminateCommand ∈ m.mailbox.control.queue ++ heard ∨
          b.machine.mailbox.control.hasSender = false →
        (b.phase = .running → ∃ c, Actor.Turn pmu b [] c) ∧
        ∀ hs' c, Actor.Reaches pmu b hs' c → c.phase = .running ∨ c.phase = .stopping →
          hs' = [])) ∧
    (b.phase = .running → ∀ handled c, Actor.Turn pmu b handled c →
      (handled ≠ [] → b.machine.mailbox.control.queue = [] ∧
        b.machine.mailbox.control.hasSender = true) ∧
      (c.phase ≠ .running →
        (∃ behind, b.machine.mailbox.control.queue = Actor.terminateCommand :: behind) ∨
        (b.machine.mailbox.control.queue = [] ∧ b.machine.mailbox.control.isOpen = false) ∨
        b.machine.mailbox.ticks.queue = [] ∧ b.machine.mailbox.ticks.isOpen = false)) ∧
    (b.phase = .draining → b.machine.mailbox.ticks.accepting = false ∧
      (∃ handled c, Actor.Turn pmu b handled c) ∧
      ∀ hs' c, Actor.Reaches pmu b hs' c →
        hs'.map Handling.time <+: b.machine.mailbox.ticks.queue ∧
        (c.phase = .stopped → hs'.map Handling.time = b.machine.mailbox.ticks.queue)) ∧
    ∀ c d, c.pass pmu = some d ↔ ∃ handled, Actor.Turn pmu c handled d := by
  obtain ⟨_, hbegun⟩ := Monitor.start_commandAccount hstart
  obtain ⟨heard, taken, left, haccount⟩ := hbegun.reaches hrun
  refine ⟨⟨heard, taken, left, haccount, fun hstop => ?_⟩, fun hphase handled c hturn => ?_,
    fun hphase => ?_, fun c d => Actor.pass_eq_some_iff⟩
  · have hhalt : b.Halting := by
      intro hphase
      rcases hstop with hmem | hgone
      · rw [haccount.commands] at hmem
        rw [← (haccount.left_of_running hphase).1]
        exact .inl ((List.mem_append.mp hmem).resolve_left haccount.harmless)
      · exact .inr (by rw [Channel.isOpen, hgone, Bool.false_and])
    exact ⟨hhalt.exists_turn, fun hs' c hmore => (hhalt.reaches hmore).2⟩
  · refine ⟨fun hne => ?_, hturn.reason_of_stops hphase⟩
    obtain ⟨hempty, hopen⟩ := hturn.idle_of_handles hphase hne
    exact ⟨hempty, (Bool.and_eq_true_iff.mp hopen).1⟩
  · have hclosed := hrun.accepting_of_draining (Monitor.start_listens hstart).1 hphase
    exact ⟨hclosed, Actor.exists_turn_of_draining hphase hclosed,
      fun hs' c hmore => hmore.drained hphase hclosed⟩

/-- A command is turned down and a tick is handled.  While the one leaf is read for it, the command
to stop is sent and another behind it; a second tick waits, and a third comes too late. -/
theorem stop_is_prompt_between_commands :
    let pmu : Pmu ScriptProgress := Script.pmu {
      outside := [(0, .command Actor.terminateCommand), (0, .command "$STOP")] }
    let m : Machine ScriptProgress := {
      state := {}
      mailbox := { control := { queue := ["$STOP"] }, ticks := { queue := [7, 8] } } }
    ∃ a b c hs, Monitor.start pmu .oneCpu none m = .ok a ∧
      Actor.Reaches pmu a hs b ∧ hs.map Handling.time = [7] ∧
      (∀ hs' d, Actor.Reaches pmu b hs' d → d.phase = .running ∨ d.phase = .stopping → hs' = []) ∧
      Actor.Reaches pmu b [] c ∧ c.machine.answers = [.unknownCommand "$STOP", .terminated] ∧
      ∀ hs' d, Actor.Reaches pmu c hs' d → d.phase = .stopped → hs'.map Handling.time = [8] := by
  intro pmu m
  let tree : SessionTree :=
    { groups := ⟨[("core", ⟨⟨"core", .allCpus, [⟨"instr", Hardware.instr.event⟩]⟩,
        ⟨[(0, ⟨⟨[(2, ⟨⟨0, [], List.replicate 32 0⟩, false⟩)], by decide⟩⟩)], by decide⟩⟩)],
        by decide⟩
      callchain := ⟨.none, 50⟩
      pid := none
      inCgroup := false }
  let m₁ := (SessionTree.start pmu .oneCpu none m).2
  let a : Actor ScriptProgress :=
    ⟨"all", tree, .running, (tree.enable pmu m₁).2.note (.started 1 false)⟩
  have hstart : Monitor.start pmu .oneCpu none m = .ok a := rfl
  let rejected : Actor ScriptProgress :=
    { a with machine := (a.withCommands []).machine.note (.unknownCommand "$STOP") }
  let b : Actor ScriptProgress := (rejected.withTimes [8]).handleTick pmu 7
  have hrejected : Actor.Turn pmu a [] rejected := .reject rfl rfl (by decide)
  have hhandled : Actor.Turn pmu rejected _ b := .handle rfl rfl rfl rfl
  have hreach := (Actor.Reaches.refl.turn hrejected).turn hhandled
  have hcontrol : b.machine.mailbox.control.queue = [Actor.terminateCommand, "$STOP"] := by
    decide +kernel
  have hterminated : Actor.Turn pmu b [] _ := .terminate rfl hcontrol
  have hclosed := (Actor.Reaches.refl.turn hterminated).turn (.closeTicks rfl)
  have hlate := hclosed.outside (.tick 9)
  obtain ⟨⟨heard, taken, left, haccount, hprompt⟩, -, -, -⟩ := stop_is_prompt hstart hreach
  obtain ⟨-, -, hdrain, -⟩ := stop_is_prompt hstart (hreach.trans hlate)
  have hsent : b.machine.acceptedCommands = [Actor.terminateCommand, "$STOP"] := by decide +kernel
  have hheard : heard = [Actor.terminateCommand, "$STOP"] := haccount.accepted.symm.trans hsent
  have hmem : Actor.terminateCommand ∈ m.mailbox.control.queue ++ heard := by
    rw [hheard]
    exact List.mem_append_right _ (.head _)
  refine ⟨a, b, _, _, hstart, hreach, rfl, (hprompt (.inl hmem)).2, hlate, by decide +kernel,
    fun hs' d hmore hstopped => ?_⟩
  rw [((hdrain rfl).2.2 hs' d hmore).2 hstopped]
  decide +kernel

end CounterWatch
