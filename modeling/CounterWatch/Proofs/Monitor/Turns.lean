import CounterWatch.Monitor
import CounterWatch.Proofs.Session.Effect

/-!
# Proofs/Monitor/Turns — what an actor does in one turn, and in a run

An actor takes turns; between any two of them the surroundings take steps of theirs.  `Turn` says
once what a turn can be, what it finds and what it leaves, together with the ticks it handles.

* `pass_eq_some_iff` — the turns are what `Actor.pass` computes.
* `Actor.Reaches` — what an actor can have become, and the ticks it has handled by then.
* `exists_reaches_iff` — it is what passes and steps of the surroundings lead to.
* `Monitor.start_cases`, `start_ok`, `start_error` — how a monitor starts, or fails to.
* `run_reaches` — a whole run that returns is such a run, to the end.
-/

namespace CounterWatch

variable {σ : Type} {pmu : Pmu σ}

/-- What a receiver finds: a message, or that nothing will come, or nothing yet. -/
theorem Channel.receive_cases {α : Type} (c : Channel α) :
    (∃ a rest, c.queue = a :: rest ∧ c.receive = .message a { c with queue := rest }) ∨
    (c.queue = [] ∧ c.isOpen = false ∧ c.receive = .ended) ∨
    (c.queue = [] ∧ c.isOpen = true ∧ c.receive = .waiting) := by
  rw [receive]
  rcases c.queue with _ | ⟨a, rest⟩
  · rcases c.isOpen with _ | _
    · exact .inr (.inl ⟨rfl, rfl, rfl⟩)
    · exact .inr (.inr ⟨rfl, rfl, rfl⟩)
  · exact .inl ⟨a, rest, rfl, rfl⟩

/-- A tick that was handled, and what came of it. -/
structure Handling where
  time : UInt64
  outcome : Except Failure Payload

namespace Actor

/-- The actor with these commands left to it. -/
def withCommands (a : Actor σ) (rest : List String) : Actor σ :=
  { a with machine := a.machine.withControl { a.machine.mailbox.control with queue := rest } }

/-- The actor with these ticks left to it. -/
def withTimes (a : Actor σ) (rest : List UInt64) : Actor σ :=
  { a with machine := a.machine.withTicks { a.machine.mailbox.ticks with queue := rest } }

/-- How an actor handles a tick. -/
def handling (pmu : Pmu σ) (time : UInt64) (a : Actor σ) : Handling :=
  ⟨time, (a.tree.collect pmu time a.target a.machine).1⟩

/-- The actor with its channel of ticks closed. -/
def closeTicks (a : Actor σ) : Actor σ :=
  { a with phase := .draining, machine := a.machine.withTicks a.machine.mailbox.ticks.close }

/-- One turn of an actor: the ticks handled in it, and the actor afterwards. -/
inductive Turn (pmu : Pmu σ) (a : Actor σ) : List Handling → Actor σ → Prop
  | terminate {rest : List String} (hphase : a.phase = .running)
      (hcontrol : a.machine.mailbox.control.queue = terminateCommand :: rest) :
      Turn pmu a [] (a.stop .terminated (a.withCommands rest).machine)
  | reject {command : String} {rest : List String} (hphase : a.phase = .running)
      (hcontrol : a.machine.mailbox.control.queue = command :: rest)
      (hcommand : command ≠ terminateCommand) :
      Turn pmu a []
        { a with machine := (a.withCommands rest).machine.note (.unknownCommand command) }
  | controlClosed (hphase : a.phase = .running) (hcontrol : a.machine.mailbox.control.queue = [])
      (hgone : a.machine.mailbox.control.isOpen = false) :
      Turn pmu a [] (a.stop .controlClosed a.machine)
  | handle {time : UInt64} {rest : List UInt64} (hphase : a.phase = .running)
      (hcontrol : a.machine.mailbox.control.queue = [])
      (hthere : a.machine.mailbox.control.isOpen = true)
      (hticks : a.machine.mailbox.ticks.queue = time :: rest) :
      Turn pmu a [(a.withTimes rest).handling pmu time] ((a.withTimes rest).handleTick pmu time)
  | tickerClosed (hphase : a.phase = .running) (hcontrol : a.machine.mailbox.control.queue = [])
      (hthere : a.machine.mailbox.control.isOpen = true)
      (hticks : a.machine.mailbox.ticks.queue = [])
      (hgone : a.machine.mailbox.ticks.isOpen = false) :
      Turn pmu a [] (a.stop .tickerClosed a.machine)
  | closeTicks (hphase : a.phase = .stopping) : Turn pmu a [] a.closeTicks
  | drain {time : UInt64} {rest : List UInt64} (hphase : a.phase = .draining)
      (hticks : a.machine.mailbox.ticks.queue = time :: rest) :
      Turn pmu a [(a.withTimes rest).handling pmu time] ((a.withTimes rest).handleTick pmu time)
  | finish (hphase : a.phase = .draining) (hticks : a.machine.mailbox.ticks.queue = [])
      (hgone : a.machine.mailbox.ticks.isOpen = false) : Turn pmu a [] a.finish

theorem turn_of_select {a b : Actor σ} (hphase : a.phase = .running) (h : a.select pmu = some b) :
    ∃ hs, Turn pmu a hs b := by
  rw [select] at h
  rcases a.machine.mailbox.control.receive_cases with
    ⟨command, rest, hqueue, hreceive⟩ | ⟨hqueue, hopen, hreceive⟩ | ⟨hqueue, hopen, hreceive⟩
  · rw [hreceive] at h
    dsimp only at h
    by_cases hc : command = terminateCommand
    · rw [if_pos hc] at h
      obtain rfl := Option.some.inj h
      exact ⟨[], .terminate hphase (hc ▸ hqueue)⟩
    · rw [if_neg hc] at h
      obtain rfl := Option.some.inj h
      exact ⟨[], .reject hphase hqueue hc⟩
  · rw [hreceive] at h
    obtain rfl := Option.some.inj h
    exact ⟨[], .controlClosed hphase hqueue hopen⟩
  · rw [hreceive] at h
    dsimp only at h
    rcases a.machine.mailbox.ticks.receive_cases with
      ⟨time, rest, hticks, hreceive⟩ | ⟨hticks, hgone, hreceive⟩ | ⟨-, -, hreceive⟩
    · rw [hreceive] at h
      obtain rfl := Option.some.inj h
      exact ⟨_, .handle hphase hqueue hopen hticks⟩
    · rw [hreceive] at h
      obtain rfl := Option.some.inj h
      exact ⟨[], .tickerClosed hphase hqueue hopen hticks hgone⟩
    · rw [hreceive] at h
      cases h

/-- **Whatever a pass does is a turn.** -/
theorem turn_of_pass {a b : Actor σ} (h : a.pass pmu = some b) : ∃ hs, Turn pmu a hs b := by
  rw [pass] at h
  cases hphase : a.phase with
  | running =>
      rw [hphase] at h
      exact turn_of_select hphase h
  | stopping =>
      rw [hphase] at h
      obtain rfl := Option.some.inj h
      exact ⟨[], .closeTicks hphase⟩
  | draining =>
      rw [hphase] at h
      dsimp only at h
      rcases a.machine.mailbox.ticks.receive_cases with
        ⟨time, rest, hticks, hreceive⟩ | ⟨hticks, hgone, hreceive⟩ | ⟨-, -, hreceive⟩
      · rw [hreceive] at h
        obtain rfl := Option.some.inj h
        exact ⟨_, .drain hphase hticks⟩
      · rw [hreceive] at h
        obtain rfl := Option.some.inj h
        exact ⟨[], .finish hphase hticks hgone⟩
      · rw [hreceive] at h
        cases h
  | stopped =>
      rw [hphase] at h
      cases h

/-- **Whatever is a turn is done in a pass.** -/
theorem pass_of_turn {a b : Actor σ} {hs : List Handling} (h : Turn pmu a hs b) :
    a.pass pmu = some b := by
  cases h with
  | terminate hphase hcontrol => simp only [pass, select, Channel.receive, *]; rfl
  | reject hphase hcontrol hcommand => simp only [pass, select, Channel.receive, *]; rfl
  | controlClosed hphase hcontrol hgone => simp only [pass, select, Channel.receive, *]; rfl
  | handle hphase hcontrol hthere hticks => simp only [pass, select, Channel.receive, *]; rfl
  | tickerClosed hphase hcontrol hthere hticks hgone =>
      simp only [pass, select, Channel.receive, *]; rfl
  | closeTicks hphase => simp only [pass, *]; rfl
  | drain hphase hticks => simp only [pass, Channel.receive, *]; rfl
  | finish hphase hticks hgone => simp only [pass, Channel.receive, *]; rfl

/-- **The turns of an actor are its passes**, so what is proved of turns holds of the function that
runs. -/
theorem pass_eq_some_iff {a b : Actor σ} : a.pass pmu = some b ↔ ∃ hs, Turn pmu a hs b :=
  ⟨turn_of_pass, fun ⟨_, h⟩ => pass_of_turn h⟩

/-! ## Runs -/

/-- What an actor can become, whatever the surroundings do between its turns, and the ticks it has
handled by then. -/
inductive Reaches (pmu : Pmu σ) (a : Actor σ) : List Handling → Actor σ → Prop
  | refl : Reaches pmu a [] a
  | outside {hs : List Handling} {b : Actor σ} (h : Reaches pmu a hs b) (step : OutsideStep) :
      Reaches pmu a hs (b.outside step)
  | turn {hs handled : List Handling} {b c : Actor σ} (h : Reaches pmu a hs b)
      (hturn : Turn pmu b handled c) : Reaches pmu a (hs ++ handled) c

/-- Runs may be put behind each other, and so are the ticks they handle. -/
theorem Reaches.trans {a b c : Actor σ} {hs hs' : List Handling} (h : Reaches pmu a hs b)
    (h' : Reaches pmu b hs' c) : Reaches pmu a (hs ++ hs') c := by
  induction h' with
  | refl => rwa [List.append_nil]
  | outside _ step ih => exact ih.outside step
  | turn _ hturn ih =>
      rw [← List.append_assoc]
      exact ih.turn hturn

/-- What an actor goes through next: a pass of its own, or a step of the surroundings. -/
def Moves (pmu : Pmu σ) (a b : Actor σ) : Prop :=
  a.pass pmu = some b ∨ ∃ step, b = a.outside step

/-- **What an actor reaches is what its passes and the surroundings bring it to**, in any order. -/
theorem exists_reaches_iff {a b : Actor σ} :
    (∃ hs, Reaches pmu a hs b) ↔ Relation.ReflTransGen (Moves pmu) a b := by
  constructor
  · rintro ⟨hs, hrun⟩
    induction hrun with
    | refl => exact .refl
    | outside _ step ih => exact ih.tail (.inr ⟨step, rfl⟩)
    | turn _ hturn ih => exact ih.tail (.inl (pass_eq_some_iff.mpr ⟨_, hturn⟩))
  · intro hmoves
    induction hmoves with
    | refl => exact ⟨[], .refl⟩
    | tail _ hmove ih =>
        obtain ⟨hs, hrun⟩ := ih
        rcases hmove with hpass | ⟨step, rfl⟩
        · obtain ⟨handled, hturn⟩ := pass_eq_some_iff.mp hpass
          exact ⟨hs ++ handled, hrun.turn hturn⟩
        · exact ⟨hs, hrun.outside step⟩

/-- **Settling is a run** that the surroundings take no part in between the turns. -/
theorem reaches_settle (pmu : Pmu σ) : ∀ (turns : Nat) (a : Actor σ),
    ∃ hs, Reaches pmu a hs (a.settle pmu turns)
  | 0, a => ⟨[], .refl⟩
  | turns + 1, a => by
      rw [settle]
      rcases hpass : a.pass pmu with _ | next
      · exact ⟨[], .refl⟩
      · obtain ⟨hs, hturn⟩ := turn_of_pass hpass
        obtain ⟨hs', hrest⟩ := reaches_settle pmu turns next
        exact ⟨[] ++ hs ++ hs', (Reaches.refl.turn hturn).trans hrest⟩

end Actor

/-- **How a monitor starts, or fails to**: its target has no name, or its counters cannot be opened,
or it opens them, enables them and goes to work. -/
theorem Monitor.start_cases (pmu : Pmu σ) (config : MonitoringConfig) (backend : Option Backend)
    (m : Machine σ) :
    match start pmu config backend m with
    | .error (f, m') =>
        (∃ e, config.target.name = .error e ∧ f = .targetName e ∧
          m' = (m.note (.noTargetName f)).hangUp) ∨
        ∃ target m₁, config.target.name = .ok target ∧
          SessionTree.start pmu config backend m = (.error f, m₁) ∧
          m' = (m₁.note (.notStarted f)).hangUp
    | .ok a => ∃ target tree m₁, config.target.name = .ok target ∧
        SessionTree.start pmu config backend m = (.ok tree, m₁) ∧
        a = ⟨target, tree, .running,
          (tree.enable pmu m₁).2.note (.started tree.groups.size tree.inCgroup)⟩ := by
  rw [start]
  rcases config.target.name with e | target
  · exact .inl ⟨e, rfl, rfl, rfl⟩
  · dsimp only
    rcases SessionTree.start pmu config backend m with ⟨f | tree, m₁⟩
    · exact .inr ⟨target, m₁, rfl, rfl, rfl⟩
    · exact ⟨target, tree, m₁, rfl, rfl, rfl⟩

/-- **A monitor goes to work after opening counters and working with them.** -/
theorem Monitor.start_ok {config : MonitoringConfig} {backend : Option Backend} {m : Machine σ}
    {a : Actor σ} (h : start pmu config backend m = .ok a) :
    a.phase = .running ∧ config.target.name = .ok a.target ∧
      ∃ m₁ m₂, Machine.Setups pmu m m₁ ∧ Machine.Uses pmu m₁ m₂ ∧
        a.machine = m₂.note (.started a.tree.groups.size a.tree.inCgroup) := by
  have hcases := start_cases pmu config backend m
  rw [h] at hcases
  obtain ⟨target, tree, m₁, hname, hopened, rfl⟩ := hcases
  have hsetups : Machine.Setups pmu m (SessionTree.start pmu config backend m).2 :=
    SessionTree.start_setups config backend m
  rw [hopened] at hsetups
  exact ⟨rfl, hname, m₁, _, hsetups, tree.enable_uses m₁, rfl⟩

/-- **A monitor that fails to start has only opened counters**, and says what went wrong. -/
theorem Monitor.start_error {config : MonitoringConfig} {backend : Option Backend} {f : Failure}
    {m m' : Machine σ} (h : start pmu config backend m = .error (f, m')) :
    ∃ m₁ n, Machine.Setups pmu m m₁ ∧ (n = .noTargetName f ∨ n = .notStarted f) ∧
      m' = (m₁.note n).hangUp := by
  have hcases := start_cases pmu config backend m
  rw [h] at hcases
  rcases hcases with ⟨e, -, -, rfl⟩ | ⟨target, m₁, -, hopened, rfl⟩
  · exact ⟨m, _, .refl, .inl rfl, rfl⟩
  · have hsetups : Machine.Setups pmu m (SessionTree.start pmu config backend m).2 :=
      SessionTree.start_setups config backend m
    rw [hopened] at hsetups
    exact ⟨m₁, _, hsetups, .inr rfl, rfl⟩

/-- **A whole run that returns is a run of its actor**, to the end. -/
theorem Monitor.run_reaches {config : MonitoringConfig} {backend : Option Backend} {turns : Nat}
    {m m' : Machine σ} (h : run pmu config backend turns m = some (.ok (), m')) :
    ∃ a hs b, start pmu config backend m = .ok a ∧ Actor.Reaches pmu a hs b ∧
      b.phase = .stopped ∧ b.machine = m' := by
  rw [run] at h
  rcases hs : start pmu config backend m with ⟨f, m₁⟩ | a
  · rw [hs] at h
    cases h
  · rw [hs] at h
    dsimp only at h
    split at h
    next hstopped =>
      obtain ⟨handled, hreach⟩ := a.reaches_settle pmu turns
      obtain rfl := congrArg Prod.snd (Option.some.inj h)
      exact ⟨a, handled, _, rfl, hreach, hstopped, rfl⟩
    next => cases h

end CounterWatch
