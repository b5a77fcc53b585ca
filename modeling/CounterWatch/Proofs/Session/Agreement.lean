import CounterWatch.Proofs.Session.Likeness
import CounterWatch.Session.Collection

/-!
# Proofs/Session/Agreement — two runs that agree

Two runs may differ in things that have no bearing on how counters are handled: in the symbols of
addresses, in commands that nobody obeys, and in who is there to take payloads.  A `View` says which
of these are looked at.  Machines that agree in the rest stay in agreement, whatever is done to both
of them.

* `Machine.Agrees` — machines that cannot be told apart by what is looked at.
* `Pmu.Alike` — counters that behave alike, with surroundings that differ in what is not looked at.
* `Machine.Agrees.read` — a read in both runs, with what the surroundings do meanwhile.
* `SessionTree.start_agrees`, `SessionTree.enable_agrees`, `SessionTree.close_agrees` — the same
  counters are opened, enabled and closed in both runs.
-/

namespace CounterWatch

variable {σ : Type} {pmu pmu' : Pmu σ}

/-- What becomes of a message, and of the channel, is decided by whether it is open. -/
theorem Channel.send_eq {α : Type} (c : Channel α) (a : α) :
    c.send a = (c.isOpen, { c with queue := c.queue ++ if c.isOpen then [a] else [] }) := by
  rw [send]
  rcases c.isOpen with _ | _
  · exact congrArg (fun queue => (false, { c with queue })) (List.append_nil c.queue).symm
  · rfl

/-- What is looked at when two runs are compared.  The receiver of payloads never is. -/
structure View where
  /-- Whether it matters for whom symbols are asked, and whether there are any. -/
  symbols : Bool
  /-- Which commands matter. -/
  command : String → Bool

namespace View

variable (k : View)

/-- Whether a call is looked at. -/
def call : Call → Bool
  | .attach _ => k.symbols
  | .sent text _ => k.command text
  | .openPath _ | .readFile _ | .opened _ _ | .openFailed _ | .map _ _ | .enable _ | .reset _
  | .read _ _ | .ticked _ _ => true

/-- Whether a notice is looked at. -/
def notice : Notice → Bool
  | .noSymbols _ _ => k.symbols
  | .unknownCommand text => k.command text
  | .payloadDropped _ => false
  | _ => true

/-- Whether a step of the surroundings is looked at. -/
def step : OutsideStep → Bool
  | .command text => k.command text
  | .dropSink => false
  | .tick _ | .dropControl | .dropTicker | .produce _ _ => true

end View

namespace Machine

/-- Two machines cannot be told apart by what is looked at. -/
structure Agrees (k : View) (m m' : Machine σ) : Prop where
  state : m'.state = m.state
  files : m'.files = m.files
  attempts : m'.attempts = m.attempts
  nextId : m'.nextId = m.nextId
  live : m'.live = m.live
  closed : m'.closed = m.closed
  rings : m'.rings = m.rings
  ticks : m'.mailbox.ticks = m.mailbox.ticks
  commands : m'.mailbox.control.queue.filter k.command = m.mailbox.control.queue.filter k.command
  sender : m'.mailbox.control.hasSender = m.mailbox.control.hasSender
  accepting : m'.mailbox.control.accepting = m.mailbox.control.accepting
  trace : m'.trace.filter k.call = m.trace.filter k.call
  log : m'.log.filter k.notice = m.log.filter k.notice

variable {k : View} {m m' m'' : Machine σ}

namespace Agrees

theorem refl (m : Machine σ) : m.Agrees k m := by
  constructor <;> rfl

theorem symm (h : m.Agrees k m') : m'.Agrees k m := by
  constructor <;> symm
  exacts [h.state, h.files, h.attempts, h.nextId, h.live, h.closed, h.rings, h.ticks, h.commands,
    h.sender, h.accepting, h.trace, h.log]

/-- Agreement passes from one machine to the next, so machines may be compared in several goes. -/
theorem trans (h : m.Agrees k m') (h' : m'.Agrees k m'') : m.Agrees k m'' := by
  constructor
  exacts [h'.state.trans h.state, h'.files.trans h.files, h'.attempts.trans h.attempts,
    h'.nextId.trans h.nextId, h'.live.trans h.live, h'.closed.trans h.closed,
    h'.rings.trans h.rings, h'.ticks.trans h.ticks, h'.commands.trans h.commands,
    h'.sender.trans h.sender, h'.accepting.trans h.accepting, h'.trace.trans h.trace,
    h'.log.trans h.log]

theorem note (h : m.Agrees k m') (n : Notice) : (m.note n).Agrees k (m'.note n) :=
  { h with
    log := by rw [Machine.note, Machine.note, List.filter_append, h.log, List.filter_append] }

theorem notes (h : m.Agrees k m') (ns : List Notice) : (m.notes ns).Agrees k (m'.notes ns) :=
  { h with
    log := by rw [Machine.notes, Machine.notes, List.filter_append, h.log, List.filter_append] }

theorem call (h : m.Agrees k m') (c : Call) : (m.call c).Agrees k (m'.call c) :=
  { h with
    trace := by rw [Machine.call, Machine.call, List.filter_append, h.trace, List.filter_append] }

/-- Whether commands can be sent does not depend on those that nobody looks at. -/
theorem control_isOpen (h : m.Agrees k m') :
    m'.mailbox.control.isOpen = m.mailbox.control.isOpen := by
  rw [Channel.isOpen, h.sender, h.accepting, Channel.isOpen]

end Agrees

/-- What is logged and not looked at makes no difference. -/
theorem agrees_note (m : Machine σ) {n : Notice} (hn : k.notice n = false) :
    m.Agrees k (m.note n) :=
  { Agrees.refl m with
    log := by
      rw [note, List.filter_append, List.filter_cons_of_neg (by rw [hn]; decide)]
      exact List.append_nil _ }

/-- A call that is not looked at makes no difference. -/
theorem agrees_call (m : Machine σ) {c : Call} (hc : k.call c = false) : m.Agrees k (m.call c) :=
  { Agrees.refl m with
    trace := by
      rw [call, List.filter_append, List.filter_cons_of_neg (by rw [hc]; decide)]
      exact List.append_nil _ }

/-! ## The surroundings -/

/-- **A step that is not looked at makes no difference.** -/
theorem agrees_outside (m : Machine σ) {step : OutsideStep} (hstep : k.step step = false) :
    m.Agrees k (m.outside step) := by
  cases step with
  | command text =>
      have hcall : k.call (.sent text m.mailbox.control.isOpen) = false := hstep
      have htext : ¬ k.command text = true := Bool.not_eq_true _ ▸ hstep
      rw [outside, Channel.send_eq]
      exact { m.agrees_call hcall with
        commands := by
          dsimp only
          rw [List.filter_append]
          split
          · rw [List.filter_cons_of_neg htext]
            exact List.append_nil _
          · exact List.append_nil _ }
  | dropSink => exact { Agrees.refl m with }
  | tick | dropControl | dropTicker | produce => cases hstep

/-- **The same step in two runs** keeps them in agreement. -/
theorem Agrees.outside (h : m.Agrees k m') (step : OutsideStep) :
    (m.outside step).Agrees k (m'.outside step) := by
  cases step with
  | command text =>
      rw [Machine.outside, Machine.outside, Channel.send_eq, Channel.send_eq, h.control_isOpen]
      exact { h.call (.sent text m.mailbox.control.isOpen) with
        commands := by
          dsimp only
          rw [List.filter_append, h.commands, List.filter_append] }
  | tick time =>
      rw [Machine.outside, Machine.outside, h.ticks]
      exact { h.call (.ticked time (m.mailbox.ticks.send time).1) with ticks := rfl }
  | dropControl => exact { h with sender := rfl }
  | dropTicker => exact { h with ticks := by rw [Machine.outside, Machine.outside, h.ticks] }
  | dropSink => exact { h with }
  | produce id b =>
      rw [Machine.outside, Machine.outside, produce, produce, h.rings]
      split
      · exact { h with rings := rfl }
      · exact h

/-- Steps of the surroundings that are not looked at may be left out. -/
theorem agrees_meanwhile (steps : List OutsideStep) (h : m.Agrees k m') :
    (steps.foldl outside m).Agrees k ((steps.filter k.step).foldl outside m') := by
  induction steps generalizing m m' with
  | nil => exact h
  | cons step rest ih =>
      by_cases hstep : k.step step = true
      · rw [List.filter_cons_of_pos hstep]
        exact ih (h.outside step)
      · rw [List.filter_cons_of_neg hstep]
        exact ih ((m.agrees_outside (Bool.not_eq_true _ ▸ hstep)).symm.trans h)

/-- **Steps that look the same** keep two runs in agreement. -/
theorem Agrees.meanwhile (h : m.Agrees k m') {steps steps' : List OutsideStep}
    (hsteps : steps'.filter k.step = steps.filter k.step) :
    (steps.foldl Machine.outside m).Agrees k (steps'.foldl Machine.outside m') := by
  have hfiltered := agrees_meanwhile (k := k) steps (.refl m)
  rw [← hsteps] at hfiltered
  exact hfiltered.trans (agrees_meanwhile steps' h.symm).symm

end Machine

/-! ## Counters -/

/-- Counters that behave alike; what the surroundings do during a read looks the same. -/
structure Pmu.Alike (k : View) (pmu pmu' : Pmu σ) : Prop where
  openCounter : pmu'.openCounter = pmu.openCounter
  map : pmu'.map = pmu.map
  enable : pmu'.enable = pmu.enable
  reset : pmu'.reset = pmu.reset
  read : pmu'.read = pmu.read
  meanwhile : ∀ id s, (pmu'.meanwhile id s).filter k.step = (pmu.meanwhile id s).filter k.step

theorem Pmu.Alike.refl (k : View) (pmu : Pmu σ) : pmu.Alike k pmu :=
  ⟨rfl, rfl, rfl, rfl, rfl, fun _ _ => rfl⟩

theorem Pmu.Alike.symm {k : View} (h : pmu.Alike k pmu') : pmu'.Alike k pmu :=
  ⟨h.openCounter.symm, h.map.symm, h.enable.symm, h.reset.symm, h.read.symm,
    fun id s => (h.meanwhile id s).symm⟩

namespace Machine.Agrees

variable {k : View} {m m' : Machine σ}

/-- **A counter is opened in both runs or in neither**, and has the same number. -/
theorem openCounter (h : m.Agrees k m') (hpmu : pmu.Alike k pmu') (request : OpenRequest) :
    Same (Agrees k) (m.openCounter pmu request) (m'.openCounter pmu' request) := by
  simp only [Machine.openCounter, hpmu.openCounter, h.state, h.attempts, h.nextId, h.live]
  rcases pmu.openCounter request m.state with ⟨e | _, state⟩
  · exact .of_eq _ { h.call (.openFailed m.attempts) with state := rfl, attempts := rfl }
  · exact .of_eq _ { h.call (.opened m.nextId request) with
      state := rfl
      attempts := rfl
      nextId := rfl
      live := rfl }

theorem closeCounter (h : m.Agrees k m') (c : Counter) :
    (m.closeCounter c).Agrees k (m'.closeCounter c) :=
  { h with
    live := by rw [Machine.closeCounter, Machine.closeCounter, h.live]
    closed := by rw [Machine.closeCounter, Machine.closeCounter, h.closed] }

theorem map (h : m.Agrees k m') (hpmu : pmu.Alike k pmu') (id : CounterId) (length : Nat) :
    Same (Agrees k) (m.map pmu id length) (m'.map pmu' id length) := by
  rw [Machine.map, Machine.map, hpmu.map, h.state]
  exact .of_eq _ { h.call (.map id length) with state := rfl }

/-- A ring is mapped in both runs or in neither, with the same contents. -/
theorem mapRing (h : m.Agrees k m') (hpmu : pmu.Alike k pmu') (id : CounterId) (length : Nat) :
    Same (Agrees k) (m.mapRing pmu id length) (m'.mapRing pmu' id length) := by
  obtain ⟨r, m₁, m₁', hmap, hmap', h₁⟩ := h.map hpmu id length
  rw [Machine.mapRing, Machine.mapRing, hmap, hmap']
  rcases r with e | arena
  · exact .of_eq _ h₁
  · exact .of_eq _ { h₁ with
      rings := congrArg (fun rings => rings.insert id (Ring.ofArena arena)) h₁.rings }

theorem unmapRing (h : m.Agrees k m') (id : CounterId) :
    (m.unmapRing id).Agrees k (m'.unmapRing id) :=
  { h with rings := congrArg (fun rings => rings.erase id) h.rings }

theorem enable (h : m.Agrees k m') (hpmu : pmu.Alike k pmu') (id : CounterId) :
    Same (Agrees k) (m.enable pmu id) (m'.enable pmu' id) := by
  simp only [Machine.enable, hpmu.enable, h.state]
  exact .of_eq _ { h.call (.enable id) with state := rfl }

theorem reset (h : m.Agrees k m') (hpmu : pmu.Alike k pmu') (id : CounterId) :
    Same (Agrees k) (m.reset pmu id) (m'.reset pmu' id) := by
  simp only [Machine.reset, hpmu.reset, h.state]
  exact .of_eq _ { h.call (.reset id) with state := rfl }

/-- **A read has the same outcome in both runs.** -/
theorem read (h : m.Agrees k m') (hpmu : pmu.Alike k pmu') (id : CounterId) (buffer : Bytes) :
    ∃ result bytes m₁ m₁', m.read pmu id buffer = (result, bytes, m₁) ∧
      m'.read pmu' id buffer = (result, bytes, m₁') ∧ m₁.Agrees k m₁' := by
  have hmeanwhile := (h.call (.read id buffer.length)).meanwhile (hpmu.meanwhile id m.state)
  simp only [Machine.read, h.state, hpmu.read, hmeanwhile.state]
  exact ⟨_, _, _, _, rfl, rfl, { hmeanwhile with state := rfl }⟩

end Machine.Agrees

open Machine

section Sessions

variable {k : View} {m m' : Machine σ}

theorem Machine.Agrees.closesAlike : ClosesAlike (σ := σ) (Agrees k) where
  unmapRing h := h.unmapRing
  closeCounter h := h.closeCounter

/-- **Agreement is a likeness** that opening and closing keep, with counters that behave alike. -/
theorem Machine.Agrees.opensAlike (hpmu : pmu.Alike k pmu') : OpensAlike (Agrees k) pmu pmu' where
  toClosesAlike := closesAlike
  openCounter h := h.openCounter hpmu
  mapRing h := h.mapRing hpmu

/-- **The same counters are closed in both runs.** -/
theorem SessionTree.close_agrees (t : SessionTree) (h : m.Agrees k m') :
    (t.close m).Agrees k (t.close m') := t.close_alike Agrees.closesAlike h

/-! ## Opening -/

/-- Both runs find the same first process, or fail to for the same reason. -/
theorem firstProcess_agrees (h : m.Agrees k m') (directory : Path) :
    Same (Agrees k) (firstProcess directory m) (firstProcess directory m') := by
  have hlooked := h.call (.openPath directory)
  rw [firstProcess, firstProcess, openPath, openPath, h.files]
  rcases m.files.openPath directory with e | _
  · exact .of_eq _ hlooked
  have hread := hlooked.call (.readFile (Cgroup.procsFile directory))
  dsimp only
  rw [readProcesses, readProcesses, hlooked.files]
  rcases Cgroup.readEntries (m.call (.openPath directory)).files directory with e | entries
  · exact .of_eq _ hread
  have hnoted := hread.notes (strayLines entries)
  dsimp only
  split
  · exact .of_eq _ hnoted
  · exact .of_eq _ hnoted
  · exact .of_eq _ (hnoted.note _)

/-- The symbols that a backend has for a process; none if there is no backend, or it fails, or there
is no process. -/
def symbolsFor (backend : Option Backend) (pid : Option UInt32) : Symbols :=
  match backend, pid with
  | some backend, some pid =>
      match backend pid with
      | .ok symbols => symbols
      | .error _ => .none
  | _, _ => .none

/-- Which symbols there are depends on the source of names and the process, and on nothing of the
machine. -/
theorem attachSymbols_fst (backend : Option Backend) (pid : UInt32) (m : Machine σ) :
    (attachSymbols backend pid m).1 = symbolsFor backend (some pid) := by
  cases backend with
  | none => rfl
  | some backend =>
      rw [attachSymbols, attach, symbolsFor]
      rcases backend pid with e | symbols
      · rfl
      · rfl

/-- Asking for symbols makes no difference if it is not looked at. -/
theorem agrees_attachSymbols (hsymbols : k.symbols = false) (backend : Option Backend)
    (pid : UInt32) (m : Machine σ) : m.Agrees k (attachSymbols backend pid m).2 := by
  cases backend with
  | none => exact .refl m
  | some backend =>
      have hasked : m.Agrees k (m.call (.attach pid)) := m.agrees_call hsymbols
      rw [attachSymbols, attach]
      rcases backend pid with e | symbols
      · exact hasked.trans (agrees_note _ hsymbols)
      · exact hasked

/-- Machines stay in agreement when symbols are attached, if these are not looked at or come of the
same source. -/
theorem attachSymbols_agrees (h : m.Agrees k m') {backend backend' : Option Backend}
    (hbackend : k.symbols = true → backend' = backend) (pid : UInt32) :
    (attachSymbols backend pid m).2.Agrees k (attachSymbols backend' pid m').2 := by
  by_cases hsymbols : k.symbols = true
  · rw [hbackend hsymbols]
    cases backend with
    | none => exact h
    | some backend =>
        rw [attachSymbols, attachSymbols, attach, attach]
        rcases backend pid with e | symbols
        · exact (h.call (.attach pid)).note _
        · exact h.call (.attach pid)
  · have hsymbols : k.symbols = false := Bool.not_eq_true _ ▸ hsymbols
    exact (agrees_attachSymbols hsymbols backend pid m).symm.trans
      (h.trans (agrees_attachSymbols hsymbols backend' pid m'))

/-- Both runs come to the same process, each with its own symbols, or fail for the same reason. -/
theorem prepareTarget_agrees (h : m.Agrees k m') {backend backend' : Option Backend}
    (hbackend : k.symbols = true → backend' = backend) (target : Target) :
    ∃ (r : Except Failure (Option UInt32)) (m₁ m₁' : Machine σ), prepareTarget target backend m
        = (r.map fun pid => (pid, symbolsFor backend pid), m₁) ∧
      prepareTarget target backend' m' = (r.map fun pid => (pid, symbolsFor backend' pid), m₁') ∧
      m₁.Agrees k m₁' := by
  have hnone : ∀ backend, symbolsFor backend none = .none := by
    intro backend
    cases backend <;> rfl
  rw [prepareTarget, prepareTarget]
  split
  · refine ⟨.ok none, m, m', ?_, ?_, h⟩
    · rw [Except.map, hnone]
    · rw [Except.map, hnone]
  next directory _ =>
    obtain ⟨r, m₁, m₁', hfirst, hfirst', h₁⟩ := firstProcess_agrees h directory
    rw [hfirst, hfirst']
    rcases r with e | pid
    · exact ⟨.error e, _, _, rfl, rfl, h₁⟩
    · refine ⟨.ok (some pid), _, _, ?_, ?_, attachSymbols_agrees h₁ hbackend pid⟩
      · rw [Except.map, ← attachSymbols_fst backend pid m₁]
      · rw [Except.map, ← attachSymbols_fst backend' pid m₁']

/-- A tree with the symbols that a backend has for its process. -/
def SessionTree.symbolized (backend : Option Backend) (t : SessionTree) : SessionTree :=
  { t with callchain.symbols := symbolsFor backend t.pid }

/-- **The same tree is opened in both runs**, but for the symbols. -/
theorem SessionTree.start_agrees (h : m.Agrees k m') (hpmu : pmu.Alike k pmu')
    {backend backend' : Option Backend} (hbackend : k.symbols = true → backend' = backend)
    (config : MonitoringConfig) :
    ∃ (r : Except Failure SessionTree) (m₁ m₁' : Machine σ),
      start pmu config backend m = (r.map (symbolized backend), m₁) ∧
      start pmu' config backend' m' = (r.map (symbolized backend'), m₁') ∧ m₁.Agrees k m₁' := by
  obtain ⟨r, m₁, m₁', hprepare, hprepare', h₁⟩ := prepareTarget_agrees h hbackend config.target
  rcases r with e | pid
  · exact ⟨.error e, m₁, m₁', start_of_unprepared hprepare, start_of_unprepared hprepare', h₁⟩
  obtain ⟨r, m₂, m₂', hgroups, hgroups', h₂⟩ :=
    openGroups_alike (Agrees.opensAlike hpmu) h₁ config
  rw [start_of_prepared hprepare, start_of_prepared hprepare', hgroups, hgroups']
  rcases r with e | groups
  · exact ⟨.error e, _, _, rfl, rfl, h₂⟩
  · exact ⟨.ok (ofGroups config (pid, .none) groups), _, _, rfl, rfl, h₂⟩

/-! ## Enabling -/

/-- A leaf is enabled in both runs, or the same step of it fails. -/
theorem CpuSession.enable_agrees (h : m.Agrees k m') (hpmu : pmu.Alike k pmu') (leaf : Leaf)
    (s : CpuSession) : Same (Agrees k) (s.enable pmu leaf m) (s.enable pmu' leaf m') := by
  obtain ⟨r, m₁, m₁', hclear, hclear', h₁⟩ := h.reset hpmu s.counters.leader
  rw [CpuSession.enable, CpuSession.enable, CounterGroup.clear, CounterGroup.clear, hclear, hclear']
  dsimp only [CounterGroup.enable]
  rcases r with e | _
  · obtain ⟨r, m₂, m₂', henable, henable', h₂⟩ :=
      (h₁.note (.resetFailed leaf e)).enable hpmu s.counters.leader
    dsimp only
    rw [henable, henable']
    rcases r with e' | _
    · exact .of_eq _ (h₂.note _)
    · exact .of_eq _ h₂
  · obtain ⟨r, m₂, m₂', henable, henable', h₂⟩ := h₁.enable hpmu s.counters.leader
    dsimp only
    rw [henable, henable']
    rcases r with e' | _
    · exact .of_eq _ (h₂.note _)
    · exact .of_eq _ h₂

theorem enableLeaves_agrees (hpmu : pmu.Alike k pmu') : ∀ (leaves : List (Leaf × CpuSession))
    {m m' : Machine σ}, m.Agrees k m' →
      Same (Agrees k) (enableLeaves pmu leaves m) (enableLeaves pmu' leaves m')
  | [], _, _, h => .of_eq _ h
  | (leaf, s) :: rest, m, m', h => by
      obtain ⟨first, m₁, m₁', hfirst, hfirst', h₁⟩ := s.enable_agrees h hpmu leaf
      obtain ⟨others, m₂, m₂', hrest, hrest', h₂⟩ := enableLeaves_agrees hpmu rest h₁
      rw [enableLeaves, enableLeaves, hfirst, hfirst']
      dsimp only
      rw [hrest, hrest']
      exact .of_eq _ h₂

/-- **The same counters are enabled in both runs**, and the same failures logged. -/
theorem SessionTree.enable_agrees (h : m.Agrees k m') (hpmu : pmu.Alike k pmu') {t t' : SessionTree}
    (hgroups : t'.groups = t.groups) : Same (Agrees k) (t.enable pmu m) (t'.enable pmu' m') := by
  have hleaves : t'.leaves = t.leaves := by rw [leaves, leaves, hgroups]
  rw [enable, enable, hleaves]
  exact enableLeaves_agrees hpmu t.leaves h

end Sessions

end CounterWatch
