import CounterWatch.Proofs.Monitor.Commands
import CounterWatch.Proofs.Monitor.Runs
import CounterWatch.Proofs.Session.Symbols

/-!
# Proofs/Monitor/Noise — what has no influence on a monitor

Commands that a monitor does not know, and whether anybody takes its payloads, are noise to what it
measures.  Two runs that differ in nothing else are the same, turn by turn, but for the turns in
which one of them turns a command down.

* `View.noiseless` — what is left when noise is not looked at.
* `Actor.skip_noise` — an actor turns down what it does not know, until it comes to something else.
* `Actor.Turn.agrees`, `Actor.Turns.agrees` — what is done in one run is done in the other.
* `Monitor.Pays` — payloads are delivered as long as somebody takes them.
* `Monitor.NoiseAccount` — the traces noise leaves: what was turned down, and what nobody took.
* `noise_does_not_matter` — whole runs.
-/

namespace CounterWatch

variable {σ : Type} {pmu pmu' : Pmu σ}

/-- Everything is looked at but commands nobody obeys, and what becomes of payloads. -/
def View.noiseless : View := ⟨true, fun text => decide (text = Actor.terminateCommand)⟩

/-- The command to stop is no noise. -/
theorem View.noiseless_terminate : View.noiseless.command Actor.terminateCommand = true :=
  decide_eq_true (rfl : Actor.terminateCommand = _)

theorem View.noiseless_of_ne {command : String} (h : command ≠ Actor.terminateCommand) :
    View.noiseless.command command = false := decide_eq_false h

open Machine

/-! ## Actors that agree -/

section Agreement

variable {k : View}

namespace Machine

variable {m m' : Machine σ}

theorem Agrees.withTicks (h : m.Agrees k m') (ticks : Channel UInt64) :
    (m.withTicks ticks).Agrees k (m'.withTicks ticks) := { h with ticks := rfl }

theorem Agrees.hangUp (h : m.Agrees k m') : m.hangUp.Agrees k m'.hangUp :=
  { h with ticks := congrArg Channel.dropReceiver h.ticks, commands := rfl, accepting := rfl }

/-- What becomes of a payload is not looked at. -/
theorem agrees_deliver (m : Machine σ) (p : Payload) : m.Agrees k (m.deliver p) := by
  rw [deliver]
  split
  · exact { Agrees.refl m with }
  · exact m.agrees_note rfl

end Machine

namespace Actor

/-- Two actors cannot be told apart by what is looked at. -/
structure Agrees (k : View) (a a' : Actor σ) : Prop where
  target : a'.target = a.target
  tree : a'.tree = a.tree
  phase : a'.phase = a.phase
  machine : a.machine.Agrees k a'.machine

variable {a a' a'' : Actor σ}

theorem Agrees.refl (a : Actor σ) : a.Agrees k a := ⟨rfl, rfl, rfl, .refl _⟩

theorem Agrees.symm (h : a.Agrees k a') : a'.Agrees k a :=
  ⟨h.target.symm, h.tree.symm, h.phase.symm, h.machine.symm⟩

theorem Agrees.trans (h : a.Agrees k a') (h' : a'.Agrees k a'') : a.Agrees k a'' :=
  ⟨h'.target.trans h.target, h'.tree.trans h.tree, h'.phase.trans h.phase,
    h.machine.trans h'.machine⟩

/-- **A tick has the same outcome in both runs.** -/
theorem Agrees.handleTick (h : a.Agrees k a') (hpmu : pmu.Alike k pmu') (time : UInt64) :
    a'.handling pmu' time = a.handling pmu time ∧
      (a.handleTick pmu time).Agrees k (a'.handleTick pmu' time) := by
  obtain ⟨_, _, _, m⟩ := a
  obtain ⟨name, tree, phase, m'⟩ := a'
  obtain ⟨rfl, rfl, rfl, hm⟩ := h
  obtain ⟨r, r', groups, m₁, m₁', hcollect, hcollect', hmatches, h₁⟩ :=
    SessionTree.collect_agrees hm hpmu ⟨rfl, rfl, rfl, rfl⟩ time name
  obtain rfl := hmatches.eq fun _ _ h => h.eq
  rw [handling, handling, Actor.handleTick, Actor.handleTick]
  dsimp only
  rw [hcollect, hcollect']
  rcases r with e | p
  · exact ⟨rfl, rfl, rfl, rfl, h₁.note _⟩
  · have hdelivered := (m₁.agrees_deliver p).symm.trans (h₁.trans (m₁'.agrees_deliver p))
    exact ⟨rfl, rfl, rfl, rfl, hdelivered⟩

/-- **Tick by tick, the same is taken in both runs.** -/
theorem Agrees.withTimes (h : a.Agrees k a') (rest : List UInt64) :
    (a.withTimes rest).Agrees k (a'.withTimes rest) := by
  refine ⟨h.target, h.tree, h.phase, ?_⟩
  rw [Actor.withTimes, Actor.withTimes, h.machine.ticks]
  exact h.machine.withTicks _

/-- Actors in agreement close their channels alike. -/
theorem Agrees.closeTicks (h : a.Agrees k a') : a.closeTicks.Agrees k a'.closeTicks := by
  refine ⟨h.target, h.tree, rfl, ?_⟩
  rw [Actor.closeTicks, Actor.closeTicks, h.machine.ticks]
  exact h.machine.withTicks _

theorem Agrees.stop (h : a.Agrees k a') (reason : Notice) {m m' : Machine σ}
    (hm : m.Agrees k m') : (a.stop reason m).Agrees k (a'.stop reason m') :=
  ⟨h.target, h.tree, rfl, hm.note reason⟩

/-- Actors in agreement close the same counters when they finish. -/
theorem Agrees.finish (h : a.Agrees k a') : a.finish.Agrees k a'.finish := by
  refine ⟨h.target, h.tree, rfl, ?_⟩
  rw [Actor.finish, Actor.finish, h.tree]
  exact (a.tree.close_agrees h.machine).hangUp

end Actor

end Agreement

/-! ## Turns in both runs -/

namespace Actor

variable {a a' b : Actor σ}

/-- **Turning a command down makes no difference.** -/
theorem agrees_reject (a : Actor σ) {command : String} {rest : List String}
    (hcontrol : a.machine.mailbox.control.queue = command :: rest)
    (hcommand : command ≠ terminateCommand) :
    a.Agrees .noiseless
      { a with machine := (a.withCommands rest).machine.note (.unknownCommand command) } := by
  have hnoise := View.noiseless_of_ne hcommand
  have htaken : a.machine.Agrees .noiseless (a.withCommands rest).machine :=
    { Machine.Agrees.refl a.machine with
      commands := by
        rw [hcontrol, List.filter_cons_of_neg (by rw [hnoise]; decide)]
        rfl }
  exact ⟨rfl, rfl, rfl, htaken.trans (agrees_note _ hnoise)⟩

/-- **An actor turns down what it does not know**, until no command is left, or one that it knows
comes first. -/
theorem skip_noise (pmu : Pmu σ) (hphase : a.phase = .running) :
    ∃ b, Turns pmu a [] b ∧ a.Agrees .noiseless b ∧
      (b.machine.mailbox.control.queue = [] ∨
        ∃ rest, b.machine.mailbox.control.queue = terminateCommand :: rest) := by
  generalize hqueue : a.machine.mailbox.control.queue = queue
  induction queue generalizing a with
  | nil => exact ⟨a, .refl a, .refl a, .inl hqueue⟩
  | cons command rest ih =>
      by_cases hcommand : command = terminateCommand
      · exact ⟨a, .refl a, .refl a, .inr ⟨rest, hcommand ▸ hqueue⟩⟩
      · have hagrees := a.agrees_reject hqueue hcommand
        obtain ⟨b, hturns, hb, hfront⟩ :=
          ih (a := { a with machine := (a.withCommands rest).machine.note _ }) hphase rfl
        exact ⟨b, .turn (.reject hphase hqueue hcommand) hturns, hagrees.trans hb, hfront⟩

/-- An actor comes to the command that stops it, if the other has come to it. -/
theorem Agrees.catch_up (h : a.Agrees .noiseless a') (hphase : a.phase = .running)
    {rest : List String} (hcontrol : a.machine.mailbox.control.queue = terminateCommand :: rest) :
    ∃ b' rest', Turns pmu' a' [] b' ∧ a.Agrees .noiseless b' ∧
      b'.machine.mailbox.control.queue = terminateCommand :: rest' ∧
      rest'.filter View.noiseless.command = rest.filter View.noiseless.command := by
  obtain ⟨b', hturns, hb', hfront⟩ := skip_noise pmu' (h.phase.trans hphase)
  have hcommands := (h.trans hb').machine.commands
  rw [hcontrol, List.filter_cons_of_pos View.noiseless_terminate] at hcommands
  rcases hfront with hnone | ⟨rest', hcontrol'⟩
  · rw [hnone] at hcommands
    cases hcommands
  · rw [hcontrol', List.filter_cons_of_pos View.noiseless_terminate] at hcommands
    exact ⟨b', rest', hturns, h.trans hb', hcontrol', (List.cons.inj hcommands).2⟩

/-- An actor comes to the end of its commands, if the other has come to it. -/
theorem Agrees.catch_up_idle (h : a.Agrees .noiseless a') (hphase : a.phase = .running)
    (hcontrol : a.machine.mailbox.control.queue = []) :
    ∃ b', Turns pmu' a' [] b' ∧ a.Agrees .noiseless b' ∧
      b'.machine.mailbox.control.queue = [] := by
  obtain ⟨b', hturns, hb', hfront⟩ := skip_noise pmu' (h.phase.trans hphase)
  refine ⟨b', hturns, h.trans hb', hfront.resolve_right ?_⟩
  rintro ⟨rest', hcontrol'⟩
  have hcommands := (h.trans hb').machine.commands
  rw [hcontrol, hcontrol', List.filter_cons_of_pos View.noiseless_terminate] at hcommands
  cases hcommands

/-- **What one actor does in a turn, the other does in none or several**: it turns down what it does
not know first. -/
theorem Turn.agrees {handled : List Handling} (hturn : Turn pmu a handled b)
    (hpmu : pmu.Alike .noiseless pmu') (h : a.Agrees .noiseless a') :
    ∃ ts' b', Turns pmu' a' ts' b' ∧ ts'.map Prod.fst = handled ∧ b.Agrees .noiseless b' := by
  cases hturn with
  | @terminate rest hphase hcontrol =>
      obtain ⟨c, rest', hskip, hc, hcontrol', hrest⟩ := h.catch_up hphase hcontrol
      have htaken :
          (a.withCommands rest).machine.Agrees .noiseless (c.withCommands rest').machine :=
        { hc.machine with commands := hrest }
      exact ⟨_, _, hskip.trans (.single (.terminate (hc.phase.trans hphase) hcontrol')), rfl,
        hc.stop _ htaken⟩
  | reject hphase hcontrol hcommand =>
      -- the other need not move: what was turned down is not looked at
      have hrejected := a.agrees_reject hcontrol hcommand
      exact ⟨[], a', .refl a', rfl, hrejected.symm.trans h⟩
  | controlClosed hphase hcontrol hgone =>
      obtain ⟨c, hskip, hc, hcontrol'⟩ := h.catch_up_idle hphase hcontrol
      have hgone' := hc.machine.control_isOpen.trans hgone
      exact ⟨_, _, hskip.trans (.single (.controlClosed (hc.phase.trans hphase) hcontrol' hgone')),
        rfl, hc.stop _ hc.machine⟩
  | @handle time rest hphase hcontrol hthere hticks =>
      obtain ⟨c, hskip, hc, hcontrol'⟩ := h.catch_up_idle hphase hcontrol
      have hthere' := hc.machine.control_isOpen.trans hthere
      have hticks' := (congrArg Channel.queue hc.machine.ticks).trans hticks
      obtain ⟨hsame, hb⟩ := (hc.withTimes rest).handleTick hpmu time
      exact ⟨_, _, hskip.trans (.single
        (.handle (hc.phase.trans hphase) hcontrol' hthere' hticks')),
        congrArg (fun handled => [handled]) hsame, hb⟩
  | tickerClosed hphase hcontrol hthere hticks hgone =>
      obtain ⟨c, hskip, hc, hcontrol'⟩ := h.catch_up_idle hphase hcontrol
      have hthere' := hc.machine.control_isOpen.trans hthere
      have hticks' := (congrArg Channel.queue hc.machine.ticks).trans hticks
      have hgone' := (congrArg Channel.isOpen hc.machine.ticks).trans hgone
      exact ⟨_, _, hskip.trans (.single
        (.tickerClosed (hc.phase.trans hphase) hcontrol' hthere' hticks' hgone')), rfl,
        hc.stop _ hc.machine⟩
  | closeTicks hphase =>
      exact ⟨_, _, .single (.closeTicks (h.phase.trans hphase)), rfl, h.closeTicks⟩
  | @drain time rest hphase hticks =>
      have hticks' := (congrArg Channel.queue h.machine.ticks).trans hticks
      obtain ⟨hsame, hb⟩ := (h.withTimes rest).handleTick hpmu time
      exact ⟨_, _, .single (.drain (h.phase.trans hphase) hticks'),
        congrArg (fun handled => [handled]) hsame, hb⟩
  | finish hphase hticks hgone =>
      have hticks' := (congrArg Channel.queue h.machine.ticks).trans hticks
      have hgone' := (congrArg Channel.isOpen h.machine.ticks).trans hgone
      exact ⟨_, _, .single (.finish (h.phase.trans hphase) hticks' hgone'), rfl, h.finish⟩

/-- **Turn by turn, the same is done in both runs.** -/
theorem Turns.agrees {ts : List (Handling × Bool)} (hturns : Turns pmu a ts b)
    (hpmu : pmu.Alike .noiseless pmu') (h : a.Agrees .noiseless a') :
    ∃ ts' b', Turns pmu' a' ts' b' ∧ ts'.map Prod.fst = ts.map Prod.fst ∧
      b.Agrees .noiseless b' := by
  induction hturns generalizing a' with
  | refl => exact ⟨[], a', .refl a', rfl, h⟩
  | turn hturn _ ih =>
      obtain ⟨ts₁, b', hfirst, hhandled, hb⟩ := hturn.agrees hpmu h
      obtain ⟨ts₂, c', hrest, hhandled', hc⟩ := ih hb
      refine ⟨ts₁ ++ ts₂, c', hfirst.trans hrest, ?_, hc⟩
      rw [List.map_append, List.map_append, map_fst_flagged, hhandled, hhandled']

end Actor

/-! ## What noise leaves behind -/

namespace Monitor

/-- The payloads made of ticks, those that somebody took or those that nobody took. -/
def payloads (taken : Bool) (ts : List (Handling × Bool)) : List Payload :=
  ts.filterMap fun t => if t.2 = taken then t.1.payload? else none

theorem payloads_append (taken : Bool) (ts ts' : List (Handling × Bool)) :
    payloads taken (ts ++ ts') = payloads taken ts ++ payloads taken ts' := List.filterMap_append

/-- What became of the payloads made between two machines: those that somebody took are delivered,
the others are dropped with a notice each; and who has left does not come back. -/
structure Pays (m : Machine σ) (ts : List (Handling × Bool)) (m' : Machine σ) : Prop where
  delivered : m'.mailbox.sink.queue = m.mailbox.sink.queue ++ payloads true ts
  dropped : m'.droppedTimes = m.droppedTimes ++ (payloads false ts).map Payload.timestamp
  order : ts.Pairwise fun t t' => t'.2 = true → t.2 = true
  before : m.mailbox.sink.isOpen = false → ∀ t ∈ ts, t.2 = false
  behind : (m.mailbox.sink.isOpen = false ∨ ∃ t ∈ ts, t.2 = false) →
    m'.mailbox.sink.isOpen = false

variable {m m' m'' : Machine σ} {ts ts' : List (Handling × Bool)}

theorem Pays.trans (h : Pays m ts m') (h' : Pays m' ts' m'') : Pays m (ts ++ ts') m'' where
  delivered := by
    rw [h'.delivered, h.delivered, payloads_append, List.append_assoc]
  dropped := by
    rw [h'.dropped, h.dropped, payloads_append, List.map_append, List.append_assoc]
  order := by
    refine List.pairwise_append.mpr ⟨h.order, h'.order, fun t ht t' ht' htaken => ?_⟩
    -- a payload lost in the first part leaves nobody to take one in the second
    by_contra hlost
    have hgone := h.behind (.inr ⟨t, ht, Bool.not_eq_true _ ▸ hlost⟩)
    rw [h'.before hgone t' ht'] at htaken
    cases htaken
  before hgone t ht := by
    rcases List.mem_append.mp ht with ht | ht
    · exact h.before hgone t ht
    · exact h'.before (h.behind (.inl hgone)) t ht
  behind hgone := by
    rcases hgone with hgone | ⟨t, ht, hlost⟩
    · exact h'.behind (.inl (h.behind (.inl hgone)))
    · rcases List.mem_append.mp ht with ht | ht
      · exact h'.behind (.inl (h.behind (.inr ⟨t, ht, hlost⟩)))
      · exact h'.behind (.inr ⟨t, ht, hlost⟩)

/-- Where nothing was sent and nothing dropped, no payload came of it. -/
theorem pays_of_eq (hdelivered : m'.mailbox.sink.queue = m.mailbox.sink.queue)
    (hdropped : m'.droppedTimes = m.droppedTimes)
    (hgone : m.mailbox.sink.isOpen = false → m'.mailbox.sink.isOpen = false) : Pays m [] m' where
  delivered := hdelivered.trans (List.append_nil _).symm
  dropped := hdropped.trans (List.append_nil _).symm
  order := .nil
  before _ _ ht := nomatch ht
  behind h := hgone (h.resolve_right fun ⟨_, ht, _⟩ => nomatch ht)

/-- Listening sends no payload. -/
theorem pays_listens {heard : List UInt64} (h : Listens m m' heard) : Pays m [] m' :=
  pays_of_eq h.delivered h.dropped h.sink

/-- A tick is handled, and what becomes of its payload is settled by whether somebody takes it. -/
theorem pays_tick {handled : Handling}
    (hdelivered : m'.mailbox.sink.queue
      = m.mailbox.sink.queue ++ payloads true [(handled, m.mailbox.sink.isOpen)])
    (hdropped : m'.droppedTimes = m.droppedTimes
      ++ (payloads false [(handled, m.mailbox.sink.isOpen)]).map Payload.timestamp)
    (hopen : m'.mailbox.sink.isOpen = m.mailbox.sink.isOpen) :
    Pays m [(handled, m'.mailbox.sink.isOpen)] m' := by
  rw [hopen]
  exact {
    delivered := hdelivered
    dropped := hdropped
    order := List.pairwise_singleton _ _
    before := fun hgone t ht => by rw [List.mem_singleton.mp ht, hgone]
    behind := fun hgone => by
      rcases hgone with hgone | ⟨t, ht, hlost⟩
      · exact hopen.trans hgone
      · rw [List.mem_singleton.mp ht] at hlost
        exact hopen.trans hlost }

/-- **A payload is delivered as long as somebody takes it**, and else dropped with a notice. -/
theorem pays_deliver (m : Machine σ) (time : UInt64) (p : Payload) :
    Pays m [(⟨time, .ok p⟩, (m.deliver p).mailbox.sink.isOpen)] (m.deliver p) := by
  have hsend := m.mailbox.sink.send_eq p
  rcases hopen : m.mailbox.sink.isOpen with _ | _
  · rw [hopen] at hsend
    have hdrop : m.deliver p = m.note (.payloadDropped p.timestamp) := by rw [deliver, hsend]
    rw [hdrop]
    refine pays_tick ?_ ?_ rfl
    · rw [hopen]
      exact (List.append_nil _).symm
    · rw [hopen]
      exact m.droppedTimes_note _
  · rw [hopen] at hsend
    rw [deliver, hsend]
    refine pays_tick ?_ ?_ rfl
    · rw [hopen]
      rfl
    · rw [hopen]
      exact (List.append_nil _).symm

/-- **A tick that is handled pays at most one payload**, to the receiver or to nobody. -/
theorem pays_handleTick (pmu : Pmu σ) (time : UInt64) (a : Actor σ) :
    Pays a.machine [(a.handling pmu time, (a.handleTick pmu time).machine.mailbox.sink.isOpen)]
      (a.handleTick pmu time).machine := by
  obtain ⟨-, -, m, huses, hsettled⟩ := a.handleTick_uses pmu time
  obtain ⟨heard, hlistens⟩ := listens_uses huses
  rcases hsettled with ⟨p, hhandling, hmachine⟩ | ⟨e, hhandling, hmachine⟩
  · rw [hhandling, hmachine]
    exact (pays_listens hlistens).trans (pays_deliver m time p)
  · have hnothing : ∀ taken flag, payloads taken [(⟨time, .error e⟩, flag)] = [] := by
      intro taken flag
      cases taken <;> cases flag <;> rfl
    rw [hhandling, hmachine]
    refine (pays_listens hlistens).trans (pays_tick ?_ ?_ rfl)
    · rw [hnothing, List.append_nil]
      rfl
    · rw [hnothing]
      exact m.droppedTimes_note (.tickFailed time e)

/-- A turn pays for the ticks it handles. -/
theorem pays_turn {a b : Actor σ} {handled : List Handling} (hturn : Actor.Turn pmu a handled b) :
    Pays a.machine (handled.map (·, b.machine.mailbox.sink.isOpen)) b.machine := by
  rcases hturn.listens_or_handles with ⟨rfl, hlistens, -, -⟩ | ⟨time, rest, -, -, rfl, rfl⟩
  · exact pays_listens hlistens
  · have htaken : Pays a.machine [] (a.withTimes rest).machine := pays_of_eq rfl rfl id
    exact htaken.trans (pays_handleTick pmu time (a.withTimes rest))

/-- **What becomes of payloads is settled tick by tick.** -/
theorem pays_turns {a b : Actor σ} (hturns : Actor.Turns pmu a ts b) :
    Pays a.machine ts b.machine := by
  induction hturns with
  | refl a => exact pays_listens (.refl _)
  | turn hturn _ ih => exact (pays_turn hturn).trans ih

/-- How the commands that a monitor took were answered, and why others were left: it never took any,
or they wait, or it had stopped. -/
inductive Answered (m m' : Machine σ) (taken left : List String) : Prop
  | nothing (htaken : taken = []) (hanswers : m'.answers = m.answers)
  | waiting (hleft : left = m'.mailbox.control.queue)
      (hanswers : m'.answers = m.answers ++ taken.map .unknownCommand)
  | stopped {reason : Notice} (hreason : StoppedBy m' reason left)
      (hanswers : m'.answers = m.answers ++ taken.map .unknownCommand ++ [reason])

/-- The traces that noise leaves in a run: what became of its payloads; and the commands taken are
turned down with a notice each, up to the stop. -/
structure NoiseAccount (m : Machine σ) (ts : List (Handling × Bool)) (m' : Machine σ) : Prop where
  payloads : Pays m ts m'
  commands : ∃ heard taken left, m'.acceptedCommands = m.acceptedCommands ++ heard ∧
    m.mailbox.control.queue ++ heard = taken ++ left ∧ Actor.terminateCommand ∉ taken ∧
    Answered m m' taken left

/-- Turns that nothing comes between account for the payloads made and the commands taken. -/
theorem noiseAccount_of_start {config : MonitoringConfig} {backend : Option Backend} {a b : Actor σ}
    (hstart : start pmu config backend m = .ok a) (hturns : Actor.Turns pmu a ts b) :
    NoiseAccount m ts b.machine := by
  obtain ⟨-, -, _, hlistens⟩ := start_listens hstart
  refine ⟨(pays_listens hlistens).trans (pays_turns hturns), ?_⟩
  obtain ⟨_, hbegun⟩ := start_commandAccount hstart
  obtain ⟨heard, taken, left, haccount⟩ := hbegun.reaches hturns.reaches
  refine ⟨heard, taken, left, haccount.accepted, haccount.commands, haccount.harmless, ?_⟩
  rcases haccount.left with ⟨-, hleft, hanswers⟩ | ⟨-, hreason, hanswers⟩
  · exact .waiting hleft hanswers
  · exact .stopped hreason hanswers

/-- **A monitor that fails to start** leaves all commands, and no payload. -/
theorem noiseAccount_of_failure {config : MonitoringConfig} {backend : Option Backend} {f : Failure}
    (hstart : start pmu config backend m = .error (f, m')) : NoiseAccount m [] m' := by
  obtain ⟨m₁, n, hsetups, hlast, rfl⟩ := start_error hstart
  have hdropped : n.droppedTime? = none := by rcases hlast with rfl | rfl <;> rfl
  have hanswer : n.isAnswer = false := by rcases hlast with rfl | rfl <;> rfl
  have hsilent : Hears m₁ (m₁.note n) [] := hears_of_eq rfl rfl (m₁.answers_note_of_not hanswer)
  have hnoted := (hears_quiet hsetups.quiet).trans hsilent
  have hgone : Pays (m₁.note n) [] (m₁.note n).hangUp := pays_of_eq rfl rfl fun _ => rfl
  refine ⟨((pays_listens (listens_setups hsetups)).trans
    (pays_listens (m₁.listens_note hdropped))).trans hgone, ?_⟩
  -- the channel of commands is gone, with what it held
  refine ⟨[], [], m.mailbox.control.queue, hnoted.accepted, List.append_nil _, List.not_mem_nil, ?_⟩
  exact .nothing rfl hnoted.answers

/-- **A monitor that is left to itself accounts for its payloads and its commands**, however far it
gets. -/
theorem Comes.noiseAccount {config : MonitoringConfig} {backend : Option Backend}
    {r : Option (Except Failure Unit)} (h : Comes pmu config backend m r ts m') :
    NoiseAccount m ts m' := by
  cases h with
  | failed hstart => exact noiseAccount_of_failure hstart
  | working hstart hturns => exact noiseAccount_of_start hstart hturns
  | ended hstart hturns => exact noiseAccount_of_start hstart hturns

/-! ## Whole runs -/

/-- **A monitor starts in both runs, or fails in both.** -/
theorem start_agrees {k : View} (h : m.Agrees k m') (hpmu : pmu.Alike k pmu')
    (config : MonitoringConfig) (backend : Option Backend) :
    (∃ f m₁ m₁', start pmu config backend m = .error (f, m₁) ∧
      start pmu' config backend m' = .error (f, m₁') ∧ m₁.Agrees k m₁') ∨
    ∃ a a', start pmu config backend m = .ok a ∧ start pmu' config backend m' = .ok a' ∧
      a.Agrees k a' := by
  rw [start, start]
  rcases config.target.name with e | target
  · exact .inl ⟨_, _, _, rfl, rfl, (h.note _).hangUp⟩
  obtain ⟨r, m₁, m₁', hopen, hopen', h₁⟩ :=
    SessionTree.start_agrees h hpmu (fun _ => rfl : k.symbols = true → backend = backend) config
  dsimp only
  rw [hopen, hopen']
  rcases r with f | tree
  · exact .inl ⟨_, _, _, rfl, rfl, (h₁.note _).hangUp⟩
  · obtain ⟨failures, m₂, m₂', henable, henable', h₂⟩ :=
      SessionTree.enable_agrees h₁ hpmu (rfl : (tree.symbolized backend).groups = _)
    dsimp only [Except.map]
    rw [henable, henable']
    exact .inr ⟨_, _, rfl, rfl, rfl, rfl, rfl, h₂.note _⟩

/-- Two runs that handled the same ticks with the same outcomes, made the same calls to counters,
and left machines that agree but for noise. -/
structure SameRun (ts ts' : List (Handling × Bool)) (m m' : Machine σ) : Prop where
  handled : ts'.map Prod.fst = ts.map Prod.fst
  calls : m'.counterCalls = m.counterCalls
  agrees : m.Agrees .noiseless m'

theorem SameRun.symm (h : SameRun ts ts' m m') : SameRun ts' ts m' m :=
  ⟨h.handled.symm, h.calls.symm, h.agrees.symm⟩

/-- **Whatever a monitor comes to, another comes to as well**, if only noise differs. -/
theorem Comes.agrees {config : MonitoringConfig} {backend : Option Backend}
    {r : Option (Except Failure Unit)} {m₁ : Machine σ} (hrun : Comes pmu config backend m r ts m₁)
    (hpmu : pmu.Alike .noiseless pmu') (h : m.Agrees .noiseless m') :
    ∃ ts' m₁', Comes pmu' config backend m' r ts' m₁' ∧ SameRun ts ts' m₁ m₁' := by
  rcases start_agrees h hpmu config backend with
    ⟨f, m₂, m₂', hfailed, hfailed', h₂⟩ | ⟨a, a', hstarted, hstarted', ha⟩
  · cases hrun with
    | failed hstart =>
        cases hstart.symm.trans hfailed
        exact ⟨[], m₂', .failed hfailed', rfl, h₂.counterCalls, h₂⟩
    | working hstart | ended hstart => cases hstart.symm.trans hfailed
  · cases hrun with
    | failed hstart => cases hstart.symm.trans hstarted
    | working hstart hturns hphase =>
        cases hstart.symm.trans hstarted
        obtain ⟨ts', b', hturns', hhandled, hb⟩ := hturns.agrees hpmu ha
        exact ⟨ts', b'.machine, .working hstarted' hturns' (hb.phase ▸ hphase), hhandled,
          hb.machine.counterCalls, hb.machine⟩
    | ended hstart hturns hphase =>
        cases hstart.symm.trans hstarted
        obtain ⟨ts', b', hturns', hhandled, hb⟩ := hturns.agrees hpmu ha
        exact ⟨ts', b'.machine, .ended hstarted' hturns' (hb.phase.trans hphase), hhandled,
          hb.machine.counterCalls, hb.machine⟩

end Monitor

/-- **Noise does not matter.**  Two monitors with the same configuration are left to themselves.
Their counters behave alike, and what is sent and who leaves is the same in both runs, beforehand
and while ticks are handled, but for commands that nobody obeys and for whether and when the
receiver of payloads leaves.  Then whatever the one comes to, the other comes to as well: with the
same outcome, the same ticks, handled with the same payloads or failures, the same calls to counters
in the same order, and machines and logs that agree but for noise.  Each of them delivers the
payloads made while somebody took them, and drops the others with one notice each; it turns down,
with one notice each, the commands that it took before it stopped, and no others.  So it is, in
particular, with any two runs that return. -/
theorem noise_does_not_matter {pmu pmu' : Pmu σ} (hpmu : pmu.Alike .noiseless pmu')
    {m m' : Machine σ} (h : m.Agrees .noiseless m') (config : MonitoringConfig)
    (backend : Option Backend) :
    (∀ r ts m₁, Monitor.Comes pmu config backend m r ts m₁ →
      ∃ ts' m₁', Monitor.Comes pmu' config backend m' r ts' m₁' ∧
        Monitor.SameRun ts ts' m₁ m₁' ∧ Monitor.NoiseAccount m ts m₁ ∧
        Monitor.NoiseAccount m' ts' m₁') ∧
    (∀ r ts' m₁', Monitor.Comes pmu' config backend m' r ts' m₁' →
      ∃ ts m₁, Monitor.Comes pmu config backend m r ts m₁ ∧ Monitor.SameRun ts ts' m₁ m₁') ∧
    ∀ turns turns' r r' m₁ m₁', Monitor.run pmu config backend turns m = some (r, m₁) →
      Monitor.run pmu' config backend turns' m' = some (r', m₁') →
      r' = r ∧ ∃ ts ts', Monitor.Comes pmu config backend m (some r) ts m₁ ∧
        Monitor.Comes pmu' config backend m' (some r) ts' m₁' ∧
        Monitor.SameRun ts ts' m₁ m₁' ∧ Monitor.NoiseAccount m ts m₁ ∧
        Monitor.NoiseAccount m' ts' m₁' := by
  refine ⟨fun r ts m₁ hrun => ?_, fun r ts' m₁' hrun' => ?_,
    fun turns turns' r r' m₁ m₁' hreturns hreturns' => ?_⟩
  · obtain ⟨ts', m₁', hrun', hsame⟩ := hrun.agrees hpmu h
    exact ⟨ts', m₁', hrun', hsame, hrun.noiseAccount, hrun'.noiseAccount⟩
  · obtain ⟨ts, m₁, hrun, hsame⟩ := hrun'.agrees hpmu.symm h.symm
    exact ⟨ts, m₁, hrun, hsame.symm⟩
  · obtain ⟨ts, hrun⟩ := Monitor.exists_comes_iff.mpr ⟨turns, hreturns⟩
    obtain ⟨ts', hrun'⟩ := Monitor.exists_comes_iff.mpr ⟨turns', hreturns'⟩
    obtain ⟨ts'', m₁'', hrun'', hsame⟩ := hrun.agrees hpmu h
    obtain ⟨rfl, rfl, rfl⟩ := hrun''.unique hrun'
    exact ⟨rfl, ts, ts'', hrun, hrun'', hsame, hrun.noiseAccount, hrun''.noiseAccount⟩

/-- One tick is waiting, and another and the command to stop are sent while it is handled; reads
fail.  In the second run, commands that nobody knows come before and between these, and the receiver
of payloads leaves. -/
theorem noise_does_not_matter_while_reading :
    let reads : List (Option ScriptedRead) := [some (.fail .inputOutput), some (.fail .inputOutput)]
    let quiet : Pmu ScriptProgress := Script.pmu {
      reads, outside := [(0, .tick 8), (0, .command Actor.terminateCommand)] }
    let noisy : Pmu ScriptProgress := Script.pmu {
      reads
      outside := [(0, .command "$PAUSE"), (0, .tick 8), (0, .dropSink),
        (0, .command Actor.terminateCommand), (1, .command "$PAUSE")] }
    let core : EventsGroup := ⟨"core", .allCpus, [⟨"cycles", Hardware.cpuCycle.event⟩]⟩
    let config : MonitoringConfig :=
      { topology := ⟨⟨[(0, ⟨[3], by decide⟩)], by decide⟩⟩
        groups := ⟨[("core", core)], by decide⟩
        target := .system
        sampling := {} }
    let m (commands : List String) : Machine ScriptProgress := {
      state := {}
      mailbox := { control := { queue := commands }, ticks := { queue := [7] } } }
    ∃ ts ts' m₁ m₁', Monitor.Comes quiet config none (m []) (some (.ok ())) ts m₁ ∧
      Monitor.Comes noisy config none (m ["$STOP"]) (some (.ok ())) ts' m₁' ∧
      ts'.map Prod.fst = ts.map Prod.fst ∧
      m₁'.counterCalls.drop 1 = [.reset 0, .enable 0, .read 0 32, .read 0 32] := by
  intro reads quiet noisy core config m
  have hpmu : quiet.Alike .noiseless noisy := by
    refine ⟨rfl, rfl, rfl, rfl, rfl, fun id s => ?_⟩
    obtain ⟨opens, maps, resets, enables, count⟩ := s
    rcases count with _ | _ | count
    · rfl
    · rfl
    · rfl
  have hagrees : (m []).Agrees .noiseless (m ["$STOP"]) :=
    { Machine.Agrees.refl (m []) with commands := rfl }
  have hends : (Monitor.run quiet config none 9 (m [])).map
      (fun d => (d.1, d.2.counterCalls.drop 1))
      = some (.ok (), [.reset 0, .enable 0, .read 0 32, .read 0 32]) := by decide +kernel
  obtain ⟨⟨r, m₁⟩, hrun, hd⟩ := Option.map_eq_some_iff.mp hends
  obtain ⟨rfl, hcalls⟩ := Prod.mk.inj hd
  obtain ⟨ts, hcomes⟩ := Monitor.exists_comes_iff.mpr ⟨9, hrun⟩
  obtain ⟨hboth, -, -⟩ := noise_does_not_matter hpmu hagrees config none
  obtain ⟨ts', m₁', hcomes', hsame, -, -⟩ := hboth _ _ _ hcomes
  exact ⟨ts, ts', m₁, m₁', hcomes, hcomes', hsame.handled, hsame.calls ▸ hcalls⟩

end CounterWatch
