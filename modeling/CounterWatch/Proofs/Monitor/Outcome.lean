import CounterWatch.Proofs.Monitor.Turns
import CounterWatch.Proofs.Session.Plan
import CounterWatch.Proofs.Session.Record
import CounterWatch.Pmu.Scripted

/-!
# Proofs/Monitor/Outcome — which failures end a monitor

A monitor fails only while it starts: its target has no name, or its counters cannot be opened.
Whatever goes wrong with counters, commands or payloads from then on is logged, and the monitor ends
as if nothing had happened.  However it ends, no counter stays open.

* `Monitor.Returns` — a monitor that failed to start, or an actor that has stopped; `returns_of_run`
  and `exists_returns_ok_iff` tie it to what runs.
* `SessionTree.start_failure` — opening fails for reasons of its own.
* `Actor.Holds` — what every turn and every step of the surroundings preserves: all counters opened
  for a tree are open until the actor has stopped, and closed from then on.
* `only_starting_fails` — how a monitor returns, and what it leaves.
-/

namespace CounterWatch

variable {σ : Type} {pmu : Pmu σ}

/-! ## Returning -/

/-- How a monitor returns: with what outcome, after which ticks, and what is left of the machine. -/
inductive Monitor.Returns (pmu : Pmu σ) (config : MonitoringConfig) (backend : Option Backend)
    (m : Machine σ) : Except Failure Unit → List Handling → Machine σ → Prop
  | failed {f : Failure} {m' : Machine σ} (hstart : start pmu config backend m = .error (f, m')) :
      Returns pmu config backend m (.error f) [] m'
  | ended {a b : Actor σ} {hs : List Handling} (hstart : start pmu config backend m = .ok a)
      (hrun : Actor.Reaches pmu a hs b) (hphase : b.phase = .stopped) :
      Returns pmu config backend m (.ok ()) hs b.machine

/-- **A whole run that comes to an end returns.** -/
theorem Monitor.returns_of_run {config : MonitoringConfig} {backend : Option Backend} {turns : Nat}
    {m m' : Machine σ} {r : Except Failure Unit}
    (h : run pmu config backend turns m = some (r, m')) :
    ∃ hs, Returns pmu config backend m r hs m' := by
  rcases r with f | ⟨⟨⟩⟩
  · rw [run] at h
    rcases hs : start pmu config backend m with ⟨f', m₁⟩ | a
    · rw [hs] at h
      cases h
      exact ⟨[], .failed hs⟩
    · rw [hs] at h
      dsimp only at h
      split at h
      · cases h
      · cases h
  · obtain ⟨a, hs, b, hstart, hreach, hphase, rfl⟩ := run_reaches h
    exact ⟨hs, .ended hstart hreach hphase⟩

/-- **Success is where passes and the surroundings bring an actor** that has started and come to its
end. -/
theorem Monitor.exists_returns_ok_iff {config : MonitoringConfig} {backend : Option Backend}
    {m m' : Machine σ} :
    (∃ hs, Returns pmu config backend m (.ok ()) hs m') ↔
      ∃ a b, start pmu config backend m = .ok a ∧ Relation.ReflTransGen (Actor.Moves pmu) a b ∧
        b.phase = .stopped ∧ b.machine = m' := by
  constructor
  · rintro ⟨hs, h⟩
    cases h with
    | @ended a b _ hstart hrun hphase =>
        exact ⟨a, b, hstart, Actor.exists_reaches_iff.mp ⟨hs, hrun⟩, hphase, rfl⟩
  · rintro ⟨a, b, hstart, hmoves, hphase, rfl⟩
    obtain ⟨hs, hrun⟩ := Actor.exists_reaches_iff.mpr hmoves
    exact ⟨hs, .ended hstart hrun hphase⟩

/-! ## Failures of opening -/

/-- Whether a failure is one of opening counters, once the target has a name. -/
def Failure.isOfOpening : Failure → Bool
  | .cgroup _ _ | .noPid _ | .openEvent _ _ _ | .mapRing _ _ => true
  | .targetName _ | .readCounts _ _ | .resetCounts _ _ | .enableCounts _ _ => false

theorem Failure.isOfOpening_of_isOfCounter {f : Failure} (h : f.isOfCounter = true) :
    f.isOfOpening = true := by
  cases f <;> first | rfl | cases h

theorem firstProcess_failure {directory : Path} {m m' : Machine σ} {f : Failure}
    (h : firstProcess directory m = (.error f, m')) : f.isOfOpening = true := by
  rw [firstProcess] at h
  split at h
  · cases h
    rfl
  · split at h
    · cases h
      rfl
    · dsimp only at h
      split at h <;> cases h
      rfl

/-- A target that cannot be prepared is a failure of opening. -/
theorem prepareTarget_failure {target : Target} {backend : Option Backend} {m m' : Machine σ}
    {f : Failure} (h : prepareTarget target backend m = (.error f, m')) :
    f.isOfOpening = true := by
  rw [prepareTarget] at h
  split at h
  · cases h
  next directory _ =>
    rcases hfirst : firstProcess directory m with ⟨e | pid, m₁⟩
    · rw [hfirst] at h
      cases h
      exact firstProcess_failure hfirst
    · rw [hfirst] at h
      cases h

/-- **Opening fails for the control group, an event or a ring**, and for nothing else. -/
theorem SessionTree.start_failure {config : MonitoringConfig} {backend : Option Backend}
    {m m' : Machine σ} {f : Failure} (h : start pmu config backend m = (.error f, m')) :
    f.isOfOpening = true := by
  rcases hp : prepareTarget config.target backend m with ⟨e | found, m₁⟩
  · rw [start, hp] at h
    cases h
    exact prepareTarget_failure hp
  · have hplanned := start_asPlanned pmu hp
    rw [h] at hplanned
    exact Failure.isOfOpening_of_isOfCounter (hplanned.opensCounters.failure f rfl)

/-! ## Counters -/

open Ledger

namespace Machine

theorem ledger_deliver (m : Machine σ) (p : Payload) : (m.deliver p).ledger = m.ledger := by
  rw [deliver]
  split
  · rfl
  · rfl

/-- **What was reverted is closed**, every counter of it once, and no leader before its siblings. -/
theorem closes_of_reverts {m m' : Machine σ} (h : Reverts m.ledger m'.ledger) :
    ∃ new : List Counter, m'.opened = m.opened ++ new ∧ (new.map Counter.id).Nodup ∧
      m.Closes m' new ∧ m'.live.Perm m.live := by
  obtain ⟨l, new, gs, hopens, hperm, hl⟩ := h
  obtain ⟨hopened, hshut, hlive⟩ := closes_of_strikeAll hl hperm hopens.nodup hopens.live
  rw [hopens.closed] at hshut
  exact ⟨new, hopened.trans hopens.opened, hopens.nodup, hshut, hlive⟩

end Machine

namespace Actor

variable {l : Ledger} {a b : Actor σ} {hs : List Handling}

/-- **Handling a tick opens and closes no counter**, and does not stop the actor. -/
theorem keeps_handleTick (pmu : Pmu σ) (time : UInt64) (a : Actor σ) :
    (a.handleTick pmu time).phase = a.phase ∧
      (a.handleTick pmu time).tree.counters = a.tree.counters ∧
      (a.handleTick pmu time).machine.ledger = a.machine.ledger := by
  have hwork : SessionTree.Work pmu (a.tree, a.machine)
      (a.tree.collect pmu time a.target a.machine).2 := .collect ..
  obtain ⟨hcounters, hledger⟩ := SessionTree.work_keeps hwork
  rw [handleTick]
  rcases hc : a.tree.collect pmu time a.target a.machine with ⟨e | p, tree, m⟩
  · rw [hc] at hcounters hledger
    exact ⟨rfl, hcounters, hledger⟩
  · rw [hc] at hcounters hledger
    exact ⟨rfl, hcounters, (m.ledger_deliver p).trans hledger⟩

/-- The counters opened since a ledger was as it was are those of the actor's tree, and open; or
they are closed again, as the actor has stopped. -/
structure Holds (l : Ledger) (a : Actor σ) : Prop where
  working : a.phase ≠ .stopped → Opens l a.machine.ledger a.tree.counters
  stopped : a.phase = .stopped → Reverts l a.machine.ledger

/-- What keeps the counters, and does not stop the actor, keeps what it holds. -/
theorem Holds.of_eq (h : a.Holds l) (ha : a.phase ≠ .stopped) (hb : b.phase ≠ .stopped)
    (hcounters : b.tree.counters = a.tree.counters)
    (hledger : b.machine.ledger = a.machine.ledger) : b.Holds l where
  working _ := by
    rw [hcounters, hledger]
    exact h.working ha
  stopped hstopped := absurd hstopped hb

/-- **A turn keeps the counters open, or closes them all.** -/
theorem Holds.turn (h : a.Holds l) (hturn : Turn pmu a hs b) : b.Holds l := by
  cases hturn with
  | terminate hphase | controlClosed hphase | tickerClosed hphase | closeTicks hphase =>
      exact h.of_eq (by rw [hphase]; decide) nofun rfl rfl
  | reject hphase =>
      have hworking : a.phase ≠ .stopped := by rw [hphase]; decide
      exact h.of_eq hworking hworking rfl rfl
  | @handle time rest hphase | @drain time rest hphase =>
      obtain ⟨hsame, hcounters, hledger⟩ := (a.withTimes rest).keeps_handleTick pmu time
      have hworking : a.phase ≠ .stopped := by rw [hphase]; decide
      exact h.of_eq hworking (hsame ▸ hworking) hcounters hledger
  | finish hphase =>
      refine ⟨fun hworking => absurd rfl hworking, fun _ => ?_⟩
      have hopens := h.working (by rw [hphase]; decide)
      rw [← a.tree.flatMap_counterGroups] at hopens
      have hclosed : a.finish.machine.ledger
          = a.machine.ledger.strikeAll (a.tree.counterGroups.flatMap CounterGroup.closingOrder) :=
        a.tree.ledger_close a.machine
      rw [hclosed]
      exact hopens.reverts (.refl _)

/-- What is held at the start of a run is held all the way, until it is closed. -/
theorem Holds.reaches (h : a.Holds l) (hrun : Reaches pmu a hs b) : b.Holds l := by
  induction hrun with
  | refl => exact h
  | @outside _ c _ step ih =>
      have hledger : (c.outside step).machine.ledger = c.machine.ledger :=
        c.machine.ledger_outside step
      exact ⟨fun hworking => hledger ▸ ih.working hworking,
        fun hstopped => hledger ▸ ih.stopped hstopped⟩
  | turn _ hturn ih => exact ih.turn hturn

end Actor

/-- **However a monitor returns, what it opened is closed again.** -/
theorem Monitor.Returns.reverts {config : MonitoringConfig} {backend : Option Backend}
    {m m' : Machine σ} {r : Except Failure Unit} {hs : List Handling}
    (h : Returns pmu config backend m r hs m') : Reverts m.ledger m'.ledger := by
  have hopened := SessionTree.start_allOrNothing pmu config backend m
  cases h with
  | failed hstart =>
      have hcases := start_cases pmu config backend m
      rw [hstart] at hcases
      rcases hcases with ⟨e, -, -, rfl⟩ | ⟨target, m₁, -, hbuilt, rfl⟩
      · exact .refl m.ledger
      · rw [hbuilt] at hopened
        exact hopened
  | @ended a b hs hstart hrun hphase =>
      have hcases := start_cases pmu config backend m
      rw [hstart] at hcases
      obtain ⟨target, tree, m₁, -, hbuilt, rfl⟩ := hcases
      rw [hbuilt] at hopened
      change Opens m.ledger m₁.ledger (tree.counterGroups.flatMap CounterGroup.counters) at hopened
      rw [tree.flatMap_counterGroups] at hopened
      have henabled : (tree.enable pmu m₁).2.ledger = m₁.ledger :=
        (SessionTree.work_keeps (.enable tree m₁)).2
      rw [← henabled] at hopened
      have hholds : Actor.Holds m.ledger ⟨target, tree, .running,
          (tree.enable pmu m₁).2.note (.started tree.groups.size tree.inCgroup)⟩ :=
        ⟨fun _ => hopened, nofun⟩
      exact (hholds.reaches hrun).stopped hphase

/-! ## The outcome -/

/-- What a monitor leaves that failed to start: it looked for its target and opened counters, said
in the end what went wrong, and sent nothing. -/
structure LeftByFailure (m m' : Machine σ) (last : Notice) : Prop where
  trace : ∃ calls, m'.trace = m.trace ++ calls ∧ ∀ c ∈ calls, c.isOpening = true
  log : ∃ notices, m'.log = m.log ++ notices ++ [last] ∧ ∀ n ∈ notices, n.ofActor = false
  sink : m'.mailbox.sink.queue = m.mailbox.sink.queue

theorem leftByFailure_of_records {m m₁ : Machine σ}
    (h : m.Records (fun c => c.isOpening = true) m₁) (last : Notice) :
    LeftByFailure m (m₁.note last).hangUp last := by
  obtain ⟨notices, hlog, hnotices⟩ := h.log
  exact ⟨h.trace, ⟨notices, congrArg (· ++ [last]) hlog, hnotices⟩,
    congrArg (fun box => box.sink.queue) h.mailbox⟩

namespace Monitor.Returns

variable {config : MonitoringConfig} {backend : Option Backend} {m m' : Machine σ}
  {r : Except Failure Unit} {hs : List Handling}

/-- **How a monitor returns is decided when it starts**: without a name for its target, with the
failure of opening its counters, or with success. -/
theorem cases_start (h : Returns pmu config backend m r hs m') :
    (∃ e, config.target.name = .error e ∧ r = .error (.targetName e) ∧
      m' = (m.note (.noTargetName (.targetName e))).hangUp) ∨
    (∃ name f m₁, config.target.name = .ok name ∧
      SessionTree.start pmu config backend m = (.error f, m₁) ∧ r = .error f) ∨
    ∃ name tree m₁, config.target.name = .ok name ∧
      SessionTree.start pmu config backend m = (.ok tree, m₁) ∧ r = .ok () := by
  have hcases := start_cases pmu config backend m
  cases h with
  | failed hstart =>
      rw [hstart] at hcases
      rcases hcases with ⟨e, hname, rfl, rfl⟩ | ⟨name, m₁, hname, hbuilt, rfl⟩
      · exact .inl ⟨e, hname, rfl, rfl⟩
      · exact .inr (.inl ⟨name, _, m₁, hname, hbuilt, rfl⟩)
  | ended hstart hrun hphase =>
      rw [hstart] at hcases
      obtain ⟨name, tree, m₁, hname, hbuilt, -⟩ := hcases
      exact .inr (.inr ⟨name, tree, m₁, hname, hbuilt, rfl⟩)

theorem targetName_iff (h : Returns pmu config backend m r hs m') (e : SystemError) :
    r = .error (.targetName e) ↔ config.target.name = .error e := by
  rcases h.cases_start with ⟨e', hname, rfl, -⟩ | ⟨name, f, m₁, hname, hstart, rfl⟩ |
    ⟨name, tree, m₁, hname, -, rfl⟩
  · rw [hname, Except.error.injEq, Except.error.injEq, Failure.targetName.injEq]
  · have hopening := SessionTree.start_failure hstart
    rw [hname]
    refine ⟨fun heq => ?_, nofun⟩
    rw [Except.error.inj heq] at hopening
    cases hopening
  · rw [hname]
    exact ⟨nofun, nofun⟩

theorem error_iff (h : Returns pmu config backend m r hs m') {f : Failure}
    (hf : ∀ e, f ≠ .targetName e) :
    r = .error f ↔ (∃ name, config.target.name = .ok name) ∧
      (SessionTree.start pmu config backend m).1 = .error f := by
  rcases h.cases_start with ⟨e, hname, rfl, -⟩ | ⟨name, f', m₁, hname, hstart, rfl⟩ |
    ⟨name, tree, m₁, hname, hstart, rfl⟩
  · rw [hname]
    exact ⟨fun heq => absurd (Except.error.inj heq).symm (hf e),
      fun ⟨⟨_, hsome⟩, _⟩ => nomatch hsome⟩
  · rw [hstart, hname, Except.error.injEq, Except.error.injEq]
    exact ⟨fun heq => ⟨⟨name, rfl⟩, heq⟩, And.right⟩
  · rw [hstart]
    exact ⟨nofun, fun ⟨_, hbuilt⟩ => nomatch hbuilt⟩

/-- A monitor returns with success just when its target has a name and its counters can be opened.
-/
theorem ok_iff (h : Returns pmu config backend m r hs m') :
    r = .ok () ↔ (∃ name, config.target.name = .ok name) ∧
      ∃ tree, (SessionTree.start pmu config backend m).1 = .ok tree := by
  rcases h.cases_start with ⟨e, hname, rfl, -⟩ | ⟨name, f, m₁, hname, hstart, rfl⟩ |
    ⟨name, tree, m₁, hname, hstart, rfl⟩
  · rw [hname]
    exact ⟨nofun, fun ⟨⟨_, hsome⟩, _⟩ => nomatch hsome⟩
  · rw [hstart]
    exact ⟨nofun, fun ⟨_, _, hbuilt⟩ => nomatch hbuilt⟩
  · rw [hstart, hname]
    exact ⟨fun _ => ⟨⟨name, rfl⟩, tree, rfl⟩, fun _ => rfl⟩

/-- **A monitor without a name for its target makes no call.** -/
theorem trace_of_no_name (h : Returns pmu config backend m r hs m') {e : SystemError}
    (hname : config.target.name = .error e) : m'.trace = m.trace := by
  rcases h.cases_start with ⟨_, -, -, rfl⟩ | ⟨_, _, _, hsome, -⟩ | ⟨_, _, _, hsome, -⟩
  · rfl
  · cases hname.symm.trans hsome
  · cases hname.symm.trans hsome

/-- **A monitor that fails has only opened counters**, and said why it failed. -/
theorem leftByFailure {f : Failure} (h : Returns pmu config backend m (.error f) hs m') :
    hs = [] ∧ (LeftByFailure m m' (.noTargetName f) ∨ LeftByFailure m m' (.notStarted f)) := by
  cases h with
  | failed hstart =>
      obtain ⟨m₁, last, hsetups, hlast, rfl⟩ := start_error hstart
      have hleft := leftByFailure_of_records hsetups.records last
      rcases hlast with rfl | rfl
      · exact ⟨rfl, .inl hleft⟩
      · exact ⟨rfl, .inr hleft⟩

end Monitor.Returns

/-- **Only starting can fail, and no counter stays open.**  A monitor whose target has no name
returns with that failure, and has made no call at all; one whose counters cannot be opened returns
with that failure, and has made no call but those that open.  Neither handled a tick or sent a
payload.  Every other monitor that returns has succeeded, whatever went wrong while it was at work.
In any case the counters opened are closed, each of them once, no leader before its siblings, and
those open before are open still.  A whole run that comes to an end returns so, and success is where
passes of the actor and steps of the surroundings bring it. -/
theorem only_starting_fails (pmu : Pmu σ) (config : MonitoringConfig) (backend : Option Backend)
    (m : Machine σ) :
    let built := (SessionTree.start pmu config backend m).1
    (∀ e, config.target.name = .error e →
      ∃ m', Monitor.Returns pmu config backend m (.error (.targetName e)) [] m') ∧
    (∀ name f, config.target.name = .ok name → built = .error f →
      ∃ m', Monitor.Returns pmu config backend m (.error f) [] m') ∧
    (∀ turns r m', Monitor.run pmu config backend turns m = some (r, m') →
      ∃ hs, Monitor.Returns pmu config backend m r hs m') ∧
    (∀ m', (∃ hs, Monitor.Returns pmu config backend m (.ok ()) hs m') ↔
      ∃ a b, Monitor.start pmu config backend m = .ok a ∧
        Relation.ReflTransGen (Actor.Moves pmu) a b ∧ b.phase = .stopped ∧ b.machine = m') ∧
    ∀ r hs m', Monitor.Returns pmu config backend m r hs m' →
      (∀ e, r = .error (.targetName e) ↔ config.target.name = .error e) ∧
      (∀ f, (∀ e, f ≠ .targetName e) → (r = .error f ↔
        (∃ name, config.target.name = .ok name) ∧ built = .error f)) ∧
      (r = .ok () ↔ (∃ name, config.target.name = .ok name) ∧ ∃ tree, built = .ok tree) ∧
      (∀ e, config.target.name = .error e → m'.trace = m.trace) ∧
      (∀ f, r = .error f → hs = [] ∧
        (LeftByFailure m m' (.noTargetName f) ∨ LeftByFailure m m' (.notStarted f))) ∧
      ∃ new : List Counter, m'.opened = m.opened ++ new ∧ (new.map Counter.id).Nodup ∧
        m.Closes m' new ∧ m'.live.Perm m.live := by
  intro built
  refine ⟨fun e hname => ?_, fun name f hname hbuilt => ?_,
    fun turns r m' => Monitor.returns_of_run, fun m' => Monitor.exists_returns_ok_iff,
    fun r hs m' h => ?_⟩
  · exact ⟨_, .failed (f := .targetName e) (by rw [Monitor.start, hname])⟩
  · have hstart : SessionTree.start pmu config backend m
        = (.error f, (SessionTree.start pmu config backend m).2) := Prod.ext hbuilt rfl
    exact ⟨_, .failed (f := f) (by rw [Monitor.start, hname, hstart])⟩
  · refine ⟨h.targetName_iff, fun f hf => h.error_iff hf, h.ok_iff,
      fun e hname => h.trace_of_no_name hname, fun f hr => ?_, Machine.closes_of_reverts h.reverts⟩
    subst hr
    exact h.leftByFailure

/-- Two events on one CPU: the second cannot be opened; or both can, but then nothing goes well. -/
theorem only_starting_fails_of_two_scripts :
    let refused : Pmu ScriptProgress := Script.pmu { openErrors := [(1, .notPermitted)] }
    let unlucky : Pmu ScriptProgress := Script.pmu {
      resetErrors := [(0, .inputOutput)]
      enableErrors := [(0, .inputOutput)]
      reads := [some (.fail .inputOutput)] }
    let core : EventsGroup :=
      ⟨"core", .allCpus, [⟨"cycles", Hardware.cpuCycle.event⟩, ⟨"instr", Hardware.instr.event⟩]⟩
    let config : MonitoringConfig :=
      { topology := ⟨⟨[(0, ⟨[3], by decide⟩)], by decide⟩⟩
        groups := ⟨[("core", core)], by decide⟩
        target := .system
        sampling := {} }
    let m : Machine ScriptProgress := {
      state := {}
      mailbox := {
        control := { queue := ["$STOP"], hasSender := false }
        ticks := { queue := [7, 8] }
        sink := { accepting := false } } }
    (∃ m', Monitor.Returns refused config none m
        (.error (.openEvent ⟨"core", 0, 3⟩ "instr" .notPermitted)) [] m' ∧
      m'.opened = [⟨0, none⟩] ∧ m'.closed.Perm m'.opened ∧ m'.live = []) ∧
    ∃ hs m', Monitor.Returns unlucky config none m (.ok ()) hs m' ∧
      m'.opened = [⟨0, none⟩, ⟨1, some 0⟩] ∧ m'.closed.Perm m'.opened ∧ m'.live = [] := by
  intro refused unlucky core config m
  have hclosed : ∀ {m' : Machine ScriptProgress} {new : List Counter},
      m'.opened = m.opened ++ new → m.Closes m' new → m'.live.Perm m.live →
      m'.closed.Perm m'.opened ∧ m'.live = [] := by
    rintro m' new hopened ⟨shut, hshut, hperm, -⟩ hlive
    rw [hopened, hshut]
    exact ⟨hperm, hlive.eq_nil⟩
  obtain ⟨-, -, -, -, hrefused⟩ := only_starting_fails refused config none m
  obtain ⟨-, -, hreturning, -, hunlucky⟩ := only_starting_fails unlucky config none m
  let m₁ := (SessionTree.start refused config none m).2
  have hfails : Monitor.start refused config none m = .error
      (.openEvent ⟨"core", 0, 3⟩ "instr" .notPermitted, (m₁.note (.notStarted _)).hangUp) := rfl
  obtain ⟨-, -, -, -, -, new, hopened, -, hcloses, hlive⟩ := hrefused _ _ _ (.failed hfails)
  refine ⟨⟨_, .failed hfails, by decide +kernel, hclosed hopened hcloses hlive⟩, ?_⟩
  have hends : (Monitor.run unlucky config none 9 m).map (fun d => (d.1, d.2.opened))
      = some (.ok (), [⟨0, none⟩, ⟨1, some 0⟩]) := by decide +kernel
  obtain ⟨⟨r, m'⟩, hrun, hd⟩ := Option.map_eq_some_iff.mp hends
  obtain ⟨rfl, hboth⟩ := Prod.mk.inj hd
  obtain ⟨hs, hreturns⟩ := hreturning _ _ _ hrun
  obtain ⟨-, -, -, -, -, new, hopened, -, hcloses, hlive⟩ := hunlucky _ _ _ hreturns
  exact ⟨hs, m', hreturns, hboth, hclosed hopened hcloses hlive⟩

end CounterWatch
