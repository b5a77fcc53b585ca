import CounterWatch.Proofs.Session.Agreement
import CounterWatch.Proofs.Session.Callchains

/-!
# Proofs/Session/Symbols — symbols have no part in measuring

What a backend knows of addresses shows up in the text of call chains, and nowhere else.  Whether
there is a text at all is decided by the samples: a chain is never empty, even if all its names are.

* `Sampler.drain_alike` — draining a ring with other symbols, but the same limit on addresses.
* `Payload.Alike` — payloads that are equal but for the texts of their call chains, which render the
  same samples.
* `SessionTree.collect_agrees` — a collection in two runs that agree.
* `SessionTree.Task` — what is done with a tree from opening it on; `SessionTree.measure`.
* `symbols_do_not_disturb` — the same tasks with two backends.
-/

namespace CounterWatch

variable {σ : Type} {pmu pmu' : Pmu σ}

/-! ## Samples -/

namespace Callchain

/-- What is logged of the records that are dropped. -/
def complaints (maxDepth : UInt64) (records : List Bytes) : List Notice :=
  records.flatMap fun record =>
    match addresses maxDepth record with
    | .ok _ => []
    | .error refusal => (Notice.ofRefusal? refusal).toList

end Callchain

namespace Sampler

/-- The notices of a drain complain of records that are dropped, and these do not depend on symbols.
-/
theorem snd_foldl_renderRecord (c : Callchain) (records : List Bytes) (seen : Rendering) :
    (records.foldl (fun seen record => (renderRecord c record default seen).2) seen).2
      = seen.2 ++ Callchain.complaints c.maxDepth records := by
  induction records generalizing seen with
  | nil => exact (List.append_nil _).symm
  | cons record rest ih =>
      have hfirst : (renderRecord c record default seen).2.2
          = seen.2 ++ Callchain.complaints c.maxDepth [record] := by
        rw [Callchain.complaints, List.flatMap_singleton, renderRecord, Callchain.render]
        rcases Callchain.addresses c.maxDepth record with refusal | addresses
        · rfl
        · exact (List.append_nil _).symm
      rw [List.foldl_cons, ih, hfirst, List.append_assoc, Callchain.complaints,
        Callchain.complaints, Callchain.complaints, ← List.flatMap_append, List.singleton_append]

/-- **Symbols make no difference to a drain**, but for the text. -/
theorem drain_alike {c c' : Callchain} (hdepth : c'.maxDepth = c.maxDepth) (r : Ring) :
    (drain c r = none ∧ drain c' r = none) ∨
    ∃ ring notices, drain c r = some (c.rendering r.shown, ring, notices) ∧
      drain c' r = some (c'.rendering r.shown, ring, notices) := by
  by_cases hidle : r.tail = r.head ∨ r.size = 0
  · refine .inl ?_
    rw [drain, drain, Ring.drain, if_pos hidle, Ring.drain, if_pos hidle]
    exact ⟨rfl, rfl⟩
  · obtain ⟨hne, hs⟩ := not_or.mp hidle
    have hdrain : ∀ c : Callchain, drain c r = some (c.rendering r.shown, { r with tail := r.head },
        Callchain.complaints c.maxDepth r.shown ++
          ((Ring.scan r.head r).2.map Notice.ring).toList) := by
      intro c
      have htext := foldl_renderRecord c r.shown ("", [])
      have hnotices := snd_foldl_renderRecord c r.shown ("", [])
      rw [Ring.shown_eq_scan hne hs] at htext hnotices
      rw [drain, Ring.drain_eq_scan (still_renderRecord c) hne hs, Option.map_some, htext, hnotices,
        Ring.shown_eq_scan hne hs]
      exact congrArg (fun text => some (text, _, _)) String.empty_append
    refine .inr ⟨_, _, hdrain c, ?_⟩
    rw [hdrain c', hdepth]

end Sampler

/-! ## Payloads -/

/-- Two metrics are the same count, or render the same samples, of which there are some. -/
inductive Metric.Alike (c c' : Callchain) : Metric → Metric → Prop
  | counter (n : UInt64) : Alike c c' (.counter n) (.counter n)
  | callchain (samples : List (List UInt64)) (hsome : samples ≠ []) :
      Alike c c' (.callchain (String.join (samples.map c.chain)))
        (.callchain (String.join (samples.map c'.chain)))

/-- The same names, with metrics that are alike. -/
def CpuData.Alike (c c' : Callchain) (d d' : CpuData) : Prop :=
  OrderedMap.Related (Metric.Alike c c') d.metrics d'.metrics

/-- The same CPUs, with data that are alike. -/
def PackageData.Alike (c c' : Callchain) (d d' : PackageData) : Prop :=
  OrderedMap.Related (CpuData.Alike c c') d.cpus d'.cpus

/-- The same packages, with data that are alike. -/
def GroupData.Alike (c c' : Callchain) (d d' : GroupData) : Prop :=
  OrderedMap.Related (PackageData.Alike c c') d.packages d'.packages

/-- Two payloads are equal but for the texts of their call chains, which render the same samples. -/
structure Payload.Alike (c c' : Callchain) (p p' : Payload) : Prop where
  timestamp : p'.timestamp = p.timestamp
  target : p'.target = p.target
  groups : OrderedMap.Related (GroupData.Alike c c') p.groups p'.groups

section Alike

variable {c c' : Callchain}

/-- With one table of symbols, metrics that are alike are equal. -/
theorem Metric.Alike.eq {x x' : Metric} (h : Alike c c x x') : x = x' := by
  cases h with
  | counter n => rfl
  | callchain samples hsome => rfl

theorem CpuData.Alike.eq {d d' : CpuData} (h : Alike c c d d') : d = d' :=
  congrArg CpuData.mk (h.imp fun _ _ h => h.eq).eq

theorem PackageData.Alike.eq {d d' : PackageData} (h : Alike c c d d') : d = d' :=
  congrArg PackageData.mk (h.imp fun _ _ h => h.eq).eq

theorem GroupData.Alike.eq {d d' : GroupData} (h : Alike c c d d') : d = d' :=
  congrArg GroupData.mk (h.imp fun _ _ h => h.eq).eq

/-- **With the same symbols, payloads that are alike are equal.** -/
theorem Payload.Alike.eq {p p' : Payload} (h : Alike c c p p') : p = p' := by
  obtain ⟨time, target, groups⟩ := p
  obtain ⟨time', target', groups'⟩ := p'
  obtain ⟨rfl, rfl, hgroups⟩ := h
  exact congrArg (Payload.mk time' target') (hgroups.imp fun _ _ h => h.eq).eq

/-- **Call chains are reported at the same places**, and of the same samples. -/
theorem Payload.Alike.callchain? {p p' : Payload} (h : Alike c c' p p') (group : String)
    (package cpu : UInt32) :
    Option.Rel (fun text text' => ∃ samples ≠ [], text = String.join (samples.map c.chain) ∧
        text' = String.join (samples.map c'.chain))
      ((p.cpu? group package cpu).bind CpuData.callchain?)
      ((p'.cpu? group package cpu).bind CpuData.callchain?) := by
  refine rel_bind (rel_bind (h.groups.get? group) fun g g' hg => rel_bind (hg.get? package)
    fun k k' hk => hk.get? cpu) fun d d' hd => ?_
  have hmetric := OrderedMap.Related.get? hd Metric.callchainName
  rw [CpuData.callchain?, CpuData.callchain?]
  generalize d.metrics.get? Metric.callchainName = x at hmetric
  generalize d'.metrics.get? Metric.callchainName = x' at hmetric
  cases hmetric with
  | none => exact .none
  | some halike =>
      cases halike with
      | counter n => exact .none
      | callchain samples hsome => exact .some ⟨samples, hsome, rfl, rfl⟩

/-- Counts have nothing to do with symbols. -/
theorem CpuData.alike_ofReport (events : List String) (r : Report) :
    Alike c c' (CpuData.ofReport events r) (CpuData.ofReport events r) := by
  have hinsert : ∀ (pairs : List (String × UInt64)) {m m' : OrderedMap String Metric},
      OrderedMap.Related (Metric.Alike c c') m m' → OrderedMap.Related (Metric.Alike c c')
        (pairs.foldl (fun m p => m.insert p.1 (.counter p.2)) m)
        (pairs.foldl (fun m p => m.insert p.1 (.counter p.2)) m') := by
    intro pairs
    induction pairs with
    | nil => exact fun h => h
    | cons p rest ih =>
        intro m m' h
        exact ih (h.insert p.1 (.counter p.2))
  have hempty : OrderedMap.Related (Metric.Alike c c') (.empty : OrderedMap String Metric) .empty :=
    .nil
  exact hinsert _ ((hempty.insert _ (.counter r.timeEnabled)).insert _ (.counter r.timeRunning))

/-- **A CPU has call chains with all symbols, or with none**: if there are samples. -/
theorem CpuData.Alike.withCallchains {d d' : CpuData} (h : Alike c c' d d')
    (hdepth : c'.maxDepth = c.maxDepth) (records : List Bytes) :
    Alike c c' (d.withCallchains (some (c.rendering records)))
      (d'.withCallchains (some (c'.rendering records))) := by
  have haccepted : ∀ c : Callchain, (c.rendering records).isEmpty = true ↔
      Callchain.samples c.maxDepth records = [] := by
    intro c
    rw [Callchain.isEmpty_rendering, Callchain.accepted_eq, List.map_eq_nil_iff]
  rw [CpuData.withCallchains, CpuData.withCallchains]
  by_cases hnone : Callchain.samples c.maxDepth records = []
  · rw [if_pos ((haccepted c).mpr hnone), if_pos ((haccepted c').mpr (hdepth ▸ hnone))]
    exact h
  · rw [if_neg (mt (haccepted c).mp hnone), if_neg (mt (haccepted c').mp (hdepth ▸ hnone)),
      c.rendering_eq, c'.rendering_eq, hdepth]
    exact OrderedMap.Related.insert h _ (.callchain _ hnone)

end Alike

/-! ## Collecting -/

open Machine

section Collecting

variable {k : View} {m m' : Machine σ} {c c' : Callchain}

/-- **The same samples are drained in both runs**, each rendered with the symbols there, or neither
run has any. -/
theorem Sampler.callchains_agrees (h : m.Agrees k m') (hdepth : c'.maxDepth = c.maxDepth)
    (counter : CounterId) :
    ∃ chains chains' m₁ m₁', callchains c counter m = (chains, m₁) ∧
      callchains c' counter m' = (chains', m₁') ∧ m₁.Agrees k m₁' ∧
      (chains = none ∧ chains' = none ∨ ∃ records, chains = some (c.rendering records) ∧
        chains' = some (c'.rendering records)) := by
  rw [callchains, callchains, h.rings]
  rcases m.rings.get? counter with _ | r
  · exact ⟨_, _, _, _, rfl, rfl, h, .inl ⟨rfl, rfl⟩⟩
  rw [Option.bind_some, Option.bind_some]
  rcases drain_alike hdepth r with ⟨hdrain, hdrain'⟩ | ⟨ring, notices, hdrain, hdrain'⟩
  · rw [hdrain, hdrain']
    exact ⟨_, _, _, _, rfl, rfl, h, .inl ⟨rfl, rfl⟩⟩
  · rw [hdrain, hdrain']
    have hrings : Machine.Agrees k { m with rings := m.rings.insert counter ring }
        { m' with rings := m.rings.insert counter ring } := { h with rings := rfl }
    refine ⟨_, _, _, _, rfl, rfl, ?_, .inr ⟨r.shown, rfl, rfl⟩⟩
    exact hrings.notes notices

/-- Data that are alike still are with the call chains of a leaf in them. -/
theorem CpuSession.callchains_agrees (h : m.Agrees k m') (hdepth : c'.maxDepth = c.maxDepth)
    (s : CpuSession) {d d' : CpuData} (hd : CpuData.Alike c c' d d') :
    CpuData.Alike c c' (d.withCallchains (s.callchains c m).1)
        (d'.withCallchains (s.callchains c' m').1) ∧
      (s.callchains c m).2.Agrees k (s.callchains c' m').2 := by
  rw [callchains, callchains]
  split
  · obtain ⟨chains, chains', m₁, m₁', hchains, hchains', hagrees, halike⟩ :=
      Sampler.callchains_agrees h hdepth s.counters.leader
    rw [hchains, hchains']
    rcases halike with ⟨rfl, rfl⟩ | ⟨records, rfl, rfl⟩
    · exact ⟨hd, hagrees⟩
    · exact ⟨hd.withCallchains hdepth records, hagrees⟩
  · exact ⟨hd, h⟩

theorem Machine.Agrees.noteMultiplexing (h : m.Agrees k m') (leaf : Leaf) (r : Report) :
    (noteMultiplexing leaf r m).Agrees k (noteMultiplexing leaf r m') := by
  rw [CounterWatch.noteMultiplexing, CounterWatch.noteMultiplexing]
  split
  · exact h.note _
  · exact h

/-- A group gives the same report in both runs, or fails for the same reason. -/
theorem CounterGroup.stat_agrees (h : m.Agrees k m') (hpmu : pmu.Alike k pmu') (g : CounterGroup) :
    ∃ r g₁ m₁ m₁', g.stat pmu m = (r, g₁, m₁) ∧ g.stat pmu' m' = (r, g₁, m₁') ∧
      m₁.Agrees k m₁' := by
  obtain ⟨r, bytes, m₁, m₁', hread, hread', h₁⟩ := h.read hpmu g.leader g.buffer
  rw [CounterGroup.stat, CounterGroup.stat, hread, hread']
  rcases r with e | got
  · exact ⟨_, _, _, _, rfl, rfl, h₁⟩
  · exact ⟨_, _, _, _, rfl, rfl, h₁⟩

/-- A leaf is collected in both runs, with data that are alike, or in neither. -/
theorem CpuSession.collect_agrees (h : m.Agrees k m') (hpmu : pmu.Alike k pmu')
    (hdepth : c'.maxDepth = c.maxDepth) (events : List String) (leaf : Leaf) (s : CpuSession) :
    SideBySide (Agrees k) (CpuData.Alike c c') (s.collect pmu c events leaf m)
      (s.collect pmu' c' events leaf m') := by
  obtain ⟨r, counters, m₁, m₁', hstat, hstat', h₁⟩ := s.counters.stat_agrees h hpmu
  rw [CpuSession.collect, CpuSession.collect, hstat, hstat']
  rcases r with e | report
  · exact ⟨_, _, _, _, _, rfl, rfl, .error _, h₁⟩
  obtain ⟨r, m₂, m₂', hclear, hclear', h₂⟩ := h₁.reset hpmu counters.leader
  dsimp only [CounterGroup.clear]
  rw [hclear, hclear']
  rcases r with e | _
  · exact ⟨_, _, _, _, _, rfl, rfl, .error _, h₂⟩
  · obtain ⟨hdata, h₃⟩ := CpuSession.callchains_agrees (h₂.noteMultiplexing leaf report) hdepth
      { s with counters } (CpuData.alike_ofReport events report)
    exact ⟨_, _, _, _, _, rfl, rfl, .ok hdata, h₃⟩

theorem PackageSession.collect_agrees (h : m.Agrees k m') (hpmu : pmu.Alike k pmu')
    (hdepth : c'.maxDepth = c.maxDepth) (events : List String) (group : String) (package : UInt32)
    (s : PackageSession) :
    SideBySide (Agrees k) (PackageData.Alike c c') (s.collect pmu c events group package m)
      (s.collect pmu' c' events group package m') :=
  (s.cpus.visit_sideBySide (fun cpu session _ _ h =>
    session.collect_agrees h hpmu hdepth events ⟨group, package, cpu⟩) h).map
    PackageData.mk PackageData.mk PackageSession.mk fun _ _ h => h

theorem GroupSession.collect_agrees (h : m.Agrees k m') (hpmu : pmu.Alike k pmu')
    (hdepth : c'.maxDepth = c.maxDepth) (group : String) (s : GroupSession) :
    SideBySide (Agrees k) (GroupData.Alike c c') (s.collect pmu c group m)
      (s.collect pmu' c' group m') :=
  (s.packages.visit_sideBySide (R := Agrees k) (fun package session _ _ h =>
    session.collect_agrees h hpmu hdepth (s.config.events.map (·.name)) group package) h).map
    GroupData.mk GroupData.mk (GroupSession.mk s.config) fun _ _ h => h

/-- Two trees are the same but for the symbols of addresses. -/
structure SessionTree.Twins (t t' : SessionTree) : Prop where
  groups : t'.groups = t.groups
  pid : t'.pid = t.pid
  inCgroup : t'.inCgroup = t.inCgroup
  maxDepth : t'.callchain.maxDepth = t.callchain.maxDepth

/-- **A collection has payloads that are alike in both runs**, or the same failure. -/
theorem SessionTree.collect_agrees (h : m.Agrees k m') (hpmu : pmu.Alike k pmu')
    {t t' : SessionTree} (htwins : t.Twins t') (timestamp : UInt64) (target : String) :
    ∃ r r' groups m₁ m₁', t.collect pmu timestamp target m = (r, { t with groups }, m₁) ∧
      t'.collect pmu' timestamp target m' = (r', { t' with groups }, m₁') ∧
      Matches (Payload.Alike t.callchain t'.callchain) r r' ∧ m₁.Agrees k m₁' := by
  obtain ⟨r, r', groups, m₁, m₁', hvisit, hvisit', hmatches, h₁⟩ :=
    t.groups.visit_sideBySide (R := Agrees k) (fun group session _ _ h =>
      session.collect_agrees h hpmu htwins.maxDepth group) h
  rw [SessionTree.collect, SessionTree.collect, htwins.groups, hvisit, hvisit']
  exact ⟨_, _, groups, _, _, rfl, rfl, hmatches.map fun _ _ h => ⟨rfl, rfl, h⟩, h₁⟩

end Collecting

/-- Machines in agreement have had the same calls made to counters. -/
theorem Machine.Agrees.counterCalls {k : View} {m m' : Machine σ} (h : m.Agrees k m') :
    m'.counterCalls = m.counterCalls := by
  have hseen : ∀ m : Machine σ,
      m.counterCalls = (m.trace.filter k.call).filter Call.concernsCounter := by
    intro m
    rw [List.filter_filter, Machine.counterCalls]
    refine List.filter_congr fun c _ => ?_
    cases c <;> rfl
  rw [hseen, hseen, h.trace]

/-! ## Whole measurements -/

namespace SessionTree

/-- Something to be done with an open tree, or by the surroundings. -/
inductive Task where
  | enable
  | collect (timestamp : UInt64) (target : String)
  | outside (step : OutsideStep)

/-- What is learned when a task is carried out. -/
inductive Answer where
  | enabled (failures : List Failure)
  | collected (outcome : Except Failure Payload)
  | nothing

/-- Carries out a task. -/
def Task.perform (pmu : Pmu σ) (t : SessionTree) (m : Machine σ) :
    Task → Answer × SessionTree × Machine σ
  | .enable =>
      let (failures, m) := t.enable pmu m
      (.enabled failures, t, m)
  | .collect timestamp target =>
      let (outcome, t, m) := t.collect pmu timestamp target m
      (.collected outcome, t, m)
  | .outside step => (.nothing, t, m.outside step)

/-- Carries out tasks one after the other, whatever comes of them. -/
def carryOut (pmu : Pmu σ) :
    List Task → SessionTree → Machine σ → List Answer × SessionTree × Machine σ
  | [], t, m => ([], t, m)
  | task :: rest, t, m =>
      let (answer, t, m) := task.perform pmu t m
      let (answers, t, m) := carryOut pmu rest t m
      (answer :: answers, t, m)

/-- Opens the counters of a configuration and carries out tasks with them. -/
def measure (pmu : Pmu σ) (config : MonitoringConfig) (backend : Option Backend)
    (tasks : List Task) (m : Machine σ) : Except Failure (List Answer × SessionTree) × Machine σ :=
  match start pmu config backend m with
  | (.error f, m) => (.error f, m)
  | (.ok t, m) =>
      let (answers, t, m) := carryOut pmu tasks t m
      (.ok (answers, t), m)

/-- **Carrying out tasks is work** with the tree. -/
theorem carryOut_works (pmu : Pmu σ) : ∀ (tasks : List Task) (t : SessionTree) (m : Machine σ),
    Works pmu (t, m) (carryOut pmu tasks t m).2
  | [], t, m => .refl
  | task :: rest, t, m => by
      have htask : Work pmu (t, m) (task.perform pmu t m).2 := by
        cases task with
        | enable => exact .enable t m
        | collect timestamp target => exact .collect timestamp target t m
        | outside step => exact .outside step t m
      exact .head htask (carryOut_works pmu rest _ _)

/-- The same is learned twice, but for the texts of call chains. -/
inductive Answer.Alike (c c' : Callchain) : Answer → Answer → Prop
  | enabled (failures : List Failure) : Alike c c' (.enabled failures) (.enabled failures)
  | collected {r r' : Except Failure Payload} (h : Matches (Payload.Alike c c') r r') :
      Alike c c' (.collected r) (.collected r')
  | nothing : Alike c c' .nothing .nothing

theorem Answer.Alike.eq {c : Callchain} {a a' : Answer} (h : Alike c c a a') : a = a' := by
  cases h with
  | enabled failures => rfl
  | nothing => rfl
  | collected h => exact congrArg Answer.collected (h.eq fun _ _ h => h.eq)

/-- **A task is carried out alike in both runs.** -/
theorem Task.perform_agrees {k : View} {m m' : Machine σ} (h : m.Agrees k m')
    (hpmu : pmu.Alike k pmu') {t t' : SessionTree} (htwins : t.Twins t') (task : Task) :
    ∃ a a' t₁ t₁' m₁ m₁', task.perform pmu t m = (a, t₁, m₁) ∧
      task.perform pmu' t' m' = (a', t₁', m₁') ∧ a.Alike t.callchain t'.callchain a' ∧
      t₁.Twins t₁' ∧ t₁.callchain = t.callchain ∧ t₁'.callchain = t'.callchain ∧
      m₁.Agrees k m₁' := by
  cases task with
  | enable =>
      obtain ⟨failures, m₁, m₁', henable, henable', h₁⟩ := enable_agrees h hpmu htwins.groups
      rw [Task.perform, Task.perform, henable, henable']
      exact ⟨_, _, _, _, _, _, rfl, rfl, .enabled failures, htwins, rfl, rfl, h₁⟩
  | collect timestamp target =>
      obtain ⟨r, r', groups, m₁, m₁', hcollect, hcollect', hmatches, h₁⟩ :=
        collect_agrees h hpmu htwins timestamp target
      rw [Task.perform, Task.perform, hcollect, hcollect']
      exact ⟨_, _, _, _, _, _, rfl, rfl, .collected hmatches, { htwins with groups := rfl }, rfl,
        rfl, h₁⟩
  | outside step =>
      exact ⟨_, _, _, _, _, _, rfl, rfl, .nothing, htwins, rfl, rfl, h.outside step⟩

/-- **Tasks are carried out alike in both runs.** -/
theorem carryOut_agrees {k : View} (hpmu : pmu.Alike k pmu') :
    ∀ (tasks : List Task) {t t' : SessionTree} {m m' : Machine σ}, t.Twins t' → m.Agrees k m' →
      ∃ answers answers' t₁ t₁' m₁ m₁', carryOut pmu tasks t m = (answers, t₁, m₁) ∧
        carryOut pmu' tasks t' m' = (answers', t₁', m₁') ∧
        List.Forall₂ (Answer.Alike t.callchain t'.callchain) answers answers' ∧
        t₁.Twins t₁' ∧ t₁.callchain = t.callchain ∧ t₁'.callchain = t'.callchain ∧
        m₁.Agrees k m₁'
  | [], _, _, _, _, htwins, h => ⟨_, _, _, _, _, _, rfl, rfl, .nil, htwins, rfl, rfl, h⟩
  | task :: rest, t, t', m, m', htwins, h => by
      obtain ⟨a, a', t₁, t₁', m₁, m₁', hfirst, hfirst', halike, htwins₁, hsame, hsame', h₁⟩ :=
        task.perform_agrees h hpmu htwins
      obtain ⟨answers, answers', t₂, t₂', m₂, m₂', hrest, hrest', hall, htwins₂, hkept, hkept',
        h₂⟩ := carryOut_agrees hpmu rest htwins₁ h₁
      rw [hsame, hsame'] at hall
      rw [carryOut, carryOut, hfirst, hfirst']
      dsimp only
      rw [hrest, hrest']
      exact ⟨_, _, _, _, _, _, rfl, rfl, .cons halike hall, htwins₂, hkept.trans hsame,
        hkept'.trans hsame', h₂⟩

/-- What two measurements with different backends come to: the same failure, or twin trees and
answers that are alike. -/
def AlikeMeasured : Except Failure (List Answer × SessionTree) →
    Except Failure (List Answer × SessionTree) → Prop :=
  Matches fun x x' => x.2.Twins x'.2 ∧
    List.Forall₂ (Answer.Alike x.2.callchain x'.2.callchain) x.1 x'.1

/-- **Measurements that start in agreement end in agreement**, with answers that are alike. -/
theorem measure_agrees {k : View} {m m' : Machine σ} (h : m.Agrees k m')
    (hpmu : pmu.Alike k pmu') {backend backend' : Option Backend}
    (hbackend : k.symbols = true → backend' = backend) (config : MonitoringConfig)
    (tasks : List Task) :
    ∃ r r' m₁ m₁', measure pmu config backend tasks m = (r, m₁) ∧
      measure pmu' config backend' tasks m' = (r', m₁') ∧ AlikeMeasured r r' ∧ m₁.Agrees k m₁' := by
  obtain ⟨r, m₁, m₁', hstart, hstart', h₁⟩ := start_agrees h hpmu hbackend config
  rw [measure, measure, hstart, hstart']
  rcases r with f | t
  · exact ⟨_, _, _, _, rfl, rfl, .error f, h₁⟩
  · have htwins : (t.symbolized backend).Twins (t.symbolized backend') := ⟨rfl, rfl, rfl, rfl⟩
    obtain ⟨answers, answers', t₂, t₂', m₂, m₂', hall, hall', halike, htwins₂, hsame, hsame', h₂⟩ :=
      carryOut_agrees hpmu tasks htwins h₁
    rw [← hsame, ← hsame'] at halike
    dsimp only [Except.map]
    rw [hall, hall']
    exact ⟨_, _, _, _, rfl, rfl, .ok ⟨htwins₂, halike⟩, h₂⟩

theorem Twins.eq {t t' : SessionTree} (h : t.Twins t') (hcallchain : t'.callchain = t.callchain) :
    t' = t := by
  obtain ⟨groups, callchain, pid, inCgroup⟩ := t
  obtain ⟨groups', callchain', pid', inCgroup'⟩ := t'
  obtain ⟨rfl, rfl, rfl, -⟩ := h
  obtain rfl : callchain' = callchain := hcallchain
  rfl

end SessionTree

/-- Everything is looked at but the symbols, and whether they were asked for. -/
def View.symbolless : View := ⟨false, fun _ => true⟩

open SessionTree

/-- **Backends with the same symbols for the process of a tree measure the same.** -/
theorem SessionTree.measure_eq_of_symbols {config : MonitoringConfig}
    {backend backend' : Option Backend} {m : Machine σ}
    (hsymbols : ∀ t, (SessionTree.start pmu config backend m).1 = .ok t →
      symbolsFor backend' t.pid = symbolsFor backend t.pid) (tasks : List Task) :
    (measure pmu config backend' tasks m).1 = (measure pmu config backend tasks m).1 := by
  have hagrees : m.Agrees .symbolless m := .refl m
  have hbackend : View.symbolless.symbols = true → backend' = backend := nofun
  obtain ⟨r, m₁, m₁', hstart, hstart', h₁⟩ :=
    SessionTree.start_agrees hagrees (.refl _ pmu) hbackend config
  rw [hstart] at hsymbols
  rw [measure, measure, hstart, hstart']
  rcases r with f | t
  · rfl
  have hsame : t.symbolized backend' = t.symbolized backend :=
    congrArg (fun symbols => { t with callchain.symbols := symbols }) (hsymbols _ rfl)
  have htwins : (t.symbolized backend).Twins (t.symbolized backend) := ⟨rfl, rfl, rfl, rfl⟩
  obtain ⟨answers, answers', t₂, t₂', m₂, m₂', hall, hall', halike, htwins₂, hkept, hkept', -⟩ :=
    carryOut_agrees (.refl _ pmu) tasks htwins h₁
  have hanswers : answers = answers' := by
    have heq : List.Forall₂ Eq answers answers' := halike.imp fun _ _ h => h.eq
    rwa [List.forall₂_eq_eq_eq] at heq
  have htree : t₂' = t₂ := htwins₂.eq (hkept'.trans hkept.symm)
  dsimp only [Except.map]
  rw [hsame, hall, hall', hanswers, htree]

/-- **Symbols do not disturb what is measured.**  The same tasks are carried out with any two
backends, or none.  In both runs opening fails in the same way, or the trees are twins; the tasks
that fail are the same, with the same failures; and the payloads are equal but for the texts of call
chains.  Those are there at the same places, and every one renders the same samples, of which there
are some.  The counters get the same calls, in the same order, and the rings end up the same.  A
backend that fails for the process of the tree makes no difference to having none. -/
theorem symbols_do_not_disturb (pmu : Pmu σ) (config : MonitoringConfig) (tasks : List Task)
    (m : Machine σ) :
    (∀ backend backend' : Option Backend, ∃ r r' m₁ m₁',
      measure pmu config backend tasks m = (r, m₁) ∧
      measure pmu config backend' tasks m = (r', m₁') ∧
      AlikeMeasured r r' ∧ m₁'.counterCalls = m₁.counterCalls ∧ m₁'.rings = m₁.rings ∧
      m₁.Agrees .symbolless m₁') ∧
    (∀ c c' p p', Payload.Alike c c' p p' → ∀ group package cpu,
      Option.Rel (fun text text' => ∃ samples ≠ [], text = String.join (samples.map c.chain) ∧
          text' = String.join (samples.map c'.chain))
        ((p.cpu? group package cpu).bind CpuData.callchain?)
        ((p'.cpu? group package cpu).bind CpuData.callchain?)) ∧
    ∀ failing : Backend,
      (∀ t, (SessionTree.start pmu config none m).1 = .ok t → ∀ pid, t.pid = some pid →
        ∃ e, failing pid = .error e) →
      (measure pmu config (some failing) tasks m).1 = (measure pmu config none tasks m).1 := by
  refine ⟨fun backend backend' => ?_, fun c c' p p' h => h.callchain?, fun failing hfails => ?_⟩
  · obtain ⟨r, r', m₁, m₁', hmeasure, hmeasure', halike, hagrees⟩ :=
      measure_agrees (k := .symbolless) (.refl m) (.refl _ pmu) (fun h => nomatch h) config tasks
    exact ⟨r, r', m₁, m₁', hmeasure, hmeasure', halike, hagrees.counterCalls, hagrees.rings,
      hagrees⟩
  · refine SessionTree.measure_eq_of_symbols (fun t hstart => ?_) tasks
    rcases hpid : t.pid with _ | pid
    · rfl
    · obtain ⟨e, hfailed⟩ := hfails t hstart pid hpid
      rw [symbolsFor, hfailed]
      rfl

/-- A sample is produced on the one leaf of a control group.  With a backend whose names are all
empty, its chain is a bar; with one that fails, it is what it is with none. -/
theorem symbols_do_not_disturb_empty_names :
    let pmu : Pmu ScriptProgress := Script.pmu { dataSize := some 4096 }
    let sample : Bytes :=
      [9, 0, 0, 0, 0, 0, 24, 0] ++ [1, 0, 0, 0, 0, 0, 0, 0] ++ [16, 0, 0, 0, 0, 0, 0, 0]
    let tasks : List Task := [.enable, .outside (.produce 0 sample), .collect 1 "c"]
    let wordless : Backend := fun _ => .ok fun _ => some ""
    let failing : Backend := fun _ => .error .noEntry
    let payload (text : String) : Payload :=
      ⟨1, "c", ⟨[("core", ⟨⟨[(0, ⟨⟨[(3, ⟨⟨[(Metric.callchainName, .callchain text)],
        List.pairwise_singleton _ _⟩⟩)], List.pairwise_singleton _ _⟩⟩)],
        List.pairwise_singleton _ _⟩⟩)], List.pairwise_singleton _ _⟩⟩
    (SessionTree.start pmu .oneLeaf none .oneProcess).1.toOption.bind (·.pid) = some 7 ∧
    (∃ r r' m₁ m₁', measure pmu .oneLeaf none tasks .oneProcess = (r, m₁) ∧
      measure pmu .oneLeaf (some wordless) tasks .oneProcess = (r', m₁') ∧ AlikeMeasured r r' ∧
      m₁'.rings = m₁.rings) ∧
    Option.Rel (fun text text' => ∃ samples ≠ [],
        text = String.join (samples.map (Callchain.chain ⟨.none, 50⟩)) ∧
        text' = String.join (samples.map (Callchain.chain ⟨fun _ => some "", 50⟩)))
      (((payload "0x0000000000000010|").cpu? "core" 0 3).bind CpuData.callchain?)
      (((payload "|").cpu? "core" 0 3).bind CpuData.callchain?) ∧
    (measure pmu .oneLeaf (some failing) tasks .oneProcess).1
      = (measure pmu .oneLeaf none tasks .oneProcess).1 := by
  intro pmu sample tasks wordless failing payload
  obtain ⟨hany, hplaces, hfailing⟩ := symbols_do_not_disturb pmu .oneLeaf tasks .oneProcess
  obtain ⟨r, r', m₁, m₁', hmeasure, hmeasure', halike, -, hrings, -⟩ := hany none (some wordless)
  refine ⟨rfl, ⟨r, r', m₁, m₁', hmeasure, hmeasure', halike, hrings⟩, ?_,
    hfailing failing fun _ _ _ _ => ⟨_, rfl⟩⟩
  have hchain : String.join ([[16]].map (Callchain.chain ⟨.none, 50⟩)) = "0x0000000000000010|" := by
    decide +kernel
  have hbar : String.join ([[16]].map (Callchain.chain ⟨fun _ => some "", 50⟩)) = "|" := by
    decide +kernel
  have hmetric : Metric.Alike ⟨.none, 50⟩ ⟨fun _ => some "", 50⟩ (.callchain "0x0000000000000010|")
      (.callchain "|") := by
    rw [← hchain, ← hbar]
    exact .callchain [[16]] nofun
  have hpayload : Payload.Alike ⟨.none, 50⟩ ⟨fun _ => some "", 50⟩ (payload "0x0000000000000010|")
      (payload "|") :=
    ⟨rfl, rfl, .cons ⟨rfl, .cons ⟨rfl, .cons ⟨rfl, .cons ⟨rfl, hmetric⟩ .nil⟩ .nil⟩ .nil⟩ .nil⟩
  exact hplaces _ _ _ _ hpayload "core" 0 3

end CounterWatch
