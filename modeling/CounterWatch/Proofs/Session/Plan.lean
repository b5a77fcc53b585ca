import CounterWatch.Proofs.Session.Ownership

/-!
# Proofs/Session/Plan — what opening a tree does, as a list of actions

A configuration tells beforehand what is to be done to open its counters: which events are looked
at, which counters are opened with what, and which rings are mapped, all in one order.  Opening a
tree does just that, up to the first action that fails.

* `MonitoringConfig.leaves` — the leaves a configuration asks for, in order, none of them opened.
* `MonitoringConfig.plan` — the actions that open them, if counters are numbered from some number
  on.
* `Action.performAll` — performs actions up to the first that fails; it knows of no tree.
* `AsPlanned` — an outcome is that of the actions; every level of a tree is opened so.
* `start_executes_plan` — opening a tree performs its plan, and the tree is the one planned.
* `OpensCounters` — what that leaves on the record: the counters, and nothing else.
-/

namespace CounterWatch

variable {σ : Type} {pmu : Pmu σ}

/-! ## Event names -/

namespace EventsGroup

/-- Whether the counts of a group can be told apart by name: there is an event, and no name is used
twice or reserved. -/
def Reportable (g : EventsGroup) : Prop :=
  g.events ≠ [] ∧ (g.events.map (·.name)).Nodup ∧ ∀ e ∈ g.events, e.name ∉ Metric.reserved

instance (g : EventsGroup) : Decidable g.Reportable := inferInstanceAs (Decidable (_ ∧ _ ∧ _))

/-- The names an event at this place must not have. -/
def taken (g : EventsGroup) (place : Nat) : List String :=
  Metric.reserved ++ (g.events.take place).map (·.name)

/-- The first event whose name is taken. -/
def offender? (g : EventsGroup) : Option EventDescriptor :=
  (g.events.zipIdx.find? fun (e, place) => e.name ∈ g.taken place).map Prod.fst

/-- What is said of a group whose counts could not be told apart: the event that is named, and the
error. -/
def complaint (g : EventsGroup) : String × SystemError :=
  match g.offender? with
  | none => ("", .custom .invalidInput "events group has no events")
  | some e => (e.name, .custom .invalidInput "duplicate event name")

/-- Looking for a repeated name with those seen in hand is looking at every event for its name among
those taken by then. -/
theorem firstRepeat?_eq (g : EventsGroup) : ∀ (rest before : List EventDescriptor)
    (seen : List String), g.events = before ++ rest →
      (∀ name, name ∈ seen ↔ name ∈ g.taken before.length) →
      firstRepeat? seen rest = ((rest.zipIdx before.length).find? fun (e, place) =>
        e.name ∈ g.taken place).map (·.1.name)
  | [], _, _, _, _ => rfl
  | e :: rest, before, seen, hevents, hseen => by
      rw [firstRepeat?, List.zipIdx_cons, List.find?_cons]
      by_cases h : e.name ∈ seen
      · simp only [if_pos h, (hseen e.name).mp h, decide_true, Option.map_some]
      · have hfree : e.name ∉ g.taken before.length := fun ht => h ((hseen e.name).mpr ht)
        have hevents' : g.events = (before ++ [e]) ++ rest := by
          rw [hevents, List.append_assoc, List.singleton_append]
        have hseen' : ∀ name, name ∈ e.name :: seen ↔ name ∈ g.taken (before ++ [e]).length := by
          intro name
          have htake : g.events.take (before ++ [e]).length = before ++ [e] := by
            rw [hevents', List.take_left]
          have htake' : g.events.take before.length = before := by rw [hevents, List.take_left]
          rw [List.mem_cons, hseen, taken, taken, htake, htake']
          simp only [List.map_append, List.map_singleton, List.mem_append, List.mem_singleton]
          exact or_comm.trans or_assoc
        have hrest := firstRepeat?_eq g rest (before ++ [e]) (e.name :: seen) hevents' hseen'
        simp only [if_neg h, hfree, decide_false, hrest, List.length_append, List.length_singleton]

/-- No name is repeated if all are different, and none was seen before. -/
theorem firstRepeat?_eq_none_iff : ∀ {events : List EventDescriptor} {seen : List String},
    firstRepeat? seen events = none ↔
      (events.map (·.name)).Nodup ∧ ∀ e ∈ events, e.name ∉ seen
  | [], _ => by simp [firstRepeat?]
  | e :: rest, seen => by
      rw [firstRepeat?]
      split
      next h => simp [h]
      next h =>
        rw [firstRepeat?_eq_none_iff, List.map_cons, List.nodup_cons, List.forall_mem_cons]
        constructor
        · rintro ⟨hnodup, hrest⟩
          refine ⟨⟨fun hmem => ?_, hnodup⟩, h, fun e' he' hmem => ?_⟩
          · obtain ⟨e', he', hname⟩ := List.mem_map.mp hmem
            exact hrest e' he' (hname ▸ List.mem_cons_self)
          · exact hrest e' he' (List.mem_cons_of_mem _ hmem)
        · rintro ⟨⟨hnew, hnodup⟩, -, hrest⟩
          refine ⟨hnodup, fun e' he' hmem => ?_⟩
          rcases List.mem_cons.mp hmem with hname | hmem
          · exact hnew (hname ▸ List.mem_map_of_mem he')
          · exact hrest e' he' hmem

/-- **The first event whose name is taken** is the one that opening complains of. -/
theorem offender?_eq_firstRepeat? (g : EventsGroup) :
    g.offender?.map (·.name) = firstRepeat? Metric.reserved g.events := by
  rw [offender?, Option.map_map]
  exact (firstRepeat?_eq g g.events [] _ rfl fun name => by simp [taken]).symm

/-- **A group is turned away just when its counts could not be told apart**, with a complaint of the
first event whose name is taken. -/
theorem members_cases (g : EventsGroup) :
    (g.Reportable ∧ ∃ first rest, g.events = first :: rest ∧ g.members = .ok (first, rest)) ∨
    (¬ g.Reportable ∧ ∃ fault, g.members = .error fault ∧
      g.complaint = (fault.event, .custom .invalidInput fault.message)) := by
  have hoffender := g.offender?_eq_firstRepeat?
  rw [members]
  cases hevents : g.events with
  | nil =>
      rw [hevents] at hoffender
      have hnone : g.offender? = none := Option.map_eq_none_iff.mp hoffender
      exact .inr ⟨fun h => h.1 hevents, .noEvents, rfl, by rw [complaint, hnone]; rfl⟩
  | cons first rest =>
      have hnone : firstRepeat? Metric.reserved (first :: rest) = none ↔ g.Reportable := by
        rw [firstRepeat?_eq_none_iff, Reportable, hevents]
        exact (and_iff_right (List.cons_ne_nil _ _)).symm
      rw [hevents] at hoffender
      cases hrepeat : firstRepeat? Metric.reserved (first :: rest) with
      | none => exact .inl ⟨hnone.mp hrepeat, first, rest, rfl, rfl⟩
      | some name =>
          rw [hrepeat] at hoffender hnone
          obtain ⟨e, he, rfl⟩ := Option.map_eq_some_iff.mp hoffender
          have hunfit : ¬ g.Reportable := fun h => nomatch hnone.mpr h
          refine .inr ⟨hunfit, .repeatedName e.name, rfl, ?_⟩
          rw [complaint, he]
          rfl

end EventsGroup

/-! ## Plans -/

/-- Something done to open a tree: the events of a group are looked at, a counter is opened, or a
ring of so many pages is mapped for one. -/
inductive Action where
  | check (leaf : Leaf) (group : EventsGroup)
  | openCounter (leaf : Leaf) (event : String) (request : OpenRequest)
  | mapRing (leaf : Leaf) (counter : CounterId) (pages : Nat)

namespace Action

/-- Performs an action; a failure says for which leaf, and for which of its events.  For a ring that
is longer than addresses reach, nobody is even asked. -/
def perform (pmu : Pmu σ) : Action → Machine σ → Except Failure Unit × Machine σ
  | .check leaf group, m =>
      (if group.Reportable then .ok () else
        .error (.openEvent leaf group.complaint.1 group.complaint.2), m)
  | .openCounter leaf event request, m =>
      match m.openCounter pmu request with
      | (.ok _, m) => (.ok (), m)
      | (.error e, m) => (.error (.openEvent leaf event e), m)
  | .mapRing leaf counter pages, m =>
      if pages * pageSize < UInt64.size then
        match m.mapRing pmu counter (pages * pageSize) with
        | (.ok (), m) => (.ok (), m)
        | (.error e, m) => (.error (.mapRing leaf e), m)
      else (.error (.mapRing leaf (.custom .other "allocation size overflow")), m)

/-- Performs actions one after the other, up to the first that fails. -/
def performAll (pmu : Pmu σ) : List Action → Machine σ → Except Failure Unit × Machine σ
  | [], m => (.ok (), m)
  | action :: rest, m =>
      match action.perform pmu m with
      | (.error e, m) => (.error e, m)
      | (.ok (), m) => performAll pmu rest m

/-- Actions in two goes: the second begins if none of the first failed. -/
theorem performAll_append (first second : List Action) (m : Machine σ) :
    performAll pmu (first ++ second) m =
      match performAll pmu first m with
      | (.error e, m') => (.error e, m')
      | (.ok (), m') => performAll pmu second m' := by
  induction first generalizing m with
  | nil => rfl
  | cons action rest ih =>
      rw [List.cons_append, performAll, performAll]
      rcases action.perform pmu m with ⟨e | _, m'⟩
      · rfl
      · exact ih m'

end Action

/-- A group of counters numbered one after the other, none of which was read yet. -/
def CounterGroup.fresh (leader : CounterId) (size : Nat) : CounterGroup where
  leader
  siblings := List.range' (leader + 1) (size - 1)
  buffer := List.replicate (Report.byteSize size) 0

theorem CounterGroup.ofLeader_eq_fresh (leader : CounterId) :
    ofLeader leader = fresh leader 1 := rfl

/-- A group stays numbered one after the other when the next number joins it. -/
theorem CounterGroup.join_fresh (leader : CounterId) (n : Nat) :
    (fresh leader (n + 1)).join (leader + (n + 1)) = fresh leader (n + 2) := by
  have hsiblings : List.range' (leader + 1) n ++ [leader + (n + 1)]
      = List.range' (leader + 1) (n + 1) := by
    rw [List.range'_concat, Nat.one_mul, Nat.add_assoc, Nat.add_comm 1 n]
  have hbuffer : List.replicate (Report.byteSize (n + 1)) (0 : UInt8)
      ++ List.replicate (Report.byteSize (n + 2) - Report.byteSize (n + 1)) 0
      = List.replicate (Report.byteSize (n + 2)) 0 := by
    rw [List.replicate_append_replicate]
    congr 1
    simp only [Report.byteSize]
    omega
  simp only [join, fresh, size, Nat.add_sub_cancel, List.length_range', List.length_replicate]
  exact congrArg₂ _ hsiblings hbuffer

/-- A leaf that is to be opened: the events to count, where, and how its leader samples. -/
structure PlannedLeaf where
  leaf : Leaf
  group : EventsGroup
  scope : Scope
  sampling : Option SamplingOptions

namespace PlannedLeaf

/-- The number of counters of a leaf. -/
def size (l : PlannedLeaf) : Nat := l.group.events.length

/-- What the first counter of a leaf is opened with. -/
def leaderRequest (l : PlannedLeaf) (event : Event) : OpenRequest where
  attr := l.sampling.elim (.counting event) fun options =>
    (Attribute.counting event).sampling options.frequency
  scope := l.scope
  leader := none

/-- What the other counters of a leaf are opened with. -/
def siblingRequest (l : PlannedLeaf) (leader : CounterId) (event : Event) : OpenRequest where
  attr := .counting event
  scope := l.scope
  leader := some leader

/-- The ring of a leaf, if its leader samples. -/
def ringActions (l : PlannedLeaf) (leader : CounterId) : List Action :=
  l.sampling.toList.map fun options => .mapRing l.leaf leader (2 ^ options.pagesExponent.toNat + 1)

/-- The actions that open the other counters of a leaf. -/
def siblingActions (l : PlannedLeaf) (leader : CounterId) (rest : List EventDescriptor) :
    List Action :=
  rest.map fun e => .openCounter l.leaf e.name (l.siblingRequest leader e.event)

/-- The actions that open a leaf, if the first counter gets the number `leader`. -/
def actions (leader : CounterId) (l : PlannedLeaf) : List Action :=
  .check l.leaf l.group ::
    match l.group.events with
    | [] => []
    | first :: rest =>
        .openCounter l.leaf first.name (l.leaderRequest first.event) ::
          (l.ringActions leader ++ l.siblingActions leader rest)

/-- What is held of a leaf once it is open. -/
def session (leader : CounterId) (l : PlannedLeaf) : CpuSession where
  counters := .fresh leader l.size
  sampled := l.sampling.isSome

/-- The actions that open leaves one after the other, if their counters are numbered from `next`
on. -/
def plan : (next : CounterId) → List PlannedLeaf → List Action
  | _, [] => []
  | next, l :: rest => l.actions next ++ plan (next + l.size) rest

/-- What is held of leaves once they are open. -/
def opened : (next : CounterId) → List PlannedLeaf → List (Leaf × CpuSession)
  | _, [] => []
  | next, l :: rest => (l.leaf, l.session next) :: opened (next + l.size) rest

/-- The number of counters of several leaves. -/
def total : List PlannedLeaf → Nat
  | [] => 0
  | l :: rest => l.size + total rest

theorem total_append (ls ls' : List PlannedLeaf) : total (ls ++ ls') = total ls + total ls' := by
  induction ls with
  | nil => exact (Nat.zero_add _).symm
  | cons l rest ih => rw [List.cons_append, total, total, ih, Nat.add_assoc]

/-- A plan for more leaves goes on with the number behind those of the leaves before. -/
theorem plan_append (next : CounterId) (ls ls' : List PlannedLeaf) :
    plan next (ls ++ ls') = plan next ls ++ plan (next + total ls) ls' := by
  induction ls generalizing next with
  | nil => rfl
  | cons l rest ih =>
      rw [List.cons_append, plan, plan, ih, List.append_assoc, total, Nat.add_assoc]

theorem opened_append (next : CounterId) (ls ls' : List PlannedLeaf) :
    opened next (ls ++ ls') = opened next ls ++ opened (next + total ls) ls' := by
  induction ls generalizing next with
  | nil => rfl
  | cons l rest ih =>
      rw [List.cons_append, opened, opened, ih, total, Nat.add_assoc, List.cons_append]

end PlannedLeaf

/-- The CPUs of a package that events are counted on: every one, or only the lowest, if there is
one. -/
def MonitoringMode.chosen (mode : MonitoringMode) (cpus : OrderedSet UInt32) : List UInt32 :=
  match mode with
  | .allCpus => cpus.toList
  | .oneCpuPerPackage => cpus.toList.head?.toList

/-- The CPUs that are selected are those a plan says are chosen. -/
theorem MonitoringMode.toList_select (mode : MonitoringMode) (cpus : OrderedSet UInt32) :
    (mode.select cpus).toList = mode.chosen cpus := by
  cases mode with
  | allCpus => rfl
  | oneCpuPerPackage =>
      change cpus.toList.take 1 = cpus.toList.head?.toList
      cases cpus.toList <;> rfl

/-- The leaves of one events group, package by package. -/
def EventsGroup.leaves (group : EventsGroup) (key : String) (topology : Topology)
    (inCgroup : Bool) (sampling : Option SamplingOptions) : List PlannedLeaf :=
  topology.packages.entries.flatMap fun (package, cpus) => (group.mode.chosen cpus).map fun cpu =>
    ⟨⟨key, package, cpu⟩, group, ⟨inCgroup, cpu.toInt32⟩, sampling⟩

/-- The keys a configuration asks for: its events groups, the packages, the CPUs chosen of each. -/
def MonitoringConfig.keys (config : MonitoringConfig) :
    List (String × List (UInt32 × List UInt32)) :=
  config.groups.entries.map fun g =>
    (g.1, config.topology.packages.entries.map fun p => (p.1, g.2.mode.chosen p.2))

/-- **The leaves a configuration asks for**, in order.  Those of a control group's first events
group are sampled, and no others. -/
def MonitoringConfig.leaves (config : MonitoringConfig) : List PlannedLeaf :=
  let inCgroup := config.target.cgroupPath?.isSome
  config.groups.entries.zipIdx.flatMap fun ((key, group), place) =>
    group.leaves key config.topology inCgroup
      (if inCgroup ∧ place = 0 then some config.sampling else none)

/-- **The actions that open every counter of a configuration**, if counters are numbered from `next`
on. -/
def MonitoringConfig.plan (config : MonitoringConfig) (next : CounterId) : List Action :=
  PlannedLeaf.plan next config.leaves

/-! ## What a machine keeps when counters are closed -/

/-- The machine but for the counters and the rings that somebody holds. -/
def Machine.unowned (m : Machine σ) : Machine σ := { m with live := [], closed := [], rings := ∅ }

theorem unowned_foldl {γ : Type} (close : Machine σ → γ → Machine σ)
    (h : ∀ c m, (close m c).unowned = m.unowned) : ∀ (l : List γ) (m : Machine σ),
    (l.foldl close m).unowned = m.unowned
  | [], _ => rfl
  | c :: rest, m => (unowned_foldl close h rest _).trans (h c m)

/-- Closing a group touches nothing but counters that somebody held. -/
theorem CounterGroup.unowned_close (g : CounterGroup) (m : Machine σ) :
    (g.close m).unowned = m.unowned :=
  unowned_foldl (fun m id => m.closeCounter ⟨id, some g.leader⟩) (fun _ _ => rfl) g.siblings m

theorem CpuSession.unowned_close (s : CpuSession) (m : Machine σ) :
    (s.close m).unowned = m.unowned := by
  rw [CpuSession.close, CounterGroup.unowned_close]
  split <;> rfl

theorem PackageSession.unowned_close (s : PackageSession) (m : Machine σ) :
    (s.close m).unowned = m.unowned :=
  unowned_foldl _ CpuSession.unowned_close s.cpus.values m

theorem GroupSession.unowned_close (s : GroupSession) (m : Machine σ) :
    (s.close m).unowned = m.unowned :=
  unowned_foldl _ PackageSession.unowned_close s.packages.values m

/-! ## Opening one leaf -/

open CounterWatch.Action CounterWatch.PlannedLeaf

/-- What it means that leaves were opened as planned, from a machine on: the outcome is that of
performing the actions, and so is the machine, but for what was closed after a failure. -/
inductive AsPlanned {γ : Type} (pmu : Pmu σ) (leaves : γ → List (Leaf × CpuSession))
    (ls : List PlannedLeaf) (m : Machine σ) : Except Failure γ × Machine σ → Prop
  | done {c : γ} {m' : Machine σ} (hperform : performAll pmu (plan m.nextId ls) m = (.ok (), m'))
      (hnext : m'.nextId = m.nextId + total ls) (hleaves : leaves c = opened m.nextId ls) :
      AsPlanned pmu leaves ls m (.ok c, m')
  | failed {e : Failure} {m₁ m' : Machine σ}
      (hperform : performAll pmu (plan m.nextId ls) m = (.error e, m₁))
      (hunowned : m'.unowned = m₁.unowned) : AsPlanned pmu leaves ls m (.error e, m')

namespace AsPlanned

variable {γ δ : Type} {leaves : γ → List (Leaf × CpuSession)}
  {leaves' : δ → List (Leaf × CpuSession)} {ls ls' : List PlannedLeaf} {m m₁ m₂ : Machine σ} {c : γ}

theorem nil (h : leaves c = []) (m : Machine σ) : AsPlanned pmu leaves [] m (.ok c, m) :=
  .done rfl rfl h

/-- **Leaves opened as planned, and then others**, are all opened as planned. -/
theorem append_done {ε : Type} {all : ε → List (Leaf × CpuSession)} {d : δ} {c' : ε}
    (h : AsPlanned pmu leaves ls m (.ok c, m₁)) (h' : AsPlanned pmu leaves' ls' m₁ (.ok d, m₂))
    (hall : all c' = leaves c ++ leaves' d) : AsPlanned pmu all (ls ++ ls') m (.ok c', m₂) := by
  obtain ⟨hperform, hnext, hleaves⟩ := h
  obtain ⟨hperform', hnext', hleaves'⟩ := h'
  rw [hnext] at hperform' hnext' hleaves'
  refine .done ?_ ?_ ?_
  · rw [plan_append, performAll_append, hperform]
    exact hperform'
  · rw [hnext', total_append, Nat.add_assoc]
  · rw [hall, hleaves, hleaves', opened_append]

/-- If the later leaves fail as planned, all of them do, whatever is closed after that. -/
theorem append_failed {ε : Type} {all : ε → List (Leaf × CpuSession)} {e : Failure}
    {m' : Machine σ} (h : AsPlanned pmu leaves ls m (.ok c, m₁))
    (h' : AsPlanned pmu leaves' ls' m₁ (.error e, m₂)) (hunowned : m'.unowned = m₂.unowned) :
    AsPlanned pmu all (ls ++ ls') m (.error e, m') := by
  obtain ⟨hperform, hnext, hleaves⟩ := h
  cases h' with
  | failed hperform' hunowned' =>
      rw [hnext] at hperform'
      refine .failed ?_ (hunowned.trans hunowned')
      rw [plan_append, performAll_append, hperform]
      exact hperform'

/-- After a failure, what else was planned makes no difference. -/
theorem append_more {e : Failure} {m' : Machine σ} (h : AsPlanned pmu leaves ls m (.error e, m'))
    (ls' : List PlannedLeaf) : AsPlanned pmu leaves (ls ++ ls') m (.error e, m') := by
  cases h with
  | failed hperform hunowned =>
      refine .failed ?_ hunowned
      rw [plan_append, performAll_append, hperform]

/-- Opening as planned does not depend on what the leaves are wrapped in. -/
theorem map_iff (leaves' : δ → List (Leaf × CpuSession)) (f : γ → δ)
    {outcome : Except Failure γ × Machine σ} (hf : ∀ c, leaves' (f c) = leaves c) :
    AsPlanned pmu leaves' ls m (outcome.1.map f, outcome.2)
      ↔ AsPlanned pmu leaves ls m outcome := by
  obtain ⟨e | c, m'⟩ := outcome
  · exact ⟨fun | .failed hp hu => .failed hp hu, fun | .failed hp hu => .failed hp hu⟩
  · exact ⟨fun | .done hp hn hl => .done hp hn ((hf c).symm.trans hl),
      fun | .done hp hn hl => .done hp hn ((hf c).trans hl)⟩

end AsPlanned

/-- A counter that is opened gets the next number. -/
theorem Machine.nextId_openCounter {request : OpenRequest} {m m' : Machine σ} {id : CounterId}
    (h : m.openCounter pmu request = (.ok id, m')) : id = m.nextId ∧ m'.nextId = m.nextId + 1 := by
  rw [openCounter] at h
  split at h
  · cases h
    exact ⟨rfl, rfl⟩
  · cases h

/-- **The siblings of a leaf are opened as planned**, each with the leader of the leaf. -/
theorem CpuSession.addSiblings_asPlanned (pmu : Pmu σ) (l : PlannedLeaf) (leader : CounterId) :
    ∀ (rest : List EventDescriptor) (n : Nat) (m : Machine σ), m.nextId = leader + (n + 1) →
      match performAll pmu (l.siblingActions leader rest) m with
      | (.ok (), m₁) => m₁.nextId = leader + (n + 1 + rest.length) ∧
          addSiblings pmu l.scope l.leaf rest (.fresh leader (n + 1)) m
            = (.ok (), .fresh leader (n + 1 + rest.length), m₁)
      | (.error e, m₁) => ∃ g,
          addSiblings pmu l.scope l.leaf rest (.fresh leader (n + 1)) m = (.error e, g, m₁)
  | [], _, _, hnext => ⟨hnext, rfl⟩
  | e :: rest, n, m, hnext => by
      -- a fresh group knows how many members it has, and so which number the next one gets
      have hadd : (CounterGroup.fresh leader (n + 1)).add pmu (.counting e.event) l.scope m
          = match m.openCounter pmu (l.siblingRequest leader e.event) with
            | (.ok id, m) => (.ok id, (CounterGroup.fresh leader (n + 1)).join id, m)
            | (.error e, m) => (.error e, .fresh leader (n + 1), m) := rfl
      rw [siblingActions, List.map_cons, performAll, addSiblings, perform, hadd]
      rcases ho : m.openCounter pmu (l.siblingRequest leader e.event) with ⟨error | id, m₁⟩
      · exact ⟨_, rfl⟩
      · obtain ⟨rfl, hnext₁⟩ := Machine.nextId_openCounter ho
        rw [hnext] at hnext₁ ⊢
        have hrest := addSiblings_asPlanned pmu l leader rest (n + 1) m₁ hnext₁
        rw [← CounterGroup.join_fresh] at hrest
        rw [List.length_cons, Nat.add_comm rest.length 1, ← Nat.add_assoc (n + 1)]
        exact hrest

/-- **The ring of a leaf is mapped as planned.** -/
theorem CpuSession.startSampler_asPlanned (pmu : Pmu σ) (l : PlannedLeaf) (leader : CounterId)
    (m : Machine σ) : performAll pmu (l.ringActions leader) m =
      match startSampler pmu leader l.sampling m with
      | (.ok (), m₁) => (.ok (), m₁)
      | (.error e, m₁) => (.error (.mapRing l.leaf e), m₁) := by
  cases hsampling : l.sampling with
  | none => rw [ringActions, hsampling]; rfl
  | some options =>
      have hpages : 1 <<< options.pagesExponent.toNat + 1
          = 2 ^ options.pagesExponent.toNat + 1 := by
        rw [Nat.one_shiftLeft]
      rw [ringActions, hsampling, Option.toList, List.map_singleton, performAll, perform,
        startSampler, Sampler.start, Sampler.mapLength?, hpages]
      by_cases hfits : (2 ^ options.pagesExponent.toNat + 1) * pageSize < UInt64.size
      · simp only [if_pos hfits]
        rcases m.mapRing pmu leader _ with ⟨e | _, m₁⟩
        · rfl
        · rfl
      · simp only [if_neg hfits]

/-- A leaf that reports begins with its leader; its ring and its other counters follow. -/
theorem PlannedLeaf.performAll_plan_singleton (pmu : Pmu σ) {l : PlannedLeaf}
    (hfit : l.group.Reportable) {first : EventDescriptor} {rest : List EventDescriptor}
    (hevents : l.group.events = first :: rest) (next : CounterId) (m : Machine σ) :
    performAll pmu (plan next [l]) m
      = match m.openCounter pmu (l.leaderRequest first.event) with
        | (.ok _, m) => performAll pmu (l.ringActions next ++ l.siblingActions next rest) m
        | (.error e, m) => (.error (.openEvent l.leaf first.name e), m) := by
  have hplan : plan next [l] = l.actions next := List.append_nil _
  rw [hplan, actions, performAll, perform, if_pos hfit, hevents]
  dsimp only
  rw [performAll, perform]
  rcases m.openCounter pmu (l.leaderRequest first.event) with ⟨e | leader, m₁⟩
  · rfl
  · rfl

/-- A leaf whose group cannot be reported is refused, and so is its plan. -/
theorem CpuSession.start_asPlanned_of_not_reportable (pmu : Pmu σ) {l : PlannedLeaf}
    (hunfit : ¬ l.group.Reportable) {fault : EventsGroup.Fault}
    (hmembers : l.group.members = .error fault)
    (hcomplaint : l.group.complaint = (fault.event, .custom .invalidInput fault.message))
    (m : Machine σ) :
    AsPlanned pmu (fun s => [(l.leaf, s)]) [l] m
      (CpuSession.start pmu l.group l.scope l.sampling l.leaf m) := by
  have hplan : plan m.nextId [l] = l.actions m.nextId := List.append_nil _
  rw [CpuSession.start, hmembers]
  refine .failed ?_ rfl
  rw [hplan, actions, performAll, perform, if_neg hunfit, hcomplaint]

/-- **A leaf is opened as planned**, or fails as planned. -/
theorem CpuSession.start_asPlanned (pmu : Pmu σ) (l : PlannedLeaf) (m : Machine σ) :
    AsPlanned pmu (fun s => [(l.leaf, s)]) [l] m
      (CpuSession.start pmu l.group l.scope l.sampling l.leaf m) := by
  rcases l.group.members_cases with ⟨hfit, first, rest, hevents, hmembers⟩ |
    ⟨hunfit, fault, hmembers, hcomplaint⟩
  · have hsize : l.size = 1 + rest.length := by
      rw [size, hevents, List.length_cons, Nat.add_comm]
    have hrequest : ⟨leaderAttribute first.event l.sampling, l.scope, none⟩
        = l.leaderRequest first.event := by
      rw [leaderRequest]
      cases l.sampling <;> rfl
    -- both sides go on from the same machine after each call, so the plan is unrolled call by call
    have hplan := performAll_plan_singleton pmu hfit hevents m.nextId m
    rw [CpuSession.start, hmembers]
    dsimp only
    rw [hrequest]
    rcases ho : m.openCounter pmu (l.leaderRequest first.event) with ⟨e | leader, m₁⟩
    · rw [ho] at hplan
      exact .failed hplan rfl
    obtain ⟨rfl, hnext₁⟩ := Machine.nextId_openCounter ho
    have hring := startSampler_asPlanned pmu l m.nextId m₁
    have hnext₂ : (startSampler pmu m.nextId l.sampling m₁).2.nextId = m.nextId + (0 + 1) :=
      (congrArg Ledger.next (ledger_startSampler pmu m.nextId l.sampling m₁)).trans hnext₁
    rw [ho] at hplan
    dsimp only at hplan ⊢
    rw [performAll_append, hring] at hplan
    rcases hs : startSampler pmu m.nextId l.sampling m₁ with ⟨e | _, m₂⟩
    · rw [hs] at hplan
      exact .failed hplan (CounterGroup.unowned_close _ _)
    rw [hs] at hplan hnext₂
    have hsiblings := addSiblings_asPlanned pmu l m.nextId rest 0 m₂ hnext₂
    dsimp only at hplan ⊢
    rw [Nat.zero_add, ← hplan] at hsiblings
    rw [CounterGroup.ofLeader_eq_fresh]
    rcases hp : performAll pmu (plan m.nextId [l]) m with ⟨e | _, m₃⟩
    · rw [hp] at hsiblings
      obtain ⟨g, hadd⟩ := hsiblings
      rw [hadd]
      exact .failed hp (CpuSession.unowned_close _ m₃)
    · rw [hp] at hsiblings
      obtain ⟨hnext₃, hadd⟩ := hsiblings
      rw [hadd]
      refine .done hp ?_ ?_
      · rw [hnext₃, total, total, Nat.add_zero, hsize]
      · rw [opened, opened, session, hsize]
  · exact start_asPlanned_of_not_reportable pmu hunfit hmembers hcomplaint m

/-! ## Opening the levels of a tree -/

section Levels

variable {α β γ : Type} {make : α → β → Machine σ → Except Failure γ × Machine σ}
  {undo : γ → Machine σ → Machine σ} {planned : α × β → List PlannedLeaf}
  {leaves : α × γ → List (Leaf × CpuSession)}

/-- Entries that are each opened as planned are opened as planned one after the other; a failure
undoes those before it, and that is not seen outside. -/
theorem assembleEntries_asPlanned
    (hmake : ∀ k v m, AsPlanned pmu (fun c => leaves (k, c)) (planned (k, v)) m (make k v m))
    (hundo : ∀ c m, (undo c m).unowned = m.unowned) {m₀ : Machine σ} :
    ∀ {ls : List PlannedLeaf} (l : List (α × β)) {made : List (α × γ)} {m : Machine σ},
      AsPlanned pmu (List.flatMap leaves) ls m₀ (.ok made, m) →
      AsPlanned pmu (List.flatMap leaves) (ls ++ l.flatMap planned) m₀
        (OrderedMap.assembleEntries make undo made l m)
  | ls, [], _, _, h => by
      rw [List.flatMap_nil, List.append_nil]
      exact h
  | ls, (k, v) :: rest, made, m, h => by
      -- the parts made so far are carried along as one outcome, that of the leaves before this part
      have hpart := hmake k v m
      rw [List.flatMap_cons, ← List.append_assoc, OrderedMap.assembleEntries]
      rcases hm : make k v m with ⟨e | c, m₁⟩
      · rw [hm] at hpart
        have hclose := unowned_foldl (fun m (p : α × γ) => undo p.2 m) (fun p m => hundo p.2 m) made
          m₁
        exact (h.append_failed hpart hclose).append_more _
      · rw [hm] at hpart
        refine assembleEntries_asPlanned hmake hundo rest (h.append_done hpart ?_)
        rw [List.flatMap_append, List.flatMap_singleton]

/-- **One level of a tree is opened as planned** when its parts are: their leaves come one part
after the other, and closing a part changes nothing but what it owned. -/
theorem assemble_asPlanned [Ord α] (entries : OrderedMap α β) (planned : α × β → List PlannedLeaf)
    (leaves : α × γ → List (Leaf × CpuSession))
    (hmake : ∀ k v m, AsPlanned pmu (fun c => leaves (k, c)) (planned (k, v)) m (make k v m))
    (hundo : ∀ c m, (undo c m).unowned = m.unowned) (m : Machine σ) :
    AsPlanned pmu (fun built => built.entries.flatMap leaves) (entries.entries.flatMap planned) m
      (entries.assemble make undo m) := by
  have hwalk := assembleEntries_asPlanned hmake hundo entries.entries
    (AsPlanned.nil (c := []) rfl m)
  rw [List.nil_append, OrderedMap.assembleEntries_eq] at hwalk
  exact (AsPlanned.map_iff _ OrderedMap.entries fun _ => rfl).mp hwalk

end Levels

theorem PackageSession.start_asPlanned (pmu : Pmu σ) (config : EventsGroup) (key : String)
    (sampling : Option SamplingOptions) (inCgroup : Bool) (package : UInt32)
    (cpus : OrderedSet UInt32) (m : Machine σ) :
    AsPlanned pmu (PackageSession.leaves key package)
      ((config.mode.chosen cpus).map fun cpu =>
        ⟨⟨key, package, cpu⟩, config, ⟨inCgroup, cpu.toInt32⟩, sampling⟩) m
      (PackageSession.start pmu config key sampling (fun cpu => ⟨inCgroup, cpu.toInt32⟩) package
        cpus m) := by
  let planned (cpu : UInt32) : PlannedLeaf :=
    ⟨⟨key, package, cpu⟩, config, ⟨inCgroup, cpu.toInt32⟩, sampling⟩
  have hplanned : (OrderedMap.ofSet (config.mode.select cpus) ()).entries.flatMap
      (fun p => [planned p.1]) = (config.mode.chosen cpus).map planned := by
    rw [OrderedMap.ofSet, List.flatMap_map, ← config.mode.toList_select, List.map_eq_flatMap]
  have hlevel := assemble_asPlanned (.ofSet (config.mode.select cpus) ())
    (fun p => [planned p.1]) (fun c => [(⟨key, package, c.1⟩, c.2)])
    (fun cpu _ m => CpuSession.start_asPlanned pmu (planned cpu) m) CpuSession.unowned_close m
  rw [hplanned] at hlevel
  exact (AsPlanned.map_iff _ PackageSession.mk fun _ => List.map_eq_flatMap).mpr hlevel

theorem GroupSession.start_asPlanned (pmu : Pmu σ) (topology : Topology) (config : EventsGroup)
    (key : String) (sampling : Option SamplingOptions) (inCgroup : Bool) (m : Machine σ) :
    AsPlanned pmu (GroupSession.leaves key) (config.leaves key topology inCgroup sampling) m
      (GroupSession.start pmu topology config key sampling (fun cpu => ⟨inCgroup, cpu.toInt32⟩)
        m) := by
  have hlevel := assemble_asPlanned topology.packages
    (fun p => (config.mode.chosen p.2).map fun cpu =>
      ⟨⟨key, p.1, cpu⟩, config, ⟨inCgroup, cpu.toInt32⟩, sampling⟩)
    (fun p => p.2.leaves key p.1)
    (fun package cpus m => PackageSession.start_asPlanned pmu config key sampling inCgroup package
      cpus m) PackageSession.unowned_close m
  exact (AsPlanned.map_iff (GroupSession.leaves key) (GroupSession.mk config)
    fun _ => rfl).mpr hlevel

/-! ## Opening a tree -/

/-- A key is the first one just when its place is the first. -/
theorem OrderedMap.head?_keys_iff {α β : Type} [Ord α] [Std.ReflOrd α] (m : OrderedMap α β)
    {place : Nat} {entry : α × β} (h : m.entries[place]? = some entry) :
    m.keys.head? = some entry.1 ↔ place = 0 := by
  have hhead : m.keys.head? = m.entries[0]?.map Prod.fst := by
    rw [keys, List.head?_map, List.head?_eq_getElem?]
  constructor
  · intro hkey
    by_contra hplace
    obtain ⟨first, hfirst, hkey⟩ := Option.map_eq_some_iff.mp (hhead.symm.trans hkey)
    obtain ⟨hbound, rfl⟩ := List.getElem?_eq_some_iff.mp h
    obtain ⟨hpositive, rfl⟩ := List.getElem?_eq_some_iff.mp hfirst
    have hlt := List.pairwise_iff_getElem.mp m.ascending 0 place hpositive hbound (by omega)
    have hself : ∀ k : α, compare k k = .eq := fun _ => Std.ReflCmp.compare_self
    rw [hkey, hself] at hlt
    cases hlt
  · rintro rfl
    rw [hhead, h, Option.map_some]

theorem MonitoringConfig.leaves_eq (config : MonitoringConfig) :
    config.leaves = config.groups.entries.flatMap fun g =>
      g.2.leaves g.1 config.topology config.target.cgroupPath?.isSome
        (SessionTree.samplingOf config g.1) := by
  have hplaces := List.zipIdx_map_fst 0 config.groups.entries
  conv_rhs => rw [← hplaces, List.flatMap_map]
  refine List.flatMap_congr fun p hp => ?_
  have hfirst := config.groups.head?_keys_iff (List.mem_zipIdx_iff_getElem?.mp hp)
  simp only [SessionTree.samplingOf, hfirst]

/-- **Once its target is prepared, a tree is opened as planned.** -/
theorem SessionTree.start_asPlanned (pmu : Pmu σ) {config : MonitoringConfig}
    {backend : Option Backend} {m m₁ : Machine σ} {found : Option UInt32 × Symbols}
    (h : prepareTarget config.target backend m = (.ok found, m₁)) :
    AsPlanned pmu SessionTree.leaves config.leaves m₁ (start pmu config backend m) := by
  have hscope : scopeOf config.target = fun cpu =>
      ⟨config.target.cgroupPath?.isSome, cpu.toInt32⟩ := by
    funext cpu
    rw [scopeOf]
    cases config.target.cgroupPath?.isSome <;> rfl
  have hlevel := assemble_asPlanned config.groups
    (fun g => g.2.leaves g.1 config.topology config.target.cgroupPath?.isSome
      (samplingOf config g.1)) (fun g => g.2.leaves g.1)
    (fun key group m => GroupSession.start_asPlanned pmu config.topology group key
      (samplingOf config key) _ m) GroupSession.unowned_close m₁
  rw [← config.leaves_eq, ← hscope] at hlevel
  obtain ⟨pid, symbols⟩ := found
  let wrap (groups : OrderedMap String GroupSession) : SessionTree :=
    { groups, pid, callchain := ⟨symbols, config.sampling.maxDepth⟩,
      inCgroup := config.target.cgroupPath?.isSome }
  rw [start, h]
  exact (AsPlanned.map_iff SessionTree.leaves wrap fun _ => rfl).mpr hlevel

/-- Whether a call is made to open a counter, or to map its ring. -/
def Call.opensCounter : Call → Bool
  | .opened _ _ | .openFailed _ | .map _ _ => true
  | .openPath _ | .readFile _ | .attach _ | .enable _ | .reset _ | .read _ _ | .sent _ _
  | .ticked _ _ => false

/-- Whether a failure is that of an event or of a ring. -/
def Failure.isOfCounter : Failure → Bool
  | .openEvent _ _ _ | .mapRing _ _ => true
  | .targetName _ | .cgroup _ _ | .noPid _ | .readCounts _ _ | .resetCounts _ _
  | .enableCounts _ _ => false

/-- What opening counters leaves, from a machine on: no calls but those that open them, nothing
logged, and no failure but that of an event or a ring. -/
structure OpensCounters {γ : Type} (m : Machine σ) (x : Except Failure γ × Machine σ) : Prop where
  trace : ∃ calls, x.2.trace = m.trace ++ calls ∧ ∀ c ∈ calls, c.opensCounter = true
  log : x.2.log = m.log
  failure : ∀ e, x.1 = .error e → e.isOfCounter = true

namespace OpensCounters

variable {γ δ : Type} {m m₁ m' : Machine σ}

/-- Nothing was called. -/
theorem of_eq {r : Except Failure γ} (h : ∀ e, r = .error e → e.isOfCounter = true)
    (m : Machine σ) : OpensCounters m (r, m) :=
  ⟨⟨[], (List.append_nil _).symm, List.forall_mem_nil _⟩, rfl, h⟩

/-- One call was made. -/
theorem of_call {r : Except Failure γ} {c : Call} (hcall : c.opensCounter = true)
    (htrace : m₁.trace = m.trace ++ [c]) (hlog : m₁.log = m.log)
    (h : ∀ e, r = .error e → e.isOfCounter = true) : OpensCounters m (r, m₁) :=
  ⟨⟨[c], htrace, List.forall_mem_singleton.mpr hcall⟩, hlog, h⟩

theorem trans {r : Except Failure δ} {x : Except Failure γ × Machine σ}
    (h : OpensCounters m (r, m₁)) (h' : OpensCounters m₁ x) : OpensCounters m x := by
  obtain ⟨calls, htrace, hcalls⟩ := h.trace
  obtain ⟨calls', htrace', hcalls'⟩ := h'.trace
  refine ⟨⟨calls ++ calls', ?_, List.forall_mem_append.mpr ⟨hcalls, hcalls'⟩⟩,
    h'.log.trans h.log, h'.failure⟩
  rw [htrace', htrace, List.append_assoc]

/-- What is closed after a failure is not on the record. -/
theorem of_unowned {r : Except Failure δ} (h : OpensCounters m (r, m₁))
    {r' : Except Failure γ} (hunowned : m'.unowned = m₁.unowned)
    (hfailure : ∀ e, r' = .error e → r = .error e) : OpensCounters m (r', m') where
  trace := by
    have htrace : m'.unowned.trace = m₁.unowned.trace := by rw [hunowned]
    obtain ⟨calls, htrace₁, hcalls⟩ := h.trace
    exact ⟨calls, htrace.trans htrace₁, hcalls⟩
  log := by
    have hlog : m'.unowned.log = m₁.unowned.log := by rw [hunowned]
    exact hlog.trans h.log
  failure e he := h.failure e (hfailure e he)

end OpensCounters

/-- **One action**, whatever comes of it. -/
theorem Action.perform_opensCounters (pmu : Pmu σ) (action : Action) (m : Machine σ) :
    OpensCounters m (action.perform pmu m) := by
  cases action with
  | check leaf group =>
      rw [perform]
      refine .of_eq (fun e he => ?_) m
      split at he
      · cases he
      · cases he
        rfl
  | openCounter leaf event request =>
      rw [perform, Machine.openCounter]
      rcases pmu.openCounter request m.state with ⟨e | _, state⟩
      · exact .of_call (c := .openFailed m.attempts) rfl rfl rfl (by rintro _ ⟨⟩; rfl)
      · exact .of_call (c := .opened m.nextId request) rfl rfl rfl (by rintro _ ⟨⟩)
  | mapRing leaf counter pages =>
      rw [perform]
      split
      · rw [Machine.mapRing, Machine.map]
        rcases pmu.map counter (pages * pageSize) m.state with ⟨e | arena, state⟩
        · exact .of_call (c := .map counter _) rfl rfl rfl (by rintro _ ⟨⟩; rfl)
        · exact .of_call (c := .map counter _) rfl rfl rfl (by rintro _ ⟨⟩)
      · exact .of_eq (by rintro _ ⟨⟩; rfl) m

/-- **Several actions**, up to the first that fails. -/
theorem Action.performAll_opensCounters (pmu : Pmu σ) :
    ∀ (actions : List Action) (m : Machine σ), OpensCounters m (performAll pmu actions m)
  | [], m => .of_eq (by rintro _ ⟨⟩) m
  | action :: rest, m => by
      have hfirst := action.perform_opensCounters pmu m
      rw [performAll]
      rcases hp : action.perform pmu m with ⟨e | _, m₁⟩
      · rw [hp] at hfirst
        exact hfirst
      · rw [hp] at hfirst
        exact hfirst.trans (performAll_opensCounters pmu rest m₁)

/-- **What was opened as planned** left nothing on the record but the counters. -/
theorem AsPlanned.opensCounters {γ : Type} {leaves : γ → List (Leaf × CpuSession)}
    {ls : List PlannedLeaf} {m : Machine σ} {x : Except Failure γ × Machine σ}
    (h : AsPlanned pmu leaves ls m x) : OpensCounters m x := by
  have hactions := performAll_opensCounters pmu (plan m.nextId ls) m
  cases h with
  | done hperform _ _ =>
      rw [hperform] at hactions
      exact hactions.of_unowned rfl (by rintro _ ⟨⟩)
  | failed hperform hunowned =>
      rw [hperform] at hactions
      exact hactions.of_unowned hunowned (by rintro _ ⟨⟩; rfl)

end CounterWatch
