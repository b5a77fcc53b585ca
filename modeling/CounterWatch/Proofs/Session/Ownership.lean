import CounterWatch.Proofs.Session.Ledger
import CounterWatch.Proofs.Session.Shape

/-!
# Proofs/Session/Ownership — a tree holds what was opened for it, or nothing is left open

Opening a tree may fail at any of its counters, and at any of its rings, with groups, packages and
CPUs half done.  Wherever it does, all that was opened is closed again; and a tree that is opened
holds every counter that was, until it is closed.

* `Ledger.Reverts` — what a failure leaves: counters were opened and then closed, group by group.
* `assemble_allOrNothing` — one level of a tree opens what its parts open, or reverts.
* `SessionTree.Work` — enabling, collecting and whatever the surroundings do meanwhile.
* `counters_all_or_nothing` — the whole life of a tree, from opening to closing.
-/

namespace CounterWatch

variable {σ : Type} {pmu : Pmu σ}

/-! ## Failures -/

namespace Ledger

/-- Between two ledgers some counters were opened, and then all of them closed, group by group. -/
def Reverts (l l' : Ledger) : Prop :=
  ∃ (l₁ : Ledger) (cs : List Counter) (gs : List CounterGroup), Opens l l₁ cs ∧
    (gs.flatMap CounterGroup.closingOrder).Perm cs ∧
    l' = l₁.strikeAll (gs.flatMap CounterGroup.closingOrder)

theorem Reverts.refl (l : Ledger) : Reverts l l := ⟨l, [], [], .refl l, .refl _, rfl⟩

/-- Groups close the counters they have, each of them once. -/
theorem closingOrder_flatMap_perm (gs : List CounterGroup) :
    (gs.flatMap CounterGroup.closingOrder).Perm (gs.flatMap CounterGroup.counters) :=
  List.Perm.flatMap_left gs fun g _ => g.closingOrder_perm

/-- **A failure behind groups that were opened reverts with them**, once they are closed too. -/
theorem Opens.reverts {l l₁ l₂ : Ledger} {gs : List CounterGroup}
    (h : Opens l l₁ (gs.flatMap CounterGroup.counters)) (h' : Reverts l₁ l₂) :
    Reverts l (l₂.strikeAll (gs.flatMap CounterGroup.closingOrder)) := by
  obtain ⟨l', cs, gs', hopens, hperm, rfl⟩ := h'
  refine ⟨l', gs.flatMap CounterGroup.counters ++ cs, gs' ++ gs, h.trans hopens, ?_, ?_⟩
  · rw [List.flatMap_append]
    exact (hperm.append (closingOrder_flatMap_perm gs)).trans List.perm_append_comm
  · rw [List.flatMap_append, strikeAll_append]

/-- Counters of one group that were opened are reverted by closing the group. -/
theorem Opens.reverts_group {l l₁ : Ledger} {g : CounterGroup} (h : Opens l l₁ g.counters) :
    Reverts l (l₁.strikeAll g.closingOrder) := by
  have hgroups : Opens l l₁ ([g].flatMap CounterGroup.counters) := by rwa [List.flatMap_singleton]
  have hreverts := hgroups.reverts (.refl l₁)
  rwa [List.flatMap_singleton] at hreverts

end Ledger

open Ledger

/-- What an attempt to open counters comes to: what was made has the counters that were opened, or
whatever was opened is closed again. -/
def AllOrNothing {γ ε : Type} (groups : γ → List CounterGroup) (l : Ledger) :
    Except ε γ × Machine σ → Prop
  | (.ok c, m') => Opens l m'.ledger ((groups c).flatMap CounterGroup.counters)
  | (.error _, m') => Reverts l m'.ledger

/-! ## Opening one CPU -/

/-- A group holds what was opened for it, whether the next counter joins it or not. -/
theorem CounterGroup.opens_add (pmu : Pmu σ) {l : Ledger} {g : CounterGroup} {m : Machine σ}
    (h : Opens l m.ledger g.counters) (attr : Attribute) (scope : Scope) :
    Opens l (g.add pmu attr scope m).2.2.ledger (g.add pmu attr scope m).2.1.counters := by
  have hopen := m.ledger_openCounter pmu { attr, scope, leader := some g.leader }
  rw [CounterGroup.add]
  rcases ho : m.openCounter pmu { attr, scope, leader := some g.leader } with ⟨e | id, m'⟩
  · rw [ho] at hopen
    change Opens l m'.ledger g.counters
    rw [hopen]
    exact h
  · rw [ho] at hopen
    obtain ⟨rfl, hledger⟩ := hopen
    have hjoin : (g.join m.ledger.next).counters
        = g.counters ++ [⟨m.ledger.next, some g.leader⟩] := by
      rw [counters, counters, join, List.map_append]
      rfl
    change Opens l m'.ledger (g.join m.ledger.next).counters
    rw [hjoin, hledger]
    exact h.trans (.enter _ _)

theorem CpuSession.opens_addSiblings (pmu : Pmu σ) {l : Ledger} (scope : Scope) (leaf : Leaf) :
    ∀ (events : List EventDescriptor) {g : CounterGroup} {m : Machine σ},
      Opens l m.ledger g.counters →
      Opens l (addSiblings pmu scope leaf events g m).2.2.ledger
        (addSiblings pmu scope leaf events g m).2.1.counters
  | [], _, _, h => h
  | e :: rest, g, m, h => by
      have hadd := CounterGroup.opens_add pmu h (.counting e.event) scope
      rw [addSiblings]
      rcases ha : g.add pmu (.counting e.event) scope m with ⟨error | id, g', m'⟩
      · rw [ha] at hadd
        exact hadd
      · rw [ha] at hadd
        exact opens_addSiblings pmu scope leaf rest hadd

/-- Setting up a ring opens no counter. -/
theorem CpuSession.ledger_startSampler (pmu : Pmu σ) (leader : CounterId)
    (sampling : Option SamplingOptions) (m : Machine σ) :
    (startSampler pmu leader sampling m).2.ledger = m.ledger := by
  cases sampling with
  | none => rfl
  | some options =>
      rw [startSampler, Sampler.start]
      split
      · rfl
      · exact m.ledger_mapRing _ _

/-- **A CPU holds what was opened for it**; a failure leaves nothing open. -/
theorem CpuSession.start_allOrNothing (pmu : Pmu σ) (group : EventsGroup) (scope : Scope)
    (sampling : Option SamplingOptions) (leaf : Leaf) (m : Machine σ) :
    AllOrNothing (fun s : CpuSession => [s.counters]) m.ledger
      (CpuSession.start pmu group scope sampling leaf m) := by
  rw [CpuSession.start]
  rcases group.members with fault | ⟨first, rest⟩
  · exact .refl _
  have hopen := m.ledger_openCounter pmu
    { attr := leaderAttribute first.event sampling, scope, leader := none }
  dsimp only
  rcases ho : m.openCounter pmu
      { attr := leaderAttribute first.event sampling, scope, leader := none } with ⟨e | leader, m₁⟩
  · rw [ho] at hopen
    change Reverts m.ledger m₁.ledger
    rw [hopen]
    exact .refl _
  rw [ho] at hopen
  obtain ⟨rfl, hledger⟩ := hopen
  have hleader : Opens m.ledger m₁.ledger (CounterGroup.ofLeader m.ledger.next).counters := by
    rw [hledger]
    exact .enter _ _
  have hmap := CpuSession.ledger_startSampler pmu m.ledger.next sampling m₁
  dsimp only
  rcases hs : startSampler pmu m.ledger.next sampling m₁ with ⟨e | _, m₂⟩
  · rw [hs] at hmap
    change Reverts m.ledger ((CounterGroup.ofLeader m.ledger.next).close m₂).ledger
    rw [CounterGroup.ledger_close, hmap]
    exact hleader.reverts_group
  rw [hs] at hmap
  rw [← hmap] at hleader
  have hadd := CpuSession.opens_addSiblings pmu scope leaf rest hleader
  dsimp only
  rcases ha : addSiblings pmu scope leaf rest (.ofLeader m.ledger.next) m₂ with ⟨e | _, g, m₃⟩
  · rw [ha] at hadd
    change Reverts m.ledger ((CpuSession.mk g sampling.isSome).close m₃).ledger
    rw [CpuSession.ledger_close]
    exact hadd.reverts_group
  · rw [ha] at hadd
    change Opens m.ledger m₃.ledger ([g].flatMap CounterGroup.counters)
    rw [List.flatMap_singleton]
    exact hadd

/-! ## Opening the levels of a tree -/

/-- **One level of a tree opens what its parts open**, or reverts. -/
theorem assemble_allOrNothing {α β γ ε : Type} [Ord α] (entries : OrderedMap α β)
    {make : α → β → Machine σ → Except ε γ × Machine σ} {undo : γ → Machine σ → Machine σ}
    {groups : γ → List CounterGroup}
    (hmake : ∀ k v m, AllOrNothing groups m.ledger (make k v m))
    (hundo : ∀ c m, (undo c m).ledger
      = m.ledger.strikeAll ((groups c).flatMap CounterGroup.closingOrder))
    (m : Machine σ) :
    AllOrNothing (fun built => built.values.flatMap groups) m.ledger
      (entries.assemble make undo m) := by
  let Made (made : List (α × γ)) (m' : Machine σ) : Prop := Opens m.ledger m'.ledger
    (((made.map Prod.snd).flatMap groups).flatMap CounterGroup.counters)
  have hok : ∀ made k v m₁ c m₂, Made made m₁ → make k v m₁ = (.ok c, m₂) →
      Made (made ++ [(k, c)]) m₂ := by
    intro made k v m₁ c m₂ h heq
    have hstep := hmake k v m₁
    rw [heq] at hstep
    change Opens m.ledger m₂.ledger
      ((((made ++ [(k, c)]).map Prod.snd).flatMap groups).flatMap CounterGroup.counters)
    rw [List.map_append, List.flatMap_append, List.flatMap_append, List.map_singleton,
      List.flatMap_singleton]
    exact Opens.trans h hstep
  have herror : ∀ made k v m₁ e m₂, Made made m₁ → make k v m₁ = (.error e, m₂) →
      Reverts m.ledger (made.foldl (fun m p => undo p.2 m) m₂).ledger := by
    intro made k v m₁ e m₂ h heq
    have hstep := hmake k v m₁
    rw [heq] at hstep
    have hclose := ledger_foldl_close hundo (made.map Prod.snd) m₂
    rw [List.foldl_map] at hclose
    rw [hclose]
    exact Opens.reverts h hstep
  have hwalk := entries.assemble_induction Made (fun _ m' => Reverts m.ledger m'.ledger) (.refl _)
    hok herror
  rcases ha : entries.assemble make undo m with ⟨e | built, m'⟩
  · rw [ha] at hwalk
    exact hwalk
  · rw [ha] at hwalk
    exact hwalk

/-- A level is all or nothing when what it wraps is. -/
theorem AllOrNothing.map {γ δ ε : Type} {groups : γ → List CounterGroup} {l : Ledger}
    {outcome : Except ε γ × Machine σ} (h : AllOrNothing groups l outcome) (f : γ → δ)
    (groups' : δ → List CounterGroup) (hf : ∀ c, groups' (f c) = groups c) :
    AllOrNothing groups' l (outcome.1.map f, outcome.2) := by
  obtain ⟨result, m'⟩ := outcome
  cases result with
  | ok c =>
      change Opens l m'.ledger ((groups' (f c)).flatMap CounterGroup.counters)
      rw [hf]
      exact h
  | error e => exact h

theorem PackageSession.start_allOrNothing (pmu : Pmu σ) (config : EventsGroup) (key : String)
    (sampling : Option SamplingOptions) (scope : UInt32 → Scope) (package : UInt32)
    (cpus : OrderedSet UInt32) (m : Machine σ) :
    AllOrNothing PackageSession.counterGroups m.ledger
      (PackageSession.start pmu config key sampling scope package cpus m) := by
  have hclose : ∀ (s : CpuSession) (m : Machine σ), (s.close m).ledger
      = m.ledger.strikeAll ([s.counters].flatMap CounterGroup.closingOrder) := by
    intro s m
    rw [List.flatMap_singleton]
    exact s.ledger_close m
  have hlevel := assemble_allOrNothing (.ofSet (config.mode.select cpus) ()) (fun cpu _ m =>
    CpuSession.start_allOrNothing pmu config (scope cpu) sampling ⟨key, package, cpu⟩ m) hclose m
  exact hlevel.map .mk PackageSession.counterGroups fun cpus =>
    PackageSession.counterGroups_eq ⟨cpus⟩

/-- An events group is open on all its packages, or what was opened for it is closed. -/
theorem GroupSession.start_allOrNothing (pmu : Pmu σ) (topology : Topology) (config : EventsGroup)
    (key : String) (sampling : Option SamplingOptions) (scope : UInt32 → Scope) (m : Machine σ) :
    AllOrNothing GroupSession.counterGroups m.ledger
      (GroupSession.start pmu topology config key sampling scope m) := by
  have hlevel := assemble_allOrNothing topology.packages (fun package cpus m =>
    PackageSession.start_allOrNothing pmu config key sampling scope package cpus m)
    PackageSession.ledger_close m
  exact hlevel.map (.mk config) GroupSession.counterGroups fun _ => rfl

/-- **A tree holds what was opened for it**; a failure leaves nothing open. -/
theorem SessionTree.start_allOrNothing (pmu : Pmu σ) (config : MonitoringConfig)
    (backend : Option Backend) (m : Machine σ) :
    AllOrNothing SessionTree.counterGroups m.ledger (SessionTree.start pmu config backend m) := by
  have hprepare := Machine.ledger_lookups (prepareTarget_lookups config.target backend m)
  rw [SessionTree.start]
  rcases hp : prepareTarget config.target backend m with ⟨e | ⟨pid, symbols⟩, m₁⟩
  · rw [hp] at hprepare
    change Reverts m.ledger m₁.ledger
    rw [hprepare]
    exact .refl _
  · rw [hp] at hprepare
    rw [← hprepare]
    have hlevel := assemble_allOrNothing config.groups (fun key group m =>
      GroupSession.start_allOrNothing pmu config.topology group key (samplingOf config key)
        (scopeOf config.target) m) GroupSession.ledger_close m₁
    exact hlevel.map _ SessionTree.counterGroups fun _ => rfl

/-! ## Working with a tree -/

/-- One thing done with an open tree, or by the surroundings meanwhile. -/
inductive SessionTree.Work (pmu : Pmu σ) :
    SessionTree × Machine σ → SessionTree × Machine σ → Prop
  | enable (t : SessionTree) (m : Machine σ) : Work pmu (t, m) (t, (t.enable pmu m).2)
  | collect (timestamp : UInt64) (target : String) (t : SessionTree) (m : Machine σ) :
      Work pmu (t, m) (t.collect pmu timestamp target m).2
  | outside (step : OutsideStep) (t : SessionTree) (m : Machine σ) :
      Work pmu (t, m) (t, m.outside step)

/-- Whatever is done with an open tree, one thing after the other. -/
def SessionTree.Works (pmu : Pmu σ) :
    SessionTree × Machine σ → SessionTree × Machine σ → Prop := Relation.ReflTransGen (Work pmu)

/-- The counters of a tree can be told from its outline. -/
theorem SessionTree.counters_eq_outline (t : SessionTree) :
    t.counters = t.outline.flatMap fun l => l.2.counters.counters := by
  rw [counters, outline, List.flatMap_map]
  rfl

/-- **Working with a tree opens and closes nothing**, and the tree keeps its counters. -/
theorem SessionTree.work_keeps {before after : SessionTree × Machine σ}
    (h : Work pmu before after) :
    after.1.counters = before.1.counters ∧ after.2.ledger = before.2.ledger := by
  cases h with
  | enable t m => exact ⟨rfl, Machine.ledger_uses (t.enable_uses m)⟩
  | collect timestamp target t m =>
      refine ⟨?_, Machine.ledger_uses (t.collect_uses timestamp target m)⟩
      rw [counters_eq_outline, counters_eq_outline, t.outline_collect timestamp target m]
  | outside step t m => exact ⟨rfl, m.ledger_outside step⟩

/-- **However long a tree is worked with**, it has the counters it had, and they are open. -/
theorem SessionTree.works_keep {before after : SessionTree × Machine σ}
    (h : Works pmu before after) :
    after.1.counters = before.1.counters ∧ after.2.ledger = before.2.ledger := by
  induction h with
  | refl => exact ⟨rfl, rfl⟩
  | tail _ hstep ih =>
      obtain ⟨hcounters, hledger⟩ := work_keeps hstep
      exact ⟨hcounters.trans ih.1, hledger.trans ih.2⟩

/-! ## From opening to closing -/

/-- Between two machines some counters were closed, every one of them once, and no leader before its
siblings. -/
def Machine.Closes (m m' : Machine σ) (cs : List Counter) : Prop :=
  ∃ shut : List Counter, m'.closed = m.closed ++ shut ∧ shut.Perm cs ∧
    Machine.siblingsFirst shut = true

/-- A machine whose ledger has groups struck, all of them open before, has closed their counters. -/
theorem closes_of_strikeAll {m' : Machine σ} {l : Ledger} {gs : List CounterGroup}
    {cs others : List Counter} (h : m'.ledger = l.strikeAll (gs.flatMap CounterGroup.closingOrder))
    (hperm : (gs.flatMap CounterGroup.closingOrder).Perm cs) (hnodup : (cs.map Counter.id).Nodup)
    (hlive : l.live = others ++ cs) :
    m'.opened = l.opened ∧
    (∃ shut : List Counter, m'.closed = l.closed ++ shut ∧ shut.Perm cs ∧
      Machine.siblingsFirst shut = true) ∧
    m'.live.Perm others := by
  have hopened : m'.opened = (l.strikeAll (gs.flatMap CounterGroup.closingOrder)).opened :=
    congrArg Ledger.opened h
  have hclosed : m'.closed = (l.strikeAll (gs.flatMap CounterGroup.closingOrder)).closed :=
    congrArg Ledger.closed h
  have hopen : m'.live = (l.strikeAll (gs.flatMap CounterGroup.closingOrder)).live :=
    congrArg Ledger.live h
  refine ⟨hopened.trans (opened_strikeAll _ _), ⟨_, hclosed.trans (closed_strikeAll _ _), hperm,
    siblingsFirst_closingOrder ?_⟩, ?_⟩
  · have hcounters := (closingOrder_flatMap_perm gs).symm.trans hperm
    exact (hcounters.map Counter.id).nodup_iff.mpr hnodup
  · rw [hopen]
    refine live_strikeAll ?_
    rw [hlive]
    exact hperm.symm.append_left _

/-- **Opening a tree is all or nothing, and closing it is complete.**  When opening fails, wherever
it does, everything opened is closed again.  When it succeeds, exactly the counters of the tree were
opened, no two of one number, and all of them are open.  Whatever is done with the tree from then on
opens and closes nothing; closing the tree then closes every counter of it, and no other.  Nowhere
is a leader closed before its siblings. -/
theorem counters_all_or_nothing (pmu : Pmu σ) (config : MonitoringConfig) (backend : Option Backend)
    (m : Machine σ) :
    match SessionTree.start pmu config backend m with
    | (.error _, m') => ∃ new : List Counter,
        m'.opened = m.opened ++ new ∧ (new.map Counter.id).Nodup ∧
        m.Closes m' new ∧ m'.live.Perm m.live
    | (.ok t, m') =>
        m'.opened = m.opened ++ t.counters ∧ (t.counters.map Counter.id).Nodup ∧
        m'.closed = m.closed ∧ m'.live = m.live ++ t.counters ∧
        ∀ t' m'', SessionTree.Works pmu (t, m') (t', m'') →
          t'.counters = t.counters ∧
          m''.opened = m'.opened ∧ m''.closed = m'.closed ∧ m''.live = m'.live ∧
          (t'.close m'').opened = m''.opened ∧ m''.Closes (t'.close m'') t.counters ∧
          (t'.close m'').live.Perm m.live := by
  have hstart := SessionTree.start_allOrNothing pmu config backend m
  split
  next e m' heq =>
    rw [heq] at hstart
    obtain ⟨l, new, gs, hopens, hperm, hl⟩ := hstart
    obtain ⟨hopened, hshut, hlive⟩ := closes_of_strikeAll hl hperm hopens.nodup hopens.live
    rw [hopens.closed] at hshut
    exact ⟨new, hopened.trans hopens.opened, hopens.nodup, hshut, hlive⟩
  next t m' heq =>
    rw [heq] at hstart
    have hopens : Opens m.ledger m'.ledger t.counters := by
      rw [← t.flatMap_counterGroups]
      exact hstart
    refine ⟨hopens.opened, hopens.nodup, hopens.closed, hopens.live, fun t' m'' hworks => ?_⟩
    obtain ⟨hcounters, hledger⟩ := SessionTree.works_keep hworks
    have hperm := closingOrder_flatMap_perm t'.counterGroups
    rw [t'.flatMap_counterGroups, hcounters] at hperm
    have hlive : m''.ledger.live = m.live ++ t.counters := by
      rw [hledger]
      exact hopens.live
    exact ⟨hcounters, congrArg Ledger.opened hledger, congrArg Ledger.closed hledger,
      congrArg Ledger.live hledger,
      closes_of_strikeAll (t'.ledger_close m'') hperm hopens.nodup hlive⟩

end CounterWatch
