import CounterWatch.Proofs.Session.Effect
import Mathlib.Data.List.Nodup
import Mathlib.Data.List.Perm.Basic

/-!
# Proofs/Session/Ledger — which counters are open, and whose they are

A ledger is what a machine remembers of its counters: those opened, those open and those closed.
Only opening and closing write into it.

* `Ledger.Opens` — some counters were opened, and all of them are still open.
* `Ledger.Reverts` — whatever was opened was closed again, group by group.
* `siblingsFirst_closingOrder` — closing groups one after the other closes no leader before its
  siblings, as no counter belongs to two of them.
* `SessionTree.ledger_close` — closing a tree strikes its counters from the ledger.
-/

namespace CounterWatch

variable {σ : Type} {pmu : Pmu σ}

/-- The counter that a call opened. -/
def Call.opened? : Call → Option Counter
  | .opened id request => some ⟨id, request.leader⟩
  | _ => none

/-! ## Ledgers -/

/-- What a machine remembers of its counters. -/
structure Ledger where
  /-- The number of the next counter. -/
  next : CounterId
  opened : List Counter
  live : List Counter
  closed : List Counter

namespace Ledger

/-- The ledger with one more counter, opened and open. -/
def enter (l : Ledger) (leader : Option CounterId) : Ledger :=
  { l with
    next := l.next + 1
    opened := l.opened ++ [⟨l.next, leader⟩]
    live := l.live ++ [⟨l.next, leader⟩] }

/-- The ledger with a counter closed. -/
def strike (l : Ledger) (c : Counter) : Ledger :=
  { l with live := l.live.erase c, closed := l.closed ++ [c] }

/-- The ledger with counters closed, one after the other. -/
def strikeAll (l : Ledger) (cs : List Counter) : Ledger := cs.foldl strike l

theorem strikeAll_append (l : Ledger) (cs ds : List Counter) :
    l.strikeAll (cs ++ ds) = (l.strikeAll cs).strikeAll ds := List.foldl_append

@[simp] theorem opened_strikeAll (l : Ledger) (cs : List Counter) :
    (l.strikeAll cs).opened = l.opened := by
  induction cs generalizing l with
  | nil => rfl
  | cons c rest ih => exact ih (l.strike c)

/-- Counters are listed as closed in the order they were struck. -/
@[simp] theorem closed_strikeAll (l : Ledger) (cs : List Counter) :
    (l.strikeAll cs).closed = l.closed ++ cs := by
  induction cs generalizing l with
  | nil => exact (List.append_nil _).symm
  | cons c rest ih =>
      have hrest := ih (l.strike c)
      rw [strike, List.append_assoc, List.singleton_append] at hrest
      exact hrest

/-- **Closing counters that are open leaves the others open.** -/
theorem live_strikeAll {l : Ledger} {cs others : List Counter} (h : l.live.Perm (others ++ cs)) :
    (l.strikeAll cs).live.Perm others := by
  induction cs generalizing l with
  | nil => rwa [List.append_nil] at h
  | cons c rest ih =>
      have hc : l.live.Perm (c :: (others ++ rest)) := h.trans List.perm_middle
      have herase := hc.erase c
      rw [List.erase_cons_head] at herase
      exact ih (l := l.strike c) herase

/-- Between two ledgers some counters were opened, numbered one after the other, and none closed. -/
structure Opens (l l' : Ledger) (cs : List Counter) : Prop where
  opened : l'.opened = l.opened ++ cs
  live : l'.live = l.live ++ cs
  closed : l'.closed = l.closed
  ids : cs.map Counter.id = List.range' l.next cs.length
  next : l'.next = l.next + cs.length

theorem Opens.refl (l : Ledger) : Opens l l [] where
  opened := (List.append_nil _).symm
  live := (List.append_nil _).symm
  closed := rfl
  ids := rfl
  next := rfl

/-- What is opened later comes behind what was opened before, with the numbers that follow. -/
theorem Opens.trans {l l' l'' : Ledger} {cs ds : List Counter} (h : Opens l l' cs)
    (h' : Opens l' l'' ds) : Opens l l'' (cs ++ ds) where
  opened := by rw [h'.opened, h.opened, List.append_assoc]
  live := by rw [h'.live, h.live, List.append_assoc]
  closed := h'.closed.trans h.closed
  ids := by rw [List.map_append, h.ids, h'.ids, h.next, List.length_append, List.range'_append_1]
  next := by rw [h'.next, h.next, List.length_append, Nat.add_assoc]

theorem Opens.enter (l : Ledger) (leader : Option CounterId) :
    Opens l (l.enter leader) [⟨l.next, leader⟩] where
  opened := rfl
  live := rfl
  closed := rfl
  ids := rfl
  next := rfl

/-- **No number is given twice**: the counters opened are told apart by their numbers. -/
theorem Opens.nodup {l l' : Ledger} {cs : List Counter} (h : Opens l l' cs) :
    (cs.map Counter.id).Nodup := by
  rw [h.ids]
  exact List.nodup_range'

end Ledger

/-! ## The counters of a group -/

namespace CounterGroup

/-- The counters of a group. -/
def counters (g : CounterGroup) : List Counter :=
  ⟨g.leader, none⟩ :: g.siblings.map fun id => ⟨id, some g.leader⟩

/-- The counters of a group as they are closed. -/
def closingOrder (g : CounterGroup) : List Counter :=
  (g.siblings.map fun id => ⟨id, some g.leader⟩) ++ [⟨g.leader, none⟩]

/-- A group closes the counters it has, each of them once. -/
theorem closingOrder_perm (g : CounterGroup) : g.closingOrder.Perm g.counters :=
  List.perm_append_singleton _ _

/-- A counter of a group leads it or is led by its leader. -/
theorem leader_of_mem_counters {g : CounterGroup} {c : Counter} (h : c ∈ g.counters) :
    c.leader = none ∨ c.leader = some g.leader := by
  rcases List.mem_cons.mp h with rfl | h
  · exact .inl rfl
  · obtain ⟨id, -, rfl⟩ := List.mem_map.mp h
    exact .inr rfl

end CounterGroup

namespace Machine

/-- Siblings are closed first if no counter is closed behind its leader. -/
theorem siblingsFirst_iff : ∀ {l : List Counter},
    siblingsFirst l = true ↔ l.Pairwise fun c d => d.leader ≠ some c.id
  | [] => by simp [siblingsFirst]
  | c :: rest => by
      rw [siblingsFirst, Bool.and_eq_true, siblingsFirst_iff, List.all_eq_true, List.pairwise_cons]
      simp only [decide_eq_true_eq]

end Machine

/-- **Groups closed one after the other close no leader before its siblings**, when no counter
belongs to two of them. -/
theorem siblingsFirst_closingOrder {gs : List CounterGroup}
    (h : ((gs.flatMap CounterGroup.counters).map Counter.id).Nodup) :
    Machine.siblingsFirst (gs.flatMap CounterGroup.closingOrder) = true := by
  rw [List.map_flatMap, List.nodup_flatMap] at h
  obtain ⟨hwithin, hacross⟩ := h
  rw [Machine.siblingsFirst_iff, List.pairwise_flatMap]
  refine ⟨fun g hg => ?_, hacross.imp ?_⟩
  · -- a sibling is not the leader, and the leader comes last and has none
    have hleader : ∀ id ∈ g.siblings, g.leader ≠ id := by
      have hnodup := hwithin g hg
      rw [CounterGroup.counters, List.map_cons, List.nodup_cons, List.map_map] at hnodup
      rintro id hid rfl
      exact hnodup.1 (List.mem_map.mpr ⟨_, hid, rfl⟩)
    rw [CounterGroup.closingOrder, List.pairwise_append]
    refine ⟨?_, List.pairwise_singleton _ _, ?_⟩
    · refine List.pairwise_map.mpr (List.pairwise_of_forall_mem_list fun c hc d _ heq => ?_)
      exact hleader c hc (Option.some.inj heq)
    · intro c _ d hd
      obtain rfl := List.mem_singleton.mp hd
      exact nofun
  · -- the leader of a counter belongs to its own group
    intro g g' hdisjoint c hc d hd heq
    have hc' : c.id ∈ g.counters.map Counter.id :=
      List.mem_map_of_mem (g.closingOrder_perm.mem_iff.mp hc)
    rcases CounterGroup.leader_of_mem_counters (g'.closingOrder_perm.mem_iff.mp hd) with hd | hd
    · rw [hd] at heq
      cases heq
    · rw [hd] at heq
      obtain heq := Option.some.inj heq
      exact hdisjoint hc' (heq ▸ List.mem_cons_self)

/-! ## What is written into a ledger -/

namespace Machine

/-- The counters opened, in the order they were opened. -/
def opened (m : Machine σ) : List Counter := m.trace.filterMap Call.opened?

/-- What the machine remembers of its counters. -/
def ledger (m : Machine σ) : Ledger := ⟨m.nextId, m.opened, m.live, m.closed⟩

/-- Only a call that opens a counter is seen in the ledger. -/
theorem ledger_call (m : Machine σ) {c : Call} (h : c.opened? = none) :
    (m.call c).ledger = m.ledger := by
  rw [ledger, opened, call, List.filterMap_append, List.filterMap_cons_none h, List.filterMap_nil,
    List.append_nil]
  rfl

/-- The surroundings open and close no counter. -/
theorem ledger_outside (m : Machine σ) (step : OutsideStep) :
    (m.outside step).ledger = m.ledger := by
  cases step with
  | command text => exact m.ledger_call (c := .sent text _) rfl
  | tick time => exact m.ledger_call (c := .ticked time _) rfl
  | dropControl | dropTicker | dropSink => rfl
  | produce id b =>
      rw [outside, produce]
      split <;> rfl

theorem ledger_meanwhile (steps : List OutsideStep) (m : Machine σ) :
    (steps.foldl outside m).ledger = m.ledger := by
  induction steps generalizing m with
  | nil => rfl
  | cons step rest ih => exact (ih _).trans (m.ledger_outside step)

theorem ledger_lookup {m m' : Machine σ} (h : Lookup m m') : m'.ledger = m.ledger := by
  cases h with
  | note _ => rfl
  | @call c hc =>
      refine m.ledger_call ?_
      cases c <;> first | rfl | cases hc

/-- **Working with counters opens none and closes none.** -/
theorem ledger_use {m m' : Machine σ} (h : Use pmu m m') : m'.ledger = m.ledger := by
  cases h with
  | note _ => rfl
  | enable id => exact m.ledger_call (c := .enable id) rfl
  | reset id => exact m.ledger_call (c := .reset id) rfl
  | read id buffer =>
      exact (ledger_meanwhile _ _).trans (m.ledger_call (c := .read id buffer.length) rfl)
  | drained id ring => rfl

theorem ledger_lookups {m m' : Machine σ} (h : Lookups m m') : m'.ledger = m.ledger := by
  induction h with
  | refl => rfl
  | tail _ hstep ih => exact (ledger_lookup hstep).trans ih

/-- Whatever is done with open counters, they stay open. -/
theorem ledger_uses {m m' : Machine σ} (h : Uses pmu m m') : m'.ledger = m.ledger := by
  induction h with
  | refl => rfl
  | tail _ hstep ih => exact (ledger_use hstep).trans ih

/-- A ring is no counter: mapping one leaves the ledger as it is, whether it succeeds or not. -/
theorem ledger_mapRing (m : Machine σ) (id : CounterId) (length : Nat) :
    (m.mapRing pmu id length).2.ledger = m.ledger := by
  have hmap : (m.map pmu id length).2.ledger = m.ledger := m.ledger_call (c := .map id length) rfl
  rw [mapRing]
  split
  next arena m' heq => rw [heq] at hmap; exact hmap
  next e m' heq => rw [heq] at hmap; exact hmap

/-- **A counter that is opened gets the next number**; a failed attempt leaves the ledger alone. -/
theorem ledger_openCounter (pmu : Pmu σ) (request : OpenRequest) (m : Machine σ) :
    match m.openCounter pmu request with
    | (.ok id, m') => id = m.ledger.next ∧ m'.ledger = m.ledger.enter request.leader
    | (.error _, m') => m'.ledger = m.ledger := by
  rw [openCounter]
  rcases pmu.openCounter request m.state with ⟨e | _, state⟩
  · exact m.ledger_call (c := .openFailed m.attempts) rfl
  · refine ⟨rfl, ?_⟩
    have hopened : (m.trace ++ [Call.opened m.nextId request]).filterMap Call.opened?
        = m.trace.filterMap Call.opened? ++ [⟨m.nextId, request.leader⟩] := List.filterMap_append
    exact congrArg (fun opened => Ledger.mk (m.nextId + 1) opened
      (m.live ++ [⟨m.nextId, request.leader⟩]) m.closed) hopened

end Machine

/-! ## Closing -/

/-- Closing a group strikes its counters, siblings before the leader. -/
theorem CounterGroup.ledger_close (g : CounterGroup) (m : Machine σ) :
    (g.close m).ledger = m.ledger.strikeAll g.closingOrder := by
  have hsiblings : ∀ (ids : List CounterId) (m : Machine σ),
      (ids.foldl (fun m id => m.closeCounter ⟨id, some g.leader⟩) m).ledger
        = m.ledger.strikeAll (ids.map fun id => ⟨id, some g.leader⟩) := by
    intro ids
    induction ids with
    | nil => exact fun _ => rfl
    | cons id rest ih => exact fun m => ih _
  rw [closingOrder, Ledger.strikeAll_append, ← hsiblings]
  rfl

theorem CpuSession.ledger_close (s : CpuSession) (m : Machine σ) :
    (s.close m).ledger = m.ledger.strikeAll s.counters.closingOrder := by
  rw [CpuSession.close, CounterGroup.ledger_close]
  split <;> rfl

/-- The counter groups of a package. -/
def PackageSession.counterGroups (s : PackageSession) : List CounterGroup :=
  s.cpus.values.map (·.counters)

theorem PackageSession.counterGroups_eq (s : PackageSession) :
    s.counterGroups = s.cpus.values.flatMap fun c => [c.counters] :=
  (List.flatMap_pure_eq_map _ _).symm

/-- The counter groups of an events group. -/
def GroupSession.counterGroups (s : GroupSession) : List CounterGroup :=
  s.packages.values.flatMap PackageSession.counterGroups

namespace SessionTree

/-- The counter groups of a tree. -/
def counterGroups (t : SessionTree) : List CounterGroup :=
  t.groups.values.flatMap GroupSession.counterGroups

/-- The counters of a tree, in the order of its leaves. -/
def counters (t : SessionTree) : List Counter := t.leaves.flatMap fun l => l.2.counters.counters

/-- The counters of a tree are those of its groups, in the order of the groups. -/
theorem flatMap_counterGroups (t : SessionTree) :
    t.counterGroups.flatMap CounterGroup.counters = t.counters := by
  simp only [counterGroups, GroupSession.counterGroups, PackageSession.counterGroups, counters,
    leaves, OrderedMap.values, List.flatMap_assoc, List.flatMap_map]

end SessionTree

/-- If closing one of something strikes the counters of its groups, closing many strikes those of
all their groups, in order. -/
theorem ledger_foldl_close {γ : Type} {close : Machine σ → γ → Machine σ}
    {groups : γ → List CounterGroup}
    (h : ∀ c m, (close m c).ledger = m.ledger.strikeAll ((groups c).flatMap
      CounterGroup.closingOrder)) :
    ∀ (l : List γ) (m : Machine σ), (l.foldl close m).ledger
      = m.ledger.strikeAll ((l.flatMap groups).flatMap CounterGroup.closingOrder)
  | [], _ => rfl
  | c :: rest, m => by
      rw [List.foldl_cons, ledger_foldl_close h rest, h, List.flatMap_cons, List.flatMap_append,
        Ledger.strikeAll_append]

/-- Closing a package strikes the counters of its leaves. -/
theorem PackageSession.ledger_close (s : PackageSession) (m : Machine σ) :
    (s.close m).ledger = m.ledger.strikeAll (s.counterGroups.flatMap
      CounterGroup.closingOrder) := by
  rw [counterGroups_eq]
  refine ledger_foldl_close (fun c m => ?_) s.cpus.values m
  rw [List.flatMap_singleton]
  exact c.ledger_close m

theorem GroupSession.ledger_close (s : GroupSession) (m : Machine σ) :
    (s.close m).ledger = m.ledger.strikeAll (s.counterGroups.flatMap CounterGroup.closingOrder) :=
  ledger_foldl_close PackageSession.ledger_close s.packages.values m

/-- **Closing a tree strikes its counters**, group by group. -/
theorem SessionTree.ledger_close (t : SessionTree) (m : Machine σ) :
    (t.close m).ledger = m.ledger.strikeAll (t.counterGroups.flatMap CounterGroup.closingOrder) :=
  ledger_foldl_close GroupSession.ledger_close t.groups.values m

end CounterWatch
