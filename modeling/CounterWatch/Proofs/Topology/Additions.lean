import CounterWatch.Pmu.InMemory
import CounterWatch.Proofs.Session.Built
import Mathlib.Order.Bounds.Defs

/-!
# Proofs/Topology/Additions — a topology is a map of sets

Adding CPUs to a package makes the package known and its set of CPUs larger, and does nothing else.
So a topology only tells which packages were ever named and which CPUs were ever added to them.

* `Topology.ext_has` — packages and their CPUs decide the topology.
* `Named`, `Added` — what a list of additions says, wherever it says so.
* `ofAdditions_eq_iff` — when two lists of additions make the same topology.
* `Regroups` — additions in another order, split, merged or repeated.
* `additions_make_map_of_sets` — what a list of additions makes, and what of it is opened when one
  CPU of every package is.
-/

namespace CounterWatch

/-! ## Sets of CPUs -/

namespace OrderedSet

variable {s : OrderedSet UInt32}

theorem pairwise_lt (s : OrderedSet UInt32) : s.toList.Pairwise (· < ·) :=
  s.ascending.imp Std.compare_eq_lt.mp

/-- The first member of a set is the least one. -/
theorem isLeast_of_head? {n : UInt32} (h : s.toList.head? = some n) : IsLeast {c | c ∈ s} n := by
  obtain ⟨rest, hs⟩ := List.head?_eq_some_iff.mp h
  have hlt := s.pairwise_lt
  rw [hs, List.pairwise_cons] at hlt
  refine ⟨List.mem_of_mem_head? h, fun c hc => ?_⟩
  rcases List.mem_cons.mp (hs ▸ hc : c ∈ n :: rest) with rfl | hc
  · exact UInt32.le_refl c
  · exact UInt32.le_of_lt (hlt.1 c hc)

end OrderedSet

namespace Topology

variable {t t' : Topology} {package p n : UInt32} {cpus : List UInt32}

/-! ## What a topology tells -/

/-- The package is known. -/
def HasPackage (t : Topology) (p : UInt32) : Prop := ∃ cpus, t.packages.get? p = some cpus

/-- The CPU sits in the package. -/
def HasCpu (t : Topology) (p n : UInt32) : Prop := ∃ cpus, t.packages.get? p = some cpus ∧ n ∈ cpus

/-- **Packages and their CPUs decide the topology.** -/
theorem ext_has (hpackage : ∀ p, t.HasPackage p ↔ t'.HasPackage p)
    (hcpu : ∀ p n, t.HasCpu p n ↔ t'.HasCpu p n) : t = t' := by
  suffices t.packages = t'.packages by cases t; cases t'; cases this; rfl
  refine OrderedMap.ext_get? fun p => ?_
  have hpackage := hpackage p
  have hcpu := hcpu p
  simp only [HasPackage, HasCpu] at hpackage hcpu
  cases h : t.packages.get? p with
  | none => cases h' : t'.packages.get? p <;> simp_all
  | some cpus =>
      cases h' : t'.packages.get? p with
      | none => simp_all
      | some cpus' => exact congrArg some (OrderedSet.ext_mem (by simpa [h, h'] using hcpu))

@[simp] theorem hasPackage_empty : ¬ empty.HasPackage p := fun h => nomatch h.choose_spec

@[simp] theorem hasCpu_empty : ¬ empty.HasCpu p n := fun h => nomatch h.choose_spec.1

/-- An addition changes the CPUs of its package only. -/
theorem get?_addPackage (t : Topology) (package : UInt32) (cpus : List UInt32) (p : UInt32) :
    (t.addPackage package cpus).packages.get? p =
      if p = package then some (((t.packages.get? package).getD ∅).insertMany cpus)
      else t.packages.get? p :=
  t.packages.get?_alter package p _

/-- An addition names its package, even if it brings no CPU. -/
@[simp] theorem hasPackage_addPackage :
    (t.addPackage package cpus).HasPackage p ↔ t.HasPackage p ∨ p = package := by
  rw [HasPackage, HasPackage, get?_addPackage]
  split <;> simp_all

/-- **Adding CPUs to a package adds them there and nowhere else.** -/
@[simp] theorem hasCpu_addPackage :
    (t.addPackage package cpus).HasCpu p n ↔ t.HasCpu p n ∨ p = package ∧ n ∈ cpus := by
  have hnone : n ∉ (∅ : OrderedSet UInt32) := List.not_mem_nil
  rw [HasCpu, HasCpu, get?_addPackage]
  split
  next h =>
    subst h
    cases t.packages.get? p <;> simp [OrderedSet.mem_insertMany, hnone]
  next h => simp [h]

/-! ## Lists of additions -/

variable {additions additions' : List (UInt32 × List UInt32)}

/-- The package is named in an addition. -/
def Named (additions : List (UInt32 × List UInt32)) (p : UInt32) : Prop :=
  ∃ cpus, (p, cpus) ∈ additions

/-- The CPU is added to the package. -/
def Added (additions : List (UInt32 × List UInt32)) (p n : UInt32) : Prop :=
  ∃ cpus, (p, cpus) ∈ additions ∧ n ∈ cpus

@[simp] theorem named_cons {a : UInt32 × List UInt32} :
    Named (a :: additions) p ↔ p = a.1 ∨ Named additions p := by
  obtain ⟨package, cpus⟩ := a
  simp [Named, exists_or]

@[simp] theorem added_cons {a : UInt32 × List UInt32} :
    Added (a :: additions) p n ↔ p = a.1 ∧ n ∈ a.2 ∨ Added additions p n := by
  obtain ⟨package, cpus⟩ := a
  simp [Added, or_and_right, exists_or, and_assoc]

/-- The topology with additions made one after the other. -/
def addAll (t : Topology) (additions : List (UInt32 × List UInt32)) : Topology :=
  additions.foldl (fun t a => t.addPackage a.1 a.2) t

/-- After all additions there are the packages from before, and those that are named. -/
theorem hasPackage_addAll : (t.addAll additions).HasPackage p ↔
    t.HasPackage p ∨ Named additions p := by
  induction additions generalizing t with
  | nil => simp [addAll, Named]
  | cons a rest ih =>
      change ((t.addPackage a.1 a.2).addAll rest).HasPackage p ↔ _
      rw [ih, hasPackage_addPackage, named_cons, or_assoc]

/-- After all additions a package has the CPUs from before, and those that are added to it. -/
theorem hasCpu_addAll : (t.addAll additions).HasCpu p n ↔ t.HasCpu p n ∨ Added additions p n := by
  induction additions generalizing t with
  | nil => simp [addAll, Added]
  | cons a rest ih =>
      change ((t.addPackage a.1 a.2).addAll rest).HasCpu p n ↔ _
      rw [ih, hasCpu_addPackage, added_cons, or_assoc]

@[simp] theorem hasPackage_ofAdditions :
    (ofAdditions additions).HasPackage p ↔ Named additions p :=
  hasPackage_addAll.trans (or_iff_right hasPackage_empty)

@[simp] theorem hasCpu_ofAdditions : (ofAdditions additions).HasCpu p n ↔ Added additions p n :=
  hasCpu_addAll.trans (or_iff_right hasCpu_empty)

/-- **The packages named and the CPUs added to them are all that counts.** -/
theorem ofAdditions_eq_iff : ofAdditions additions' = ofAdditions additions ↔
    (∀ p, Named additions' p ↔ Named additions p) ∧
      ∀ p n, Added additions' p n ↔ Added additions p n := by
  constructor
  · intro h
    exact ⟨fun p => by rw [← hasPackage_ofAdditions, h, hasPackage_ofAdditions],
      fun p n => by rw [← hasCpu_ofAdditions, h, hasCpu_ofAdditions]⟩
  · rintro ⟨hpackage, hcpu⟩
    exact ext_has (by simpa using hpackage) (by simpa using hcpu)

/-- The keys of the map are the packages that are named. -/
theorem mem_keys_ofAdditions : p ∈ (ofAdditions additions).packages.keys ↔ Named additions p :=
  OrderedMap.mem_keys_iff.trans hasPackage_ofAdditions

/-- The CPUs of a package are those that were added to it. -/
theorem mem_of_get?_ofAdditions {cpus : OrderedSet UInt32}
    (h : (ofAdditions additions).packages.get? p = some cpus) : n ∈ cpus ↔ Added additions p n := by
  rw [← hasCpu_ofAdditions, HasCpu, h]
  simp

/-! ## Regrouping -/

/-- The same additions in another order, with those to one package split or merged, or with some of
them repeated. -/
inductive Regroups : List (UInt32 × List UInt32) → List (UInt32 × List UInt32) → Prop
  | reorder {a b} (h : a.Perm b) : Regroups a b
  | split (package : UInt32) (first second : List UInt32) (rest : List (UInt32 × List UInt32)) :
      Regroups ((package, first ++ second) :: rest) ((package, first) :: (package, second) :: rest)
  | again {a rest} (h : a ∈ rest) : Regroups rest (a :: rest)
  | symm {a b} (h : Regroups a b) : Regroups b a
  | trans {a b c} (h : Regroups a b) (h' : Regroups b c) : Regroups a c

/-- **Regrouping says nothing new.** -/
theorem Regroups.ofAdditions_eq (h : Regroups additions additions') :
    ofAdditions additions' = ofAdditions additions := by
  induction h with
  | reorder h => simp [ofAdditions_eq_iff, Named, Added, h.mem_iff]
  | split package first second rest => grind [ofAdditions_eq_iff, named_cons, added_cons]
  | again h =>
    exact ofAdditions_eq_iff.mpr ⟨by grind [named_cons, Named], by grind [added_cons, Added]⟩
  | symm _ ih => exact ih.symm
  | trans _ _ ih ih' => exact ih'.trans ih

/-! ## One CPU of every package -/

/-- The CPUs are the least one ever added to the package, if there is any. -/
def IsLowest (additions : List (UInt32 × List UInt32)) (p : UInt32) (cpus : List UInt32) : Prop :=
  cpus = [] ∧ (∀ n, ¬ Added additions p n) ∨
    ∃ n, cpus = [n] ∧ IsLeast {n | Added additions p n} n

/-- **The only CPU chosen of a package is the lowest.** -/
theorem isLowest_chosen {cpus : OrderedSet UInt32}
    (h : (ofAdditions additions).packages.get? p = some cpus) :
    IsLowest additions p (MonitoringMode.oneCpuPerPackage.chosen cpus) := by
  have hadded : {n | n ∈ cpus} = {n | Added additions p n} := by
    ext n
    exact mem_of_get?_ofAdditions h
  cases hhead : cpus.toList.head? with
  | none =>
      refine .inl ⟨by simp [MonitoringMode.chosen, hhead], fun n hn => ?_⟩
      have hn : n ∈ cpus.toList := (mem_of_get?_ofAdditions h).mpr hn
      simp [List.head?_eq_none_iff.mp hhead] at hn
  | some n =>
      exact .inr ⟨n, by simp [MonitoringMode.chosen, hhead],
        hadded ▸ OrderedSet.isLeast_of_head? hhead⟩

/-- The leaf of a group with one CPU of every package is on the lowest. -/
theorem isLeast_of_mem_leaves {config : MonitoringConfig}
    (htopology : config.topology = ofAdditions additions) {l : PlannedLeaf}
    (hl : l ∈ config.leaves) (hmode : l.group.mode = .oneCpuPerPackage) :
    IsLeast {n | Added additions l.leaf.package n} l.leaf.cpu := by
  rw [config.leaves_eq, htopology] at hl
  obtain ⟨⟨key, group⟩, -, hl⟩ := List.mem_flatMap.mp hl
  obtain ⟨⟨package, cpus⟩, hpackage, hl⟩ := List.mem_flatMap.mp hl
  obtain ⟨cpu, hcpu, rfl⟩ := List.mem_map.mp hl
  change group.mode = .oneCpuPerPackage at hmode
  rw [hmode] at hcpu
  rcases isLowest_chosen (OrderedMap.get?_of_mem hpackage) with ⟨hnil, -⟩ | ⟨n, hchosen, hleast⟩
  · simp [hnil] at hcpu
  · rw [hchosen] at hcpu
    exact List.mem_singleton.mp hcpu ▸ hleast

/-- **A topology tells which packages were named and which CPUs were added to each**, in ascending
order, and not how: additions make the same topology just when they say the same, in whatever order,
split or merged or repeated.  Where one CPU of every package is to be opened, it is the least that
was ever added, in every leaf that is gone about and in the tree that comes of it. -/
theorem additions_make_map_of_sets (additions : List (UInt32 × List UInt32)) :
    (∀ p, p ∈ (ofAdditions additions).packages.keys ↔ Named additions p) ∧
    (∀ p cpus, (ofAdditions additions).packages.get? p = some cpus →
      cpus.toList.Pairwise (· < ·) ∧ ∀ n, n ∈ cpus.toList ↔ Added additions p n) ∧
    (∀ additions', Regroups additions additions' →
      ofAdditions additions' = ofAdditions additions) ∧
    (∀ additions', ofAdditions additions' = ofAdditions additions ↔
      (∀ p, Named additions' p ↔ Named additions p) ∧
        ∀ p n, Added additions' p n ↔ Added additions p n) ∧
    ∀ config : MonitoringConfig, config.topology = ofAdditions additions →
      (∀ l ∈ config.leaves, l.group.mode = .oneCpuPerPackage →
        IsLeast {n | Added additions l.leaf.package n} l.leaf.cpu) ∧
      ∀ {σ : Type} (pmu : Pmu σ) (backend : Option Backend) (m m' : Machine σ) (t : SessionTree),
        SessionTree.start pmu config backend m = (.ok t, m') →
        ∀ key group, (key, group) ∈ config.groups.entries → group.mode = .oneCpuPerPackage →
          ∃ packages, (key, packages) ∈ t.keys ∧
            (∀ p, p ∈ packages.map Prod.fst ↔ Named additions p) ∧
            ∀ p cpus, (p, cpus) ∈ packages → IsLowest additions p cpus := by
  refine ⟨fun _ => mem_keys_ofAdditions,
    fun p cpus h => ⟨cpus.pairwise_lt, fun n => mem_of_get?_ofAdditions h⟩,
    fun _ h => h.ofAdditions_eq, fun _ => ofAdditions_eq_iff,
    fun config htopology => ⟨fun l hl => isLeast_of_mem_leaves htopology hl, ?_⟩⟩
  intro σ pmu backend m m' t hstart key group hgroup hmode
  rw [SessionTree.keys_of_start hstart]
  refine ⟨_, List.mem_map.mpr ⟨_, hgroup, rfl⟩, ?_, ?_⟩
  · intro p
    rw [List.map_map, htopology]
    exact mem_keys_ofAdditions
  · intro p cpus h
    obtain ⟨⟨p, known⟩, hmem, heq⟩ := List.mem_map.mp h
    obtain ⟨rfl, rfl⟩ := Prod.mk.inj heq
    rw [hmode]
    exact isLowest_chosen (OrderedMap.get?_of_mem (htopology ▸ hmem))

/-- Two additions to one package, and a package without CPUs. -/
theorem additions_make_map_of_sets_of_two_packages :
    let additions : List (UInt32 × List UInt32) := [(0, [3, 1]), (1, []), (0, [2, 1])]
    let core : EventsGroup := ⟨"core", .oneCpuPerPackage, [⟨"cycles", Hardware.cpuCycle.event⟩]⟩
    let config : MonitoringConfig :=
      { topology := ofAdditions additions
        groups := ⟨[("core", core)], by decide⟩
        target := .system
        sampling := {} }
    ofAdditions [(0, [3, 1, 2, 1]), (1, [])] = ofAdditions additions ∧
      ∃ t m, SessionTree.start InMemory.pmu config none { state := {} } = (.ok t, m) ∧
        t.keys = [("core", [(0, [1]), (1, [])])] ∧ IsLowest additions 0 [1] ∧
        IsLowest additions 1 [] := by
  intro additions core config
  have hregroups : Regroups additions [(0, [3, 1, 2, 1]), (1, [])] :=
    .trans (.reorder (by decide : additions.Perm [(0, [3, 1]), (0, [2, 1]), (1, [])]))
      (.symm (.split 0 [3, 1] [2, 1] [(1, [])]))
  obtain ⟨-, -, hsame, -, hlowest⟩ := additions_make_map_of_sets additions
  obtain ⟨-, hopened⟩ := hlowest config rfl
  let s : CpuSession := ⟨⟨0, [], List.replicate 32 0⟩, false⟩
  let t : SessionTree :=
    { groups :=
        ⟨[("core", ⟨core, ⟨[(0, ⟨⟨[(1, s)], by decide⟩⟩), (1, ⟨∅⟩)], by decide⟩⟩)], by decide⟩
      callchain := ⟨.none, 50⟩
      pid := none
      inCgroup := false }
  let m := (SessionTree.start InMemory.pmu config none { state := {} }).2
  have hstart : SessionTree.start InMemory.pmu config none { state := {} } = (.ok t, m) := rfl
  obtain ⟨packages, hpackages, -, hlowest⟩ :=
    hopened _ none _ m t hstart "core" core List.mem_cons_self rfl
  have hkeys : t.keys = [("core", [(0, [1]), (1, [])])] := rfl
  obtain rfl : packages = [(0, [1]), (1, [])] := by simpa [hkeys] using hpackages
  exact ⟨hsame _ hregroups, t, m, hstart, hkeys, hlowest 0 [1] (by decide),
    hlowest 1 [] (by decide)⟩

end Topology
end CounterWatch
