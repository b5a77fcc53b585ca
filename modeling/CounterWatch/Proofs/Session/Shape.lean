import CounterWatch.Proofs.OrderedMap.Walk
import CounterWatch.Session.Collection

/-!
# Proofs/Session/Shape — collecting keeps the tree

Collecting goes through the leaves and changes nothing of the tree but what it leaves in the buffers
of their groups: the groups, packages and CPUs stay, and so do the counters and the rings.

* `CpuSession.outline`, `SessionTree.outline` — what is kept of a leaf, and of all leaves.
* `SessionTree.shape` — what is kept of a tree, with its groups and packages, if they have no CPUs.
* `SessionTree.outline_collect`, `SessionTree.shape_collect` — a collection keeps it, wherever it
  stops.
-/

namespace CounterWatch

variable {σ : Type} {pmu : Pmu σ}

/-! ## Outlines -/

/-- What a leaf keeps: its group but for the contents of the buffer, and whether it is sampled. -/
def CpuSession.outline (s : CpuSession) : CpuSession :=
  { s with counters.buffer := List.replicate s.counters.buffer.length 0 }

/-- The CPUs of a package, in outline. -/
def PackageSession.outline (s : PackageSession) : List (UInt32 × CpuSession) :=
  s.cpus.entries.map fun c => (c.1, c.2.outline)

/-- The packages of an events group, in outline. -/
def GroupSession.outline (s : GroupSession) : List (UInt32 × List (UInt32 × CpuSession)) :=
  s.packages.entries.map fun p => (p.1, p.2.outline)

/-- The leaves of a package. -/
def PackageSession.leaves (group : String) (package : UInt32) (p : PackageSession) :
    List (Leaf × CpuSession) :=
  p.cpus.entries.map fun c => (⟨group, package, c.1⟩, c.2)

/-- The leaves of an events group. -/
def GroupSession.leaves (group : String) (g : GroupSession) : List (Leaf × CpuSession) :=
  g.packages.entries.flatMap fun p => p.2.leaves group p.1

/-- The leaves of a tree, in outline. -/
def SessionTree.outline (t : SessionTree) : List (Leaf × CpuSession) :=
  t.leaves.map fun l => (l.1, l.2.outline)

/-- What an events group keeps: its configuration, and its packages in outline. -/
def GroupSession.shape (s : GroupSession) :
    EventsGroup × List (UInt32 × List (UInt32 × CpuSession)) := (s.config, s.outline)

/-- The events groups of a tree, as far as they are kept. -/
def SessionTree.shape (t : SessionTree) :
    List (String × EventsGroup × List (UInt32 × List (UInt32 × CpuSession))) :=
  t.groups.entries.map fun g => (g.1, g.2.shape)

/-- The outline of a tree is made of the outlines of its groups. -/
theorem SessionTree.outline_eq (t : SessionTree) :
    t.outline = (t.groups.entries.map fun g => (g.1, g.2.outline)).flatMap fun g =>
      g.2.flatMap fun p => p.2.map fun c => (⟨g.1, p.1, c.1⟩, c.2) := by
  simp only [outline, leaves, GroupSession.outline, PackageSession.outline, List.map_flatMap,
    List.flatMap_map, List.map_map, Function.comp_def]

/-! ## Collecting -/

/-- A group has its buffer overwritten by a read, and stays as it is otherwise. -/
theorem CounterGroup.stat_eq (g : CounterGroup) (m : Machine σ) :
    (g.stat pmu m).2.1 = { g with buffer := (m.read pmu g.leader g.buffer).2.1 } := by
  rw [stat]
  rcases m.read pmu g.leader g.buffer with ⟨e | got, buffer, m₁⟩
  · rfl
  · rfl

/-- **A leaf that is collected has its group asked**, and keeps everything else, however that ends.
-/
theorem CpuSession.collect_eq (c : Callchain) (events : List String) (leaf : Leaf) (s : CpuSession)
    (m : Machine σ) :
    (s.collect pmu c events leaf m).2.1 = { s with counters := (s.counters.stat pmu m).2.1 } := by
  rw [CpuSession.collect]
  rcases s.counters.stat pmu m with ⟨e | report, counters, m₁⟩
  · rfl
  · dsimp only
    rcases counters.clear pmu m₁ with ⟨e | _, m₂⟩
    · rfl
    · rfl

/-- A leaf keeps its outline, as a read neither lengthens the buffer nor shortens it. -/
theorem CpuSession.outline_collect (c : Callchain) (events : List String) (leaf : Leaf)
    (s : CpuSession) (m : Machine σ) :
    (s.collect pmu c events leaf m).2.1.outline = s.outline := by
  have hlength : (m.read pmu s.counters.leader s.counters.buffer).2.1.length
      = s.counters.buffer.length := Bytes.length_overwrite _ _
  rw [collect_eq, outline, outline, CounterGroup.stat_eq]
  simp only [hlength]

theorem PackageSession.outline_collect (c : Callchain) (events : List String) (group : String)
    (package : UInt32) (s : PackageSession) (m : Machine σ) :
    (s.collect pmu c events group package m).2.1.outline = s.outline :=
  OrderedMap.entries_visit (fun _ session m => session.outline_collect c events _ m) m

theorem GroupSession.outline_collect (c : Callchain) (group : String) (s : GroupSession)
    (m : Machine σ) : (s.collect pmu c group m).2.1.outline = s.outline :=
  OrderedMap.entries_visit (fun _ session m => session.outline_collect c _ group _ m) m

/-- **A collection keeps the outline of the tree**, wherever it stops. -/
theorem SessionTree.outline_collect (timestamp : UInt64) (target : String) (t : SessionTree)
    (m : Machine σ) : (t.collect pmu timestamp target m).2.1.outline = t.outline := by
  have hgroups : (t.collect pmu timestamp target m).2.1.groups.entries.map
      (fun g => (g.1, g.2.outline)) = t.groups.entries.map fun g => (g.1, g.2.outline) :=
    OrderedMap.entries_visit (fun group session m => session.outline_collect t.callchain group m) m
  rw [outline_eq, outline_eq, hgroups]

/-- An events group keeps its configuration and its packages. -/
theorem GroupSession.shape_collect (c : Callchain) (group : String) (s : GroupSession)
    (m : Machine σ) : (s.collect pmu c group m).2.1.shape = s.shape :=
  congrArg (s.config, ·) (s.outline_collect c group m)

/-- **A collection keeps the shape of the tree**, wherever it stops. -/
theorem SessionTree.shape_collect (timestamp : UInt64) (target : String) (t : SessionTree)
    (m : Machine σ) : (t.collect pmu timestamp target m).2.1.shape = t.shape :=
  OrderedMap.entries_visit (fun group session m => session.shape_collect t.callchain group m) m

/-! ## Payloads -/

/-- **A payload is labelled with its tick and its target.** -/
theorem SessionTree.collect_label {timestamp : UInt64} {target : String} {t : SessionTree}
    {m : Machine σ} {p : Payload} (h : (t.collect pmu timestamp target m).1 = .ok p) :
    p.timestamp = timestamp ∧ p.target = target := by
  rw [SessionTree.collect] at h
  dsimp only at h
  rcases hv : (t.groups.visit (fun group session m =>
      session.collect pmu t.callchain group m) m).1 with e | groups
  · rw [hv] at h
    cases h
  · rw [hv] at h
    obtain rfl := Except.ok.inj h
    exact ⟨rfl, rfl⟩

/-- The keys of a tree: its groups, their packages, and their CPUs. -/
def SessionTree.keys (t : SessionTree) : List (String × List (UInt32 × List UInt32)) :=
  t.groups.entries.map fun g => (g.1, g.2.packages.entries.map fun p => (p.1, p.2.cpus.keys))

/-- The keys of a payload: its groups, their packages, and their CPUs. -/
def Payload.keys (p : Payload) : List (String × List (UInt32 × List UInt32)) :=
  p.groups.entries.map fun g => (g.1, g.2.packages.entries.map fun p => (p.1, p.2.cpus.keys))

theorem PackageSession.keys_of_collect {c : Callchain} {events : List String} {group : String}
    {package : UInt32} {s : PackageSession} {m : Machine σ} {data : PackageData}
    (h : (s.collect pmu c events group package m).1 = .ok data) :
    data.cpus.keys = s.cpus.keys := by
  obtain ⟨cpus, rfl, hcpus⟩ := OrderedMap.entries_of_visit_eq_ok (fun _ => ()) (fun _ => ())
    (fun _ _ _ _ _ => rfl) h
  have hkeys := congrArg (List.map Prod.fst) hcpus
  rw [List.map_map, List.map_map] at hkeys
  exact hkeys

/-- A group that is collected reports its packages, and of each of them its CPUs. -/
theorem GroupSession.keys_of_collect {c : Callchain} {group : String} {s : GroupSession}
    {m : Machine σ} {data : GroupData} (h : (s.collect pmu c group m).1 = .ok data) :
    data.packages.entries.map (fun p => (p.1, p.2.cpus.keys))
      = s.packages.entries.map fun p => (p.1, p.2.cpus.keys) := by
  obtain ⟨packages, rfl, hpackages⟩ := OrderedMap.entries_of_visit_eq_ok
    (fun s : PackageSession => s.cpus.keys) (fun d : PackageData => d.cpus.keys)
    (fun _ _ _ _ h => PackageSession.keys_of_collect h) h
  exact hpackages

/-- **A payload has the keys of the tree**, also where there are no CPUs. -/
theorem SessionTree.keys_of_collect {timestamp : UInt64} {target : String} {t : SessionTree}
    {m : Machine σ} {p : Payload} (h : (t.collect pmu timestamp target m).1 = .ok p) :
    p.keys = t.keys := by
  obtain ⟨groups, rfl, hgroups⟩ := OrderedMap.entries_of_visit_eq_ok
    (fun s : GroupSession => s.packages.entries.map fun p => (p.1, p.2.cpus.keys))
    (fun d : GroupData => d.packages.entries.map fun p => (p.1, p.2.cpus.keys))
    (fun _ _ _ _ h => GroupSession.keys_of_collect h) h
  exact hgroups

end CounterWatch
