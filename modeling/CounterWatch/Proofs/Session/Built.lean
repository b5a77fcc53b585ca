import CounterWatch.Proofs.Session.Plan
import CounterWatch.Proofs.Session.Sweep

/-!
# Proofs/Session/Built — what is known of a tree from its opening on

Opening a tree settles how its leaves can be read and reported, and working with it unsettles
nothing.

* `CpuSession.Sound`, `SessionTree.Sound` — buffers fit their groups, the names of the events are
  fit to report under, and no two leaves have one leader.
* `SessionTree.sound_of_start` — a tree that was opened is sound; `SessionTree.sound_of_works` — and
  so is whatever becomes of it.
* `SessionTree.planned_of_mem_leaves` — what a leaf was planned as; if it is sampled, it has a ring.
-/

namespace CounterWatch

variable {σ : Type} {pmu : Pmu σ}

open CounterWatch.Action CounterWatch.PlannedLeaf

/-- What is known of a leaf whose events have these names: its buffer fits its group, and there is
a name of its own for every count, none of them reserved. -/
structure CpuSession.Sound (events : List String) (s : CpuSession) : Prop where
  fits : s.counters.Fits
  named : events.length = s.counters.size
  nodup : events.Nodup
  unreserved : ∀ name ∈ events, name ∉ Metric.reserved

/-- What is known of a tree: its leaves can be read and reported, and no two have one leader. -/
structure SessionTree.Sound (t : SessionTree) : Prop where
  leaves : ∀ leaf s, (leaf, s) ∈ t.leaves → s.Sound (t.events leaf.group)
  leaders : (t.leaves.map fun l => l.2.counters.leader).Nodup

/-- Whether a leaf is sound can be told from its outline. -/
theorem CpuSession.Sound.of_outline_eq {events : List String} {s s' : CpuSession}
    (h : s.Sound events) (houtline : s'.outline = s.outline) : s'.Sound events := by
  have hsize : s'.counters.size = s.counters.size := by
    have hsize := congrArg (fun s : CpuSession => s.counters.size) houtline
    exact hsize
  have hlength : s'.counters.buffer.length = s.counters.buffer.length := by
    have hlength := congrArg (fun s : CpuSession => s.counters.buffer.length) houtline
    simpa only [outline, List.length_replicate] using hlength
  refine ⟨?_, h.named.trans hsize.symm, h.nodup, h.unreserved⟩
  rw [CounterGroup.Fits, hlength, hsize]
  exact h.fits

/-! ## Opening -/

namespace Action

/-- An action among others that all succeed succeeds, and so do those behind it. -/
theorem perform_of_mem {actions : List Action} {action : Action} {m m' : Machine σ}
    (h : performAll pmu actions m = (.ok (), m')) (hmem : action ∈ actions) :
    ∃ m₁ m₂ later, action.perform pmu m₁ = (.ok (), m₂) ∧
      performAll pmu later m₂ = (.ok (), m') := by
  obtain ⟨earlier, later, rfl⟩ := List.append_of_mem hmem
  rw [performAll_append] at h
  rcases hearlier : performAll pmu earlier m with ⟨e | _, m₁⟩
  · rw [hearlier] at h
    cases h
  rw [hearlier] at h
  dsimp only at h
  rw [performAll] at h
  rcases hp : action.perform pmu m₁ with ⟨e | _, m₂⟩
  · rw [hp] at h
    cases h
  rw [hp] at h
  exact ⟨m₁, m₂, later, hp, h⟩

theorem reportable_of_performAll {actions : List Action} {m m' : Machine σ}
    (h : performAll pmu actions m = (.ok (), m')) {leaf : Leaf} {group : EventsGroup}
    (hmem : check leaf group ∈ actions) : group.Reportable := by
  obtain ⟨m₁, m₂, later, hperform, -⟩ := perform_of_mem h hmem
  rw [perform] at hperform
  by_contra hunfit
  rw [if_neg hunfit] at hperform
  cases hperform

/-- Performing an action takes no ring away. -/
theorem ring_perform (pmu : Pmu σ) (action : Action) {m : Machine σ} {id : CounterId}
    (h : (m.rings.get? id).isSome) : ((action.perform pmu m).2.rings.get? id).isSome := by
  cases action with
  | check leaf group => exact h
  | openCounter leaf event request =>
      rw [perform, Machine.openCounter]
      rcases pmu.openCounter request m.state with ⟨e | _, state⟩
      · exact h
      · exact h
  | mapRing leaf counter pages =>
      rw [perform]
      split
      · rw [Machine.mapRing, Machine.map]
        rcases pmu.map counter (pages * pageSize) m.state with ⟨e | arena, state⟩
        · exact h
        · change ((m.rings.insert counter (Ring.ofArena arena)).get? id).isSome
          rw [OrderedMap.get?_insert]
          split
          · rfl
          · exact h
      · exact h

theorem ring_performAll (pmu : Pmu σ) {id : CounterId} (actions : List Action) {m : Machine σ}
    (h : (m.rings.get? id).isSome) : ((performAll pmu actions m).2.rings.get? id).isSome := by
  induction actions generalizing m with
  | nil => exact h
  | cons action rest ih =>
      have hfirst := ring_perform pmu action h
      rw [performAll]
      rcases hp : action.perform pmu m with ⟨e | _, m₁⟩
      · rw [hp] at hfirst
        exact hfirst
      · rw [hp] at hfirst
        exact ih hfirst

/-- **A ring that was mapped is there.** -/
theorem ring_of_performAll {actions : List Action} {m m' : Machine σ}
    (h : performAll pmu actions m = (.ok (), m')) {leaf : Leaf} {id : CounterId} {pages : Nat}
    (hmem : mapRing leaf id pages ∈ actions) : (m'.rings.get? id).isSome := by
  obtain ⟨m₁, m₂, later, hperform, hlater⟩ := perform_of_mem h hmem
  have hmapped : (m₂.rings.get? id).isSome := by
    rw [perform, Machine.mapRing, Machine.map] at hperform
    split at hperform
    · rcases hmap : pmu.map id (pages * pageSize) m₁.state with ⟨e | arena, state⟩
      · rw [hmap] at hperform
        cases hperform
      · rw [hmap] at hperform
        cases hperform
        change ((m₁.rings.insert id (Ring.ofArena arena)).get? id).isSome
        rw [OrderedMap.get?_insert, if_pos (Nat.compare_eq_eq.mpr rfl)]
        rfl
    · cases hperform
  have hkept := ring_performAll pmu later hmapped
  rwa [hlater] at hkept

end Action

namespace PlannedLeaf

theorem check_mem_plan {ls : List PlannedLeaf} {l : PlannedLeaf} (hl : l ∈ ls) (next : CounterId) :
    check l.leaf l.group ∈ plan next ls := by
  induction ls generalizing next with
  | nil => cases hl
  | cons first rest ih =>
      rw [plan, List.mem_append]
      rcases List.mem_cons.mp hl with rfl | hl
      · exact .inl List.mem_cons_self
      · exact .inr (ih hl _)

/-- **What is held of a leaf is what was planned for it**, from some number on. -/
theorem exists_of_mem_opened {ls : List PlannedLeaf} {next : CounterId} {leaf : Leaf}
    {s : CpuSession} (h : (leaf, s) ∈ opened next ls) :
    ∃ l ∈ ls, ∃ leader, leaf = l.leaf ∧ s = l.session leader ∧ l.actions leader ⊆ plan next ls := by
  induction ls generalizing next with
  | nil => cases h
  | cons first rest ih =>
      rw [opened] at h
      rcases List.mem_cons.mp h with h | h
      · obtain ⟨rfl, rfl⟩ := Prod.mk.inj h
        exact ⟨first, List.mem_cons_self, next, rfl, rfl, List.subset_append_left _ _⟩
      · obtain ⟨l, hl, leader, hleaf, hs, hactions⟩ := ih h
        exact ⟨l, List.mem_cons_of_mem _ hl, leader, hleaf, hs,
          List.Subset.trans hactions (List.subset_append_right _ _)⟩

end PlannedLeaf

/-- A planned leaf belongs to an events group, and samples as the group does. -/
theorem MonitoringConfig.group_of_mem_leaves {config : MonitoringConfig} {l : PlannedLeaf}
    (h : l ∈ config.leaves) : (l.leaf.group, l.group) ∈ config.groups.entries ∧
      l.sampling = SessionTree.samplingOf config l.leaf.group := by
  rw [config.leaves_eq] at h
  obtain ⟨⟨key, group⟩, hgroup, hleaf⟩ := List.mem_flatMap.mp h
  obtain ⟨⟨package, cpus⟩, -, hleaf⟩ := List.mem_flatMap.mp hleaf
  obtain ⟨cpu, -, rfl⟩ := List.mem_map.mp hleaf
  exact ⟨hgroup, rfl⟩

namespace CounterGroup

theorem size_fresh (leader : CounterId) {n : Nat} (h : 0 < n) : (fresh leader n).size = n := by
  rw [size, fresh, List.length_range', Nat.sub_add_cancel h]

theorem fits_fresh (leader : CounterId) {n : Nat} (h : 0 < n) : (fresh leader n).Fits := by
  rw [Fits, size_fresh leader h]
  exact List.length_replicate

end CounterGroup

/-- A package that was opened has the CPUs chosen of it. -/
theorem PackageSession.keys_of_start {group : EventsGroup} {key : String}
    {sampling : Option SamplingOptions} {scope : UInt32 → Scope} {package : UInt32}
    {cpus : OrderedSet UInt32} {s : PackageSession} {m m' : Machine σ}
    (h : PackageSession.start pmu group key sampling scope package cpus m = (.ok s, m')) :
    s.cpus.keys = group.mode.chosen cpus := by
  obtain ⟨built, rfl, hbuilt⟩ := OrderedMap.entries_of_assemble_eq_ok (fun _ => ()) (fun _ => ())
    (fun _ _ _ _ _ _ => rfl) (congrArg Prod.fst h)
  have hkeys := congrArg (List.map Prod.fst) hbuilt
  rw [OrderedMap.ofSet, List.map_map, List.map_map, List.map_map] at hkeys
  exact (hkeys.trans (List.map_id' _)).trans (group.mode.toList_select cpus)

/-- An events group that was opened has every package, also without CPUs. -/
theorem GroupSession.keys_of_start {topology : Topology} {group : EventsGroup} {key : String}
    {sampling : Option SamplingOptions} {scope : UInt32 → Scope} {s : GroupSession}
    {m m' : Machine σ}
    (h : GroupSession.start pmu topology group key sampling scope m = (.ok s, m')) :
    s.packages.entries.map (fun p => (p.1, p.2.cpus.keys))
      = topology.packages.entries.map fun p => (p.1, group.mode.chosen p.2) := by
  obtain ⟨built, rfl, hbuilt⟩ := OrderedMap.entries_of_assemble_eq_ok
    (fun p : PackageSession => p.cpus.keys) group.mode.chosen
    (fun _ _ _ _ _ => PackageSession.keys_of_start) (congrArg Prod.fst h)
  exact hbuilt

namespace SessionTree

variable {config : MonitoringConfig} {backend : Option Backend} {m m' : Machine σ} {t : SessionTree}

/-- **The plan of a tree that was opened has succeeded**, and the tree is the one planned. -/
theorem planned_of_start (h : start pmu config backend m = (.ok t, m')) :
    ∃ next m₁, performAll pmu (plan next config.leaves) m₁ = (.ok (), m') ∧
      t.leaves = opened next config.leaves := by
  rcases hp : prepareTarget config.target backend m with ⟨e | found, m₁⟩
  · rw [start, hp] at h
    cases h
  have hplanned := start_asPlanned pmu hp
  rw [h] at hplanned
  cases hplanned with
  | done hperform _ hleaves => exact ⟨_, _, hperform, hleaves⟩

/-- The events groups of a tree that was opened are those of the configuration. -/
theorem configs_of_start (h : start pmu config backend m = (.ok t, m')) :
    t.configs = config.groups.entries := by
  rw [start] at h
  split at h
  · cases h
  next pid symbols m₁ _ =>
    have hconfig : ∀ key group m s m', GroupSession.start pmu config.topology group key
        (samplingOf config key) (scopeOf config.target) m = (.ok s, m') → s.config = group := by
      intro key group m s m' hs
      obtain ⟨packages, rfl, -⟩ := OrderedMap.entries_of_assemble_eq_ok (fun _ => ()) (fun _ => ())
        (fun _ _ _ _ _ _ => rfl) (congrArg Prod.fst hs)
      rfl
    obtain ⟨groups, rfl, hgroups⟩ := OrderedMap.entries_of_assemble_eq_ok
      (fun s : GroupSession => s.config) (fun group => group) hconfig (congrArg Prod.fst h)
    exact hgroups.trans (List.map_id' _)

/-- **A tree that was opened has the keys of its configuration**, also where no CPU is selected. -/
theorem keys_of_start (h : start pmu config backend m = (.ok t, m')) : t.keys = config.keys := by
  rw [start] at h
  split at h
  · cases h
  next pid symbols m₁ _ =>
    obtain ⟨groups, rfl, hgroups⟩ := OrderedMap.entries_of_assemble_eq_ok
      (fun s : GroupSession => s.packages.entries.map fun p => (p.1, p.2.cpus.keys))
      (fun group => config.topology.packages.entries.map fun p => (p.1, group.mode.chosen p.2))
      (fun _ _ _ _ _ => GroupSession.keys_of_start) (congrArg Prod.fst h)
    exact hgroups

/-- No two leaves of a tree that was opened have one leader. -/
theorem nodup_leaders_of_start (h : start pmu config backend m = (.ok t, m')) :
    (t.leaves.map fun l => l.2.counters.leader).Nodup := by
  have hopens := start_allOrNothing pmu config backend m
  rw [h, AllOrNothing, t.flatMap_counterGroups] at hopens
  have hnodup := hopens.nodup
  rw [counters, List.map_flatMap, List.nodup_flatMap] at hnodup
  refine List.pairwise_map.mpr (hnodup.2.imp ?_)
  intro l l' hdisjoint heq
  exact hdisjoint List.mem_cons_self (heq ▸ List.mem_cons_self)

/-- **What a leaf of a tree that was opened was planned as.** -/
theorem planned_of_mem_leaves (h : start pmu config backend m = (.ok t, m')) {leaf : Leaf}
    {s : CpuSession} (hl : (leaf, s) ∈ t.leaves) :
    ∃ l : PlannedLeaf, leaf = l.leaf ∧ l.group.Reportable ∧
      config.groups.get? leaf.group = some l.group ∧
      t.events leaf.group = l.group.events.map (·.name) ∧
      l.sampling = samplingOf config leaf.group ∧
      ∃ leader, s = l.session leader ∧ (l.sampling.isSome → (m'.rings.get? leader).isSome) := by
  obtain ⟨next, m₁, hperform, hleaves⟩ := planned_of_start h
  rw [hleaves] at hl
  -- the plan of the whole tree has succeeded, so every action of this leaf has
  obtain ⟨l, hmem, leader, rfl, rfl, hactions⟩ := exists_of_mem_opened hl
  obtain ⟨hgroup, hsampling⟩ := MonitoringConfig.group_of_mem_leaves hmem
  have hreportable := reportable_of_performAll hperform (check_mem_plan hmem next)
  refine ⟨l, rfl, hreportable, OrderedMap.get?_of_mem hgroup, ?_, hsampling, leader, rfl,
    fun hsampled => ?_⟩
  · rw [events, configs_of_start h, OrderedMap.find_of_mem config.groups.ascending hgroup]
    rfl
  · obtain ⟨options, hoptions⟩ := Option.isSome_iff_exists.mp hsampled
    obtain ⟨first, rest, hevents⟩ := List.exists_cons_of_ne_nil hreportable.1
    have hmap : mapRing l.leaf leader (2 ^ options.pagesExponent.toNat + 1) ∈ l.actions leader := by
      rw [actions, hevents, ringActions, hoptions]
      exact .tail _ (.tail _ List.mem_cons_self)
    exact ring_of_performAll hperform (hactions hmap)

/-- **A tree that was opened is sound.** -/
theorem sound_of_start (h : start pmu config backend m = (.ok t, m')) : t.Sound := by
  refine ⟨fun leaf s hl => ?_, nodup_leaders_of_start h⟩
  obtain ⟨l, rfl, hreportable, -, hevents, -, leader, rfl, -⟩ := planned_of_mem_leaves h hl
  have hpositive : 0 < l.size := List.length_pos_iff.mpr hreportable.1
  rw [hevents]
  refine ⟨CounterGroup.fits_fresh leader hpositive, ?_, hreportable.2.1, fun name hname => ?_⟩
  · rw [List.length_map]
    exact (CounterGroup.size_fresh leader hpositive).symm
  · obtain ⟨e, he, rfl⟩ := List.mem_map.mp hname
    exact hreportable.2.2 e he

/-! ## Working -/

/-- **Working with a tree keeps its shape.** -/
theorem work_shape {before after : SessionTree × Machine σ} (h : Work pmu before after) :
    after.1.shape = before.1.shape ∧ after.1.callchain = before.1.callchain := by
  cases h with
  | enable t m => exact ⟨rfl, rfl⟩
  | collect timestamp target t m => exact ⟨t.shape_collect timestamp target m, rfl⟩
  | outside step t m => exact ⟨rfl, rfl⟩

theorem works_shape {before after : SessionTree × Machine σ} (h : Works pmu before after) :
    after.1.shape = before.1.shape ∧ after.1.callchain = before.1.callchain := by
  induction h with
  | refl => exact ⟨rfl, rfl⟩
  | tail _ hstep ih =>
      obtain ⟨hshape, hcallchain⟩ := work_shape hstep
      exact ⟨hshape.trans ih.1, hcallchain.trans ih.2⟩

theorem outline_of_shape_eq {t t' : SessionTree} (h : t'.shape = t.shape) :
    t'.outline = t.outline := by
  have hgroups := congrArg (List.map fun g => (g.1, g.2.2)) h
  rw [shape, shape, List.map_map, List.map_map] at hgroups
  rw [outline_eq, outline_eq]
  exact congrArg (List.flatMap _) hgroups

theorem keys_of_shape_eq {t t' : SessionTree} (h : t'.shape = t.shape) : t'.keys = t.keys := by
  have hkeys : ∀ t : SessionTree, t.keys
      = t.shape.map fun g => (g.1, g.2.2.map fun p => (p.1, p.2.map Prod.fst)) := by
    intro t
    simp only [keys, shape, GroupSession.shape, GroupSession.outline, PackageSession.outline,
      OrderedMap.keys, List.map_map, Function.comp_def]
  rw [hkeys, hkeys, h]

theorem configs_of_shape_eq {t t' : SessionTree} (h : t'.shape = t.shape) :
    t'.configs = t.configs := by
  have hgroups := congrArg (List.map fun g => (g.1, g.2.1)) h
  rw [shape, shape, List.map_map, List.map_map] at hgroups
  exact hgroups

/-- What a leaf is, the leaf of a tree of the same shape is as well, but for its buffer. -/
theorem exists_of_shape_eq {t t' : SessionTree} (h : t'.shape = t.shape) {leaf : Leaf}
    {s : CpuSession} (hl : (leaf, s) ∈ t'.leaves) :
    ∃ s₀, (leaf, s₀) ∈ t.leaves ∧ s.outline = s₀.outline := by
  have hmem : (leaf, s.outline) ∈ t'.outline := List.mem_map.mpr ⟨_, hl, rfl⟩
  rw [outline_of_shape_eq h] at hmem
  obtain ⟨⟨leaf', s₀⟩, hl₀, heq⟩ := List.mem_map.mp hmem
  obtain ⟨rfl, hs⟩ := Prod.mk.inj heq
  exact ⟨s₀, hl₀, hs.symm⟩

theorem events_of_shape_eq {t t' : SessionTree} (h : t'.shape = t.shape) :
    t'.events = t.events := by
  funext group
  rw [events, events, configs_of_shape_eq h]

/-- **A tree of a sound shape is sound.** -/
theorem Sound.of_shape_eq {t t' : SessionTree} (h : t.Sound) (hshape : t'.shape = t.shape) :
    t'.Sound := by
  have hleaders : ∀ t : SessionTree, (t.leaves.map fun l => l.2.counters.leader)
      = t.outline.map fun l => l.2.counters.leader := by
    intro t
    rw [outline, List.map_map]
    rfl
  refine ⟨fun leaf s hl => ?_, ?_⟩
  · obtain ⟨s₀, hl₀, heq⟩ := exists_of_shape_eq hshape hl
    rw [events_of_shape_eq hshape]
    exact (h.leaves leaf s₀ hl₀).of_outline_eq heq
  · rw [hleaders, outline_of_shape_eq hshape, ← hleaders]
    exact h.leaders

/-- **What becomes of a tree that was opened is sound.** -/
theorem sound_of_works {t₀ : SessionTree} {m₀ : Machine σ}
    (hstart : start pmu config backend m = (.ok t₀, m₀)) (hworks : Works pmu (t₀, m₀) (t, m')) :
    t.Sound := (sound_of_start hstart).of_shape_eq (works_shape hworks).1

/-- The events of a leaf are those of its group in the configuration. -/
theorem group_of_works {t₀ : SessionTree} {m₀ : Machine σ}
    (hstart : start pmu config backend m = (.ok t₀, m₀)) (hworks : Works pmu (t₀, m₀) (t, m'))
    {leaf : Leaf} {s : CpuSession} (hl : (leaf, s) ∈ t.leaves) :
    ∃ group, config.groups.get? leaf.group = some group ∧
      t.events leaf.group = group.events.map (·.name) := by
  have hshape := (works_shape hworks).1
  obtain ⟨s₀, hl₀, -⟩ := exists_of_shape_eq hshape hl
  obtain ⟨l, -, -, hgroup, hevents, -⟩ := planned_of_mem_leaves hstart hl₀
  rw [events_of_shape_eq hshape]
  exact ⟨l.group, hgroup, hevents⟩

end SessionTree

end CounterWatch
