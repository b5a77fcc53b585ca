import CounterWatch.Proofs.Session.Built
import CounterWatch.Pmu.Scripted

/-!
# Proofs/Session/Snapshot — a payload is all there is

A collection that succeeds has read and reset every leaf once, and its payload says everything that
was read and nothing else: the names of the events are all different, so no count takes the place of
another.

* `OrderedMap.entries_foldl_insert_perm` — values put at new keys join those that are there.
* `CpuData.entries_perm` — the metrics of a leaf, as a list.
* `collect_is_snapshot` — what a successful collection has done, and what it reports.
-/

namespace CounterWatch

variable {σ : Type} {pmu : Pmu σ}

/-! ## Inserting at new keys -/

namespace OrderedMap

variable {α β : Type} [Ord α] [Std.TransOrd α] [Std.LawfulEqOrd α]

omit [Std.TransOrd α] in
theorem put_perm {k : α} (v : β) : ∀ {l : List (α × β)}, k ∉ l.map Prod.fst →
    (put k v l).Perm ((k, v) :: l)
  | [], _ => .refl _
  | (a, b) :: rest, h => by
      obtain ⟨hne, hrest⟩ := not_or.mp (mt List.mem_cons.mpr h)
      rw [put]
      split
      next => exact .refl _
      next heq => exact absurd (Std.LawfulEqCmp.eq_of_compare heq) hne
      next => exact ((put_perm v hrest).cons _).trans (.swap _ _ _)

/-- A value at a new key is one more entry, somewhere among the others. -/
theorem entries_insert_perm {m : OrderedMap α β} {k : α} (h : k ∉ m.keys) (v : β) :
    (m.insert k v).entries.Perm ((k, v) :: m.entries) := put_perm v h

theorem mem_keys_insert {m : OrderedMap α β} {k j : α} (h : k ∉ m.keys) (v : β) :
    j ∈ (m.insert k v).keys ↔ j = k ∨ j ∈ m.keys := by
  rw [keys, ((entries_insert_perm h v).map Prod.fst).mem_iff, List.map_cons, List.mem_cons]
  rfl

/-- **Values put at new keys join those that are there.** -/
theorem entries_foldl_insert_perm (pairs : List (α × β)) {m : OrderedMap α β}
    (hnodup : (pairs.map Prod.fst).Nodup) (hnew : ∀ k ∈ pairs.map Prod.fst, k ∉ m.keys) :
    (pairs.foldl (fun m p => m.insert p.1 p.2) m).entries.Perm (m.entries ++ pairs) := by
  induction pairs generalizing m with
  | nil => rw [List.append_nil]; exact .refl _
  | cons p rest ih =>
      obtain ⟨hp, hrest⟩ := List.nodup_cons.mp hnodup
      obtain ⟨hfirst, hlater⟩ := List.forall_mem_cons.mp hnew
      have hnew' : ∀ k ∈ rest.map Prod.fst, k ∉ (m.insert p.1 p.2).keys := by
        intro k hk hmem
        rcases (mem_keys_insert hfirst p.2).mp hmem with rfl | hmem
        · exact hp hk
        · exact hlater k hk hmem
      have hinsert := (entries_insert_perm hfirst p.2).append_right rest
      exact ((ih hrest hnew').trans hinsert).trans List.perm_middle.symm

end OrderedMap

/-! ## The metrics of a leaf -/

/-- The metric of rendered call chains, if there are any. -/
def Metric.ofChains (text : String) : List (String × Metric) :=
  if text.isEmpty then [] else [(callchainName, .callchain text)]

/-- The metrics of a report: both times, and every count under the name of its event. -/
def Metric.ofReport (events : List String) (r : Report) : List (String × Metric) :=
  [(timeEnabled, .counter r.timeEnabled), (timeRunning, .counter r.timeRunning)] ++
    (events.zip r.counts).map fun p => (p.1, .counter p.2)

/-- The names of a report are those of the two times and those of its events. -/
theorem Metric.names_ofReport {events : List String} {r : Report}
    (hlength : events.length = r.counts.length) :
    (ofReport events r).map Prod.fst = [timeEnabled, timeRunning] ++ events := by
  rw [ofReport, List.map_append, List.map_map]
  exact congrArg ([timeEnabled, timeRunning] ++ ·) (List.map_fst_zip (Nat.le_of_eq hlength))

/-- The names that the metrics of a leaf go by are all different. -/
theorem Metric.nodup_names {events : List String} {r : Report} (text : String)
    (hlength : events.length = r.counts.length) (hnodup : events.Nodup)
    (hunreserved : ∀ name ∈ events, name ∉ reserved) :
    ((ofReport events r ++ ofChains text).map Prod.fst).Nodup := by
  have hchains : ((ofChains text).map Prod.fst).Sublist [callchainName] := by
    rw [ofChains]
    split
    · exact List.nil_sublist _
    · exact .refl _
  have hall : ([timeEnabled, timeRunning] ++ events ++ [callchainName]).Nodup := by
    -- all three reserved names are there at most once, and no event has one of them
    have hreserved : reserved.Nodup := by decide
    have hperm : ([timeEnabled, timeRunning] ++ events ++ [callchainName]).Perm
        (reserved ++ events) := by
      rw [List.append_assoc]
      exact List.perm_append_comm.append_left [timeEnabled, timeRunning]
    rw [hperm.nodup_iff]
    exact List.nodup_append'.mpr ⟨hreserved, hnodup, fun name hr he => hunreserved name he hr⟩
  rw [List.map_append, names_ofReport hlength]
  exact hall.sublist (hchains.append_left _)

/-- **The metrics of a leaf are those of its report and its call chains.** -/
theorem CpuData.entries_perm {events : List String} {r : Report} (text : String)
    (hlength : events.length = r.counts.length) (hnodup : events.Nodup)
    (hunreserved : ∀ name ∈ events, name ∉ Metric.reserved) :
    ((ofReport events r).withCallchains (some text)).metrics.entries.Perm
      (Metric.ofReport events r ++ Metric.ofChains text) := by
  have hmetrics : ((ofReport events r).withCallchains (some text)).metrics
      = (Metric.ofReport events r ++ Metric.ofChains text).foldl (fun m p => m.insert p.1 p.2)
        .empty := by
    rw [List.foldl_append, Metric.ofReport, List.foldl_append, List.foldl_map, withCallchains,
      Metric.ofChains]
    split
    · rfl
    · rfl
  rw [hmetrics]
  exact OrderedMap.entries_foldl_insert_perm _
    (Metric.nodup_names text hlength hnodup hunreserved) fun _ _ => List.not_mem_nil

/-! ## Payloads -/

/-- **What is reported of a leaf is found under its keys.** -/
theorem Payload.cpu?_of_mem_leaves {p : Payload} {leaf : Leaf} {d : CpuData}
    (h : (leaf, d) ∈ p.leaves) : p.cpu? leaf.group leaf.package leaf.cpu = some d := by
  obtain ⟨⟨group, g⟩, hgroup, h⟩ := List.mem_flatMap.mp h
  obtain ⟨⟨package, k⟩, hpackage, h⟩ := List.mem_flatMap.mp h
  obtain ⟨⟨cpu, d'⟩, hcpu, heq⟩ := List.mem_map.mp h
  obtain ⟨rfl, rfl⟩ := Prod.mk.inj heq
  simp only [cpu?, OrderedMap.get?_of_mem hgroup, OrderedMap.get?_of_mem hpackage,
    OrderedMap.get?_of_mem hcpu, Option.bind_eq_bind, Option.bind_some]

/-- What is reported of a leaf that was taken: the two times and the counts that the words of its
report spell, each count under the name of its event, and the call chains in its ring, if it is
sampled and there are any. -/
structure Taking.Reported (c : Callchain) (group : EventsGroup) (k : Taking) (d : CpuData) :
    Prop where
  words : ∃ announced, Bytes.words k.bytes
    = announced :: k.report.timeEnabled :: k.report.timeRunning :: k.report.counts
  counts : k.report.counts.length = group.events.length
  metrics : d.metrics.entries.Perm (Metric.ofReport (group.events.map (·.name)) k.report ++
    Metric.ofChains (c.rendering k.shown))
  size : d.metrics.size = group.events.length + if (c.rendering k.shown).isEmpty then 2 else 3
  unsampled : k.session.sampled = false → k.shown = []

/-- **A leaf that is taken is reported with every word of its report**, each under its name. -/
theorem Takes.reported {c : Callchain} {group : EventsGroup} {k : Taking} {m m' : Machine σ}
    (h : Takes pmu c k m m') (hsound : k.session.Sound (group.events.map (·.name))) :
    k.Reported c group (k.data c (group.events.map (·.name))) := by
  obtain ⟨m₁, m₂, -, -, hreport, -, hshown, -⟩ := h
  obtain ⟨⟨announced, hwords, -⟩, hcounts⟩ := hreport
  have hlength : (group.events.map (·.name)).length = k.report.counts.length :=
    hsound.named.trans hcounts.symm
  have hmetrics := CpuData.entries_perm (c.rendering k.shown) hlength hsound.nodup
    hsound.unreserved
  have hsize : (k.data c (group.events.map (·.name))).metrics.size
      = group.events.length + if (c.rendering k.shown).isEmpty then 2 else 3 := by
    rw [OrderedMap.size, Taking.data, hmetrics.length_eq, List.length_append, Metric.ofReport,
      Metric.ofChains, List.length_append, List.length_map, List.length_zip, ← hlength,
      Nat.min_self, List.length_map]
    split <;> simp only [List.length_cons, List.length_nil] <;> omega
  rw [List.length_map] at hlength
  refine ⟨⟨announced, hwords⟩, hlength.symm, hmetrics, hsize, fun hsampled => ?_⟩
  rw [hshown, Machine.shown, hsampled]
  rfl

/-- **A collection that succeeds is a complete and exact snapshot.**  The payload has the time and
the target it was asked for, and the keys of the tree, which are those of the configuration.  Every
leaf was read once and then reset once, one leaf after the other, and no other call was made to a
counter.  What is reported of a leaf is what its own report says, and no count is missing. -/
theorem collect_is_snapshot {config : MonitoringConfig} {backend : Option Backend}
    {m m₀ m₁ m₂ : Machine σ} {t₀ t t' : SessionTree} {timestamp : UInt64} {target : String}
    {p : Payload} (hstart : SessionTree.start pmu config backend m = (.ok t₀, m₀))
    (hworks : SessionTree.Works pmu (t₀, m₀) (t, m₁))
    (h : t.collect pmu timestamp target m₁ = (.ok p, t', m₂)) :
    p.timestamp = timestamp ∧ p.target = target ∧ p.keys = t.keys ∧ t.keys = config.keys ∧
    m₂.counterCalls = m₁.counterCalls ++ t.leaves.flatMap takingCalls ∧
    ∃ ks, ks.map Taking.place = t.leaves ∧ Sweep pmu t.callchain ks m₁ m₂ ∧
      t'.leaves = ks.map Taking.after ∧
      ∀ k ∈ ks, ∃ group d, config.groups.get? k.leaf.group = some group ∧
        p.cpu? k.leaf.group k.leaf.package k.leaf.cpu = some d ∧
        k.Reported t.callchain group d := by
  have hsound := SessionTree.sound_of_works hstart hworks
  have hfits : ∀ l ∈ t.leaves, l.2.counters.Fits := fun l hl => (hsound.leaves l.1 l.2 hl).fits
  have hcollect := SessionTree.collect_cases pmu hfits timestamp target m₁
  rw [h] at hcollect
  obtain ⟨ks, hplaces, hsweep, hreports, hafter⟩ := hcollect
  obtain ⟨htimestamp, htarget⟩ := SessionTree.collect_label (congrArg Prod.fst h)
  have hconfig : t.keys = config.keys :=
    (SessionTree.keys_of_shape_eq (SessionTree.works_shape hworks).1).trans
      (SessionTree.keys_of_start hstart)
  have hcalls := hsweep.counterCalls
  rw [hplaces] at hcalls
  refine ⟨htimestamp, htarget, SessionTree.keys_of_collect (congrArg Prod.fst h), hconfig, hcalls,
    ks, hplaces, hsweep, hafter, fun k hk => ?_⟩
  have hplace : k.place ∈ t.leaves := hplaces ▸ List.mem_map_of_mem hk
  obtain ⟨group, hgroup, hevents⟩ := SessionTree.group_of_works hstart hworks hplace
  have hreport : (k.leaf, k.data t.callchain (t.events k.leaf.group)) ∈ p.leaves :=
    hreports ▸ List.mem_map_of_mem hk
  have hleaf := hsound.leaves _ _ hplace
  obtain ⟨m', m'', htakes⟩ := hsweep.exists_takes hk
  rw [hevents] at hreport hleaf
  exact ⟨group, _, hgroup, Payload.cpu?_of_mem_leaves hreport, htakes.reported hleaf⟩

/-- Two events on one CPU, and a package without any: the first read fails, and the second is
reported. -/
theorem collect_is_snapshot_after_failure :
    let pmu : Pmu ScriptProgress := Script.pmu { reads := [some (.fail .invalidArgument)] }
    let core : EventsGroup := ⟨"core", .allCpus,
      [⟨"instructions", Hardware.instr.event⟩, ⟨"cycles", Hardware.cpuCycle.event⟩]⟩
    let config : MonitoringConfig :=
      { topology := ⟨⟨[(0, ⟨[3], by decide⟩), (1, ⟨[], by decide⟩)], by decide⟩⟩
        groups := ⟨[("core", core)], by decide⟩
        target := .system
        sampling := {} }
    ∃ t₀ m₀ t m₁ p t' m₂ d,
      SessionTree.start pmu config none { state := {} } = (.ok t₀, m₀) ∧
      t₀.collect pmu 1 "all" m₀ = (.error (.readCounts ⟨"core", 0, 3⟩ .invalidArgument), t, m₁) ∧
      t.collect pmu 2 "all" m₁ = (.ok p, t', m₂) ∧
      p.keys = [("core", [(0, [3]), (1, [])])] ∧
      m₂.counterCalls = m₁.counterCalls ++ [.read 0 40, .reset 0] ∧
      p.cpu? "core" 0 3 = some d ∧ d.metrics.size = 4 := by
  intro pmu core config
  let leaf : Leaf := ⟨"core", 0, 3⟩
  let s : CpuSession := ⟨⟨0, [1], List.replicate 40 0⟩, false⟩
  let t : SessionTree :=
    { groups := ⟨[("core", ⟨core, ⟨[(0, ⟨⟨[(3, s)], by decide⟩⟩), (1, ⟨.empty⟩)], by decide⟩⟩)],
        by decide⟩
      callchain := ⟨.none, 50⟩
      pid := none
      inCgroup := false }
  let m₀ : Machine ScriptProgress := (SessionTree.start pmu config none { state := {} }).2
  let m₁ : Machine ScriptProgress := (m₀.read pmu 0 s.counters.buffer).2.2
  have hstart : SessionTree.start pmu config none { state := {} } = (.ok t, m₀) := rfl
  have hfailed : t.collect pmu 1 "all" m₀ = (.error (.readCounts leaf .invalidArgument), t, m₁) :=
    rfl
  let bytes : Bytes := Bytes.ofWords [2, 1000, 1000, 10, 20]
  have hread : m₁.read pmu 0 s.counters.buffer = (.ok 40, bytes, _) :=
    Prod.ext rfl (Prod.ext (by decide +kernel) rfl)
  let k : Taking :=
    { leaf, session := s, meanwhile := [], bytes, report := ⟨1000, 1000, [10, 20]⟩, shown := [] }
  have hspelled : k.report.SpelledBy 2 bytes := ⟨⟨2, by decide +kernel, rfl⟩, rfl⟩
  have htakes : Takes pmu t.callchain k m₁ _ := ⟨_, _, rfl, hread, hspelled, rfl, rfl, rfl⟩
  have hleaves : [k].map Taking.place = t.leaves := rfl
  obtain ⟨p, t', hcollect, -, -⟩ :=
    SessionTree.collect_of_sweep hleaves (.cons htakes (.nil _)) 2 "all"
  have hworks : SessionTree.Works pmu (t, m₀) (t, m₁) := .single (.collect 1 "all" t m₀)
  obtain ⟨-, -, hkeys, hconfig, hcalls, ks, hplaces, -, -, hreported⟩ :=
    collect_is_snapshot hstart hworks hcollect
  obtain ⟨k', hk', hplace⟩ := List.mem_map.mp (hplaces ▸ List.mem_singleton.mpr rfl :
    (leaf, s) ∈ ks.map Taking.place)
  obtain ⟨hleaf, hsession⟩ := Prod.mk.inj hplace
  obtain ⟨group, d, hgroup, hd, -, -, -, hsize, hunsampled⟩ := hreported k' hk'
  rw [hleaf] at hgroup hd
  have hcore : config.groups.get? leaf.group = some core :=
    OrderedMap.get?_of_mem (List.mem_singleton.mpr rfl)
  obtain rfl := Option.some.inj (hcore.symm.trans hgroup)
  rw [hunsampled (by rw [hsession])] at hsize
  exact ⟨t, m₀, t, m₁, p, t', _, d, hstart, hfailed, hcollect, hkeys.trans hconfig, hcalls, hd,
    hsize⟩

end CounterWatch
