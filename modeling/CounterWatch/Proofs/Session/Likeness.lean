import CounterWatch.Proofs.OrderedMap.SideBySide
import CounterWatch.Session.Opening

/-!
# Proofs/Session/Likeness — the same counters opened on machines that are alike

Counters are opened and closed in a few steps: one is opened, its ring is mapped, the ring is
unmapped, the counter is closed.  A relation of machines that each of these keeps, with the same
outcome on both sides, is kept by all that is made of them.

* `ClosesAlike`, `OpensAlike` — what is asked of such a relation.
* `SessionTree.close_alike` — closing a tree keeps it.
* `SessionTree.openGroups_alike` — opening the groups of a configuration keeps it, and what is
  opened is the same.
-/

namespace CounterWatch

variable {σ : Type}

/-! ## Opening what comes behind the preparations -/

namespace SessionTree

/-- Opens the events groups of a configuration. -/
def openGroups (pmu : Pmu σ) (config : MonitoringConfig) (m : Machine σ) :
    Except Failure (OrderedMap String GroupSession) × Machine σ :=
  config.groups.assemble
    (fun key group m => GroupSession.start pmu config.topology group key (samplingOf config key)
      (scopeOf config.target) m) GroupSession.close m

/-- The tree of a configuration, once its target is known and its groups are open. -/
def ofGroups (config : MonitoringConfig) (found : Option UInt32 × Symbols)
    (groups : OrderedMap String GroupSession) : SessionTree where
  groups
  callchain := ⟨found.2, config.sampling.maxDepth⟩
  pid := found.1
  inCgroup := config.target.cgroupPath?.isSome

variable {pmu : Pmu σ} {config : MonitoringConfig} {backend : Option Backend} {m m₁ : Machine σ}

/-- A target that cannot be prepared ends the start, with the failure of its preparation and no
counter opened. -/
theorem start_of_unprepared {e : Failure}
    (h : prepareTarget config.target backend m = (.error e, m₁)) :
    start pmu config backend m = (.error e, m₁) := by
  rw [start, h]

/-- **Once the target is known, the groups are opened.** -/
theorem start_of_prepared {found : Option UInt32 × Symbols}
    (h : prepareTarget config.target backend m = (.ok found, m₁)) :
    start pmu config backend m
      = ((openGroups pmu config m₁).1.map (ofGroups config found),
        (openGroups pmu config m₁).2) := by
  rw [start, h]
  rfl

end SessionTree

/-! ## Machines that are alike -/

/-- A likeness of machines that closing keeps: whatever is unmapped or closed on both, they stay
alike. -/
structure ClosesAlike (R : Machine σ → Machine σ → Prop) : Prop where
  unmapRing : ∀ {m m'}, R m m' → ∀ id, R (m.unmapRing id) (m'.unmapRing id)
  closeCounter : ∀ {m m'}, R m m' → ∀ c, R (m.closeCounter c) (m'.closeCounter c)

/-- A likeness of machines that opening keeps besides, with counters of one kind on the one and of
another kind on the other: what is opened or mapped comes out the same. -/
structure OpensAlike (R : Machine σ → Machine σ → Prop) (pmu pmu' : Pmu σ) : Prop
    extends ClosesAlike R where
  openCounter : ∀ {m m'}, R m m' → ∀ request,
    Same R (m.openCounter pmu request) (m'.openCounter pmu' request)
  mapRing : ∀ {m m'}, R m m' → ∀ id length,
    Same R (m.mapRing pmu id length) (m'.mapRing pmu' id length)

variable {R : Machine σ → Machine σ → Prop} {pmu pmu' : Pmu σ} {m m' : Machine σ}

/-! ## Closing -/

section Closing

variable (hR : ClosesAlike R)

include hR

/-- Closing a group keeps machines alike, as it closes the same counters on both. -/
theorem CounterGroup.close_alike (g : CounterGroup) (h : R m m') : R (g.close m) (g.close m') := by
  have hsiblings : R (g.siblings.foldl (fun m id => m.closeCounter ⟨id, some g.leader⟩) m)
      (g.siblings.foldl (fun m id => m.closeCounter ⟨id, some g.leader⟩) m') :=
    List.foldl_rel h fun id _ _ _ h => hR.closeCounter h ⟨id, some g.leader⟩
  exact hR.closeCounter hsiblings ⟨g.leader, none⟩

theorem CpuSession.close_alike (s : CpuSession) (h : R m m') : R (s.close m) (s.close m') := by
  rw [CpuSession.close, CpuSession.close]
  split
  · exact s.counters.close_alike hR (hR.unmapRing h _)
  · exact s.counters.close_alike hR h

theorem PackageSession.close_alike (s : PackageSession) (h : R m m') : R (s.close m) (s.close m') :=
  List.foldl_rel h fun c _ _ _ => c.close_alike hR

theorem GroupSession.close_alike (s : GroupSession) (h : R m m') : R (s.close m) (s.close m') :=
  List.foldl_rel h fun p _ _ _ => p.close_alike hR

/-- **The same counters are closed on machines that are alike.** -/
theorem SessionTree.close_alike (t : SessionTree) (h : R m m') : R (t.close m) (t.close m') :=
  List.foldl_rel h fun g _ _ _ => g.close_alike hR

end Closing

/-! ## Opening -/

section Opening

variable (hR : OpensAlike R pmu pmu')

include hR

/-- **A counter opened on two machines is the same counter**, or fails to open for the same reason.
-/
theorem CounterGroup.add_alike (h : R m m') (attr : Attribute) (scope : Scope) (g : CounterGroup) :
    ∃ r g₁ m₁ m₁', g.add pmu attr scope m = (r, g₁, m₁) ∧
      g.add pmu' attr scope m' = (r, g₁, m₁') ∧ R m₁ m₁' := by
  obtain ⟨r, m₁, m₁', hopen, hopen', h₁⟩ :=
    hR.openCounter h { attr, scope, leader := some g.leader }
  rw [CounterGroup.add, CounterGroup.add, hopen, hopen']
  rcases r with e | id
  · exact ⟨_, _, _, _, rfl, rfl, h₁⟩
  · exact ⟨_, _, _, _, rfl, rfl, h₁⟩

/-- A ring can be set up on both machines or on neither. -/
theorem CpuSession.startSampler_alike (h : R m m') (leader : CounterId)
    (sampling : Option SamplingOptions) :
    Same R (startSampler pmu leader sampling m) (startSampler pmu' leader sampling m') := by
  cases sampling with
  | none => exact .of_eq _ h
  | some options =>
      rw [startSampler, startSampler, Sampler.start, Sampler.start]
      split
      · exact .of_eq _ h
      · exact hR.mapRing h _ _

/-- Siblings are added to a group on both machines alike, up to the same failure. -/
theorem CpuSession.addSiblings_alike (scope : Scope) (leaf : Leaf) :
    ∀ (events : List EventDescriptor) (g : CounterGroup) {m m' : Machine σ}, R m m' →
      ∃ r g₁ m₁ m₁', addSiblings pmu scope leaf events g m = (r, g₁, m₁) ∧
        addSiblings pmu' scope leaf events g m' = (r, g₁, m₁') ∧ R m₁ m₁'
  | [], g, _, _, h => ⟨_, _, _, _, rfl, rfl, h⟩
  | e :: rest, g, m, m', h => by
      obtain ⟨r, g₁, m₁, m₁', hadd, hadd', h₁⟩ := g.add_alike hR h (.counting e.event) scope
      rw [addSiblings, addSiblings, hadd, hadd']
      rcases r with error | id
      · exact ⟨_, _, _, _, rfl, rfl, h₁⟩
      · exact addSiblings_alike scope leaf rest g₁ h₁

/-- A leaf opened on two machines is the same leaf, or fails for the same reason, and in either case
the machines stay alike. -/
theorem CpuSession.start_alike (h : R m m') (group : EventsGroup) (scope : Scope)
    (sampling : Option SamplingOptions) (leaf : Leaf) :
    Same R (CpuSession.start pmu group scope sampling leaf m)
      (CpuSession.start pmu' group scope sampling leaf m') := by
  rw [CpuSession.start, CpuSession.start]
  rcases group.members with fault | ⟨first, rest⟩
  · exact .of_eq _ h
  dsimp only
  obtain ⟨r, m₁, m₁', hopen, hopen', h₁⟩ := hR.openCounter h
    { attr := leaderAttribute first.event sampling, scope, leader := none }
  rw [hopen, hopen']
  rcases r with e | leader
  · exact .of_eq _ h₁
  dsimp only
  obtain ⟨r, m₂, m₂', hmap, hmap', h₂⟩ := startSampler_alike hR h₁ leader sampling
  rw [hmap, hmap']
  rcases r with e | _
  · exact .of_eq _ ((CounterGroup.ofLeader leader).close_alike hR.toClosesAlike h₂)
  dsimp only
  obtain ⟨r, g, m₃, m₃', hadd, hadd', h₃⟩ :=
    addSiblings_alike hR scope leaf rest (.ofLeader leader) h₂
  rw [hadd, hadd']
  rcases r with e | _
  · exact .of_eq _ ((CpuSession.mk g sampling.isSome).close_alike hR.toClosesAlike h₃)
  · exact .of_eq _ h₃

theorem PackageSession.start_alike (h : R m m') (config : EventsGroup) (key : String)
    (sampling : Option SamplingOptions) (scope : UInt32 → Scope) (package : UInt32)
    (cpus : OrderedSet UInt32) :
    Same R (PackageSession.start pmu config key sampling scope package cpus m)
      (PackageSession.start pmu' config key sampling scope package cpus m') :=
  (OrderedMap.assemble_same _ (fun cpu _ _ _ h =>
    CpuSession.start_alike hR h config (scope cpu) sampling ⟨key, package, cpu⟩)
    (fun c _ _ => c.close_alike hR.toClosesAlike) h).map PackageSession.mk

theorem GroupSession.start_alike (h : R m m') (topology : Topology) (config : EventsGroup)
    (key : String) (sampling : Option SamplingOptions) (scope : UInt32 → Scope) :
    Same R (GroupSession.start pmu topology config key sampling scope m)
      (GroupSession.start pmu' topology config key sampling scope m') :=
  (OrderedMap.assemble_same _ (fun package cpus _ _ h =>
    PackageSession.start_alike hR h config key sampling scope package cpus)
    (fun p _ _ => p.close_alike hR.toClosesAlike) h).map (GroupSession.mk config)

/-- **The same groups are opened on machines that are alike.** -/
theorem SessionTree.openGroups_alike (h : R m m') (config : MonitoringConfig) :
    Same R (openGroups pmu config m) (openGroups pmu' config m') :=
  OrderedMap.assemble_same config.groups (fun key group _ _ h =>
    GroupSession.start_alike hR h config.topology group key (samplingOf config key)
      (scopeOf config.target)) (fun g _ _ => g.close_alike hR.toClosesAlike) h

end Opening

end CounterWatch
