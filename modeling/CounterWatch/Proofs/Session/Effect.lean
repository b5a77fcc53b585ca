import CounterWatch.Proofs.OrderedMap.Walk
import CounterWatch.Proofs.Ring.Parser
import CounterWatch.Session.Collection
import CounterWatch.Session.Opening
import Mathlib.Logic.Relation

/-!
# Proofs/Session/Effect — what sessions do to a machine

Whatever a session tree does to a machine is made of few effects.  Opening its counters and closing
them has one kind, working with them another; neither does what the other does, and neither takes a
message or sends one.

* `Machine.Setup` — the effects of opening and closing; `SessionTree.start_setups`.
* `Machine.Use` — the effects of enabling and collecting; `SessionTree.collect_uses`.
-/

namespace CounterWatch

variable {σ : Type} {pmu : Pmu σ}

/-- Whether a notice is about the turns of an actor, and not about its counters. -/
def Notice.ofActor : Notice → Bool
  | .noTargetName _ | .notStarted _ | .started _ _ | .terminated | .controlClosed | .tickerClosed
  | .unknownCommand _ | .payloadDropped _ | .tickFailed _ _ => true
  | .ring _ | .sampleTooDeep _ _ | .sampleTruncated _ _ | .strayProcessLine _
  | .severalProcesses _ _ _ | .noSymbols _ _ | .resetFailed _ _ | .enableFailed _ _
  | .multiplexed _ _ _ => false

/-- Whether a call looks something up, and concerns no counter. -/
def Call.isLookup : Call → Bool
  | .openPath _ | .readFile _ | .attach _ => true
  | _ => false

namespace Machine

/-- One effect of finding out about a target. -/
inductive Lookup (m : Machine σ) : Machine σ → Prop
  | note {n : Notice} (h : n.ofActor = false) : Lookup m (m.note n)
  | call {c : Call} (h : c.isLookup = true) : Lookup m (m.call c)

/-- One effect of opening counters, or of closing them. -/
inductive Setup (pmu : Pmu σ) (m : Machine σ) : Machine σ → Prop
  | lookup {m' : Machine σ} (h : m.Lookup m') : Setup pmu m m'
  | openCounter (request : OpenRequest) : Setup pmu m (m.openCounter pmu request).2
  | mapRing (id : CounterId) (length : Nat) : Setup pmu m (m.mapRing pmu id length).2
  | unmapRing (id : CounterId) : Setup pmu m (m.unmapRing id)
  | closeCounter (c : Counter) : Setup pmu m (m.closeCounter c)

/-- One effect of working with open counters. -/
inductive Use (pmu : Pmu σ) (m : Machine σ) : Machine σ → Prop
  | note {n : Notice} (h : n.ofActor = false) : Use pmu m (m.note n)
  | enable (id : CounterId) : Use pmu m (m.enable pmu id).2
  | reset (id : CounterId) : Use pmu m (m.reset pmu id).2
  | read (id : CounterId) (buffer : Bytes) : Use pmu m (m.read pmu id buffer).2.2
  | drained (id : CounterId) (ring : Ring) : Use pmu m { m with rings := m.rings.insert id ring }

/-- Effects of finding out about a target, one after the other. -/
def Lookups : Machine σ → Machine σ → Prop := Relation.ReflTransGen Lookup

/-- Effects of opening and closing, one after the other. -/
def Setups (pmu : Pmu σ) : Machine σ → Machine σ → Prop := Relation.ReflTransGen (Setup pmu)

/-- Effects of working with open counters, one after the other. -/
def Uses (pmu : Pmu σ) : Machine σ → Machine σ → Prop := Relation.ReflTransGen (Use pmu)

/-- A relation that allows one notice allows several, as long as none is about the turns of an
actor. -/
theorem reaches_notes {R : Machine σ → Machine σ → Prop}
    (hnote : ∀ m n, Notice.ofActor n = false → R m (m.note n)) :
    ∀ {ns : List Notice} (m : Machine σ), (∀ n ∈ ns, n.ofActor = false) →
      Relation.ReflTransGen R m (m.notes ns)
  | [], m, _ => by rw [notes, List.append_nil]
  | n :: ns, m, h => by
      have hrest := reaches_notes hnote (m.note n) fun n' hn' => h n' (List.mem_cons_of_mem _ hn')
      rw [notes, note, List.append_assoc, List.singleton_append] at hrest
      exact .head (hnote m n (h n List.mem_cons_self)) hrest

end Machine

open Machine

/-! ## Enabling -/

/-- Enabling a leaf resets its leader and enables it, with a notice for whatever fails. -/
theorem CpuSession.enable_uses (leaf : Leaf) (s : CpuSession) (m : Machine σ) :
    Uses pmu m (s.enable pmu leaf m).2 := by
  have hclear : Uses pmu m (s.counters.clear pmu m).2 := .single (.reset _)
  have henable : ∀ m', Uses pmu m m' → Uses pmu m (s.counters.enable pmu m').2 :=
    fun _ h => h.tail (.enable _)
  rw [CpuSession.enable]
  rcases hc : s.counters.clear pmu m with ⟨e | _, m₁⟩
  · rw [hc] at hclear
    have hnote : Uses pmu m (m₁.note (.resetFailed leaf e)) := hclear.tail (.note rfl)
    have hlast := henable _ hnote
    dsimp only
    rcases he : s.counters.enable pmu (m₁.note (.resetFailed leaf e)) with ⟨e' | _, m₂⟩
    · rw [he] at hlast
      exact hlast.tail (.note rfl)
    · rw [he] at hlast
      exact hlast
  · rw [hc] at hclear
    have hlast := henable m₁ hclear
    dsimp only
    rcases he : s.counters.enable pmu m₁ with ⟨e | _, m₂⟩
    · rw [he] at hlast
      exact hlast.tail (.note rfl)
    · rw [he] at hlast
      exact hlast

theorem enableLeaves_uses : ∀ (leaves : List (Leaf × CpuSession)) (m : Machine σ),
    Uses pmu m (enableLeaves pmu leaves m).2
  | [], _ => .refl
  | (leaf, s) :: rest, m => by
      rw [enableLeaves]
      exact (s.enable_uses leaf m).trans (enableLeaves_uses rest _)

/-- **Enabling a tree uses its counters.** -/
theorem SessionTree.enable_uses (t : SessionTree) (m : Machine σ) : Uses pmu m (t.enable pmu m).2 :=
  enableLeaves_uses t.leaves m

/-! ## Collecting -/

/-- Asking a group for its report reads its leader, and that is all it does. -/
theorem CounterGroup.stat_uses (g : CounterGroup) (m : Machine σ) :
    Uses pmu m (g.stat pmu m).2.2 := by
  have hread : Uses pmu m (m.read pmu g.leader g.buffer).2.2 := .single (.read _ _)
  rw [CounterGroup.stat]
  rcases hr : m.read pmu g.leader g.buffer with ⟨e | got, buffer, m₁⟩
  · rw [hr] at hread
    exact hread
  · rw [hr] at hread
    exact hread

/-- A report that does not cover the whole time is worth a notice, which is no concern of the actor.
-/
theorem noteMultiplexing_uses (leaf : Leaf) (r : Report) (m : Machine σ) :
    Uses pmu m (noteMultiplexing leaf r m) := by
  rw [noteMultiplexing]
  split
  · exact .single (.note rfl)
  · exact .refl

/-- Rendering one more record adds no notice about the turns of the actor. -/
theorem Sampler.ofActor_renderRecord (c : Callchain) (record : Bytes) (ring : Ring)
    (seen : Rendering) (h : ∀ n ∈ seen.2, n.ofActor = false) :
    ∀ n ∈ (renderRecord c record ring seen).2.2, n.ofActor = false := by
  rw [renderRecord]
  split
  · exact h
  next refusal _ =>
    intro n hn
    rcases List.mem_append.mp hn with hn | hn
    · exact h n hn
    · cases refusal <;> simp only [Notice.ofRefusal?, Option.toList, List.mem_singleton,
        List.not_mem_nil] at hn <;> subst hn <;> rfl

/-- Draining a ring leaves notices about samples and the ring only. -/
theorem Sampler.ofActor_drain {c : Callchain} {r r' : Ring} {text : String} {notices : List Notice}
    (h : drain c r = some (text, r', notices)) : ∀ n ∈ notices, n.ofActor = false := by
  rw [drain] at h
  obtain ⟨d, hd, hd'⟩ := Option.map_eq_some_iff.mp h
  obtain rfl := congrArg (fun p => p.2.2) hd'
  have hstate := Ring.state_drain (P := fun seen : Rendering => ∀ n ∈ seen.2, n.ofActor = false)
    (ofActor_renderRecord c) (fun n hn => absurd hn List.not_mem_nil) hd
  intro n hn
  rcases List.mem_append.mp hn with hn | hn
  · exact hstate n hn
  · obtain ⟨fault, -, rfl⟩ := Option.map_eq_some_iff.mp (Option.mem_toList.mp hn)
    rfl

/-- Taking the call chains of a leaf drains its ring, if it has one, and notes what could not be
read. -/
theorem CpuSession.callchains_uses (c : Callchain) (s : CpuSession) (m : Machine σ) :
    Uses pmu m (s.callchains c m).2 := by
  rw [CpuSession.callchains]
  split
  · rw [Sampler.callchains]
    split
    next text ring notices heq =>
      obtain ⟨r, -, hdrain⟩ := Option.bind_eq_some_iff.mp heq
      have hnotes := reaches_notes (R := Use pmu) (fun _ _ h => .note h)
        { m with rings := m.rings.insert s.counters.leader ring } (Sampler.ofActor_drain hdrain)
      exact .head (.drained _ ring) hnotes
    next => exact .refl
  · exact .refl

/-- Collecting a leaf asks for the report of its group, and on success drains the ring of its
leader. -/
theorem CpuSession.collect_uses (c : Callchain) (events : List String) (leaf : Leaf)
    (s : CpuSession) (m : Machine σ) : Uses pmu m (s.collect pmu c events leaf m).2.2 := by
  have hstat : Uses pmu m (s.counters.stat pmu m).2.2 := s.counters.stat_uses m
  rw [CpuSession.collect]
  rcases hs : s.counters.stat pmu m with ⟨e | report, counters, m₁⟩
  · rw [hs] at hstat
    exact hstat
  · rw [hs] at hstat
    have hclear : Uses pmu m (counters.clear pmu m₁).2 := hstat.tail (.reset _)
    dsimp only
    rcases hc : counters.clear pmu m₁ with ⟨e | _, m₂⟩
    · rw [hc] at hclear
      exact hclear
    · rw [hc] at hclear
      have hnote := hclear.trans (noteMultiplexing_uses leaf report m₂)
      exact hnote.trans (CpuSession.callchains_uses c _ _)

theorem PackageSession.collect_uses (c : Callchain) (events : List String) (group : String)
    (package : UInt32) (s : PackageSession) (m : Machine σ) :
    Uses pmu m (s.collect pmu c events group package m).2.2 :=
  OrderedMap.visit_relates (fun _ => .refl) .trans (fun _ session m =>
    session.collect_uses c events _ m) m

theorem GroupSession.collect_uses (c : Callchain) (group : String) (s : GroupSession)
    (m : Machine σ) : Uses pmu m (s.collect pmu c group m).2.2 :=
  OrderedMap.visit_relates (fun _ => .refl) .trans (fun _ session m =>
    session.collect_uses c _ group _ m) m

/-- **Collecting uses the counters of a tree**, whether it succeeds or not. -/
theorem SessionTree.collect_uses (timestamp : UInt64) (target : String) (t : SessionTree)
    (m : Machine σ) : Uses pmu m (t.collect pmu timestamp target m).2.2 :=
  OrderedMap.visit_relates (fun _ => .refl) .trans (fun group session m =>
    session.collect_uses t.callchain group m) m

/-! ## Closing -/

/-- Closing a group closes its counters, and nothing else. -/
theorem CounterGroup.close_setups (g : CounterGroup) (m : Machine σ) :
    Setups pmu m (g.close m) := by
  have hsiblings : ∀ (l : List CounterId) (m : Machine σ), Setups pmu m
      (l.foldl (fun m id => m.closeCounter ⟨id, some g.leader⟩) m) := by
    intro l
    induction l with
    | nil => exact fun _ => .refl
    | cons id rest ih => exact fun m => .head (.closeCounter _) (ih _)
  exact (hsiblings g.siblings m).tail (.closeCounter _)

/-- Closing a leaf unmaps its ring, if it has one, and closes its group. -/
theorem CpuSession.close_setups (s : CpuSession) (m : Machine σ) : Setups pmu m (s.close m) := by
  rw [CpuSession.close]
  split
  · exact .head (.unmapRing _) (s.counters.close_setups _)
  · exact s.counters.close_setups m

/-- Closing whatever closes with such effects, one after the other, has such effects. -/
theorem setups_foldl {γ : Type} {close : Machine σ → γ → Machine σ}
    (h : ∀ c m, Setups pmu m (close m c)) : ∀ (l : List γ) (m : Machine σ),
    Setups pmu m (l.foldl close m)
  | [], _ => .refl
  | c :: rest, m => (h c m).trans (setups_foldl h rest _)

theorem PackageSession.close_setups (s : PackageSession) (m : Machine σ) :
    Setups pmu m (s.close m) :=
  setups_foldl CpuSession.close_setups s.cpus.values m

theorem GroupSession.close_setups (s : GroupSession) (m : Machine σ) : Setups pmu m (s.close m) :=
  setups_foldl PackageSession.close_setups s.packages.values m

/-- **Closing a tree** only closes and unmaps. -/
theorem SessionTree.close_setups (t : SessionTree) (m : Machine σ) : Setups pmu m (t.close m) :=
  setups_foldl GroupSession.close_setups t.groups.values m

/-! ## Opening -/

/-- Lines of a list of processes that say nothing are noted, and no actor is concerned. -/
theorem ofActor_strayLines (entries : List Cgroup.Entry) :
    ∀ n ∈ strayLines entries, n.ofActor = false := by
  intro n hn
  obtain ⟨entry, -, hentry⟩ := List.mem_filterMap.mp hn
  cases entry with
  | pid _ => cases hentry
  | other line =>
      obtain rfl := Option.some.inj hentry
      rfl

/-- Finding the first process of a control group opens its directory and reads its list. -/
theorem firstProcess_lookups (directory : Path) (m : Machine σ) :
    Lookups m (firstProcess directory m).2 := by
  have hlook : Lookups m (m.openPath directory).2 := .single (.call rfl)
  rw [firstProcess]
  split
  next e m₁ heq => rw [heq] at hlook; exact hlook
  next m₁ heq =>
    rw [heq] at hlook
    have hread : Lookups m (m₁.readProcesses directory).2 := hlook.tail (.call rfl)
    split
    next e m₂ heq => rw [heq] at hread; exact hread
    next entries m₂ heq =>
      rw [heq] at hread
      have hnotes := hread.trans (reaches_notes (fun _ _ h => .note h) m₂
        (ofActor_strayLines entries))
      split
      · exact hnotes
      · exact hnotes
      · exact hnotes.tail (.note rfl)

/-- Attaching a source of names makes one call, with a notice should it fail. -/
theorem attachSymbols_lookups (backend : Option Backend) (pid : UInt32) (m : Machine σ) :
    Lookups m (attachSymbols backend pid m).2 := by
  cases backend with
  | none => exact .refl
  | some backend =>
      have hattach : Lookups m (m.attach backend pid).2 := .single (.call rfl)
      rw [attachSymbols]
      split
      next symbols m₁ heq => rw [heq] at hattach; exact hattach
      next e m₁ heq => rw [heq] at hattach; exact hattach.tail (.note rfl)

/-- **Preparing a target only looks things up**: no counter is opened by then. -/
theorem prepareTarget_lookups (target : Target) (backend : Option Backend) (m : Machine σ) :
    Lookups m (prepareTarget target backend m).2 := by
  rw [prepareTarget]
  split
  · exact .refl
  next directory _ =>
    have hfirst := firstProcess_lookups directory m
    split
    next e m₁ heq => rw [heq] at hfirst; exact hfirst
    next pid m₁ heq =>
      rw [heq] at hfirst
      exact hfirst.trans (attachSymbols_lookups backend pid m₁)

/-- Setting up the ring of a leader maps it, where samples are asked for. -/
theorem CpuSession.startSampler_setups (leader : CounterId) (sampling : Option SamplingOptions)
    (m : Machine σ) : Setups pmu m (startSampler pmu leader sampling m).2 := by
  cases sampling with
  | none => exact .refl
  | some options =>
      rw [startSampler, Sampler.start]
      split
      · exact .refl
      · exact .single (.mapRing _ _)

theorem CounterGroup.add_setups (attr : Attribute) (scope : Scope) (g : CounterGroup)
    (m : Machine σ) : Setups pmu m (g.add pmu attr scope m).2.2 := by
  have hopen : Setups pmu m (m.openCounter pmu { attr, scope, leader := some g.leader }).2 :=
    .single (.openCounter _)
  rw [CounterGroup.add]
  split
  next id m' heq => rw [heq] at hopen; exact hopen
  next e m' heq => rw [heq] at hopen; exact hopen

/-- Adding siblings opens them in order, up to the first that cannot be opened. -/
theorem CpuSession.addSiblings_setups (scope : Scope) (leaf : Leaf) :
    ∀ (events : List EventDescriptor) (g : CounterGroup) (m : Machine σ),
      Setups pmu m (addSiblings pmu scope leaf events g m).2.2
  | [], _, _ => .refl
  | e :: rest, g, m => by
      have hadd : Setups pmu m (g.add pmu (.counting e.event) scope m).2.2 :=
        g.add_setups (.counting e.event) scope m
      rw [addSiblings]
      split
      next error g' m' heq => rw [heq] at hadd; exact hadd
      next id g' m' heq =>
        rw [heq] at hadd
        exact hadd.trans (addSiblings_setups scope leaf rest g' m')

/-- Opening a leaf opens its leader, its ring and its siblings, and closes what was opened if one of
them fails. -/
theorem CpuSession.start_setups (group : EventsGroup) (scope : Scope)
    (sampling : Option SamplingOptions) (leaf : Leaf) (m : Machine σ) :
    Setups pmu m (CpuSession.start pmu group scope sampling leaf m).2 := by
  rw [CpuSession.start]
  split
  next => exact .refl
  next first rest _ =>
    have hopen : Setups pmu m (m.openCounter pmu
        { attr := leaderAttribute first.event sampling, scope, leader := none }).2 :=
      .single (.openCounter _)
    split
    next e m₁ heq => rw [heq] at hopen; exact hopen
    next leader m₁ heq =>
      rw [heq] at hopen
      have hmap := hopen.trans (startSampler_setups leader sampling m₁)
      dsimp only
      split
      next e m₂ heq => rw [heq] at hmap; exact hmap.trans (CounterGroup.close_setups _ _)
      next m₂ heq =>
        rw [heq] at hmap
        have hadd := hmap.trans (addSiblings_setups scope leaf rest (.ofLeader leader) m₂)
        split
        next g m₃ heq => rw [heq] at hadd; exact hadd
        next e g m₃ heq => rw [heq] at hadd; exact hadd.trans (CpuSession.close_setups _ _)

/-- What is built entry by entry, and undone after a failure, has such effects if every step has. -/
theorem OrderedMap.assemble_setups {α β γ ε : Type} [Ord α] (entries : OrderedMap α β)
    {make : α → β → Machine σ → Except ε γ × Machine σ} {undo : γ → Machine σ → Machine σ}
    (hmake : ∀ k v m, Setups pmu m (make k v m).2) (hundo : ∀ c m, Setups pmu m (undo c m))
    (m : Machine σ) : Setups pmu m (entries.assemble make undo m).2 := by
  have hstep : ∀ k v m' r m'', Setups pmu m m' → make k v m' = (r, m'') → Setups pmu m m'' := by
    intro k v m' r m'' h heq
    have hm := hmake k v m'
    rw [heq] at hm
    exact h.trans hm
  have hwalk := entries.assemble_induction (fun _ m' => Setups pmu m m')
    (fun _ m' => Setups pmu m m') .refl
    (fun _ k v m' _ m'' h heq => hstep k v m' _ m'' h heq)
    (fun made k v m' _ m'' h heq => (hstep k v m' _ m'' h heq).trans
      (setups_foldl (fun (p : α × γ) m => hundo p.2 m) made m''))
  split at hwalk
  next heq => rw [heq]; exact hwalk
  next heq => rw [heq]; exact hwalk

theorem PackageSession.start_setups (config : EventsGroup) (key : String)
    (sampling : Option SamplingOptions) (scope : UInt32 → Scope) (package : UInt32)
    (cpus : OrderedSet UInt32) (m : Machine σ) :
    Setups pmu m (PackageSession.start pmu config key sampling scope package cpus m).2 :=
  OrderedMap.assemble_setups _ (fun _ _ m => CpuSession.start_setups config _ sampling _ m)
    CpuSession.close_setups m

theorem GroupSession.start_setups (topology : Topology) (config : EventsGroup) (key : String)
    (sampling : Option SamplingOptions) (scope : UInt32 → Scope) (m : Machine σ) :
    Setups pmu m (GroupSession.start pmu topology config key sampling scope m).2 :=
  OrderedMap.assemble_setups _ (fun package cpus m =>
    PackageSession.start_setups config key sampling scope package cpus m)
    PackageSession.close_setups m

/-- **Opening a tree** only opens and maps, and closes what it opened. -/
theorem SessionTree.start_setups (config : MonitoringConfig) (backend : Option Backend)
    (m : Machine σ) : Setups pmu m (SessionTree.start pmu config backend m).2 := by
  have hprepare : Setups pmu m (prepareTarget config.target backend m).2 :=
    Relation.ReflTransGen.mono (fun _ _ h => Setup.lookup h) _ _
      (prepareTarget_lookups config.target backend m)
  rw [SessionTree.start]
  split
  next e m' heq => rw [heq] at hprepare; exact hprepare
  next pid symbols m' heq =>
    rw [heq] at hprepare
    exact hprepare.trans (OrderedMap.assemble_setups _ (fun key group m =>
      GroupSession.start_setups config.topology group key _ _ m) GroupSession.close_setups m')

end CounterWatch
