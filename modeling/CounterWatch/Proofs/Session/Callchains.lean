import CounterWatch.Proofs.Session.Run
import CounterWatch.Proofs.Session.Snapshot

/-!
# Proofs/Session/Callchains — call chains across collections

As long as whole records are produced where there is room, every sample is reported once: by the
collection that next takes its leaf, and on that leaf.

* `Callchain.report?` — what is reported of records; `Taking.get?_callchain`.
* `Accounted` — what happens to the samples of a leaf is as it should be.
* `callchains_reported_once` — everything that happens to them is.
-/

namespace CounterWatch

variable {σ : Type} {pmu : Pmu σ}

/-! ## The metric -/

/-- What is reported of records: the chains of those that have one, and nothing if none has. -/
def Callchain.report? (c : Callchain) (records : List Bytes) : Option String :=
  if c.accepted records = [] then none else some (c.rendering records)

theorem Callchain.getD_report? (c : Callchain) (records : List Bytes) :
    (c.report? records).getD "" = c.rendering records := by
  rw [report?]
  split
  next h => rw [rendering, h]; rfl
  next => rfl

/-- **The metric of call chains** is there if a record has a chain. -/
theorem Taking.get?_callchain {c : Callchain} {events : List String} {k : Taking}
    (hsound : k.session.Sound events) (hcounts : k.report.counts.length = k.session.counters.size) :
    (k.data c events).metrics.get? Metric.callchainName
      = (c.report? k.shown).map .callchain := by
  have hlength : events.length = k.report.counts.length := hsound.named.trans hcounts.symm
  have hentries := CpuData.entries_perm (c.rendering k.shown) hlength hsound.nodup hsound.unreserved
  have hempty : (c.rendering k.shown).isEmpty = true ↔ c.accepted k.shown = [] :=
    Callchain.isEmpty_rendering
  rw [Callchain.report?]
  by_cases haccepted : c.accepted k.shown = []
  · have hnames := hentries.map Prod.fst
    rw [Metric.ofChains, if_pos (hempty.mpr haccepted), List.append_nil,
      Metric.names_ofReport hlength] at hnames
    rw [if_pos haccepted]
    refine OrderedMap.get?_of_not_mem fun hmem => ?_
    rcases List.mem_append.mp (hnames.mem_iff.mp hmem) with htime | hevent
    · exact absurd htime (by decide)
    · exact hsound.unreserved _ hevent (by decide)
  · rw [Metric.ofChains, if_neg (mt hempty.mp haccepted)] at hentries
    rw [if_neg haccepted]
    exact OrderedMap.get?_of_mem
      (hentries.mem_iff.mpr (List.mem_append_right _ (List.mem_singleton.mpr rfl)))

/-- What a payload has under the name of call chains, of a leaf that was taken. -/
structure Taking.Rendered (c : Callchain) (p : Payload) (k : Taking) : Prop where
  metric : ∃ d, p.cpu? k.leaf.group k.leaf.package k.leaf.cpu = some d ∧
    d.metrics.get? Metric.callchainName = (c.report? k.shown).map .callchain
  unsampled : k.session.sampled = false → k.shown = []

/-- **A payload has the call chains of what was taken**, leaf by leaf. -/
theorem SessionTree.Sound.rendered {t t' : SessionTree} (hsound : t.Sound) {ks : List Taking}
    {m m' : Machine σ} {timestamp : UInt64} {target : String} {p : Payload}
    (hleaves : ks.map Taking.place = t.leaves) (hsweep : Sweep pmu t.callchain ks m m')
    (hcollect : t.collect pmu timestamp target m = (.ok p, t', m')) {k : Taking} (hk : k ∈ ks) :
    k.Rendered t.callchain p := by
  obtain ⟨p', t'', hcollect', hreports, -⟩ :=
    SessionTree.collect_of_sweep hleaves hsweep timestamp target
  rw [hcollect] at hcollect'
  obtain rfl := Except.ok.inj (congrArg Prod.fst hcollect')
  have hplace : k.place ∈ t.leaves := hleaves ▸ List.mem_map_of_mem hk
  have hreport : (k.leaf, k.data t.callchain (t.events k.leaf.group)) ∈ p.leaves :=
    hreports ▸ List.mem_map_of_mem hk
  obtain ⟨m₁, m₂, m₃, m₄, -, -, hspelled, -, hshown, -⟩ := hsweep.exists_takes hk
  refine ⟨⟨_, Payload.cpu?_of_mem_leaves hreport,
    k.get?_callchain (hsound.leaves _ _ hplace) hspelled.counts⟩, fun hsampled => ?_⟩
  rw [hshown, Machine.shown, hsampled]
  rfl

/-- The call chains that a payload has of a leaf. -/
def Payload.callchain? (p : Payload) (leaf : Leaf) : Option String :=
  (p.cpu? leaf.group leaf.package leaf.cpu).bind CpuData.callchain?

theorem Taking.Rendered.callchain?_eq {c : Callchain} {p : Payload} {k : Taking}
    (h : k.Rendered c p) : p.callchain? k.leaf = c.report? k.shown := by
  obtain ⟨d, hd, hmetric⟩ := h.metric
  rw [Payload.callchain?, hd, Option.bind_some, CpuData.callchain?, hmetric]
  rcases c.report? k.shown with _ | text
  · rfl
  · rfl

/-- The call chains that the payloads of a history have of a leaf, one behind the other. -/
def chainsOf (leaf : Leaf) (history : List Happening) : String :=
  String.join <| history.map fun
    | .reported p => (p.callchain? leaf).getD ""
    | .produced _ _ | .taken _ | .failed _ => ""

theorem chainsOf_append (leaf : Leaf) (history more : List Happening) :
    chainsOf leaf (history ++ more) = chainsOf leaf history ++ chainsOf leaf more := by
  rw [chainsOf, List.map_append, String.join_append]
  rfl

theorem chainsOf_of_goes {leaf : Leaf} {history : List Happening}
    (h : ∀ x ∈ history, x.ends = false) : chainsOf leaf history = "" := by
  induction history with
  | nil => rfl
  | cons x rest ih =>
      obtain ⟨hx, hrest⟩ := List.forall_mem_cons.mp h
      rw [chainsOf, List.map_cons, String.join_cons]
      cases x with
      | produced | taken => exact String.empty_append.trans (ih hrest)
      | reported | failed => cases hx

/-- The call chains reported of a leaf are those of everything produced on it, but for what waits to
be reported. -/
def Balanced (c : Callchain) (leaf : Leaf) (id : CounterId) (history : List Happening) : Prop :=
  chainsOf leaf history ++ c.rendering (waiting id history) = c.rendering (producedOn id history)

namespace Balanced

variable {c : Callchain} {leaf : Leaf} {id : CounterId} {history : List Happening}

theorem append (h : Balanced c leaf id history) {more : List Happening}
    (hgoes : ∀ x ∈ more, x.ends = false) (hnot : ∀ x ∈ more, ¬ x.Drains id) :
    Balanced c leaf id (history ++ more) := by
  rw [Balanced, chainsOf_append, chainsOf_of_goes hgoes, String.append_empty,
    waiting_append_of_not_drains _ hnot, producedOn_append, c.rendering_append, c.rendering_append,
    ← String.append_assoc]
  exact congrArg (· ++ _) h

/-- **What waits is reported when the leaf is taken.** -/
theorem taken (h : Balanced c leaf id history) {k : Taking}
    (hdrains : (Happening.taken k).Drains id) (hshown : k.shown = waiting id history)
    {since : List Happening}
    (hgoes : ∀ x ∈ since, x.ends = false) (hnot : ∀ x ∈ since, ¬ x.Drains id) {p : Payload}
    (hp : p.callchain? leaf = c.report? k.shown) :
    Balanced c leaf id (history ++ .taken k :: (since ++ [.reported p])) := by
  have hnot' : ∀ x ∈ since ++ [.reported p], ¬ x.Drains id := by
    intro x hx
    rcases List.mem_append.mp hx with hx | hx
    · exact hnot x hx
    · rw [List.mem_singleton.mp hx]
      exact not_false
  have hchains : chainsOf leaf (.taken k :: (since ++ [.reported p])) = c.rendering k.shown := by
    have hgoes' : ∀ x ∈ Happening.taken k :: since, x.ends = false :=
      List.forall_mem_cons.mpr ⟨rfl, hgoes⟩
    rw [← List.cons_append, chainsOf_append, chainsOf_of_goes hgoes', String.empty_append,
      ← c.getD_report?, ← hp]
    exact String.join_cons.trans String.append_empty
  have hproduced : producedOn id (history ++ .taken k :: (since ++ [.reported p]))
      = producedOn id history ++ producedOn id (since ++ [.reported p]) := producedOn_append ..
  rw [Balanced, chainsOf_append, hchains, hshown, waiting_of_drained _ hdrains hnot', hproduced,
    c.rendering_append]
  exact congrArg (· ++ _) h

end Balanced

/-! ## Accounts -/

/-- What happens to the samples of a leaf is accounted for by what happened before.  When the leaf
is taken, it is with what waits in its ring.  A payload has the chains of what the leaf was taken
with, by the collection that ends with it.  A collection that fails at the leaf, or at one that
comes before it, takes nothing from it: what waited there waits still, and what was produced
meanwhile does as well. -/
def Accounted (c : Callchain) (order : List Leaf) (leaf : Leaf) (id : CounterId)
    (before : List Happening) : Happening → Prop
  | .produced _ _ => True
  | .taken k => k.leaf = leaf → k.shown = waiting id before
  | .reported p => ∃ k, .taken k ∈ current before ∧ k.leaf = leaf ∧ k.Rendered c p
  | .failed e => ∃ stuck, e.leaf? = some stuck ∧ stuck ∈ order ∧
      (order.idxOf stuck ≤ order.idxOf leaf →
        waiting id before = waiting id (settled before) ++ producedOn id (current before))

namespace SessionTree

/-- The keys of the leaves, in order. -/
def order (t : SessionTree) : List Leaf := t.leaves.map Prod.fst

theorem order_of_shape_eq {t t' : SessionTree} (h : t'.shape = t.shape) : t'.order = t.order := by
  have horder : ∀ t : SessionTree, t.order = t.outline.map Prod.fst := by
    intro t
    rw [outline, List.map_map]
    rfl
  rw [horder, horder, outline_of_shape_eq h]

namespace Sound

variable {t : SessionTree} (hsound : t.Sound) {leaf : Leaf} {s : CpuSession}

include hsound

/-- Taking other leaves drains no ring of this one. -/
theorem not_drains_of_not_mem {ks : List Taking} (hl : (leaf, s) ∈ t.leaves)
    (hks : ∀ k ∈ ks, k.place ∈ t.leaves) (hnot : leaf ∉ ks.map Taking.leaf) :
    ∀ x ∈ ks.flatMap Taking.happenings, ¬ x.Drains s.counters.leader := by
  refine not_drains_of_forall_ne fun k hk heq => hnot ?_
  have hplace : k.place = (leaf, s) :=
    List.inj_on_of_nodup_map hsound.leaders (hks k hk) hl heq
  exact List.mem_map.mpr ⟨k, hk, congrArg Prod.fst hplace⟩

/-- A leaf that is not taken before another is at its place or behind it. -/
theorem not_mem_of_idxOf_le {ks : List Taking} {l : Leaf × CpuSession}
    {later : List (Leaf × CpuSession)} (hleaves : t.leaves = ks.map Taking.place ++ l :: later)
    (hle : t.order.idxOf l.1 ≤ t.order.idxOf leaf) : leaf ∉ ks.map Taking.leaf := by
  have horder : t.order = ks.map Taking.leaf ++ l.1 :: later.map Prod.fst := by
    rw [order, hleaves, List.map_append, List.map_map]
    rfl
  have hnodup : t.order.Nodup := hsound.nodup_leaves
  rw [horder, List.nodup_middle, List.nodup_cons, List.mem_append] at hnodup
  intro hmem
  have hstuck : t.order.idxOf l.1 = (ks.map Taking.leaf).length := by
    rw [horder, List.idxOf_append_of_notMem (not_or.mp hnodup.1).1, List.idxOf_cons_self,
      Nat.add_zero]
  have hleaf : t.order.idxOf leaf < (ks.map Taking.leaf).length := by
    rw [horder, List.idxOf_append_of_mem hmem]
    exact List.idxOf_lt_length_of_mem hmem
  omega

end Sound

namespace Run

variable {config : MonitoringConfig} {backend : Option Backend} {m m₀ m₁ : Machine σ}
  {t₀ t : SessionTree} {history : List Happening} {leaf : Leaf} {s : CpuSession}

/-- The leaf of a tree that was opened, as it is by now. -/
theorem leaf_now (h : Run pmu t₀ m₀ history t m₁) (hl : (leaf, s) ∈ t₀.leaves) :
    ∃ s', (leaf, s') ∈ t.leaves ∧ s'.counters.leader = s.counters.leader ∧
      s'.sampled = s.sampled := by
  obtain ⟨s', hl', houtline⟩ := exists_of_shape_eq (works_shape h.works).1.symm hl
  have hleader := congrArg (fun s : CpuSession => s.counters.leader) houtline
  have hsampled := congrArg (fun s : CpuSession => s.sampled) houtline
  exact ⟨s', hl', hleader.symm, hsampled.symm⟩

section Collections

variable {t' : SessionTree} {m' : Machine σ} {ks : List Taking} {timestamp : UInt64}
  {target : String}

/-- **A payload has the chains of what was taken**, of every leaf. -/
theorem accounted_reported (hstart : start pmu config backend m = (.ok t₀, m₀))
    (hrun : Run pmu t₀ m₀ history t m₁) (hl : (leaf, s) ∈ t₀.leaves)
    (hleaves : ks.map Taking.place = t.leaves) (hsweep : Sweep pmu t.callchain ks m₁ m')
    {p : Payload} (hcollect : t.collect pmu timestamp target m₁ = (.ok p, t', m')) :
    Accounted t₀.callchain t₀.order leaf s.counters.leader
      (history ++ ks.flatMap Taking.happenings) (.reported p) := by
  obtain ⟨s', hl', -, -⟩ := hrun.leaf_now hl
  rw [← hleaves] at hl'
  obtain ⟨k, hk, hplace⟩ := List.mem_map.mp hl'
  refine ⟨k, ?_, congrArg Prod.fst hplace, ?_⟩
  · rw [current_append fun _ => ends_of_mem_taking]
    refine List.mem_append_right _ (List.mem_flatMap.mpr ⟨k, hk, ?_⟩)
    exact List.mem_append_right _ (List.mem_singleton.mpr rfl)
  · rw [← (works_shape hrun.works).2]
    exact (sound_of_works hstart hrun.works).rendered hleaves hsweep hcollect hk

/-- **A collection that fails at a leaf, or at one before it, takes nothing from it.** -/
theorem accounted_failed {m₂ : Machine σ} {l : Leaf × CpuSession}
    {later : List (Leaf × CpuSession)} {e : Failure} {bytes : Bytes}
    (hstart : start pmu config backend m = (.ok t₀, m₀)) (hrun : Run pmu t₀ m₀ history t m₁)
    (hl : (leaf, s) ∈ t₀.leaves) (hleaves : t.leaves = ks.map Taking.place ++ l :: later)
    (hstuck : Stuck pmu l.1 l.2 m₂ e bytes m') :
    Accounted t₀.callchain t₀.order leaf s.counters.leader
      (history ++ (ks.flatMap Taking.happenings ++ m₂.during pmu l.2)) (.failed e) := by
  obtain ⟨s', hl', hleader, -⟩ := hrun.leaf_now hl
  have hsound := sound_of_works hstart hrun.works
  have horder := order_of_shape_eq (works_shape hrun.works).1
  have hstuckLeaf : e.leaf? = some l.1 := by
    obtain ⟨why, rfl | rfl⟩ := hstuck.failure
    · rfl
    · rfl
  refine ⟨l.1, hstuckLeaf, ?_, fun hle => ?_⟩
  · rw [← horder, order, hleaves, List.map_append]
    exact List.mem_append_right _ List.mem_cons_self
  · rw [← horder] at hle
    have hks : ∀ k ∈ ks, k.place ∈ t.leaves := fun k hk =>
      hleaves ▸ List.mem_append_left _ (List.mem_map_of_mem hk)
    have hothers := hsound.not_drains_of_not_mem hl' hks (hsound.not_mem_of_idxOf_le hleaves hle)
    rw [hleader] at hothers
    -- since the last collection ended only leaves before the stuck one were taken, and this leaf is
    -- not among them
    have hcurrent : ∀ x ∈ current (history ++ (ks.flatMap Taking.happenings ++ m₂.during pmu l.2)),
        ¬ x.Drains s.counters.leader := by
      intro x hx
      rw [Machine.during, current_append fun _ => ends_of_mem_taking_append] at hx
      rcases List.mem_append.mp hx with hx | hx
      · obtain ⟨i, b, rfl⟩ := hrun.produced_of_mem_current hx
        exact not_false
      rcases List.mem_append.mp hx with hx | hx
      · exact hothers x hx
      · exact not_drains_of_mem_happenings hx
    rw [← waiting_append_of_not_drains _ hcurrent, settled_append_current]

end Collections

/-- **Every end of a collection is accounted for.** -/
theorem accounted_ends (hstart : start pmu config backend m = (.ok t₀, m₀))
    (h : Run pmu t₀ m₀ history t m₁) (hl : (leaf, s) ∈ t₀.leaves) :
    AtEnds (Accounted t₀.callchain t₀.order leaf s.counters.leader) [] history :=
  h.atEnds (fun hrun hleaves hsweep => hrun.accounted_reported hstart hl hleaves hsweep)
    fun hrun hleaves _ hstuck _ => hrun.accounted_failed hstart hl hleaves hstuck

/-- What is taken under the keys of a leaf is that leaf, with some other contents of its buffer. -/
theorem outline_of_taken (hstart : start pmu config backend m = (.ok t₀, m₀))
    (h : Run pmu t₀ m₀ history t m₁) (hl : (leaf, s) ∈ t₀.leaves) {k : Taking}
    (hk : .taken k ∈ history) (hleaf : k.leaf = leaf) : k.session.outline = s.outline := by
  obtain ⟨s', hl', houtline⟩ := h.place_of_taken hk
  have hsame : (k.leaf, s') = (leaf, s) :=
    List.inj_on_of_nodup_map (sound_of_start hstart).nodup_leaves hl' hl hleaf
  obtain rfl : s' = s := congrArg Prod.snd hsame
  exact houtline

theorem drains_of_taken (hstart : start pmu config backend m = (.ok t₀, m₀))
    (h : Run pmu t₀ m₀ history t m₁) (hl : (leaf, s) ∈ t₀.leaves) (hsampled : s.sampled)
    {k : Taking} (hk : .taken k ∈ history) (hleaf : k.leaf = leaf) :
    (Happening.taken k).Drains s.counters.leader := by
  have houtline := h.outline_of_taken hstart hl hk hleaf
  have hsampled' := congrArg (fun s : CpuSession => s.sampled) houtline
  have hleader := congrArg (fun s : CpuSession => s.counters.leader) houtline
  exact ⟨hsampled'.trans hsampled, hleader⟩

/-- **Everything that happens is accounted for**, if whole records are produced where there is
room. -/
theorem accounted (hstart : start pmu config backend m = (.ok t₀, m₀))
    (h : Run pmu t₀ m₀ history t m₁) (hl : (leaf, s) ∈ t₀.leaves) (hsampled : s.sampled) {r : Ring}
    (hring : m₀.rings.get? s.counters.leader = some r) (hempty : r.Queued [])
    (horderly : r.Orderly s.counters.leader history) {before after : List Happening} {x : Happening}
    (hsplit : history = before ++ x :: after) :
    Accounted t₀.callchain t₀.order leaf s.counters.leader before x := by
  subst hsplit
  cases x with
  | produced => trivial
  | taken k =>
      intro hleaf
      have hk : .taken k ∈ before ++ .taken k :: after :=
        List.mem_append_right _ List.mem_cons_self
      exact shown_eq_waiting hempty horderly (h.shows hring)
        (h.drains_of_taken hstart hl hsampled hk hleaf)
  | reported | failed => exact (h.accounted_ends hstart hl).of_append_cons rfl

/-- A collection that succeeds takes a leaf once, and nothing else in it drains its ring. -/
theorem exists_split_of_leaf (hstart : start pmu config backend m = (.ok t₀, m₀))
    (h : Run pmu t₀ m₀ history t m₁) (hl : (leaf, s) ∈ t₀.leaves) {ks : List Taking}
    (hleaves : ks.map Taking.place = t.leaves) :
    ∃ k ∈ ks, k.leaf = leaf ∧ ∃ before since,
      ks.flatMap Taking.happenings = before ++ .taken k :: since ∧
      (∀ x ∈ before, ¬ x.Drains s.counters.leader) ∧ ∀ x ∈ since, ¬ x.Drains s.counters.leader := by
  obtain ⟨s', hl', hleader, -⟩ := h.leaf_now hl
  have hleaders := (sound_of_works hstart h.works).leaders
  rw [← hleaves] at hl' hleaders
  rw [List.map_map] at hleaders
  obtain ⟨k, hk, hplace⟩ := List.mem_map.mp hl'
  obtain ⟨hleaf, hsession⟩ := Prod.mk.inj hplace
  have hsplit := exists_split_of_mem hleaders hk
  rw [Taking.leader, hsession, hleader] at hsplit
  exact ⟨k, hk, hleaf, hsplit⟩

/-- **What waits is reported by the next collection that succeeds.** -/
theorem balanced_collected (hstart : start pmu config backend m = (.ok t₀, m₀))
    (hrun : Run pmu t₀ m₀ history t m₁) (hl : (leaf, s) ∈ t₀.leaves) (hsampled : s.sampled)
    {r : Ring} (hring : m₀.rings.get? s.counters.leader = some r) (hempty : r.Queued [])
    {t' : SessionTree} {m' : Machine σ} {ks : List Taking} {timestamp : UInt64} {target : String}
    {p : Payload} (hleaves : ks.map Taking.place = t.leaves)
    (hsweep : Sweep pmu t.callchain ks m₁ m')
    (hcollect : t.collect pmu timestamp target m₁ = (.ok p, t', m'))
    (horderly : r.Orderly s.counters.leader
      (history ++ (ks.flatMap Taking.happenings ++ [.reported p])))
    (hbefore : Balanced t₀.callchain leaf s.counters.leader history) :
    Balanced t₀.callchain leaf s.counters.leader
      (history ++ (ks.flatMap Taking.happenings ++ [.reported p])) := by
  obtain ⟨k, hk, hleaf, earlier, since, hsplit, hearlier, hsince⟩ :=
    hrun.exists_split_of_leaf hstart hl hleaves
  have hgoes : ∀ x ∈ ks.flatMap Taking.happenings, x.ends = false := fun _ => ends_of_mem_taking
  have hall : history ++ (ks.flatMap Taking.happenings ++ [.reported p])
      = (history ++ earlier) ++ .taken k :: (since ++ [.reported p]) := by
    rw [hsplit]
    simp only [List.append_assoc, List.cons_append]
  have hrun' := hrun.collected hleaves hsweep hcollect
  have hdrains := hrun'.drains_of_taken hstart hl hsampled
    (hall ▸ List.mem_append_right _ List.mem_cons_self) hleaf
  have hshown := hrun'.accounted hstart hl hsampled hring hempty horderly hall hleaf
  have hp := ((sound_of_works hstart hrun.works).rendered hleaves hsweep hcollect hk).callchain?_eq
  rw [hleaf, (works_shape hrun.works).2] at hp
  rw [hsplit] at hgoes
  rw [hall]
  refine (hbefore.append (fun x hx => ?_) hearlier).taken hdrains hshown (fun x hx => ?_) hsince hp
  · exact hgoes x (List.mem_append_left _ hx)
  · exact hgoes x (List.mem_append_right _ (List.mem_cons_of_mem _ hx))

/-- **If no collection fails, nothing is lost.** -/
theorem balanced (hstart : start pmu config backend m = (.ok t₀, m₀))
    (h : Run pmu t₀ m₀ history t m₁) (hl : (leaf, s) ∈ t₀.leaves) (hsampled : s.sampled) {r : Ring}
    (hring : m₀.rings.get? s.counters.leader = some r) (hempty : r.Queued [])
    (horderly : r.Orderly s.counters.leader history) (hok : ∀ e, .failed e ∉ history) :
    Balanced t₀.callchain leaf s.counters.leader history := by
  have hearlier : ∀ {history more : List Happening}, r.Orderly s.counters.leader (history ++ more) →
      (∀ e, .failed e ∉ history ++ more) →
      r.Orderly s.counters.leader history ∧ ∀ e, .failed e ∉ history := fun horderly hok =>
    ⟨(along_append.mp horderly).1, fun e he => hok e (List.mem_append_left _ he)⟩
  -- on the run: what is asked of a history is asked of every beginning of it
  induction h with
  | refl => exact String.empty_append
  | enable _ ih => exact ih horderly hok
  | outside _ step ih =>
      have hproduced : ∀ x ∈ step.happenings, x.ends = false ∧ ¬ x.Drains s.counters.leader := by
        intro x hx
        obtain ⟨i, b, rfl⟩ := step.produced_of_mem hx
        exact ⟨rfl, not_false⟩
      obtain ⟨horderly, hok⟩ := hearlier horderly hok
      exact (ih horderly hok).append (fun x hx => (hproduced x hx).1) fun x hx => (hproduced x hx).2
  | failed => exact absurd (List.mem_append_right _ (List.mem_append_right _
      (List.mem_singleton.mpr rfl))) (hok _)
  | collected hrun hleaves hsweep hcollect ih =>
      obtain ⟨horderly', hok⟩ := hearlier horderly hok
      exact hrun.balanced_collected hstart hl hsampled hring hempty hleaves hsweep hcollect horderly
        (ih horderly' hok)

end Run

end SessionTree

/-- **Call chains are reported once, and on the right leaf.**  A leaf is sampled only in the first
events group of a control group; no payload has call chains of any other leaf.  The ring of a
sampled leaf is there.  If it is mapped empty, and whole records are appended to it where there is
room, then everything that happens to the samples of the leaf is accounted for; and if no collection
fails, the call chains of all payloads are those of all records produced, but for what waits to be
reported. -/
theorem callchains_reported_once {config : MonitoringConfig} {backend : Option Backend}
    {m m₀ : Machine σ} {t₀ : SessionTree} {leaf : Leaf} {s : CpuSession}
    (hstart : SessionTree.start pmu config backend m = (.ok t₀, m₀)) (hl : (leaf, s) ∈ t₀.leaves) :
    (s.sampled ↔ config.target.cgroupPath?.isSome ∧ config.groups.keys.head? = some leaf.group) ∧
    (∀ t m₁, SessionTree.Works pmu (t₀, m₀) (t, m₁) →
      ∃ history, SessionTree.Run pmu t₀ m₀ history t m₁) ∧
    (s.sampled = false → ∀ history t m₁, SessionTree.Run pmu t₀ m₀ history t m₁ →
      ∀ p, .reported p ∈ history → ∃ d, p.cpu? leaf.group leaf.package leaf.cpu = some d ∧
        d.metrics.get? Metric.callchainName = none) ∧
    (s.sampled → ∃ r, m₀.rings.get? s.counters.leader = some r ∧
      (r.size ∣ 2 ^ 64 → r.size < 2 ^ 64 → r.tail = r.head →
        ∀ history t m₁, SessionTree.Run pmu t₀ m₀ history t m₁ →
          r.Orderly s.counters.leader history →
          (∀ before x after, history = before ++ x :: after →
            Accounted t₀.callchain t₀.order leaf s.counters.leader before x) ∧
          ((∀ e, .failed e ∉ history) →
            Balanced t₀.callchain leaf s.counters.leader history))) := by
  obtain ⟨l, -, -, -, -, hsampling, leader, rfl, hring⟩ :=
    SessionTree.planned_of_mem_leaves hstart hl
  refine ⟨?_, fun t m₁ hworks => SessionTree.exists_run hstart hworks,
    fun hunsampled history t m₁ hrun p hp => ?_, fun hsampled => ?_⟩
  · change l.sampling.isSome ↔ _
    rw [hsampling, SessionTree.samplingOf]
    split
    next h => exact iff_of_true rfl h
    next h => exact iff_of_false Bool.false_ne_true h
  · obtain ⟨before, after, rfl⟩ := List.append_of_mem hp
    obtain ⟨k, hk, rfl, hrendered⟩ := (hrun.accounted_ends hstart hl).of_append_cons rfl
    have hmem : .taken k ∈ before ++ .reported p :: after :=
      List.mem_append_left _ ((List.rtakeWhile_suffix _ _).subset hk)
    have hsession := congrArg (fun s : CpuSession => s.sampled)
      (hrun.outline_of_taken hstart hl hmem rfl)
    obtain ⟨d, hd, hmetric⟩ := hrendered.metric
    rw [hrendered.unsampled (hsession.trans hunsampled)] at hmetric
    exact ⟨d, hd, hmetric⟩
  · obtain ⟨r, hr⟩ := Option.isSome_iff_exists.mp (hring hsampled)
    refine ⟨r, hr, fun hdvd hsmall hempty history t m₁ hrun horderly => ?_⟩
    have hqueued := Ring.Queued.of_empty hdvd hsmall hempty
    exact ⟨fun before x after => hrun.accounted hstart hl hsampled hr hqueued horderly,
      hrun.balanced hstart hl hsampled hr hqueued horderly⟩

/-- One event on one CPU, for the processes of a control group. -/
def MonitoringConfig.oneLeaf : MonitoringConfig :=
  { topology := ⟨⟨[(0, ⟨[3], by decide⟩)], by decide⟩⟩
    groups := ⟨[("core", ⟨"core", .allCpus, [⟨"cycles", Hardware.cpuCycle.event⟩]⟩)], by decide⟩
    target := .cgroup ⟨[99]⟩ none
    sampling := { pagesExponent := 0 } }

/-- A machine where every control group has the process 7. -/
def Machine.oneProcess : Machine ScriptProgress :=
  { state := {}, files := ⟨fun _ => .ok (), fun _ => .ok [55], fun _ => .ok []⟩ }

set_option maxRecDepth 40000 in
/-- A sample is produced on the one leaf of a control group, and the next payload has its chain. -/
theorem callchains_reported_once_with_next_payload :
    let pmu : Pmu ScriptProgress := Script.pmu { dataSize := some 4096 }
    let sample : Bytes :=
      [9, 0, 0, 0, 0, 0, 24, 0] ++ [1, 0, 0, 0, 0, 0, 0, 0] ++ [16, 0, 0, 0, 0, 0, 0, 0]
    ∃ t₀ m₀ history t m,
      SessionTree.start pmu .oneLeaf none .oneProcess = (.ok t₀, m₀) ∧
      SessionTree.Run pmu t₀ m₀ history t m ∧ producedOn 0 history = [sample] ∧
      chainsOf ⟨"core", 0, 3⟩ history = "0x0000000000000010|" := by
  intro pmu sample
  let s : CpuSession := ⟨⟨0, [], List.replicate 32 0⟩, true⟩
  let t : SessionTree :=
    { groups := ⟨[("core", ⟨⟨"core", .allCpus, [⟨"cycles", Hardware.cpuCycle.event⟩]⟩,
        ⟨[(0, ⟨⟨[(3, s)], by decide⟩⟩)], by decide⟩⟩)], by decide⟩
      callchain := ⟨.none, 50⟩
      pid := some 7
      inCgroup := true }
  let m₀ := (SessionTree.start pmu .oneLeaf none .oneProcess).2
  have hstart : SessionTree.start pmu .oneLeaf none .oneProcess = (.ok t, m₀) := rfl
  have hl : (⟨"core", 0, 3⟩, s) ∈ t.leaves := List.mem_singleton.mpr rfl
  let m₁ : Machine ScriptProgress := m₀.outside (.produce 0 sample)
  let bytes : Bytes := Bytes.ofWords [1, 1000, 1000, 10]
  have hread : m₁.read pmu 0 s.counters.buffer = (.ok 32, bytes, _) :=
    Prod.ext rfl (Prod.ext (by decide +kernel) rfl)
  have hspelled : Report.SpelledBy ⟨1000, 1000, [10]⟩ 1 bytes := ⟨⟨1, by decide +kernel, rfl⟩, rfl⟩
  let k : Taking :=
    { leaf := ⟨"core", 0, 3⟩, session := s, meanwhile := [], bytes, report := ⟨1000, 1000, [10]⟩
      shown := m₁.shown s }
  have htakes : Takes pmu t.callchain k m₁ _ := ⟨_, _, rfl, hread, hspelled, rfl, rfl, rfl⟩
  have hleaves : [k].map Taking.place = t.leaves := rfl
  have hsweep := Sweep.cons htakes (.nil _)
  obtain ⟨p, t', hcollect, -, -⟩ := SessionTree.collect_of_sweep hleaves hsweep 1 "c"
  have hrun := (SessionTree.Run.refl.outside (.produce 0 sample)).collected hleaves hsweep hcollect
  obtain ⟨-, -, -, hsampled⟩ := callchains_reported_once hstart hl
  obtain ⟨r, hring, honce⟩ := hsampled rfl
  have hmapped : m₀.rings.get? 0 = some (Ring.ofArena ⟨8192, []⟩) := rfl
  obtain rfl := Option.some.inj (hmapped.symm.trans hring)
  let history : List Happening := [.produced 0 sample, .taken k, .reported p]
  have horderly : (Ring.ofArena ⟨8192, []⟩).Orderly 0 history := by
    refine ⟨fun b hb => ?_, fun _ hb => absurd hb List.not_mem_nil,
      fun _ hb => absurd hb List.not_mem_nil, trivial⟩
    rw [List.mem_singleton.mp hb]
    decide +kernel
  have hok : ∀ e, .failed e ∉ history := by
    intro e he
    simp [history] at he
  obtain ⟨-, hbalanced⟩ := honce (by decide) (by decide) (by decide +kernel) _ _ _ hrun horderly
  have hchain : t.callchain.rendering [sample] = "0x0000000000000010|" := by decide +kernel
  have hall : chainsOf ⟨"core", 0, 3⟩ history ++ "" = t.callchain.rendering [sample] :=
    hbalanced hok
  exact ⟨_, _, history, _, _, hstart, hrun, rfl,
    String.append_empty.symm.trans (hall.trans hchain)⟩

end CounterWatch
