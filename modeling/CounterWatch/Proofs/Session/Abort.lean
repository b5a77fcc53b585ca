import CounterWatch.Proofs.Session.Built
import CounterWatch.Pmu.Scripted

/-!
# Proofs/Session/Abort — how far a collection gets that fails

A collection that fails has taken the leaves before the one it fails at, has left alone those behind
it, and leaves a tree that can be collected again, from the first leaf on.

* `Sweep.drainedOnce` — a ring that is drained on the way; `Machine.Undergoes.get?_rings_kept` — one
  that is not.
* `SessionTree.StopsAt` — what a collection that stops at a leaf has done, and what it has not.
* `collect_stops_at_first_stuck` — a collection that fails stops at the first leaf that is stuck.
-/

namespace CounterWatch

variable {σ : Type} {pmu : Pmu σ}

/-! ## Rings -/

namespace Machine.Undergoes

variable {m m' : Machine σ} {hs : List Happening} {id : CounterId}

/-- **A ring that is not drained is kept**, with what was produced on it. -/
theorem get?_rings_kept (h : m.Undergoes hs m') (hnot : ∀ x ∈ hs, ¬ x.Drains id) :
    m'.rings.get? id = (m.rings.get? id).map fun r => (producedOn id hs).foldl Ring.append r := by
  rw [h id]
  exact congrArg (Option.map · _) (funext fun r => Ring.foldl_undergo_of_not_drains hnot r)

end Machine.Undergoes

/-- The ring of a leaf was drained once, between what was produced before and what was produced
since, and what it showed then is what was taken. -/
def Taking.DrainedOnce (k : Taking) (m : Machine σ) (hs : List Happening) (m' : Machine σ) : Prop :=
  ∃ before since, producedOn k.leader hs = before ++ since ∧
    (∀ r, m.rings.get? k.leader = some r → k.shown = (before.foldl Ring.append r).shown) ∧
    m'.rings.get? k.leader = (m.rings.get? k.leader).map fun r =>
      since.foldl Ring.append (before.foldl Ring.append r).emptied

/-- **A sampled leaf that is taken is drained once**, if no other leaf has its leader. -/
theorem Sweep.drainedOnce {c : Callchain} {ks : List Taking} {m m₁ m' : Machine σ}
    {more : List Happening} (hsweep : Sweep pmu c ks m m₁) (hmore : m₁.Undergoes more m')
    (hnodup : (ks.map Taking.leader).Nodup) {k : Taking} (hk : k ∈ ks)
    (hsampled : k.session.sampled) (hnot : ∀ x ∈ more, ¬ x.Drains k.leader) :
    k.DrainedOnce m (ks.flatMap Taking.happenings ++ more) m' := by
  obtain ⟨before, since, hsplit, hbefore, hsince⟩ := exists_split_of_mem hnodup hk
  have hafter : ∀ x ∈ since ++ more, ¬ x.Drains k.leader := by
    intro x hx
    rcases List.mem_append.mp hx with hx | hx
    · exact hsince x hx
    · exact hnot x hx
  -- the one drain splits what was produced on the ring in two
  have hall : ks.flatMap Taking.happenings ++ more = before ++ .taken k :: (since ++ more) := by
    rw [hsplit, List.append_assoc, List.cons_append]
  refine ⟨producedOn k.leader before, producedOn k.leader (since ++ more), ?_, fun r hr => ?_, ?_⟩
  · rw [hall, producedOn_append, producedOn_cons]
    rfl
  · have hshows := hsweep.shows hr
    rw [hsplit] at hshows
    rw [hshows.of_append_cons k rfl ⟨hsampled, rfl⟩, Ring.foldl_undergo_of_not_drains hbefore]
  · rw [hsweep.undergoes.trans hmore k.leader, hall]
    refine congrArg (Option.map · _) (funext fun r => ?_)
    have hdrain : ∀ r : Ring, r.undergo k.leader (.taken k) = r.emptied :=
      fun r => if_pos ⟨hsampled, rfl⟩
    rw [List.foldl_append, List.foldl_cons, hdrain, Ring.foldl_undergo_of_not_drains hbefore,
      Ring.foldl_undergo_of_not_drains hafter]

/-! ## Collections that fail -/

namespace SessionTree

/-- What a collection has done that stops at a leaf, with some leaves taken before it and others
behind it, and what it has left alone. -/
structure StopsAt (pmu : Pmu σ) (t : SessionTree) (m : Machine σ) (ks : List Taking)
    (l : Leaf × CpuSession) (later : List (Leaf × CpuSession)) (m₁ : Machine σ) (bytes : Bytes)
    (e : Failure) (t' : SessionTree) (m' : Machine σ) : Prop where
  leaves : t.leaves = ks.map Taking.place ++ l :: later
  taken : Sweep pmu t.callchain ks m m₁
  stuck : Stuck pmu l.1 l.2 m₁ e bytes m'
  failure : ∃ why, e = .readCounts l.1 why ∨ e = .resetCounts l.1 why
  /-- The leaves before were read once and reset once.  The leaf itself was read once, and was to be
  reset if that is what failed.  No other call was made to a counter. -/
  calls : m'.counterCalls
    = m.counterCalls ++ (ks.map Taking.place).flatMap takingCalls ++ stuckCalls l.2 e
  /-- The rings of the leaves before were drained. -/
  drained : ∀ k ∈ ks, k.session.sampled →
    k.DrainedOnce m (ks.flatMap Taking.happenings ++ m₁.during pmu l.2) m'
  /-- The rings of the leaf and of those behind it are as they were, but for what was produced. -/
  kept : ∀ l' ∈ l :: later, m'.rings.get? l'.2.counters.leader
    = (m.rings.get? l'.2.counters.leader).map fun r =>
        (producedOn l'.2.counters.leader
          (ks.flatMap Taking.happenings ++ m₁.during pmu l.2)).foldl Ring.append r
  tails : ∀ l' ∈ l :: later, (m'.rings.get? l'.2.counters.leader).map Ring.tail
    = (m.rings.get? l'.2.counters.leader).map Ring.tail
  after : t'.leaves = ks.map Taking.after ++ (l.1, l.2.refill bytes) :: later

/-- **A collection that comes to a leaf that is stuck stops there.** -/
theorem stopsAt_of_stuck {t t' : SessionTree} {m m₁ m' : Machine σ} {ks : List Taking}
    {l : Leaf × CpuSession} {later : List (Leaf × CpuSession)} {bytes : Bytes} {e : Failure}
    (hsound : t.Sound) (hleaves : t.leaves = ks.map Taking.place ++ l :: later)
    (hsweep : Sweep pmu t.callchain ks m m₁) (hstuck : Stuck pmu l.1 l.2 m₁ e bytes m')
    (hafter : t'.leaves = ks.map Taking.after ++ (l.1, l.2.refill bytes) :: later) :
    t.StopsAt pmu m ks l later m₁ bytes e t' m' := by
  have hleaders := hsound.leaders
  rw [hleaves, List.map_append, List.map_map, List.nodup_append'] at hleaders
  obtain ⟨hnodup, -, hapart⟩ := hleaders
  have hundergoes := hsweep.undergoes.trans (Machine.undergoes_stuck hstuck)
  have hduring : ∀ id, ∀ x ∈ m₁.during pmu l.2, ¬ x.Drains id :=
    fun _ _ => not_drains_of_mem_happenings
  have hkept : ∀ l' ∈ l :: later, m'.rings.get? l'.2.counters.leader
      = (m.rings.get? l'.2.counters.leader).map fun r =>
          (producedOn l'.2.counters.leader
            (ks.flatMap Taking.happenings ++ m₁.during pmu l.2)).foldl Ring.append r := by
    intro l' hl'
    refine hundergoes.get?_rings_kept fun x hx => ?_
    rcases List.mem_append.mp hx with hx | hx
    · refine not_drains_of_forall_ne (fun k hk heq => ?_) x hx
      exact hapart (List.mem_map_of_mem hk) (List.mem_map.mpr ⟨l', hl', heq.symm⟩)
    · exact hduring _ x hx
  refine ⟨hleaves, hsweep, hstuck, hstuck.failure, ?_, fun k hk hsampled => ?_, hkept,
    fun l' hl' => ?_, hafter⟩
  · rw [hstuck.counterCalls, hsweep.counterCalls]
  · exact hsweep.drainedOnce (Machine.undergoes_stuck hstuck) hnodup hk hsampled (hduring _)
  · rw [hkept l' hl', Option.map_map]
    exact congrArg (Option.map · _) (funext (Ring.tail_foldl_append _))

/-- **A collection succeeds if, and only if, every leaf can be taken.** -/
theorem collect_ok_iff (pmu : Pmu σ) {t : SessionTree}
    (hfits : ∀ l ∈ t.leaves, l.2.counters.Fits) (timestamp : UInt64) (target : String)
    (m : Machine σ) : (∃ p, (t.collect pmu timestamp target m).1 = .ok p) ↔
      ∃ ks m', ks.map Taking.place = t.leaves ∧ Sweep pmu t.callchain ks m m' := by
  constructor
  · rintro ⟨p, hp⟩
    have hcases := collect_cases pmu hfits timestamp target m
    rcases hc : t.collect pmu timestamp target m with ⟨e | p', t', m'⟩
    · rw [hc] at hp
      cases hp
    · rw [hc] at hcases
      obtain ⟨ks, hplaces, hsweep, -⟩ := hcases
      exact ⟨ks, m', hplaces, hsweep⟩
  · rintro ⟨ks, m', hplaces, hsweep⟩
    obtain ⟨p, t', hcollect, -⟩ := collect_of_sweep hplaces hsweep timestamp target
    exact ⟨p, congrArg Prod.fst hcollect⟩

end SessionTree

/-- **A collection that fails stops at the first leaf that is stuck**, and has done nothing behind
it.  The tree it leaves is the one it found but for the contents of buffers, and is collected again
from the first leaf on: whatever happens until then, the next collection succeeds if, and only if,
every leaf can be taken. -/
theorem collect_stops_at_first_stuck {config : MonitoringConfig} {backend : Option Backend}
    {m m₀ m₁ m₂ : Machine σ} {t₀ t t' : SessionTree} {timestamp : UInt64} {target : String}
    {e : Failure} (hstart : SessionTree.start pmu config backend m = (.ok t₀, m₀))
    (hworks : SessionTree.Works pmu (t₀, m₀) (t, m₁))
    (h : t.collect pmu timestamp target m₁ = (.error e, t', m₂)) :
    (∃ ks l later m' bytes, t.StopsAt pmu m₁ ks l later m' bytes e t' m₂) ∧
    t'.shape = t.shape ∧ t' = { t with groups := t'.groups } ∧
    ∀ t₂ m₃, SessionTree.Works pmu (t', m₂) (t₂, m₃) → t₂.shape = t.shape ∧
      ∀ timestamp target, (∃ p, (t₂.collect pmu timestamp target m₃).1 = .ok p) ↔
        ∃ ks m₄, ks.map Taking.place = t₂.leaves ∧ Sweep pmu t₂.callchain ks m₃ m₄ := by
  have hfits : ∀ {t m}, SessionTree.Works pmu (t₀, m₀) (t, m) → ∀ l ∈ t.leaves, l.2.counters.Fits :=
    fun hworks l hl => ((SessionTree.sound_of_works hstart hworks).leaves l.1 l.2 hl).fits
  have hwork : SessionTree.Work pmu (t, m₁) (t.collect pmu timestamp target m₁).2 := .collect ..
  have hgroups : (t.collect pmu timestamp target m₁).2.1
      = { t with groups := (t.collect pmu timestamp target m₁).2.1.groups } := rfl
  have hcollect := SessionTree.collect_cases pmu (hfits hworks) timestamp target m₁
  rw [h] at hwork hgroups hcollect
  obtain ⟨ks, leaf, s, later, m', bytes, hleaves, hsweep, hstuck, hafter⟩ := hcollect
  have hshape : t'.shape = t.shape := (SessionTree.work_shape hwork).1
  have hsound := SessionTree.sound_of_works hstart hworks
  refine ⟨⟨ks, (leaf, s), later, m', bytes,
    SessionTree.stopsAt_of_stuck hsound hleaves hsweep hstuck hafter⟩, hshape, hgroups,
    fun t₂ m₃ hmore => ⟨(SessionTree.works_shape hmore).1.trans hshape, fun time target => ?_⟩⟩
  exact SessionTree.collect_ok_iff pmu (hfits ((hworks.tail hwork).trans hmore)) time target m₃

/-- One event on two CPUs: the first is read and cannot be reset, and the second is not read. -/
theorem collect_stops_at_first_of_two :
    let pmu : Pmu ScriptProgress := Script.pmu { resetErrors := [(0, .invalidArgument)] }
    let core : EventsGroup := ⟨"core", .allCpus, [⟨"cycles", Hardware.cpuCycle.event⟩]⟩
    let config : MonitoringConfig :=
      { topology := ⟨⟨[(0, ⟨[3, 5], by decide⟩)], by decide⟩⟩
        groups := ⟨[("core", core)], by decide⟩
        target := .system
        sampling := {} }
    ∃ t m₀ t' m₁ ks l later m' bytes,
      SessionTree.start pmu config none { state := {} } = (.ok t, m₀) ∧
      t.collect pmu 1 "all" m₀ = (.error (.resetCounts ⟨"core", 0, 3⟩ .invalidArgument), t', m₁) ∧
      t.StopsAt pmu m₀ ks l later m' bytes (.resetCounts ⟨"core", 0, 3⟩ .invalidArgument) t' m₁ ∧
      m₁.counterCalls = m₀.counterCalls ++ [.read 0 32, .reset 0] ∧ t'.shape = t.shape := by
  intro pmu core config
  let s (leader : CounterId) : CpuSession := ⟨⟨leader, [], List.replicate 32 0⟩, false⟩
  let t : SessionTree :=
    { groups := ⟨[("core", ⟨core, ⟨[(0, ⟨⟨[(3, s 0), (5, s 1)], by decide⟩⟩)], by decide⟩⟩)],
        by decide⟩
      callchain := ⟨.none, 50⟩
      pid := none
      inCgroup := false }
  let m₀ : Machine ScriptProgress := (SessionTree.start pmu config none { state := {} }).2
  have hstart : SessionTree.start pmu config none { state := {} } = (.ok t, m₀) := rfl
  let bytes : Bytes := Bytes.ofWords [1, 1000, 1000, 10]
  have hread : m₀.read pmu 0 (s 0).counters.buffer = (.ok 32, bytes, _) :=
    Prod.ext rfl (Prod.ext (by decide +kernel) rfl)
  have hspelled : Report.SpelledBy ⟨1000, 1000, [10]⟩ 1 bytes := ⟨⟨1, by decide +kernel, rfl⟩, rfl⟩
  have hstuck : Stuck pmu ⟨"core", 0, 3⟩ (s 0) m₀ _ bytes _ := .unreset hread hspelled rfl
  have hleaves : t.leaves = [].map Taking.place ++ [(⟨"core", 0, 3⟩, s 0), (⟨"core", 0, 5⟩, s 1)] :=
    rfl
  obtain ⟨t', hcollect, -⟩ := SessionTree.collect_of_stuck hleaves (.nil m₀) hstuck 1 "all"
  obtain ⟨⟨ks, l, later, m', left, hstops⟩, hshape, -, -⟩ :=
    collect_stops_at_first_stuck hstart .refl hcollect
  exact ⟨t, m₀, t', _, ks, l, later, m', left, hstart, hcollect, hstops, hstuck.counterCalls,
    hshape⟩

end CounterWatch
