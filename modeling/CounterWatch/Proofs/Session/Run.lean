import CounterWatch.Proofs.Session.Built

/-!
# Proofs/Session/Run — working with a tree, and its history

Whatever is done with an open tree has a history: what was produced meanwhile, which leaves were
taken, and how the collections ended.

* `SessionTree.Run` — work with a tree, and its history; `SessionTree.exists_run` — all work has
  one.
* `SessionTree.Run.undergoes`, `SessionTree.Run.shows` — the rings are as the history says.
* `SessionTree.Run.place_of_taken` — what is taken is a leaf of the tree.
-/

namespace CounterWatch

variable {σ : Type} {pmu : Pmu σ}

/-! ## Leaves and their keys -/

/-- **A leaf of a tree is found under its keys.** -/
theorem SessionTree.session?_of_mem_leaves {t : SessionTree} {leaf : Leaf} {s : CpuSession}
    (h : (leaf, s) ∈ t.leaves) : t.session? leaf = some s := by
  obtain ⟨⟨group, g⟩, hgroup, h⟩ := List.mem_flatMap.mp h
  obtain ⟨⟨package, p⟩, hpackage, h⟩ := List.mem_flatMap.mp h
  obtain ⟨⟨cpu, s'⟩, hcpu, heq⟩ := List.mem_map.mp h
  obtain ⟨rfl, rfl⟩ := Prod.mk.inj heq
  simp only [session?, OrderedMap.get?_of_mem hgroup, OrderedMap.get?_of_mem hpackage,
    OrderedMap.get?_of_mem hcpu, Option.bind_eq_bind, Option.bind_some]

/-- No two leaves have the same keys. -/
theorem SessionTree.Sound.nodup_leaves {t : SessionTree} (h : t.Sound) :
    (t.leaves.map Prod.fst).Nodup := by
  refine (h.leaders.of_map _).map_on fun l hl l' hl' heq => ?_
  have hs := session?_of_mem_leaves hl
  rw [heq, session?_of_mem_leaves hl'] at hs
  exact Prod.ext heq (Option.some.inj hs).symm

/-! ## Enabling -/

theorem CpuSession.rings_enable (pmu : Pmu σ) (leaf : Leaf) (s : CpuSession) (m : Machine σ) :
    (s.enable pmu leaf m).2.rings = m.rings := by
  have hclear : (s.counters.clear pmu m).2.rings = m.rings := rfl
  have henable : ∀ m' : Machine σ, (s.counters.enable pmu m').2.rings = m'.rings := fun _ => rfl
  rw [CpuSession.enable]
  rcases hc : s.counters.clear pmu m with ⟨e | _, m₁⟩
  · rw [hc] at hclear
    have hlast := (henable (m₁.note (.resetFailed leaf e))).trans hclear
    dsimp only
    rcases he : s.counters.enable pmu (m₁.note (.resetFailed leaf e)) with ⟨e' | _, m₂⟩
    · rwa [he] at hlast
    · rwa [he] at hlast
  · rw [hc] at hclear
    have hlast := (henable m₁).trans hclear
    dsimp only
    rcases he : s.counters.enable pmu m₁ with ⟨e | _, m₂⟩
    · rwa [he] at hlast
    · rwa [he] at hlast

theorem rings_enableLeaves (pmu : Pmu σ) : ∀ (leaves : List (Leaf × CpuSession)) (m : Machine σ),
    (enableLeaves pmu leaves m).2.rings = m.rings
  | [], _ => rfl
  | (leaf, s) :: rest, m => by
      rw [enableLeaves]
      exact (rings_enableLeaves pmu rest _).trans (s.rings_enable pmu leaf m)

/-! ## Runs -/

namespace SessionTree

/-- What is done with an open tree, one thing after the other, and what happens meanwhile. -/
inductive Run (pmu : Pmu σ) (t₀ : SessionTree) (m₀ : Machine σ) :
    List Happening → SessionTree → Machine σ → Prop
  | refl : Run pmu t₀ m₀ [] t₀ m₀
  | enable {history : List Happening} {t : SessionTree} {m : Machine σ}
      (hrun : Run pmu t₀ m₀ history t m) : Run pmu t₀ m₀ history t (t.enable pmu m).2
  | outside {history : List Happening} {t : SessionTree} {m : Machine σ}
      (hrun : Run pmu t₀ m₀ history t m) (step : OutsideStep) :
      Run pmu t₀ m₀ (history ++ step.happenings) t (m.outside step)
  | collected {history : List Happening} {t t' : SessionTree} {m m' : Machine σ}
      {ks : List Taking} {timestamp : UInt64} {target : String} {p : Payload}
      (hrun : Run pmu t₀ m₀ history t m) (hleaves : ks.map Taking.place = t.leaves)
      (hsweep : Sweep pmu t.callchain ks m m')
      (hcollect : t.collect pmu timestamp target m = (.ok p, t', m')) :
      Run pmu t₀ m₀ (history ++ (ks.flatMap Taking.happenings ++ [.reported p])) t' m'
  | failed {history : List Happening} {t t' : SessionTree} {m m₁ m' : Machine σ}
      {ks : List Taking} {l : Leaf × CpuSession} {later : List (Leaf × CpuSession)}
      {timestamp : UInt64} {target : String} {e : Failure} {bytes : Bytes}
      (hrun : Run pmu t₀ m₀ history t m) (hleaves : t.leaves = ks.map Taking.place ++ l :: later)
      (hsweep : Sweep pmu t.callchain ks m m₁) (hstuck : Stuck pmu l.1 l.2 m₁ e bytes m')
      (hcollect : t.collect pmu timestamp target m = (.error e, t', m')) :
      Run pmu t₀ m₀
        (history ++ (ks.flatMap Taking.happenings ++ m₁.during pmu l.2 ++ [.failed e])) t' m'

/-- **All work with a tree that was opened has a history.** -/
theorem exists_run {config : MonitoringConfig} {backend : Option Backend} {m m₀ : Machine σ}
    {t₀ : SessionTree} (hstart : start pmu config backend m = (.ok t₀, m₀))
    {after : SessionTree × Machine σ} (h : Works pmu (t₀, m₀) after) :
    ∃ history, Run pmu t₀ m₀ history after.1 after.2 := by
  induction h with
  | refl => exact ⟨[], .refl⟩
  | tail hworks hstep ih =>
      obtain ⟨history, hrun⟩ := ih
      cases hstep with
      | enable t m => exact ⟨_, hrun.enable⟩
      | outside step t m => exact ⟨_, hrun.outside step⟩
      | collect timestamp target t m =>
          have hsound := sound_of_works hstart hworks
          have hcases := collect_cases pmu (fun l hl => (hsound.leaves l.1 l.2 hl).fits) timestamp
            target m
          rcases hcollect : t.collect pmu timestamp target m with ⟨e | p, t', m'⟩
          · rw [hcollect] at hcases
            obtain ⟨ks, leaf, s, later, m₁, bytes, hleaves, hsweep, hstuck, -⟩ := hcases
            exact ⟨_, hrun.failed hleaves hsweep hstuck hcollect⟩
          · rw [hcollect] at hcases
            obtain ⟨ks, hleaves, hsweep, -⟩ := hcases
            exact ⟨_, hrun.collected hleaves hsweep hcollect⟩

namespace Run

variable {t₀ t : SessionTree} {m₀ m : Machine σ} {history : List Happening}

theorem works (h : Run pmu t₀ m₀ history t m) : Works pmu (t₀, m₀) (t, m) := by
  induction h with
  | refl => exact .refl
  | enable _ ih => exact ih.tail (.enable _ _)
  | outside _ step ih => exact ih.tail (.outside step _ _)
  | @collected _ t t' m m' _ timestamp target _ _ _ _ hcollect ih =>
      have hwork : Work pmu (t, m) (t.collect pmu timestamp target m).2 := .collect ..
      rw [hcollect] at hwork
      exact ih.tail hwork
  | @failed _ t t' m _ m' _ _ _ timestamp target _ _ _ _ _ _ hcollect ih =>
      have hwork : Work pmu (t, m) (t.collect pmu timestamp target m).2 := .collect ..
      rw [hcollect] at hwork
      exact ih.tail hwork

/-- **What happens to rings is what the history says.** -/
theorem undergoes (h : Run pmu t₀ m₀ history t m) : m₀.Undergoes history m := by
  have hend : ∀ (m : Machine σ) (x : Happening), x.ends = true → m.Undergoes [x] m := by
    intro m x hx id
    cases x with
    | reported | failed => exact Option.map_id'.symm
    | produced | taken => cases hx
  induction h with
  | refl => exact .of_rings_eq rfl
  | @enable _ t m _ ih =>
      have hsame := ih.trans (.of_rings_eq (rings_enableLeaves pmu t.leaves m))
      rwa [List.append_nil] at hsame
  | outside _ step ih => exact ih.trans (Machine.undergoes_outside _ step)
  | collected _ _ hsweep _ ih => exact ih.trans (hsweep.undergoes.trans (hend _ _ rfl))
  | failed _ _ hsweep hstuck _ ih =>
      have hfailed := hsweep.undergoes.trans (Machine.undergoes_stuck hstuck)
      exact ih.trans (hfailed.trans (hend _ _ rfl))

/-- **What is taken from a ring** is what it shows, all through a run. -/
theorem shows (h : Run pmu t₀ m₀ history t m) {id : CounterId} {r : Ring}
    (hring : m₀.rings.get? id = some r) : r.Shows id history := by
  have hend : ∀ (x : Happening) (r : Ring), x.ends = true → r.Shows id [x] := fun x r hx =>
    Ring.shows_of_not_drains (List.forall_mem_singleton.mpr (x.not_drains_of_ends hx id)) r
  induction h with
  | refl => trivial
  | enable _ ih => exact ih
  | outside _ step ih =>
      refine along_append.mpr ⟨ih, Ring.shows_of_not_drains (fun x hx => ?_) _⟩
      obtain ⟨i, b, rfl⟩ := step.produced_of_mem hx
      exact not_false
  | collected hrun _ hsweep _ ih =>
      have hnow := hrun.undergoes id
      rw [hring] at hnow
      exact along_append.mpr ⟨ih, along_append.mpr ⟨hsweep.shows hnow, hend _ _ rfl⟩⟩
  | failed hrun _ hsweep _ _ ih =>
      have hnow := hrun.undergoes id
      rw [hring] at hnow
      refine along_append.mpr ⟨ih, along_append.mpr
        ⟨along_append.mpr ⟨hsweep.shows hnow, ?_⟩, hend _ _ rfl⟩⟩
      exact Ring.shows_of_not_drains (fun _ => not_drains_of_mem_happenings) _

/-- What is taken while leaves of the tree are is one of them, with some other contents of its
buffer. -/
theorem place_of_taken_among (h : Run pmu t₀ m₀ history t m) {ks : List Taking}
    (hks : ∀ k ∈ ks, k.place ∈ t.leaves) {k : Taking}
    (hk : .taken k ∈ ks.flatMap Taking.happenings) :
    ∃ s, (k.leaf, s) ∈ t₀.leaves ∧ k.session.outline = s.outline := by
  rcases produced_or_taken_of_mem hk with ⟨id, b, heq⟩ | ⟨k', hk', heq⟩
  · cases heq
  · obtain rfl := Happening.taken.inj heq
    exact exists_of_shape_eq (works_shape h.works).1 (hks k hk')

/-- **What is taken is a leaf of the tree**, with some other contents of its buffer. -/
theorem place_of_taken (h : Run pmu t₀ m₀ history t m) {k : Taking} (hk : .taken k ∈ history) :
    ∃ s, (k.leaf, s) ∈ t₀.leaves ∧ k.session.outline = s.outline := by
  induction h with
  | refl => cases hk
  | enable _ ih => exact ih hk
  | outside _ step ih =>
      rcases List.mem_append.mp hk with hk | hk
      · exact ih hk
      · obtain ⟨id, b, heq⟩ := step.produced_of_mem hk
        cases heq
  | collected hrun hleaves _ _ ih =>
      rcases List.mem_append.mp hk with hk | hk
      · exact ih hk
      rcases List.mem_append.mp hk with hk | hk
      · exact hrun.place_of_taken_among (fun k hk => hleaves ▸ List.mem_map_of_mem hk) hk
      · cases List.mem_singleton.mp hk
  | failed hrun hleaves _ _ _ ih =>
      rcases List.mem_append.mp hk with hk | hk
      · exact ih hk
      rcases List.mem_append.mp hk with hk | hk
      · rcases List.mem_append.mp hk with hk | hk
        · refine hrun.place_of_taken_among (fun k hk => ?_) hk
          rw [hleaves]
          exact List.mem_append_left _ (List.mem_map_of_mem hk)
        · obtain ⟨id, b, heq⟩ := produced_of_mem_happenings hk
          cases heq
      · cases List.mem_singleton.mp hk

/-- Between collections all that happens is that something is produced. -/
theorem produced_of_mem_current (h : Run pmu t₀ m₀ history t m) {x : Happening}
    (hx : x ∈ current history) : ∃ id b, x = .produced id b := by
  induction h with
  | refl => cases hx
  | enable _ ih => exact ih hx
  | outside _ step ih =>
      have hgoes : ∀ x ∈ step.happenings, x.ends = false := by
        intro x hx
        obtain ⟨id, b, rfl⟩ := step.produced_of_mem hx
        rfl
      rw [current_append hgoes] at hx
      rcases List.mem_append.mp hx with hx | hx
      · exact ih hx
      · exact step.produced_of_mem hx
  | collected =>
      rw [← List.append_assoc, current_concat rfl] at hx
      cases hx
  | failed =>
      rw [← List.append_assoc, current_concat rfl] at hx
      cases hx

/-- **What holds of the end of every collection** holds of all ends in a history. -/
theorem atEnds {P : List Happening → Happening → Prop}
    (hreported : ∀ {history t t' m m' ks timestamp target p}, Run pmu t₀ m₀ history t m →
      ks.map Taking.place = t.leaves → Sweep pmu t.callchain ks m m' →
      t.collect pmu timestamp target m = (.ok p, t', m') →
        P (history ++ ks.flatMap Taking.happenings) (.reported p))
    (hfailed : ∀ {history t t' m m₁ m' ks l later timestamp target e bytes},
      Run pmu t₀ m₀ history t m → t.leaves = ks.map Taking.place ++ l :: later →
      Sweep pmu t.callchain ks m m₁ → Stuck pmu l.1 l.2 m₁ e bytes m' →
      t.collect pmu timestamp target m = (.error e, t', m') →
        P (history ++ (ks.flatMap Taking.happenings ++ m₁.during pmu l.2)) (.failed e))
    (h : Run pmu t₀ m₀ history t m) : AtEnds P [] history := by
  induction h with
  | refl => trivial
  | enable _ ih => exact ih
  | outside _ step ih =>
      -- what the surroundings produce ends no collection
      refine atEnds_append.mpr ⟨ih, atEnds_of_goes fun x hx => ?_⟩
      obtain ⟨id, b, rfl⟩ := step.produced_of_mem hx
      rfl
  | collected hrun hleaves hsweep hcollect ih =>
      exact atEnds_append.mpr ⟨ih, atEnds_concat (fun _ => ends_of_mem_taking)
        (hreported hrun hleaves hsweep hcollect)⟩
  | failed hrun hleaves hsweep hstuck hcollect ih =>
      exact atEnds_append.mpr ⟨ih, atEnds_concat (fun _ => ends_of_mem_taking_append)
        (hfailed hrun hleaves hsweep hstuck hcollect)⟩

end Run

end SessionTree

end CounterWatch
