import CounterWatch.Proofs.Session.History

/-!
# Proofs/Session/Happening — what happens in a machine

What happened between two machines settles what became of every ring.  A leaf whose ring is drained
reports the rendering of what it shows.

* `Sampler.drain_cases` — draining a ring renders the records it shows.
* `Machine.Undergoes` — what several happenings do to all rings; `Machine.undergoes_read`.
* `CpuSession.withCallchains_callchains` — the call chains of a leaf are what waits in its ring.
-/

namespace CounterWatch

variable {σ : Type} {pmu : Pmu σ}

/-! ## Draining -/

namespace Sampler

/-- Rendering takes notice of the record alone. -/
theorem still_renderRecord (c : Callchain) : Ring.Still (renderRecord c)
    (fun seen record => (renderRecord c record default seen).2) := by
  rintro record ring ⟨out, notices⟩
  change renderRecord c record ring (out, notices)
    = (ring.head, (renderRecord c record default (out, notices)).2)
  rw [renderRecord, renderRecord]
  rcases c.render record out with refusal | text
  · rfl
  · rfl

/-- Records that are rendered one after the other leave behind what was there, and the text of those
that are samples. -/
theorem foldl_renderRecord (c : Callchain) (records : List Bytes) (seen : Rendering) :
    (records.foldl (fun seen record => (renderRecord c record default seen).2) seen).1
      = seen.1 ++ c.rendering records := by
  have hstep : ∀ (seen : Rendering) (record : Bytes),
      (c.render record seen.1).toOption.getD seen.1 = (renderRecord c record default seen).2.1 :=
    fun (out, notices) record => (text_renderRecord c record default out notices).symm
  rw [← Callchain.renderAll_eq]
  exact (List.foldl_hom Prod.fst hstep).symm

/-- **Draining a ring renders the records it shows.** -/
theorem drain_cases (c : Callchain) (r : Ring) :
    match drain c r with
    | some (text, ring, _) => text = c.rendering r.shown ∧ ring = r.emptied
    | none => r.shown = [] ∧ r.emptied = r := by
  have hdrain := Ring.drain_of_still (still_renderRecord c) r ("", [])
  rw [drain]
  rcases hd : r.drain (renderRecord c) ("", []) with _ | d
  · rw [hd] at hdrain
    exact hdrain
  · rw [hd] at hdrain
    obtain ⟨hstate, hring⟩ := hdrain
    refine ⟨?_, hring⟩
    rw [hstate, foldl_renderRecord]
    exact String.empty_append

end Sampler

/-! ## Undergoing -/

namespace Machine

/-- Between two machines, this is what happened to every ring. -/
def Undergoes (m : Machine σ) (hs : List Happening) (m' : Machine σ) : Prop :=
  ∀ id, m'.rings.get? id = (m.rings.get? id).map fun r => hs.foldl (Ring.undergo id) r

/-- Where the rings are what they were, nothing has happened to them. -/
theorem Undergoes.of_rings_eq {m m' : Machine σ} (h : m'.rings = m.rings) : m.Undergoes [] m' := by
  intro id
  rw [h]
  exact Option.map_id'.symm

theorem Undergoes.trans {m m₁ m₂ : Machine σ} {hs hs' : List Happening} (h : m.Undergoes hs m₁)
    (h' : m₁.Undergoes hs' m₂) : m.Undergoes (hs ++ hs') m₂ := by
  intro id
  rw [h' id, h id, Option.map_map]
  exact congrArg (Option.map · _) (funext fun r => List.foldl_append.symm)

/-- What becomes of every ring when the ring of one counter is changed, if there is one. -/
theorem get?_of_changed {m m' : Machine σ} {id : CounterId} {f : Ring → Ring}
    (h : match m.rings.get? id with
      | some r => m'.rings = m.rings.insert id (f r) ∨ m'.rings = m.rings ∧ f r = r
      | none => m'.rings = m.rings) (j : CounterId) :
    m'.rings.get? j = (m.rings.get? j).map fun r => if id = j then f r else r := by
  by_cases hj : id = j
  · obtain rfl := hj
    simp only [if_true]
    rcases hring : m.rings.get? id with _ | r
    · rw [hring] at h
      rw [h, hring, Option.map_none]
    · rw [hring] at h
      rcases h with h | ⟨h, hsame⟩
      · rw [h, OrderedMap.get?_insert, if_pos (Nat.compare_eq_eq.mpr rfl), Option.map_some]
      · rw [h, hring, Option.map_some, hsame]
  · have hother : m'.rings.get? j = m.rings.get? j := by
      have hne : ¬ compare j id = .eq := fun heq => hj (Nat.compare_eq_eq.mp heq).symm
      rcases hring : m.rings.get? id with _ | r
      · rw [hring] at h
        rw [h]
      · rw [hring] at h
        rcases h with h | ⟨h, -⟩
        · rw [h, OrderedMap.get?_insert, if_neg hne]
        · rw [h]
    simp only [if_neg hj, Option.map_id', hother]

/-- What is produced is appended to the ring of its counter, if it has one. -/
theorem undergoes_produce (m : Machine σ) (id : CounterId) (b : Bytes) :
    m.Undergoes [.produced id b] (m.produce id b) := by
  refine get?_of_changed ?_
  rw [produce]
  rcases m.rings.get? id with _ | r
  · rfl
  · exact .inl rfl

/-- **The surroundings do to rings what they produce**, and nothing by their messages. -/
theorem undergoes_outside (m : Machine σ) (step : OutsideStep) :
    m.Undergoes step.happenings (m.outside step) := by
  cases step with
  | command | tick | dropControl | dropTicker | dropSink => exact .of_rings_eq rfl
  | produce id b => exact m.undergoes_produce id b

/-- Steps of the surroundings in a row do to rings what each of them does. -/
theorem undergoes_meanwhile (steps : List OutsideStep) (m : Machine σ) :
    m.Undergoes (steps.flatMap OutsideStep.happenings) (steps.foldl outside m) := by
  induction steps generalizing m with
  | nil => exact .of_rings_eq rfl
  | cons step rest ih => exact (m.undergoes_outside step).trans (ih _)

/-- **A read undergoes what the surroundings do meanwhile.** -/
theorem undergoes_read (pmu : Pmu σ) (id : CounterId) (buffer : Bytes) (m : Machine σ) :
    m.Undergoes ((pmu.meanwhile id m.state).flatMap OutsideStep.happenings)
      (m.read pmu id buffer).2.2 :=
  undergoes_meanwhile (pmu.meanwhile id m.state) (m.call (.read id buffer.length))

/-- The records that wait in the ring of a leaf, if it is sampled. -/
def shown (m : Machine σ) (s : CpuSession) : List Bytes :=
  if s.sampled then ((m.rings.get? s.counters.leader).map Ring.shown).getD [] else []

end Machine

theorem rings_noteMultiplexing (leaf : Leaf) (r : Report) (m : Machine σ) :
    (noteMultiplexing leaf r m).rings = m.rings := by
  rw [noteMultiplexing]
  split <;> rfl

theorem trace_noteMultiplexing (leaf : Leaf) (r : Report) (m : Machine σ) :
    (noteMultiplexing leaf r m).trace = m.trace := by
  rw [noteMultiplexing]
  split <;> rfl

/-- A notice changes nothing of what a leaf shows. -/
theorem Machine.shown_noteMultiplexing (leaf : Leaf) (r : Report) (m : Machine σ) (s : CpuSession) :
    (noteMultiplexing leaf r m).shown s = m.shown s := by
  rw [shown, rings_noteMultiplexing]
  rfl

/-! ## Taking call chains -/

namespace CpuSession

/-- **The call chains of a leaf are the rendering of what waits in its ring.** -/
theorem withCallchains_callchains (c : Callchain) (s : CpuSession) (m : Machine σ) (d : CpuData) :
    d.withCallchains (s.callchains c m).1
      = d.withCallchains (some (c.rendering (m.shown s))) := by
  rw [callchains, Machine.shown]
  split
  · rw [Sampler.callchains]
    rcases hring : m.rings.get? s.counters.leader with _ | r
    · rfl
    have hdrain := Sampler.drain_cases c r
    rw [Option.bind_some]
    rcases hd : Sampler.drain c r with _ | ⟨text, ring, notices⟩
    · rw [hd] at hdrain
      obtain ⟨hshown, -⟩ := hdrain
      rw [Option.map_some, hshown]
      rfl
    · rw [hd] at hdrain
      obtain ⟨rfl, -⟩ := hdrain
      rfl
  · rfl

/-- **Taking the call chains of a leaf empties its ring**, and leaves those of others alone. -/
theorem get?_rings_callchains (c : Callchain) (s : CpuSession) (m : Machine σ) (id : CounterId) :
    (s.callchains c m).2.rings.get? id = (m.rings.get? id).map fun r =>
      if s.sampled ∧ s.counters.leader = id then r.emptied else r := by
  rw [callchains]
  split
  next hsampled =>
    simp only [hsampled, true_and]
    refine Machine.get?_of_changed ?_ id
    rw [Sampler.callchains]
    rcases m.rings.get? s.counters.leader with _ | r
    · rfl
    have hdrain := Sampler.drain_cases c r
    rw [Option.bind_some]
    rcases hd : Sampler.drain c r with _ | ⟨text, ring, notices⟩
    · rw [hd] at hdrain
      exact .inr ⟨rfl, hdrain.2⟩
    · rw [hd] at hdrain
      obtain ⟨-, rfl⟩ := hdrain
      exact .inl rfl
  next hsampled =>
    simp only [if_neg (fun h : s.sampled ∧ s.counters.leader = id => hsampled h.1), Option.map_id']

/-- Taking call chains makes no call: rings are memory. -/
theorem trace_callchains (c : Callchain) (s : CpuSession) (m : Machine σ) :
    (s.callchains c m).2.trace = m.trace := by
  rw [callchains]
  split
  · rw [Sampler.callchains]
    split <;> rfl
  · rfl

end CpuSession

end CounterWatch
