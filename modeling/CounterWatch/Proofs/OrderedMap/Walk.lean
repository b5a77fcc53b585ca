import CounterWatch.OrderedMap

/-!
# Proofs/OrderedMap/Walk — what a walk through a map preserves

A walk hands the entries of a map to a function that changes them and a state besides; assembling
makes one map of another on the way.  Here is what either keeps, if every single step keeps it.

* `find_of_mem` — an ascending list holds one value at every key it lists.
* `get?_alter` — altering a value changes it at its key and nowhere else.
* `visitEntries_flatMap` — a walk through walks is one walk through everything they come by.
* `visit_relates` — steps that stay within a relation of states stay within it together.
* `entries_visit` — whatever the steps leave of the values is left by the walk, at every key.
* `assemble_induction` — what holds of every part that was made, and what of every failure.
-/

namespace CounterWatch.OrderedMap

variable {α β γ δ ε σ : Type}

/-! ## Looking up -/

section Lookup

variable [Ord α]

theorem find_of_mem [Std.TransOrd α] {l : List (α × β)} {k : α} {v : β}
    (hl : l.Pairwise fun a b => compare a.1 b.1 = .lt) (h : (k, v) ∈ l) : find k l = some v := by
  have hself : ∀ k : α, compare k k = .eq := fun _ => Std.ReflCmp.compare_self
  induction l with
  | nil => cases h
  | cons p rest ih =>
      obtain ⟨hfirst, hrest⟩ := List.pairwise_cons.mp hl
      rcases List.mem_cons.mp h with rfl | h
      · rw [find, if_pos (hself k)]
      · have hlater : compare p.1 k = .lt := hfirst (k, v) h
        have hne : compare k p.1 ≠ .eq := by
          rw [Std.OrientedCmp.gt_of_lt hlater]
          decide
        rw [find, if_neg hne]
        exact ih hrest h

/-- An entry is found by its key, as no key comes twice. -/
theorem get?_of_mem [Std.TransOrd α] {m : OrderedMap α β} {k : α} {v : β}
    (h : (k, v) ∈ m.entries) : m.get? k = some v := find_of_mem m.ascending h

theorem find_of_not_mem [Std.LawfulEqOrd α] {l : List (α × β)} {k : α} (h : k ∉ l.map Prod.fst) :
    find k l = none := by
  induction l with
  | nil => rfl
  | cons p rest ih =>
      obtain ⟨hfirst, hrest⟩ := not_or.mp (mt List.mem_cons.mpr h)
      rw [find, if_neg fun heq => hfirst (Std.LawfulEqCmp.eq_of_compare heq)]
      exact ih hrest

/-- Where there is no entry, nothing is found. -/
theorem get?_of_not_mem [Std.LawfulEqOrd α] {m : OrderedMap α β} {k : α} (h : k ∉ m.keys) :
    m.get? k = none := find_of_not_mem h

/-- A map has the keys it holds values at. -/
theorem mem_keys_iff [Std.TransOrd α] [Std.LawfulEqOrd α] {m : OrderedMap α β} {k : α} :
    k ∈ m.keys ↔ ∃ v, m.get? k = some v := by
  constructor
  · intro h
    obtain ⟨⟨k, v⟩, hmem, rfl⟩ := List.mem_map.mp h
    exact ⟨v, get?_of_mem hmem⟩
  · rintro ⟨v, hv⟩
    refine Classical.byContradiction fun h => ?_
    rw [get?_of_not_mem h] at hv
    cases hv

/-- Altering a map at a key alters it there only. -/
theorem get?_alter [Std.TransOrd α] [Std.LawfulEqOrd α] [DecidableEq α] (m : OrderedMap α β)
    (k j : α) (f : Option β → β) :
    (m.alter k f).get? j = if j = k then some (f (m.get? k)) else m.get? j := by
  simp only [alter, get?_insert, Std.compare_eq_iff_eq]

end Lookup

/-! ## Visiting -/

/-- What every step relates, a walk relates, wherever it stops. -/
theorem visitEntries_relates {R : σ → σ → Prop} (hrefl : ∀ s, R s s)
    (htrans : ∀ {s s' s''}, R s s' → R s' s'' → R s s'') {f : α → β → σ → Except ε γ × β × σ}
    (hf : ∀ k v s, R s (f k v s).2.2) :
    ∀ (l : List (α × β)) (s : σ), R s (visitEntries f l s).2.2
  | [], s => hrefl s
  | (k, v) :: rest, s => by
      have hstep := hf k v s
      rw [visitEntries]
      split
      next e v' s' heq =>
        rw [heq] at hstep
        exact hstep
      next c v' s' heq =>
        rw [heq] at hstep
        exact htrans hstep (visitEntries_relates hrefl htrans hf rest s')

/-- **A view that no step changes is kept by a walk**, wherever it stops. -/
theorem map_visitEntries {view : β → δ} {f : α → β → σ → Except ε γ × β × σ}
    (hf : ∀ k v s, view (f k v s).2.1 = view v) :
    ∀ (l : List (α × β)) (s : σ),
      (visitEntries f l s).2.1.map (fun p => (p.1, view p.2)) = l.map fun p => (p.1, view p.2)
  | [], _ => rfl
  | (k, v) :: rest, s => by
      have hstep := hf k v s
      rw [visitEntries]
      split
      next e v' s' heq =>
        rw [heq] at hstep
        rw [List.map_cons, List.map_cons, hstep]
      next c v' s' heq =>
        rw [heq] at hstep
        have hrest := map_visitEntries hf rest s'
        rw [List.map_cons, List.map_cons, hstep, hrest]

/-- A walk that succeeds has one result for every entry, with the same key and the same view. -/
theorem map_of_visitEntries_eq_ok {view : β → δ} {view' : γ → δ}
    {f : α → β → σ → Except ε γ × β × σ}
    (hf : ∀ k v s c, (f k v s).1 = .ok c → view' c = view v) :
    ∀ (l : List (α × β)) (s : σ) (cs : List (α × γ)), (visitEntries f l s).1 = .ok cs →
      cs.map (fun p => (p.1, view' p.2)) = l.map fun p => (p.1, view p.2)
  | [], _, cs, h => by cases h; rfl
  | (k, v) :: rest, s, cs, h => by
      have hstep := hf k v s
      rw [visitEntries] at h
      split at h
      · cases h
      next c v' s' heq =>
        rw [heq] at hstep
        change (visitEntries f rest s').1.map ((k, c) :: ·) = .ok cs at h
        rcases hr : (visitEntries f rest s').1 with e | cs'
        · rw [hr] at h
          cases h
        · rw [hr] at h
          obtain rfl := Except.ok.inj h
          have hrest := map_of_visitEntries_eq_ok hf rest s' cs' hr
          rw [List.map_cons, List.map_cons, hrest, hstep c rfl]

/-- A walk over two lists walks over the second if it comes through the first. -/
theorem visitEntries_append (f : α → β → σ → Except ε γ × β × σ) (l l' : List (α × β)) (s : σ) :
    visitEntries f (l ++ l') s =
      match visitEntries f l s with
      | (.error e, after, s') => (.error e, after ++ l', s')
      | (.ok cs, after, s') =>
          let (outcome, after', s'') := visitEntries f l' s'
          (outcome.map (cs ++ ·), after ++ after', s'') := by
  induction l generalizing s with
  | nil =>
      rw [List.nil_append, visitEntries]
      dsimp only
      rcases visitEntries f l' s with ⟨e | cs, after, s'⟩
      · rfl
      · rfl
  | cons p rest ih =>
      rw [List.cons_append, visitEntries, visitEntries]
      rcases f p.1 p.2 s with ⟨e | c, v, s₁⟩
      · rfl
      dsimp only
      rw [ih s₁]
      rcases visitEntries f rest s₁ with ⟨e | cs, after, s₂⟩
      · rfl
      dsimp only [Except.map]
      rcases visitEntries f l' s₂ with ⟨e | cs', after', s₃⟩
      · rfl
      · rfl

theorem visitEntries_singleton (f : α → β → σ → Except ε γ × β × σ) (k : α) (v : β) (s : σ) :
    visitEntries f [(k, v)] s
      = ((f k v s).1.map (fun c => [(k, c)]), [(k, (f k v s).2.1)], (f k v s).2.2) := by
  rw [visitEntries]
  rcases f k v s with ⟨e | c, v', s'⟩
  · rfl
  · rfl

/-- **A walk through walks is one walk**: it comes by all that they come by, and stops where the
first of them does. -/
theorem visitEntries_flatMap {κ η ρ : Type} {f : α → β → σ → Except ε γ × β × σ}
    {g : κ → η → σ → Except ε ρ × η × σ} (inner : α × β → List (κ × η))
    (results : α × γ → List (κ × ρ)) :
    ∀ (l : List (α × β)), (∀ p ∈ l, ∀ s, visitEntries g (inner p) s
        = ((f p.1 p.2 s).1.map (fun c => results (p.1, c)), inner (p.1, (f p.1 p.2 s).2.1),
          (f p.1 p.2 s).2.2)) →
      ∀ s, visitEntries g (l.flatMap inner) s
        = ((visitEntries f l s).1.map (List.flatMap results),
          (visitEntries f l s).2.1.flatMap inner, (visitEntries f l s).2.2)
  | [], _, _ => rfl
  | (k, v) :: rest, hf, s => by
      have hfirst := hf (k, v) List.mem_cons_self s
      rw [List.flatMap_cons, visitEntries_append, hfirst, visitEntries]
      rcases f k v s with ⟨e | c, v', s'⟩
      · rfl
      have hrest := visitEntries_flatMap inner results rest
        (fun p hp => hf p (List.mem_cons_of_mem _ hp)) s'
      dsimp only [Except.map]
      rw [hrest]
      rcases visitEntries f rest s' with ⟨e | cs, after, s''⟩
      · rfl
      · rfl

section Visit

variable [Ord α] {m : OrderedMap α β} {f : α → β → σ → Except ε γ × β × σ}

theorem visitEntries_eq (s : σ) : visitEntries f m.entries s
    = ((m.visit f s).1.map OrderedMap.entries, (m.visit f s).2.1.entries, (m.visit f s).2.2) := by
  refine Prod.ext ?_ rfl
  rw [visit]
  dsimp only
  split
  next e h => exact h
  next cs h => exact h

/-- If visiting an entry is a walk over smaller entries, visiting a map is a walk over all of them.
-/
theorem visit_flatMap {κ η ρ φ : Type} (g : κ → η → σ → Except ε ρ × η × σ)
    (inner : α × β → List (κ × η)) (results : φ → List (κ × ρ)) (part : α × γ → List (κ × ρ))
    (wrap : OrderedMap α γ → φ) (hwrap : ∀ cs, results (wrap cs) = cs.entries.flatMap part)
    (hf : ∀ p ∈ m.entries, ∀ s, visitEntries g (inner p) s
      = ((f p.1 p.2 s).1.map (fun c => part (p.1, c)), inner (p.1, (f p.1 p.2 s).2.1),
        (f p.1 p.2 s).2.2)) (s : σ) :
    visitEntries g (m.entries.flatMap inner) s
      = (((m.visit f s).1.map wrap).map results, (m.visit f s).2.1.entries.flatMap inner,
        (m.visit f s).2.2) := by
  rw [visitEntries_flatMap inner part m.entries hf s, visitEntries_eq]
  rcases m.visit f s with ⟨e | cs, after, s'⟩
  · rfl
  · exact congrArg (fun rs => (Except.ok rs, _, s')) (hwrap cs).symm

/-- **A walk whose steps stay within a relation stays within it.** -/
theorem visit_relates {R : σ → σ → Prop} (hrefl : ∀ s, R s s)
    (htrans : ∀ {s s' s''}, R s s' → R s' s'' → R s s'') (hf : ∀ k v s, R s (f k v s).2.2) (s : σ) :
    R s (m.visit f s).2.2 :=
  visitEntries_relates hrefl htrans hf m.entries s

/-- **What the steps make of every value is made of it by the walk.** -/
theorem entries_of_visit_eq_ok {φ : Type} (view : β → δ) (view' : γ → δ)
    {wrap : OrderedMap α γ → φ} (hf : ∀ k v s c, (f k v s).1 = .ok c → view' c = view v) {s : σ}
    {d : φ} (h : (m.visit f s).1.map wrap = .ok d) :
    ∃ cs, wrap cs = d ∧
      cs.entries.map (fun p => (p.1, view' p.2)) = m.entries.map fun p => (p.1, view p.2) := by
  rcases hv : (m.visit f s).1 with e | cs
  · rw [hv] at h
    cases h
  · rw [hv] at h
    refine ⟨cs, Except.ok.inj h, map_of_visitEntries_eq_ok hf m.entries s cs.entries ?_⟩
    rw [visitEntries_eq, hv]
    rfl

/-- **What the steps leave of every value is left by the walk.** -/
theorem entries_visit {view : β → δ} (hf : ∀ k v s, view (f k v s).2.1 = view v) (s : σ) :
    (m.visit f s).2.1.entries.map (fun p => (p.1, view p.2))
      = m.entries.map fun p => (p.1, view p.2) :=
  map_visitEntries hf m.entries s

end Visit

/-! ## Assembling -/

section Assemble

variable {make : α → β → σ → Except ε γ × σ} {undo : γ → σ → σ} {Made : List (α × γ) → σ → Prop}
  {Failed : ε → σ → Prop}

/-- **What is assembled satisfies what every step keeps**; and if a step fails, what undoing leaves
behind is told from what had been made by then. -/
theorem assembleEntries_induction
    (hok : ∀ made k v s c s', Made made s → make k v s = (.ok c, s') → Made (made ++ [(k, c)]) s')
    (herror : ∀ made k v s e s', Made made s → make k v s = (.error e, s') →
      Failed e (made.foldl (fun s p => undo p.2 s) s')) :
    ∀ (l : List (α × β)) (made : List (α × γ)) (s : σ), Made made s →
      match assembleEntries make undo made l s with
      | (.ok cs, s') => Made cs s'
      | (.error e, s') => Failed e s'
  | [], _, _, h => h
  | (k, v) :: rest, made, s, h => by
      rw [assembleEntries]
      rcases hm : make k v s with ⟨e | c, s'⟩
      · exact herror made k v s e s' h hm
      · exact assembleEntries_induction hok herror rest _ s' (hok made k v s c s' h hm)

variable [Ord α] {m : OrderedMap α β}

theorem assembleEntries_eq (s : σ) : assembleEntries make undo [] m.entries s
    = ((m.assemble make undo s).1.map OrderedMap.entries, (m.assemble make undo s).2) := by
  refine Prod.ext ?_ rfl
  rw [assemble]
  split
  next e h => exact h
  next cs h => exact h

/-- **What holds of the parts made so far holds of the map**, and what holds when a part fails and
those made before it are undone holds of the failure. -/
theorem assemble_induction (Made : List (α × γ) → σ → Prop) (Failed : ε → σ → Prop) {s : σ}
    (hempty : Made [] s)
    (hok : ∀ made k v s c s', Made made s → make k v s = (.ok c, s') → Made (made ++ [(k, c)]) s')
    (herror : ∀ made k v s e s', Made made s → make k v s = (.error e, s') →
      Failed e (made.foldl (fun s p => undo p.2 s) s')) :
    match m.assemble make undo s with
    | (.ok built, s') => Made built.entries s'
    | (.error e, s') => Failed e s' := by
  have h := assembleEntries_induction hok herror m.entries [] s hempty
  rw [assembleEntries_eq] at h
  rcases ha : m.assemble make undo s with ⟨e | built, s'⟩
  · rw [ha] at h
    exact h
  · rw [ha] at h
    exact h

/-- **What is made of every value is there in the map.** -/
theorem entries_of_assemble_eq_ok {φ : Type} (view : γ → δ) (view' : β → δ)
    {wrap : OrderedMap α γ → φ} (hmake : ∀ k v s c s', make k v s = (.ok c, s') → view c = view' v)
    {s : σ} {d : φ} (h : (m.assemble make undo s).1.map wrap = .ok d) :
    ∃ built, wrap built = d ∧
      built.entries.map (fun p => (p.1, view p.2)) = m.entries.map fun p => (p.1, view' p.2) := by
  have hwalk : ∀ (l : List (α × β)) (made : List (α × γ)) (s : σ) (cs : List (α × γ)),
      (assembleEntries make undo made l s).1 = .ok cs →
        cs.map (fun p => (p.1, view p.2))
          = made.map (fun p => (p.1, view p.2)) ++ l.map fun p => (p.1, view' p.2) := by
    intro l
    induction l with
    | nil =>
        intro made s cs hcs
        cases hcs
        exact (List.append_nil _).symm
    | cons p rest ih =>
        intro made s cs hcs
        rw [assembleEntries] at hcs
        split at hcs
        · cases hcs
        next c s' heq =>
          rw [ih _ s' cs hcs, List.map_append, List.append_assoc, List.map_singleton,
            hmake p.1 p.2 s c s' heq]
          rfl
  rcases ha : (m.assemble make undo s).1 with e | built
  · rw [ha] at h
    cases h
  · rw [ha] at h
    refine ⟨built, Except.ok.inj h, hwalk m.entries [] s built.entries ?_⟩
    rw [assembleEntries_eq, ha]
    rfl

end Assemble

end CounterWatch.OrderedMap
