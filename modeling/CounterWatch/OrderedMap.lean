import CounterWatch.OrderedSet

/-!
# OrderedMap — finite maps kept in the order of their keys

Topologies, events groups, sessions and payloads are all listed by ascending key.  An `OrderedMap`
is its list of entries together with the proof that the keys ascend, so two maps with the same
entries are equal and nothing but the keys decides the order.

* `get?_insert` — an insertion changes the value at its key and nowhere else.
* `ext_get?` — maps that answer alike at every key are equal.
* `visit` — walks the entries in order, lets each change its value, and stops at the first failure.
* `assemble` — makes something of every entry, or undoes what was made before the first failure.
-/

namespace CounterWatch

/-- A map from keys to values, listed by strictly ascending key. -/
structure OrderedMap (α β : Type) [Ord α] where
  /-- The keys with their values, in order. -/
  entries : List (α × β)
  /-- Every key comes before all later ones. -/
  ascending : entries.Pairwise fun a b => compare a.1 b.1 = .lt

namespace OrderedMap

variable {α β γ : Type}

/-! ## Walking through entries -/

section Visit

variable {ε σ : Type}

/-- The entries after a walk, and what it brought back: the first failure, or one result for every
entry. -/
def visitEntries (f : α → β → σ → Except ε γ × β × σ) :
    List (α × β) → σ → Except ε (List (α × γ)) × List (α × β) × σ
  | [], s => (.ok [], [], s)
  | (k, v) :: rest, s =>
      match f k v s with
      | (.error e, v', s') => (.error e, (k, v') :: rest, s')
      | (.ok c, v', s') =>
          let (outcome, rest', s'') := visitEntries f rest s'
          (outcome.map ((k, c) :: ·), (k, v') :: rest', s'')

/-- A walk keeps the keys, whatever it does to the values and wherever it stops. -/
theorem keys_visitEntries (f : α → β → σ → Except ε γ × β × σ) : ∀ (l : List (α × β)) (s : σ),
    (visitEntries f l s).2.1.map Prod.fst = l.map Prod.fst
  | [], _ => rfl
  | (k, v) :: rest, s => by
      rw [visitEntries]
      split
      · rfl
      next s' _ => simp only [List.map_cons, keys_visitEntries f rest s']

/-- A walk that succeeds has a result for every key, in order. -/
theorem keys_of_visitEntries_eq_ok (f : α → β → σ → Except ε γ × β × σ) :
    ∀ (l : List (α × β)) (s : σ) (cs : List (α × γ)),
      (visitEntries f l s).1 = .ok cs → cs.map Prod.fst = l.map Prod.fst
  | [], _, cs, h => by cases h; rfl
  | (k, v) :: rest, s, cs, h => by
      rw [visitEntries] at h
      split at h
      · cases h
      next c v' s' _ =>
        match hr : (visitEntries f rest s').1 with
        | .error e => simp [hr, Except.map] at h
        | .ok cs' =>
            simp only [hr, Except.map, Except.ok.injEq] at h
            subst h
            simp only [List.map_cons, keys_of_visitEntries_eq_ok f rest s' cs' hr]

/-- Makes something of every entry in order, behind what was made before.  When one cannot be made,
what was made is undone, in the same order, and its failure is the outcome. -/
def assembleEntries (make : α → β → σ → Except ε γ × σ) (undo : γ → σ → σ) (made : List (α × γ)) :
    List (α × β) → σ → Except ε (List (α × γ)) × σ
  | [], s => (.ok made, s)
  | (k, v) :: rest, s =>
      match make k v s with
      | (.error e, s') => (.error e, made.foldl (fun s p => undo p.2 s) s')
      | (.ok c, s') => assembleEntries make undo (made ++ [(k, c)]) rest s'

/-- What is assembled has the keys it is assembled from. -/
theorem keys_of_assembleEntries_eq_ok (make : α → β → σ → Except ε γ × σ) (undo : γ → σ → σ) :
    ∀ (l : List (α × β)) (made : List (α × γ)) (s : σ) (cs : List (α × γ)),
      (assembleEntries make undo made l s).1 = .ok cs →
        cs.map Prod.fst = made.map Prod.fst ++ l.map Prod.fst
  | [], made, _, cs, h => by cases h; simp
  | (k, v) :: rest, made, s, cs, h => by
      rw [assembleEntries] at h
      split at h
      · cases h
      next c s' _ =>
        have ih := keys_of_assembleEntries_eq_ok make undo rest (made ++ [(k, c)]) s' cs h
        rw [ih]
        simp

end Visit

/-! ## Maps -/

variable [Ord α]

theorem ext {m m' : OrderedMap α β} (h : m.entries = m'.entries) : m = m' := by
  cases m; cases m'; cases h; rfl

instance [DecidableEq α] [DecidableEq β] : DecidableEq (OrderedMap α β) := fun m m' =>
  decidable_of_iff (m.entries = m'.entries) ⟨ext, fun h => h ▸ rfl⟩

/-- The map without entries. -/
def empty : OrderedMap α β := ⟨[], .nil⟩

instance : EmptyCollection (OrderedMap α β) := ⟨empty⟩

instance : Inhabited (OrderedMap α β) := ⟨empty⟩

/-- The keys, in order. -/
def keys (m : OrderedMap α β) : List α := m.entries.map Prod.fst

/-- The values, in the order of their keys. -/
def values (m : OrderedMap α β) : List β := m.entries.map Prod.snd

/-- The number of entries. -/
def size (m : OrderedMap α β) : Nat := m.entries.length

/-! ## Looking up -/

/-- The value at a key in a list of entries. -/
def find (k : α) : List (α × β) → Option β
  | [] => none
  | (a, b) :: rest => if compare k a = .eq then some b else find k rest

/-- The value at a key. -/
def get? (m : OrderedMap α β) (k : α) : Option β := find k m.entries

@[simp] theorem get?_empty (k : α) : (empty : OrderedMap α β).get? k = none := rfl

theorem find_eq_none {k : α} : ∀ {l : List (α × β)},
    (∀ p ∈ l, compare k p.1 = .lt) → find k l = none
  | [], _ => rfl
  | (a, b) :: rest, h => by
      have hne : compare k a ≠ .eq := by rw [h (a, b) List.mem_cons_self]; decide
      rw [find, if_neg hne]
      exact find_eq_none fun p hp => h p (List.mem_cons_of_mem _ hp)

/-! ## Inserting -/

/-- Puts a value at a key of an ascending list, replacing what was there. -/
def put (k : α) (v : β) : List (α × β) → List (α × β)
  | [] => [(k, v)]
  | (a, b) :: rest =>
      match compare k a with
      | .lt => (k, v) :: (a, b) :: rest
      | .eq => (k, v) :: rest
      | .gt => (a, b) :: put k v rest

theorem mem_put {k : α} {v : β} : ∀ {l : List (α × β)} {p : α × β},
    p ∈ put k v l → p = (k, v) ∨ p ∈ l
  | [], p, h => by simpa [put] using h
  | (a, b) :: rest, p, h => by
      rw [put] at h
      split at h
      · simpa using h
      · rcases List.mem_cons.mp h with h | h
        · exact .inl h
        · exact .inr (List.mem_cons_of_mem _ h)
      · rcases List.mem_cons.mp h with h | h
        · exact .inr (h ▸ List.mem_cons_self)
        · exact (mem_put h).imp_right (List.mem_cons_of_mem _)

variable [Std.TransOrd α] [Std.LawfulEqOrd α]

/-- **Entries stay in order** when one more is put among them. -/
theorem ascending_put {k : α} {v : β} : ∀ {l : List (α × β)},
    (l.Pairwise fun a b => compare a.1 b.1 = .lt) →
      (put k v l).Pairwise fun a b => compare a.1 b.1 = .lt
  | [], _ => by simp [put]
  | (a, b) :: rest, h => by
      obtain ⟨ha, hr⟩ := List.pairwise_cons.mp h
      rw [put]
      split
      next hlt =>
        refine .cons (fun p hp => ?_) h
        rcases List.mem_cons.mp hp with rfl | hp
        · exact hlt
        · exact Std.TransCmp.lt_trans hlt (ha p hp)
      next heq =>
        obtain rfl := Std.LawfulEqCmp.eq_of_compare heq
        exact .cons ha hr
      next hgt =>
        refine .cons (fun p hp => ?_) (ascending_put hr)
        rcases mem_put hp with rfl | hp
        · exact Std.OrientedCmp.gt_iff_lt.mp hgt
        · exact ha p hp

/-- The map with a value at a key, whatever was there before. -/
def insert (m : OrderedMap α β) (k : α) (v : β) : OrderedMap α β :=
  ⟨put k v m.entries, ascending_put m.ascending⟩

/-- The map of a list of entries; of several with one key the last counts. -/
def ofList (l : List (α × β)) : OrderedMap α β :=
  l.foldl (fun m p => m.insert p.1 p.2) empty

/-- The map with the value at a key replaced by what `f` makes of it. -/
def alter (m : OrderedMap α β) (k : α) (f : Option β → β) : OrderedMap α β :=
  m.insert k (f (m.get? k))

theorem find_put (k j : α) (v : β) : ∀ l : List (α × β),
    find j (put k v l) = if compare j k = .eq then some v else find j l
  | [] => rfl
  | (a, b) :: rest => by
      rw [put]
      split
      next => rfl
      next heq =>
        obtain rfl := Std.LawfulEqCmp.eq_of_compare heq
        simp only [find]
        split <;> rfl
      next hgt =>
        simp only [find, find_put k j v rest]
        by_cases hja : compare j a = .eq
        · obtain rfl := Std.LawfulEqCmp.eq_of_compare hja
          have hjk : compare j k ≠ .eq := by rw [Std.OrientedCmp.gt_iff_lt.mp hgt]; decide
          simp only [if_pos hja, if_neg hjk]
        · simp only [if_neg hja]

/-- **An insertion changes the value at its key and nowhere else.** -/
theorem get?_insert (m : OrderedMap α β) (k j : α) (v : β) :
    (m.insert k v).get? j = if compare j k = .eq then some v else m.get? j :=
  find_put k j v m.entries

/-- Entries in order are told by what is found among them. -/
theorem entries_eq_of_find_eq : ∀ {l l' : List (α × β)},
    (l.Pairwise fun a b => compare a.1 b.1 = .lt) →
      (l'.Pairwise fun a b => compare a.1 b.1 = .lt) → (∀ k, find k l = find k l') → l = l'
  | [], [], _, _, _ => rfl
  | [], (a, b) :: rest, _, _, h => by
      have := h a
      simp [find, Std.ReflCmp.compare_self] at this
  | (a, b) :: rest, [], _, _, h => by
      have := h a
      simp [find, Std.ReflCmp.compare_self] at this
  | (a, b) :: rest, (a', b') :: rest', hl, hl', h => by
      obtain ⟨ha, hr⟩ := List.pairwise_cons.mp hl
      obtain ⟨ha', hr'⟩ := List.pairwise_cons.mp hl'
      have key : compare a a' = .eq := by
        match hc : compare a a' with
        | .eq => rfl
        | .lt =>
            have hn : find a ((a', b') :: rest') = none := find_eq_none fun p hp => by
              rcases List.mem_cons.mp hp with rfl | hp
              · exact hc
              · exact Std.TransCmp.lt_trans hc (ha' p hp)
            have := h a
            rw [hn, find, if_pos Std.ReflCmp.compare_self] at this
            cases this
        | .gt =>
            have hc' : compare a' a = .lt := Std.OrientedCmp.gt_iff_lt.mp hc
            have hn : find a' ((a, b) :: rest) = none := find_eq_none fun p hp => by
              rcases List.mem_cons.mp hp with rfl | hp
              · exact hc'
              · exact Std.TransCmp.lt_trans hc' (ha p hp)
            have := h a'
            rw [hn, find, if_pos Std.ReflCmp.compare_self] at this
            cases this
      obtain rfl := Std.LawfulEqCmp.eq_of_compare key
      have hb : b = b' := by
        have := h a
        rw [find, if_pos Std.ReflCmp.compare_self, find, if_pos Std.ReflCmp.compare_self] at this
        exact Option.some.inj this
      refine hb ▸ congrArg ((a, b) :: ·) (entries_eq_of_find_eq hr hr' fun k => ?_)
      by_cases hk : compare k a = .eq
      · obtain rfl := Std.LawfulEqCmp.eq_of_compare hk
        rw [find_eq_none ha, find_eq_none ha']
      · have := h k
        rwa [find, if_neg hk, find, if_neg hk] at this

/-- **Maps that answer alike at every key are equal.** -/
theorem ext_get? {m m' : OrderedMap α β} (h : ∀ k, m.get? k = m'.get? k) : m = m' :=
  ext (entries_eq_of_find_eq m.ascending m'.ascending h)

omit [Std.TransOrd α] [Std.LawfulEqOrd α]

/-! ## Walking through a map -/

section Visit

variable {ε σ : Type}

/-- Whether entries are in order depends on their keys alone. -/
theorem pairwise_of_keys_eq {l : List (α × β)} {l' : List (α × γ)}
    (hk : l'.map Prod.fst = l.map Prod.fst) (h : l.Pairwise fun a b => compare a.1 b.1 = .lt) :
    l'.Pairwise fun a b => compare a.1 b.1 = .lt := by
  have hl : (l.map Prod.fst).Pairwise fun a b => compare a b = .lt := List.pairwise_map.mpr h
  rw [← hk] at hl
  exact List.pairwise_map.mp hl

/-- **A walk over the entries in order.**  Each entry is handed to `f` with the state; `f` returns
its outcome, the new value of the entry and the new state.  The first failure ends the walk: the
entries behind it are not visited and keep their values. -/
def visit (m : OrderedMap α β) (f : α → β → σ → Except ε γ × β × σ) (s : σ) :
    Except ε (OrderedMap α γ) × OrderedMap α β × σ :=
  let walk := visitEntries f m.entries s
  (match h : walk.1 with
    | .error e => .error e
    | .ok cs => .ok ⟨cs, pairwise_of_keys_eq
        (keys_of_visitEntries_eq_ok f m.entries s cs h) m.ascending⟩,
    ⟨walk.2.1, pairwise_of_keys_eq (keys_visitEntries f m.entries s) m.ascending⟩,
    walk.2.2)

/-- **A map built entry by entry**, with the same keys, or nothing at all: see
`assembleEntries`. -/
def assemble (m : OrderedMap α β) (make : α → β → σ → Except ε γ × σ) (undo : γ → σ → σ) (s : σ) :
    Except ε (OrderedMap α γ) × σ :=
  let built := assembleEntries make undo [] m.entries s
  (match h : built.1 with
    | .error e => .error e
    | .ok cs => .ok ⟨cs, pairwise_of_keys_eq
        (keys_of_assembleEntries_eq_ok make undo m.entries [] s cs h) m.ascending⟩,
    built.2)

end Visit

/-- The map without a key. -/
def erase (m : OrderedMap α β) (k : α) : OrderedMap α β :=
  ⟨m.entries.filter fun p => compare k p.1 ≠ .eq, m.ascending.filter _⟩

/-- A map with one value at every member of a set. -/
def ofSet (s : OrderedSet α) (v : β) : OrderedMap α β :=
  ⟨s.toList.map (·, v), List.pairwise_map.mpr s.ascending⟩

end OrderedMap
end CounterWatch
