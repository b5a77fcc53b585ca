/-!
# OrderedSet — finite sets listed in order

The set of CPUs of a package is its list in ascending order, each CPU once.  `mem_insert` says what
an insertion adds and `ext_mem` that the members decide the set, so it does not matter in which
order, or how often, they were added.
-/

namespace CounterWatch

/-- A finite set, listed in strictly ascending order. -/
structure OrderedSet (α : Type) [Ord α] where
  /-- The members, in order. -/
  toList : List α
  /-- Every member comes before all later ones. -/
  ascending : toList.Pairwise fun a b => compare a b = .lt

namespace OrderedSet

variable {α : Type} [Ord α]

theorem ext {s s' : OrderedSet α} (h : s.toList = s'.toList) : s = s' := by
  cases s; cases s'; cases h; rfl

instance [DecidableEq α] : DecidableEq (OrderedSet α) := fun s s' =>
  decidable_of_iff (s.toList = s'.toList) ⟨ext, fun h => h ▸ rfl⟩

/-- The set without members. -/
def empty : OrderedSet α := ⟨[], .nil⟩

instance : EmptyCollection (OrderedSet α) := ⟨empty⟩

instance : Inhabited (OrderedSet α) := ⟨empty⟩

instance : Membership α (OrderedSet α) := ⟨fun s a => a ∈ s.toList⟩

/-- Puts a member in its place in an ascending list. -/
def put (a : α) : List α → List α
  | [] => [a]
  | b :: rest =>
      match compare a b with
      | .lt => a :: b :: rest
      | .eq => b :: rest
      | .gt => b :: put a rest

variable [Std.TransOrd α] [Std.LawfulEqOrd α]

omit [Std.TransOrd α] in
theorem mem_put {a c : α} : ∀ {l : List α}, c ∈ put a l ↔ c = a ∨ c ∈ l
  | [] => by simp [put]
  | b :: rest => by
      rw [put]
      split
      next => simp
      next heq =>
        obtain rfl := Std.LawfulEqCmp.eq_of_compare heq
        simp
      next => simp only [List.mem_cons, mem_put]; exact or_left_comm

/-- **Members stay in order**, and none comes twice, when one more is put among them. -/
theorem ascending_put {a : α} : ∀ {l : List α},
    (l.Pairwise fun a b => compare a b = .lt) → (put a l).Pairwise fun a b => compare a b = .lt
  | [], _ => by simp [put]
  | b :: rest, h => by
      obtain ⟨hb, hr⟩ := List.pairwise_cons.mp h
      rw [put]
      split
      next hlt =>
        refine .cons (fun c hc => ?_) h
        rcases List.mem_cons.mp hc with rfl | hc
        · exact hlt
        · exact Std.TransCmp.lt_trans hlt (hb c hc)
      next => exact h
      next hgt =>
        refine .cons (fun c hc => ?_) (ascending_put hr)
        rcases mem_put.mp hc with rfl | hc
        · exact Std.OrientedCmp.gt_iff_lt.mp hgt
        · exact hb c hc

/-- The set with one more member. -/
def insert (s : OrderedSet α) (a : α) : OrderedSet α := ⟨put a s.toList, ascending_put s.ascending⟩

/-- The set with more members. -/
def insertMany (s : OrderedSet α) (l : List α) : OrderedSet α := l.foldl insert s

/-- **An insertion adds its argument and nothing else.** -/
theorem mem_insert {s : OrderedSet α} {a c : α} : c ∈ s.insert a ↔ c = a ∨ c ∈ s := mem_put

/-- A set into which a list was inserted has its own members and those of the list. -/
theorem mem_insertMany {s : OrderedSet α} {c : α} : ∀ {l : List α},
    c ∈ s.insertMany l ↔ c ∈ s ∨ c ∈ l
  | [] => by simp [insertMany]
  | a :: rest => by
      rw [insertMany, List.foldl_cons]
      have := mem_insertMany (s := s.insert a) (c := c) (l := rest)
      rw [insertMany] at this
      rw [this, mem_insert, List.mem_cons, or_assoc, or_left_comm]

/-- Members in order are told by who is among them. -/
theorem toList_eq_of_mem_iff : ∀ {l l' : List α},
    (l.Pairwise fun a b => compare a b = .lt) → (l'.Pairwise fun a b => compare a b = .lt) →
      (∀ a, a ∈ l ↔ a ∈ l') → l = l'
  | [], [], _, _, _ => rfl
  | [], b :: _, _, _, h => absurd ((h b).mpr List.mem_cons_self) List.not_mem_nil
  | a :: _, [], _, _, h => absurd ((h a).mp List.mem_cons_self) List.not_mem_nil
  | a :: rest, b :: rest', hl, hl', h => by
      obtain ⟨ha, hr⟩ := List.pairwise_cons.mp hl
      obtain ⟨hb, hr'⟩ := List.pairwise_cons.mp hl'
      have irrefl : ∀ {c : α}, compare c c ≠ .lt := by simp [Std.ReflCmp.compare_self]
      have key : a = b := by
        rcases List.mem_cons.mp ((h a).mp List.mem_cons_self) with hab | hab
        · exact hab
        rcases List.mem_cons.mp ((h b).mpr List.mem_cons_self) with hba | hba
        · exact hba.symm
        exact absurd (Std.TransCmp.lt_trans (hb a hab) (ha b hba)) irrefl
      subst key
      refine congrArg (a :: ·) (toList_eq_of_mem_iff hr hr' fun c => ?_)
      constructor
      · intro hc
        rcases List.mem_cons.mp ((h c).mp (List.mem_cons_of_mem _ hc)) with rfl | hc'
        · exact absurd (ha c hc) irrefl
        · exact hc'
      · intro hc
        rcases List.mem_cons.mp ((h c).mpr (List.mem_cons_of_mem _ hc)) with rfl | hc'
        · exact absurd (hb c hc) irrefl
        · exact hc'

/-- **The members decide the set.** -/
theorem ext_mem {s s' : OrderedSet α} (h : ∀ a, a ∈ s ↔ a ∈ s') : s = s' :=
  ext (toList_eq_of_mem_iff s.ascending s'.ascending h)

end OrderedSet
end CounterWatch
