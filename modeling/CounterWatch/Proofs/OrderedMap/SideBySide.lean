import CounterWatch.Proofs.OrderedMap.Walk
import Mathlib.Data.List.Forall2

/-!
# Proofs/OrderedMap/SideBySide — two walks through one map

Two walks through a map are taken step by step, side by side.  If the states are related before a
step, they are related after it, and the results belong together; then this is so for the whole
walks.

* `Matches` — the same failure, or results that belong together.
* `Related` — maps with the same keys whose values belong together, key by key.
* `visit_sideBySide`, `assemble_same` — from steps to walks.
-/

namespace CounterWatch

variable {α β γ γ' ε σ : Type}

/-! ## Outcomes -/

/-- Two outcomes are the same failure, or results that belong together. -/
inductive Matches (Q : γ → γ' → Prop) : Except ε γ → Except ε γ' → Prop
  | error (e : ε) : Matches Q (.error e) (.error e)
  | ok {c : γ} {c' : γ'} (h : Q c c') : Matches Q (.ok c) (.ok c')

/-- Results that match still do after both were changed in ways that match. -/
theorem Matches.map {δ δ' : Type} {Q : γ → γ' → Prop} {Q' : δ → δ' → Prop} {f : γ → δ}
    {f' : γ' → δ'} {r : Except ε γ} {r' : Except ε γ'} (h : Matches Q r r')
    (hf : ∀ c c', Q c c' → Q' (f c) (f' c')) : Matches Q' (r.map f) (r'.map f') := by
  cases h with
  | error e => exact .error e
  | ok h => exact .ok (hf _ _ h)

theorem Matches.eq {Q : γ → γ → Prop} {r r' : Except ε γ} (h : Matches Q r r')
    (hQ : ∀ c c', Q c c' → c = c') : r = r' := by
  cases h with
  | error e => rfl
  | ok h => rw [hQ _ _ h]

/-- Two steps with the same result, and related states behind them. -/
def Same (R : σ → σ → Prop) (x x' : γ × σ) : Prop :=
  ∃ c s s', x = (c, s) ∧ x' = (c, s') ∧ R s s'

theorem Same.of_eq {R : σ → σ → Prop} {s s' : σ} (c : γ) (h : R s s') : Same R (c, s) (c, s') :=
  ⟨c, s, s', rfl, rfl, h⟩

theorem Same.map {δ : Type} {R : σ → σ → Prop} {x x' : Except ε γ × σ} (h : Same R x x')
    (f : γ → δ) : Same R (x.1.map f, x.2) (x'.1.map f, x'.2) := by
  obtain ⟨r, s, s', rfl, rfl, h⟩ := h
  exact .of_eq _ h

/-- Two steps with results that belong together, the same value and related states behind them. -/
def SideBySide (R : σ → σ → Prop) (Q : γ → γ' → Prop) (x : Except ε γ × β × σ)
    (x' : Except ε γ' × β × σ) : Prop :=
  ∃ r r' v s s', x = (r, v, s) ∧ x' = (r', v, s') ∧ Matches Q r r' ∧ R s s'

/-- Steps side by side stay so when their results are changed in ways that match, and what they
leave behind in the same way. -/
theorem SideBySide.map {δ δ' β' : Type} {R : σ → σ → Prop} {Q : γ → γ' → Prop} {Q' : δ → δ' → Prop}
    {x : Except ε γ × β × σ} {x' : Except ε γ' × β × σ} (h : SideBySide R Q x x') (f : γ → δ)
    (f' : γ' → δ') (wrap : β → β') (hf : ∀ c c', Q c c' → Q' (f c) (f' c')) :
    SideBySide R Q' (x.1.map f, wrap x.2.1, x.2.2) (x'.1.map f', wrap x'.2.1, x'.2.2) := by
  obtain ⟨r, r', v, s, s', rfl, rfl, hmatches, h⟩ := h
  exact ⟨_, _, _, _, _, rfl, rfl, hmatches.map hf, h⟩

/-- Options that are related go on to related options. -/
theorem rel_bind {δ δ' : Type} {Q : γ → γ' → Prop} {Q' : δ → δ' → Prop} {o : Option γ}
    {o' : Option γ'} (h : Option.Rel Q o o') {f : γ → Option δ} {f' : γ' → Option δ'}
    (hf : ∀ c c', Q c c' → Option.Rel Q' (f c) (f' c')) :
    Option.Rel Q' (o.bind f) (o'.bind f') := by
  cases h with
  | some h => exact hf _ _ h
  | none => exact .none

namespace OrderedMap

/-! ## Maps -/

section Related

variable [Ord α] {Q : β → γ → Prop} {m : OrderedMap α β} {m' : OrderedMap α γ}

/-- Two maps with the same keys, and values that belong together. -/
def Related (Q : β → γ → Prop) (m : OrderedMap α β) (m' : OrderedMap α γ) : Prop :=
  List.Forall₂ (fun p p' => p.1 = p'.1 ∧ Q p.2 p'.2) m.entries m'.entries

theorem Related.eq {m m' : OrderedMap α β} (h : Related Eq m m') : m = m' := by
  have hentries : List.Forall₂ Eq m.entries m'.entries :=
    List.Forall₂.imp (fun _ _ h => Prod.ext h.1 h.2) h
  rw [List.forall₂_eq_eq_eq] at hentries
  exact ext hentries

theorem Related.imp {Q' : β → γ → Prop} (h : Related Q m m') (hQ : ∀ b c, Q b c → Q' b c) :
    Related Q' m m' := List.Forall₂.imp (fun _ _ h => ⟨h.1, hQ _ _ h.2⟩) h

/-- Entries that correspond still do with one more pair of related values at one key. -/
theorem forall₂_put (k : α) {v : β} {w : γ} (hv : Q v w) {l : List (α × β)} {l' : List (α × γ)}
    (h : List.Forall₂ (fun p p' => p.1 = p'.1 ∧ Q p.2 p'.2) l l') :
    List.Forall₂ (fun p p' => p.1 = p'.1 ∧ Q p.2 p'.2) (put k v l) (put k w l') := by
  induction h with
  | nil => exact .cons ⟨rfl, hv⟩ .nil
  | @cons p p' rest rest' hp hrest ih =>
      obtain ⟨a, b⟩ := p
      obtain ⟨a', c⟩ := p'
      obtain ⟨rfl, hbc⟩ : a = a' ∧ Q b c := hp
      rw [put, put]
      rcases compare k a with _ | _ | _
      · exact .cons ⟨rfl, hv⟩ (.cons ⟨rfl, hbc⟩ hrest)
      · exact .cons ⟨rfl, hv⟩ hrest
      · exact .cons ⟨rfl, hbc⟩ ih

/-- Related values inserted at one key keep maps related. -/
theorem Related.insert [Std.TransOrd α] [Std.LawfulEqOrd α] (h : Related Q m m') (k : α) {v : β}
    {w : γ} (hv : Q v w) : Related Q (m.insert k v) (m'.insert k w) := forall₂_put k hv h

/-- **What belongs together is found at the same keys.** -/
theorem Related.get? (h : Related Q m m') (k : α) : Option.Rel Q (m.get? k) (m'.get? k) := by
  have hfind : ∀ {l : List (α × β)} {l' : List (α × γ)},
      List.Forall₂ (fun p p' => p.1 = p'.1 ∧ Q p.2 p'.2) l l' →
        Option.Rel Q (find k l) (find k l') := by
    intro l l' h
    induction h with
    | nil => exact .none
    | @cons p p' rest rest' hp _ ih =>
        obtain ⟨a, b⟩ := p
        obtain ⟨a', c⟩ := p'
        obtain ⟨rfl, hbc⟩ : a = a' ∧ Q b c := hp
        rw [find, find]
        split
        · exact .some hbc
        · exact ih
  exact hfind h

end Related

/-! ## Walks -/

section Visit

variable {R : σ → σ → Prop} {Q : γ → γ' → Prop} {f : α → β → σ → Except ε γ × β × σ}
  {f' : α → β → σ → Except ε γ' × β × σ}

/-- Walks over the same entries, whose steps go side by side, go side by side: they stop at the same
entry, if at any. -/
theorem visitEntries_sideBySide
    (hf : ∀ k v s s', R s s' → SideBySide R Q (f k v s) (f' k v s')) :
    ∀ (l : List (α × β)) {s s' : σ}, R s s' →
      SideBySide R (List.Forall₂ fun p p' => p.1 = p'.1 ∧ Q p.2 p'.2) (visitEntries f l s)
        (visitEntries f' l s')
  | [], _, _, h => ⟨_, _, _, _, _, rfl, rfl, .ok .nil, h⟩
  | (k, v) :: rest, s, s', h => by
      obtain ⟨r, r', v', s₁, s₁', hfirst, hfirst', hmatches, h₁⟩ := hf k v s s' h
      rw [visitEntries, visitEntries, hfirst, hfirst']
      cases hmatches with
      | error e => exact ⟨_, _, _, _, _, rfl, rfl, .error e, h₁⟩
      | ok hc =>
          obtain ⟨cs, cs', after, s₂, s₂', hrest, hrest', hall, h₂⟩ :=
            visitEntries_sideBySide hf rest h₁
          dsimp only
          rw [hrest, hrest']
          exact ⟨_, _, _, _, _, rfl, rfl, hall.map fun _ _ hcs => .cons ⟨rfl, hc⟩ hcs, h₂⟩

variable [Ord α]

/-- **Walks whose steps go side by side go side by side.** -/
theorem visit_sideBySide (m : OrderedMap α β)
    (hf : ∀ k v s s', R s s' → SideBySide R Q (f k v s) (f' k v s')) {s s' : σ} (h : R s s') :
    SideBySide R (Related Q) (m.visit f s) (m.visit f' s') := by
  obtain ⟨cs, cs', after, s₁, s₁', hwalk, hwalk', hmatches, h₁⟩ :=
    visitEntries_sideBySide hf m.entries h
  rw [visitEntries_eq] at hwalk hwalk'
  rcases hv : m.visit f s with ⟨r, left, t⟩
  rcases hv' : m.visit f' s' with ⟨r', left', t'⟩
  rw [hv] at hwalk
  rw [hv'] at hwalk'
  obtain ⟨rfl, rfl, rfl⟩ : r.map entries = cs ∧ left.entries = after ∧ t = s₁ := by
    simpa only [Prod.mk.injEq] using hwalk
  obtain ⟨rfl, hleft, rfl⟩ : r'.map entries = cs' ∧ left'.entries = left.entries ∧ t' = s₁' := by
    simpa only [Prod.mk.injEq] using hwalk'
  obtain rfl := ext hleft
  refine ⟨r, r', left', t, t', rfl, rfl, ?_, h₁⟩
  rcases r with e | built <;> rcases r' with e' | built' <;> cases hmatches
  · exact .error _
  · exact .ok ‹_›

end Visit

/-! ## Assembling -/

section Assemble

variable {R : σ → σ → Prop} {make make' : α → β → σ → Except ε γ × σ} {undo : γ → σ → σ}

/-- Entries assembled from states that are related give one result, or fail at one entry and undo
the same ones. -/
theorem assembleEntries_same (hmake : ∀ k v s s', R s s' → Same R (make k v s) (make' k v s'))
    (hundo : ∀ c s s', R s s' → R (undo c s) (undo c s')) :
    ∀ (l : List (α × β)) (made : List (α × γ)) {s s' : σ}, R s s' →
      Same R (assembleEntries make undo made l s) (assembleEntries make' undo made l s')
  | [], made, _, _, h => .of_eq _ h
  | (k, v) :: rest, made, s, s', h => by
      obtain ⟨r, s₁, s₁', hfirst, hfirst', h₁⟩ := hmake k v s s' h
      rw [assembleEntries, assembleEntries, hfirst, hfirst']
      rcases r with e | c
      · exact .of_eq _ (List.foldl_rel h₁ fun p _ s s' h => hundo p.2 s s' h)
      · exact assembleEntries_same hmake hundo rest _ h₁

variable [Ord α]

/-- **Maps that are made of the same parts are the same.** -/
theorem assemble_same (m : OrderedMap α β)
    (hmake : ∀ k v s s', R s s' → Same R (make k v s) (make' k v s'))
    (hundo : ∀ c s s', R s s' → R (undo c s) (undo c s')) {s s' : σ} (h : R s s') :
    Same R (m.assemble make undo s) (m.assemble make' undo s') := by
  obtain ⟨cs, s₁, s₁', hwalk, hwalk', h₁⟩ := assembleEntries_same hmake hundo m.entries [] h
  rw [assembleEntries_eq] at hwalk hwalk'
  rcases hv : m.assemble make undo s with ⟨r, t⟩
  rcases hv' : m.assemble make' undo s' with ⟨r', t'⟩
  rw [hv] at hwalk
  rw [hv'] at hwalk'
  obtain ⟨rfl, rfl⟩ : r.map entries = cs ∧ t = s₁ := by simpa only [Prod.mk.injEq] using hwalk
  obtain ⟨hr, rfl⟩ : r'.map entries = r.map entries ∧ t' = s₁' := by
    simpa only [Prod.mk.injEq] using hwalk'
  have hsame : r' = r := by
    rcases r with e | built <;> rcases r' with e' | built'
    · exact congrArg Except.error (Except.error.inj hr)
    · cases hr
    · cases hr
    · exact congrArg Except.ok (ext (Except.ok.inj hr))
  rw [hsame]
  exact .of_eq r h₁

end Assemble

end OrderedMap
end CounterWatch
