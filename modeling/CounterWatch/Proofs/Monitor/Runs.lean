import CounterWatch.Proofs.Monitor.Turns

/-!
# Proofs/Monitor/Runs — a monitor that is left to itself

Between the turns of a monitor that is left to itself nobody does anything; all that is sent was
sent before, or while a tick is handled.  Such a run is settled by the state it starts from.

* `Actor.Turns` — turns one after the other, and the ticks handled in them, each with whether there
  was somebody to take its payload.
* `Monitor.Comes` — what a monitor comes to by itself: its outcome, once it has one, its ticks and
  the machine.
* `Monitor.exists_comes_iff` — the outcomes are those that `Monitor.run` computes.
* `Monitor.Comes.unique` — a monitor has only one of them.
-/

namespace CounterWatch

variable {σ : Type} {pmu : Pmu σ}

namespace Actor

/-! ## Turns -/

/-- Turns of an actor that nothing comes between: the ticks handled, each with whether there was
somebody to take its payload, and the actor afterwards. -/
inductive Turns (pmu : Pmu σ) : Actor σ → List (Handling × Bool) → Actor σ → Prop
  | refl (a : Actor σ) : Turns pmu a [] a
  | turn {a b c : Actor σ} {handled : List Handling} {ts : List (Handling × Bool)}
      (hturn : Turn pmu a handled b) (h : Turns pmu b ts c) :
      Turns pmu a (handled.map (·, b.machine.mailbox.sink.isOpen) ++ ts) c

variable {a b c : Actor σ} {ts ts' : List (Handling × Bool)}

theorem Turns.single {handled : List Handling} (hturn : Turn pmu a handled b) :
    Turns pmu a (handled.map (·, b.machine.mailbox.sink.isOpen)) b := by
  have h := Turns.turn hturn (.refl b)
  rwa [List.append_nil] at h

theorem Turns.trans (h : Turns pmu a ts b) (h' : Turns pmu b ts' c) :
    Turns pmu a (ts ++ ts') c := by
  induction h with
  | refl => exact h'
  | turn hturn _ ih =>
      rw [List.append_assoc]
      exact .turn hturn (ih h')

theorem map_fst_flagged (handled : List Handling) (flag : Bool) :
    (handled.map (·, flag)).map Prod.fst = handled := by
  rw [List.map_map]
  exact List.map_id' handled

/-- **Turns that nothing comes between are a run.** -/
theorem Turns.reaches (h : Turns pmu a ts b) : Reaches pmu a (ts.map Prod.fst) b := by
  induction h with
  | refl => exact .refl
  | turn hturn _ ih =>
      rw [List.map_append, map_fst_flagged]
      exact (Reaches.refl.turn hturn).trans ih

/-! ## One run only -/

/-- The ticks that an actor handles in its next turn. -/
def nextHandled (pmu : Pmu σ) (a : Actor σ) : List Handling :=
  match a.machine.mailbox.ticks.queue with
  | [] => []
  | time :: rest =>
      if a.phase = .draining ∨ a.phase = .running ∧ a.machine.mailbox.control.queue = [] ∧
          a.machine.mailbox.control.isOpen = true then
        [(a.withTimes rest).handling pmu time]
      else []

/-- **What a turn handles is settled before it**: it can be told from the actor alone. -/
theorem Turn.handled_eq {handled : List Handling} (h : Turn pmu a handled b) :
    handled = a.nextHandled pmu := by
  cases h with
  | terminate hphase hcontrol | reject hphase hcontrol =>
      rw [nextHandled, hphase, hcontrol]
      split <;> simp
  | controlClosed hphase hcontrol hgone =>
      rw [nextHandled, hphase, hgone]
      split <;> simp
  | handle hphase hcontrol hthere hticks =>
      simp only [nextHandled, hticks, hphase, hcontrol, hthere, and_self, or_true, if_true]
  | tickerClosed _ _ _ hticks => rw [nextHandled, hticks]
  | closeTicks hphase =>
      rw [nextHandled, hphase]
      split <;> simp
  | drain hphase hticks => simp only [nextHandled, hticks, hphase, true_or, if_true]
  | finish _ hticks => rw [nextHandled, hticks]

/-- An actor has one next turn at most. -/
theorem Turn.unique {handled handled' : List Handling} (h : Turn pmu a handled b)
    (h' : Turn pmu a handled' c) : handled = handled' ∧ b = c :=
  ⟨h.handled_eq.trans h'.handled_eq.symm, Option.some.inj ((pass_of_turn h).symm.trans
    (pass_of_turn h'))⟩

theorem Turn.not_stopped {handled : List Handling} (h : Turn pmu a handled b) :
    a.phase ≠ .stopped := by
  intro hstopped
  have hpass := pass_of_turn h
  rw [pass, hstopped] at hpass
  cases hpass

/-- **Two runs to the end are the same.** -/
theorem Turns.unique (h : Turns pmu a ts b) (hb : b.phase = .stopped) (h' : Turns pmu a ts' c)
    (hc : c.phase = .stopped) : ts = ts' ∧ b = c := by
  induction h generalizing ts' with
  | refl a =>
      cases h' with
      | refl => exact ⟨rfl, rfl⟩
      | turn hturn _ => exact absurd hb hturn.not_stopped
  | turn hturn hrest ih =>
      cases h' with
      | refl => exact absurd hc hturn.not_stopped
      | turn hturn' hrest' =>
          obtain ⟨rfl, rfl⟩ := hturn.unique hturn'
          obtain ⟨rfl, rfl⟩ := ih hb hrest'
          exact ⟨rfl, rfl⟩

/-! ## Settling -/

/-- Settling is taking turns that nothing comes between. -/
theorem turns_settle (pmu : Pmu σ) : ∀ (turns : Nat) (a : Actor σ),
    ∃ ts, Turns pmu a ts (a.settle pmu turns)
  | 0, a => ⟨[], .refl a⟩
  | turns + 1, a => by
      rw [settle]
      rcases hpass : a.pass pmu with _ | next
      · exact ⟨[], .refl a⟩
      · obtain ⟨handled, hturn⟩ := turn_of_pass hpass
        obtain ⟨ts, hrest⟩ := turns_settle pmu turns next
        exact ⟨_, .turn hturn hrest⟩

/-- Any number of turns are taken by settling for long enough. -/
theorem Turns.exists_settle (h : Turns pmu a ts b) : ∃ turns, a.settle pmu turns = b := by
  induction h with
  | refl a => exact ⟨0, rfl⟩
  | turn hturn _ ih =>
      obtain ⟨turns, ih⟩ := ih
      exact ⟨turns + 1, by rw [settle, pass_of_turn hturn]; exact ih⟩

end Actor

/-! ## Whole runs -/

namespace Monitor

/-- What a monitor that is left to itself comes to: its outcome, once it has one, the ticks handled,
each with whether there was somebody to take its payload, and the machine. -/
inductive Comes (pmu : Pmu σ) (config : MonitoringConfig) (backend : Option Backend)
    (m : Machine σ) : Option (Except Failure Unit) → List (Handling × Bool) → Machine σ → Prop
  | failed {f : Failure} {m' : Machine σ} (hstart : start pmu config backend m = .error (f, m')) :
      Comes pmu config backend m (some (.error f)) [] m'
  | working {a b : Actor σ} {ts : List (Handling × Bool)}
      (hstart : start pmu config backend m = .ok a) (hturns : Actor.Turns pmu a ts b)
      (hphase : b.phase ≠ .stopped) : Comes pmu config backend m none ts b.machine
  | ended {a b : Actor σ} {ts : List (Handling × Bool)}
      (hstart : start pmu config backend m = .ok a) (hturns : Actor.Turns pmu a ts b)
      (hphase : b.phase = .stopped) : Comes pmu config backend m (some (.ok ())) ts b.machine

variable {config : MonitoringConfig} {backend : Option Backend} {m m' m'' : Machine σ}
  {r r' : Except Failure Unit} {ts ts' : List (Handling × Bool)}

/-- **A monitor that is left to itself has one outcome.** -/
theorem Comes.unique (h : Comes pmu config backend m (some r) ts m')
    (h' : Comes pmu config backend m (some r') ts' m'') : r = r' ∧ ts = ts' ∧ m' = m'' := by
  cases h with
  | failed hstart =>
      cases h' with
      | failed hstart' =>
          cases hstart.symm.trans hstart'
          exact ⟨rfl, rfl, rfl⟩
      | ended hstart' => cases hstart.symm.trans hstart'
  | ended hstart hturns hphase =>
      cases h' with
      | failed hstart' => cases hstart.symm.trans hstart'
      | ended hstart' hturns' hphase' =>
          cases hstart.symm.trans hstart'
          obtain ⟨rfl, rfl⟩ := hturns.unique hphase hturns' hphase'
          exact ⟨rfl, rfl, rfl⟩

/-- **The outcomes of a monitor that is left to itself are those that are computed**, given enough
turns. -/
theorem exists_comes_iff : (∃ ts, Comes pmu config backend m (some r) ts m')
    ↔ ∃ turns, run pmu config backend turns m = some (r, m') := by
  constructor
  · rintro ⟨ts, h⟩
    cases h with
    | failed hstart => exact ⟨0, by rw [run, hstart]⟩
    | ended hstart hturns hphase =>
        obtain ⟨turns, rfl⟩ := hturns.exists_settle
        exact ⟨turns, by rw [run, hstart]; exact if_pos hphase⟩
  · rintro ⟨turns, h⟩
    rw [run] at h
    rcases hstart : start pmu config backend m with ⟨f, m₁⟩ | a
    · rw [hstart] at h
      cases h
      exact ⟨[], .failed hstart⟩
    · rw [hstart] at h
      dsimp only at h
      split at h
      next hphase =>
        cases h
        obtain ⟨ts, hturns⟩ := a.turns_settle pmu turns
        exact ⟨ts, .ended hstart hturns hphase⟩
      next => cases h

end Monitor

end CounterWatch
