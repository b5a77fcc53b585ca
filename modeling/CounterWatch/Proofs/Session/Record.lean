import CounterWatch.Proofs.Session.Effect

/-!
# Proofs/Session/Record — what sessions leave on the record

Sessions make calls and log what goes wrong with counters.  They do not touch the channels, and they
say nothing that it is for the actor to say; whatever happens to the channels while they work is
done by the surroundings.

* `Machine.Records` — calls of some kind were made, and nothing happened to the channels.
* `Machine.Setups.records` — opening and closing makes no calls but those that open.
* `Machine.Uses.induction` — what holds of such records, and of a step of the surroundings, holds of
  all work with counters.
-/

namespace CounterWatch

variable {σ : Type} {pmu : Pmu σ}

/-- Whether a call finds out about a target, or opens its counters. -/
def Call.isOpening : Call → Bool
  | .openPath _ | .readFile _ | .attach _ | .opened _ _ | .openFailed _ | .map _ _ => true
  | .enable _ | .reset _ | .read _ _ | .sent _ _ | .ticked _ _ => false

/-- Whether a call is one of the surroundings, who send a message. -/
def Call.isMessage : Call → Bool
  | .sent _ _ | .ticked _ _ => true
  | .openPath _ | .readFile _ | .attach _ | .opened _ _ | .openFailed _ | .map _ _ | .enable _
  | .reset _ | .read _ _ => false

/-- A call that opens counters tells nothing of messages. -/
theorem Call.isMessage_of_isOpening {c : Call} (h : c.isOpening = true) : c.isMessage = false := by
  cases c <;> first | rfl | cases h

namespace Machine

/-- Between two machines calls of some kind were made, nothing was logged that is for the actor to
say, and nothing happened to the channels. -/
structure Records (kind : Call → Prop) (m m' : Machine σ) : Prop where
  mailbox : m'.mailbox = m.mailbox
  trace : ∃ calls, m'.trace = m.trace ++ calls ∧ ∀ c ∈ calls, kind c
  log : ∃ notices, m'.log = m.log ++ notices ∧ ∀ n ∈ notices, n.ofActor = false

/-- Nothing was sent, and the actor said nothing. -/
def Quiet : Machine σ → Machine σ → Prop := Records fun c => c.isMessage = false

section Records

variable {kind kind' : Call → Prop} {m m' m'' : Machine σ}

theorem Records.of_eq (hmailbox : m'.mailbox = m.mailbox) (htrace : m'.trace = m.trace)
    (hlog : m'.log = m.log) : Records kind m m' where
  mailbox := hmailbox
  trace := ⟨[], by rw [htrace, List.append_nil], List.forall_mem_nil _⟩
  log := ⟨[], by rw [hlog, List.append_nil], List.forall_mem_nil _⟩

theorem Records.refl (m : Machine σ) : Records kind m m := .of_eq rfl rfl rfl

theorem Records.trans (h : Records kind m m') (h' : Records kind m' m'') : Records kind m m'' where
  mailbox := h'.mailbox.trans h.mailbox
  trace := by
    obtain ⟨calls, htrace, hcalls⟩ := h.trace
    obtain ⟨calls', htrace', hcalls'⟩ := h'.trace
    exact ⟨calls ++ calls', by rw [htrace', htrace, List.append_assoc],
      List.forall_mem_append.mpr ⟨hcalls, hcalls'⟩⟩
  log := by
    obtain ⟨notices, hlog, hnotices⟩ := h.log
    obtain ⟨notices', hlog', hnotices'⟩ := h'.log
    exact ⟨notices ++ notices', by rw [hlog', hlog, List.append_assoc],
      List.forall_mem_append.mpr ⟨hnotices, hnotices'⟩⟩

/-- Calls may be told by a wider kind. -/
theorem Records.mono (h : Records kind m m') (hkind : ∀ c, kind c → kind' c) :
    Records kind' m m' where
  mailbox := h.mailbox
  trace := by
    obtain ⟨calls, htrace, hcalls⟩ := h.trace
    exact ⟨calls, htrace, fun c hc => hkind c (hcalls c hc)⟩
  log := h.log

theorem records_note (m : Machine σ) {n : Notice} (h : n.ofActor = false) :
    Records kind m (m.note n) where
  mailbox := rfl
  trace := (Records.refl m).trace
  log := ⟨[n], rfl, List.forall_mem_singleton.mpr h⟩

/-- A call that is recorded, and changes nothing of the channels. -/
theorem records_call {c : Call} (h : kind c) (hmailbox : m'.mailbox = m.mailbox)
    (htrace : m'.trace = m.trace ++ [c]) (hlog : m'.log = m.log) : Records kind m m' where
  mailbox := hmailbox
  trace := ⟨[c], htrace, List.forall_mem_singleton.mpr h⟩
  log := ⟨[], by rw [hlog, List.append_nil], List.forall_mem_nil _⟩

end Records

/-! ## Opening and closing -/

/-- Finding out about a target is recorded, and is part of opening. -/
theorem records_lookup {m m' : Machine σ} (h : Lookup m m') :
    Records (fun c => c.isOpening = true) m m' := by
  cases h with
  | note hn => exact records_note m hn
  | @call c hc => exact records_call (by cases c <;> first | rfl | cases hc) rfl rfl rfl

/-- One effect of opening or closing makes only calls that open. -/
theorem records_setup {m m' : Machine σ} (h : Setup pmu m m') :
    Records (fun c => c.isOpening = true) m m' := by
  cases h with
  | lookup h => exact records_lookup h
  | openCounter request =>
      rw [openCounter]
      split
      · exact records_call (c := .opened m.nextId request) rfl rfl rfl rfl
      · exact records_call (c := .openFailed m.attempts) rfl rfl rfl rfl
  | mapRing id length =>
      have hmap : Records (fun c => c.isOpening = true) m (m.map pmu id length).2 :=
        records_call (c := .map id length) rfl rfl rfl rfl
      rw [mapRing]
      split
      next arena m₁ heq =>
        rw [heq] at hmap
        exact hmap.trans (.of_eq rfl rfl rfl)
      next e m₁ heq =>
        rw [heq] at hmap
        exact hmap
  | unmapRing id => exact .of_eq rfl rfl rfl
  | closeCounter c => exact .of_eq rfl rfl rfl

/-- **Opening and closing makes no calls but those that open.** -/
theorem Setups.records {m m' : Machine σ} (h : Setups pmu m m') :
    Records (fun c => c.isOpening = true) m m' := by
  induction h with
  | refl => exact .refl m
  | tail _ hstep ih => exact ih.trans (records_setup hstep)

/-- Opening and closing go on behind the back of whoever sends messages. -/
theorem Setups.quiet {m m' : Machine σ} (h : Setups pmu m m') : m.Quiet m' :=
  h.records.mono fun _ => Call.isMessage_of_isOpening

/-! ## Working with counters -/

/-- Of the effects of working with counters, only a read gives the surroundings time for messages.
-/
theorem Use.quiet_or_reads {m m' : Machine σ} (h : Use pmu m m') :
    m.Quiet m' ∨ ∃ id buffer, m' = (m.read pmu id buffer).2.2 := by
  cases h with
  | note hn => exact .inl (records_note m hn)
  | enable id => exact .inl (records_call (c := .enable id) rfl rfl rfl rfl)
  | reset id => exact .inl (records_call (c := .reset id) rfl rfl rfl rfl)
  | read id buffer => exact .inr ⟨id, buffer, rfl⟩
  | drained id ring => exact .inl (.of_eq rfl rfl rfl)

/-- **All work with counters is quiet, but for what the surroundings do meanwhile.** -/
theorem Uses.induction {R : Machine σ → Machine σ → Prop}
    (htrans : ∀ {m m' m''}, R m m' → R m' m'' → R m m'') (hquiet : ∀ {m m'}, m.Quiet m' → R m m')
    (houtside : ∀ m step, R m (m.outside step)) {m m' : Machine σ} (h : Uses pmu m m') :
    R m m' := by
  have hmeanwhile : ∀ (steps : List OutsideStep) (m : Machine σ), R m (steps.foldl outside m) := by
    intro steps
    induction steps with
    | nil => exact fun m => hquiet (.refl m)
    | cons step rest ih => exact fun m => htrans (houtside m step) (ih _)
  induction h with
  | refl => exact hquiet (.refl m)
  | @tail m₁ _ _ hstep ih =>
      rcases hstep.quiet_or_reads with h | ⟨id, buffer, rfl⟩
      · exact htrans ih (hquiet h)
      · -- the call is recorded, then the surroundings take their steps, then the report is there
        have hcall : m₁.Quiet (m₁.call (.read id buffer.length)) :=
          records_call (c := .read id buffer.length) rfl rfl rfl rfl
        exact htrans ih (htrans (hquiet hcall)
          (htrans (hmeanwhile _ _) (hquiet (.of_eq rfl rfl rfl))))

end Machine

end CounterWatch
