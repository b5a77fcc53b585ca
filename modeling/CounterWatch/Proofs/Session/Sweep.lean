import CounterWatch.Proofs.Session.Happening

/-!
# Proofs/Session/Sweep — collecting, leaf by leaf

A collection goes through groups, packages and CPUs.  Seen from the leaves it is one walk, in which
each leaf is either taken — read, reset and drained — or stuck, and then the walk ends.

* `Takes` — how a leaf is taken, call by call; `Stuck` — why one is not, and how far it got.
* `takes_or_stuck` — every leaf is one or the other, and a collection of it comes out accordingly.
* `Sweep` — leaves taken one after the other; `sweep_or_stuck`.
* `SessionTree.collect_of_sweep`, `SessionTree.collect_of_stuck` — a collection of a tree is a
  sweep of its leaves, up to the first that is stuck.
-/

namespace CounterWatch

variable {σ : Type} {pmu : Pmu σ}

/-! ## Calls that concern counters -/

/-- Whether a call is one to a counter. -/
def Call.concernsCounter : Call → Bool
  | .opened _ _ | .openFailed _ | .map _ _ | .enable _ | .reset _ | .read _ _ => true
  | .openPath _ | .readFile _ | .attach _ | .sent _ _ | .ticked _ _ => false

namespace Machine

/-- The calls made to counters, in order. -/
def counterCalls (m : Machine σ) : List Call := m.trace.filter Call.concernsCounter

theorem counterCalls_call (m : Machine σ) {c : Call} (h : c.concernsCounter = true) :
    (m.call c).counterCalls = m.counterCalls ++ [c] := by
  rw [counterCalls, call, List.filter_append, List.filter_cons_of_pos h]
  rfl

/-- A call that concerns no counter is not among those that do. -/
theorem counterCalls_call_of_not (m : Machine σ) {c : Call} (h : c.concernsCounter = false) :
    (m.call c).counterCalls = m.counterCalls := by
  rw [counterCalls, call, List.filter_append, List.filter_cons_of_neg (by rw [h]; decide)]
  exact List.append_nil _

theorem counterCalls_outside (m : Machine σ) (step : OutsideStep) :
    (m.outside step).counterCalls = m.counterCalls := by
  cases step with
  | command text => exact m.counterCalls_call_of_not (c := .sent text _) rfl
  | tick time => exact m.counterCalls_call_of_not (c := .ticked time _) rfl
  | dropControl | dropTicker | dropSink => rfl
  | produce id b =>
      rw [outside, produce]
      split <;> rfl

theorem counterCalls_meanwhile (steps : List OutsideStep) (m : Machine σ) :
    (steps.foldl outside m).counterCalls = m.counterCalls := by
  induction steps generalizing m with
  | nil => rfl
  | cons step rest ih => exact (ih _).trans (m.counterCalls_outside step)

/-- A read is one call to a counter, whatever goes on meanwhile. -/
theorem counterCalls_read (pmu : Pmu σ) (id : CounterId) (buffer : Bytes) (m : Machine σ) :
    (m.read pmu id buffer).2.2.counterCalls = m.counterCalls ++ [.read id buffer.length] :=
  (counterCalls_meanwhile _ _).trans (m.counterCalls_call rfl)

theorem counterCalls_reset (pmu : Pmu σ) (id : CounterId) (m : Machine σ) :
    (m.reset pmu id).2.counterCalls = m.counterCalls ++ [.reset id] :=
  m.counterCalls_call rfl

end Machine

/-! ## Reports -/

/-- Bytes that spell a report of so many counts: their number, both times, the counts. -/
structure Report.SpelledBy (r : Report) (size : Nat) (bytes : Bytes) : Prop where
  words : ∃ announced, Bytes.words bytes
    = announced :: r.timeEnabled :: r.timeRunning :: r.counts ∧ announced.toNat = size
  counts : r.counts.length = size

namespace CounterGroup

/-- Whether the buffer is as long as the report of the members. -/
def Fits (g : CounterGroup) : Prop := g.buffer.length = Report.byteSize g.size

/-- What is said of a report that announces another number of counts. -/
def miscount (g : CounterGroup) (announced : UInt64) : SystemError :=
  .custom .invalidData <|
    if announced.toNat < g.size then
      toString announced.toNat ++ " counts for a group of " ++ toString g.size
    else
      "read format reports " ++ toString announced ++ " counters, too many for " ++
        toString g.buffer.length ++ " bytes"

/-- What is said of a read of another number of bytes. -/
def shortRead (g : CounterGroup) (got : Nat) : SystemError :=
  .custom .unexpectedEof
    ("short read: " ++ toString got ++ " of " ++ toString g.buffer.length ++ " bytes")

theorem shortRead_refill {g : CounterGroup} {bytes : Bytes}
    (h : bytes.length = g.buffer.length) (got : Nat) :
    (g.refill bytes).shortRead got = g.shortRead got := by
  rw [shortRead, shortRead, refill, h]

theorem miscount_refill {g : CounterGroup} {bytes : Bytes} (h : bytes.length = g.buffer.length)
    (announced : UInt64) : (g.refill bytes).miscount announced = g.miscount announced := by
  rw [miscount, miscount, refill, h]
  rfl

theorem check_of_spelled {g : CounterGroup} {r : Report} (h : r.SpelledBy g.size g.buffer) :
    g.check g.buffer.length = .ok r := by
  obtain ⟨⟨announced, hwords, hannounced⟩, hcounts⟩ := h
  have hdecode : Report.decode g.buffer = .ok r := by
    rw [Report.decode, hwords]
    simp only [hannounced, hcounts, Nat.le_refl, if_true]
    rw [List.take_of_length_le (Nat.le_of_eq hcounts)]
  rw [check, if_neg (not_not_intro rfl), hdecode]
  exact if_neg (not_not_intro hcounts)

theorem check_of_short {g : CounterGroup} {got : Nat} (h : got ≠ g.buffer.length) :
    g.check got = .error (g.shortRead got) := if_pos h

/-- A report that announces another number of counts than the group has members is refused. -/
theorem check_of_miscounted {g : CounterGroup} {announced timeEnabled timeRunning : UInt64}
    {counts : List UInt64}
    (hwords : Bytes.words g.buffer = announced :: timeEnabled :: timeRunning :: counts)
    (hcounts : counts.length = g.size) (h : announced.toNat ≠ g.size) :
    g.check g.buffer.length = .error (g.miscount announced) := by
  rw [check, if_neg (not_not_intro rfl), Report.decode, hwords, miscount]
  by_cases hle : announced.toNat ≤ counts.length
  · have hlength : (counts.take announced.toNat).length = announced.toNat :=
      List.length_take_of_le hle
    have hlt : announced.toNat < g.size := by omega
    simp only [if_pos hle, hlength, if_pos h, if_pos hlt]
  · have hge : ¬ announced.toNat < g.size := by omega
    simp only [if_neg hle, if_neg hge]
    rfl

/-- **The bytes of a buffer that fits are a report of the group, or announce another number of
counts.** -/
theorem Fits.spelled_or_miscounted {g : CounterGroup} (h : g.Fits) :
    ∃ announced timeEnabled timeRunning counts,
      Bytes.words g.buffer = announced :: timeEnabled :: timeRunning :: counts ∧
      counts.length = g.size := by
  have hlength : (Bytes.words g.buffer).length = 3 + g.size := by
    rw [Bytes.length_words, h, Report.byteSize, Nat.mul_div_cancel _ (by decide)]
  rcases hwords : Bytes.words g.buffer with
    _ | ⟨announced, _ | ⟨timeEnabled, _ | ⟨timeRunning, counts⟩⟩⟩
  all_goals
    rw [hwords] at hlength
    simp only [List.length_cons, List.length_nil] at hlength
  · omega
  · omega
  · omega
  · exact ⟨announced, timeEnabled, timeRunning, counts, rfl, by omega⟩

end CounterGroup

/-! ## One leaf -/

/-- **How a leaf is taken**: its read brings as many bytes as the buffer is long, and they spell a
report of the group; then it is reset, and then its ring is drained. -/
structure Takes (pmu : Pmu σ) (c : Callchain) (k : Taking) (m m' : Machine σ) : Prop where
  steps : ∃ m₁ m₂, k.meanwhile = pmu.meanwhile k.leader m.state ∧
    m.read pmu k.leader k.session.counters.buffer
      = (.ok k.session.counters.buffer.length, k.bytes, m₁) ∧
    k.report.SpelledBy k.session.counters.size k.bytes ∧
    m₁.reset pmu k.leader = (.ok (), m₂) ∧
    k.shown = m₂.shown k.session ∧
    m' = (k.session.callchains c (noteMultiplexing k.leaf k.report m₂)).2

/-- **Why nothing is taken from a leaf**, with the failure reported, the bytes left in the buffer,
and the machine as it is then: the read fails, or brings another number of bytes, or a report that
announces another number of counts than the group has; or the reset fails, after a read that did
not. -/
inductive Stuck (pmu : Pmu σ) (leaf : Leaf) (s : CpuSession) (m : Machine σ) :
    Failure → Bytes → Machine σ → Prop
  | unread {e : SystemError} {bytes : Bytes} {m' : Machine σ}
      (hread : m.read pmu s.counters.leader s.counters.buffer = (.error e, bytes, m')) :
      Stuck pmu leaf s m (.readCounts leaf e) bytes m'
  | short {got : Nat} {bytes : Bytes} {m' : Machine σ}
      (hread : m.read pmu s.counters.leader s.counters.buffer = (.ok got, bytes, m'))
      (hshort : got ≠ s.counters.buffer.length) :
      Stuck pmu leaf s m (.readCounts leaf (s.counters.shortRead got)) bytes m'
  | miscounted {announced timeEnabled timeRunning : UInt64} {counts : List UInt64} {bytes : Bytes}
      {m' : Machine σ}
      (hread : m.read pmu s.counters.leader s.counters.buffer
        = (.ok s.counters.buffer.length, bytes, m'))
      (hwords : Bytes.words bytes = announced :: timeEnabled :: timeRunning :: counts)
      (hcounts : counts.length = s.counters.size) (hother : announced.toNat ≠ s.counters.size) :
      Stuck pmu leaf s m (.readCounts leaf (s.counters.miscount announced)) bytes m'
  | unreset {r : Report} {e : SystemError} {bytes : Bytes} {m₁ m' : Machine σ}
      (hread : m.read pmu s.counters.leader s.counters.buffer
        = (.ok s.counters.buffer.length, bytes, m₁))
      (hreport : r.SpelledBy s.counters.size bytes)
      (hreset : m₁.reset pmu s.counters.leader = (.error e, m')) :
      Stuck pmu leaf s m (.resetCounts leaf e) bytes m'

/-- A leaf is stuck with its read or with its reset. -/
theorem Stuck.failure {leaf : Leaf} {s : CpuSession} {m m' : Machine σ} {e : Failure}
    {bytes : Bytes} (h : Stuck pmu leaf s m e bytes m') :
    ∃ why, e = .readCounts leaf why ∨ e = .resetCounts leaf why := by
  cases h with
  | unread | short | miscounted => exact ⟨_, .inl rfl⟩
  | unreset => exact ⟨_, .inr rfl⟩

/-- A read leaves the length of the buffer alone, also when it fails. -/
theorem Machine.length_of_read {id : CounterId} {buffer bytes : Bytes} {m m' : Machine σ}
    {result : Except SystemError Nat} (h : m.read pmu id buffer = (result, bytes, m')) :
    bytes.length = buffer.length := by
  have hlength : (m.read pmu id buffer).2.1.length = buffer.length := Bytes.length_overwrite _ _
  rwa [h] at hlength

/-- What asking a group comes to is decided by its read, and by the bytes it left. -/
theorem CounterGroup.stat_of_read {g : CounterGroup} {m m' : Machine σ} {bytes : Bytes}
    {result : Except SystemError Nat}
    (h : m.read pmu g.leader g.buffer = (result, bytes, m')) :
    g.stat pmu m = (result.bind (g.refill bytes).check, g.refill bytes, m') := by
  rw [stat, h]
  cases result <;> rfl

/-- **A leaf that is taken is collected**, and this is what is reported of it. -/
theorem Takes.collect_eq {c : Callchain} {k : Taking} {m m' : Machine σ} (h : Takes pmu c k m m')
    (events : List String) :
    k.session.collect pmu c events k.leaf m = (.ok (k.data c events), k.after.2, m') := by
  obtain ⟨m₁, m₂, -, hread, hreport, hreset, hshown, rfl⟩ := h
  have hlength := Machine.length_of_read hread
  have hcheck : (k.session.counters.refill k.bytes).check k.bytes.length = .ok k.report :=
    CounterGroup.check_of_spelled (g := k.session.counters.refill k.bytes) hreport
  have hstat := CounterGroup.stat_of_read hread
  rw [← hlength, Except.bind, hcheck] at hstat
  have hclear : (k.session.counters.refill k.bytes).clear pmu m₁ = (.ok (), m₂) := hreset
  have hdata := CpuSession.withCallchains_callchains c k.session
    (noteMultiplexing k.leaf k.report m₂) (CpuData.ofReport events k.report)
  rw [Machine.shown_noteMultiplexing, ← hshown] at hdata
  rw [CpuSession.collect, hstat]
  dsimp only
  rw [hclear]
  exact congrArg (fun data : CpuData => (Except.ok data, k.after.2, _)) hdata

/-- A read that brings no report fails the collection of its leaf. -/
theorem CpuSession.collect_of_stat {leaf : Leaf} {s : CpuSession} {m m' : Machine σ}
    {e : SystemError} {g : CounterGroup} (h : s.counters.stat pmu m = (.error e, g, m'))
    (c : Callchain) (events : List String) :
    s.collect pmu c events leaf m
      = (.error (.readCounts leaf e), { s with counters := g }, m') := by
  rw [CpuSession.collect, h]

/-- **A leaf that is stuck fails its collection**, and this is the failure. -/
theorem Stuck.collect_eq {leaf : Leaf} {s : CpuSession} {m m' : Machine σ} {e : Failure}
    {bytes : Bytes} (h : Stuck pmu leaf s m e bytes m') (c : Callchain) (events : List String) :
    s.collect pmu c events leaf m = (.error e, s.refill bytes, m') := by
  cases h with
  | unread hread => exact s.collect_of_stat (CounterGroup.stat_of_read hread) c events
  | @short got _ _ hread hshort =>
      have hlength := Machine.length_of_read hread
      have hcheck : (s.counters.refill bytes).check got = .error (s.counters.shortRead got) := by
        rw [← CounterGroup.shortRead_refill hlength]
        exact CounterGroup.check_of_short (hlength ▸ hshort)
      have hstat := CounterGroup.stat_of_read hread
      rw [Except.bind, hcheck] at hstat
      exact s.collect_of_stat hstat c events
  | @miscounted announced _ _ _ _ _ hread hwords hcounts hother =>
      have hlength := Machine.length_of_read hread
      have hcheck : (s.counters.refill bytes).check bytes.length
          = .error (s.counters.miscount announced) := by
        rw [← CounterGroup.miscount_refill hlength]
        exact CounterGroup.check_of_miscounted (g := s.counters.refill bytes) hwords hcounts hother
      have hstat := CounterGroup.stat_of_read hread
      rw [← hlength, Except.bind, hcheck] at hstat
      exact s.collect_of_stat hstat c events
  | @unreset r _ _ _ _ hread hreport hreset =>
      have hcheck : (s.counters.refill bytes).check bytes.length = .ok r :=
        CounterGroup.check_of_spelled (g := s.counters.refill bytes) hreport
      have hstat := CounterGroup.stat_of_read hread
      rw [← Machine.length_of_read hread, Except.bind, hcheck] at hstat
      have hclear : (s.counters.refill bytes).clear pmu _ = (.error _, m') := hreset
      rw [CpuSession.collect, hstat]
      dsimp only
      rw [hclear]
      rfl

/-- **Every leaf is taken or stuck.** -/
theorem takes_or_stuck (c : Callchain) (leaf : Leaf) {s : CpuSession} (hfits : s.counters.Fits)
    (m : Machine σ) :
    (∃ k m', k.place = (leaf, s) ∧ Takes pmu c k m m') ∨ ∃ e bytes m', Stuck pmu leaf s m e bytes m'
    := by
  -- the cases are those of the code, in its order: the read, its length, the count, the reset
  rcases hread : m.read pmu s.counters.leader s.counters.buffer with ⟨e | got, bytes, m₁⟩
  · exact .inr ⟨_, _, _, .unread hread⟩
  by_cases hshort : got ≠ s.counters.buffer.length
  · exact .inr ⟨_, _, _, .short hread hshort⟩
  obtain rfl := not_not.mp hshort
  have hfits' : (s.counters.refill bytes).Fits := (Machine.length_of_read hread).trans hfits
  obtain ⟨announced, timeEnabled, timeRunning, counts, hwords, hcounts⟩ :=
    hfits'.spelled_or_miscounted
  by_cases hother : announced.toNat ≠ s.counters.size
  · exact .inr ⟨_, _, _, .miscounted hread hwords hcounts hother⟩
  have hreport : Report.SpelledBy ⟨timeEnabled, timeRunning, counts⟩ s.counters.size bytes :=
    ⟨⟨announced, hwords, not_not.mp hother⟩, hcounts⟩
  rcases hreset : m₁.reset pmu s.counters.leader with ⟨e | _, m₂⟩
  · exact .inr ⟨_, _, _, .unreset hread hreport hreset⟩
  · let k : Taking :=
      { leaf, session := s, bytes, report := ⟨timeEnabled, timeRunning, counts⟩
        meanwhile := pmu.meanwhile s.counters.leader m.state
        shown := m₂.shown s }
    exact .inl ⟨k, _, rfl, m₁, m₂, rfl, hread, hreport, hreset, rfl, rfl⟩

/-! ### What the machine undergoes -/

/-- **While a leaf is taken**, rings get what the surroundings produce, and then that of the leaf is
drained. -/
theorem Machine.undergoes_taken {c : Callchain} {k : Taking} {m m' : Machine σ}
    (h : Takes pmu c k m m') : m.Undergoes k.happenings m' := by
  obtain ⟨m₁, m₂, hmeanwhile, hread, -, hreset, -, rfl⟩ := h
  have hduring := m.undergoes_read pmu k.leader k.session.counters.buffer
  rw [hread, ← hmeanwhile] at hduring
  have hrings : (noteMultiplexing k.leaf k.report m₂).rings = m₁.rings := by
    rw [rings_noteMultiplexing]
    exact congrArg (fun r => r.2.rings) hreset.symm
  have hdrained : m₁.Undergoes [.taken k]
      (k.session.callchains c (noteMultiplexing k.leaf k.report m₂)).2 := by
    intro id
    rw [CpuSession.get?_rings_callchains, hrings]
    rfl
  exact hduring.trans hdrained

/-- **What is taken from a leaf** is what its ring shows after the read. -/
theorem Takes.shows {c : Callchain} {k : Taking} {m m' : Machine σ} (h : Takes pmu c k m m')
    {id : CounterId} {r : Ring} (hring : m.rings.get? id = some r) : r.Shows id k.happenings := by
  obtain ⟨m₁, m₂, hmeanwhile, hread, -, hreset, hshown, -⟩ := h
  have hduring := m.undergoes_read pmu k.leader k.session.counters.buffer id
  have hrings : m₂.rings = m₁.rings := congrArg (fun r => r.2.rings) hreset.symm
  rw [hread, ← hmeanwhile, hring] at hduring
  refine along_append.mpr ⟨Ring.shows_of_not_drains (fun _ => not_drains_of_mem_happenings) r,
    fun k' heq hdrains => ?_, trivial⟩
  obtain ⟨hsampled, rfl⟩ := hdrains
  obtain rfl := Happening.taken.inj heq
  rw [hshown, Machine.shown, if_pos hsampled, hrings]
  exact congrArg (fun ring => (Option.map Ring.shown ring).getD []) hduring

/-- What the surroundings do to rings while a leaf is read. -/
def Machine.during (pmu : Pmu σ) (s : CpuSession) (m : Machine σ) : List Happening :=
  (pmu.meanwhile s.counters.leader m.state).flatMap OutsideStep.happenings

/-- While a leaf is stuck, rings get what the surroundings produce, and none is drained. -/
theorem Machine.undergoes_stuck {leaf : Leaf} {s : CpuSession} {m m' : Machine σ} {e : Failure}
    {bytes : Bytes} (h : Stuck pmu leaf s m e bytes m') : m.Undergoes (m.during pmu s) m' := by
  have hduring := m.undergoes_read pmu s.counters.leader s.counters.buffer
  cases h with
  | unread hread | short hread _ | miscounted hread _ _ _ =>
      rw [hread] at hduring
      exact hduring
  | unreset hread _ hreset =>
      rw [hread] at hduring
      intro id
      have hrings := congrArg (fun r => r.2.rings) hreset
      rw [← hrings]
      exact hduring id

/-- The calls made to take a leaf. -/
def takingCalls (l : Leaf × CpuSession) : List Call :=
  [.read l.2.counters.leader l.2.counters.buffer.length, .reset l.2.counters.leader]

/-- Taking a leaf makes two calls to its leader. -/
theorem Takes.counterCalls {c : Callchain} {k : Taking} {m m' : Machine σ}
    (h : Takes pmu c k m m') : m'.counterCalls = m.counterCalls ++ takingCalls k.place := by
  obtain ⟨m₁, m₂, -, hread, -, hreset, -, rfl⟩ := h
  have hcalls₁ := m.counterCalls_read pmu k.leader k.session.counters.buffer
  have hcalls₂ := m₁.counterCalls_reset pmu k.leader
  rw [hread] at hcalls₁
  rw [hreset, hcalls₁, List.append_assoc] at hcalls₂
  have htrace : (k.session.callchains c (noteMultiplexing k.leaf k.report m₂)).2.trace
      = m₂.trace := by
    rw [CpuSession.trace_callchains, trace_noteMultiplexing]
  rw [Machine.counterCalls, htrace]
  exact hcalls₂

/-- The calls made to a leaf that is stuck. -/
def stuckCalls (s : CpuSession) : Failure → List Call
  | .resetCounts _ _ => [.read s.counters.leader s.counters.buffer.length, .reset s.counters.leader]
  | _ => [.read s.counters.leader s.counters.buffer.length]

/-- A leaf that is stuck was reset only if the failure is that of the reset. -/
theorem Stuck.counterCalls {leaf : Leaf} {s : CpuSession} {m m' : Machine σ} {e : Failure}
    {bytes : Bytes} (h : Stuck pmu leaf s m e bytes m') :
    m'.counterCalls = m.counterCalls ++ stuckCalls s e := by
  have hcalls := m.counterCalls_read pmu s.counters.leader s.counters.buffer
  cases h with
  | unread hread | short hread _ | miscounted hread _ _ _ =>
      rw [hread] at hcalls
      exact hcalls
  | @unreset _ _ _ m₁ _ hread _ hreset =>
      have hreset' := m₁.counterCalls_reset pmu s.counters.leader
      rw [hread] at hcalls
      rw [hreset, hcalls, List.append_assoc] at hreset'
      exact hreset'

/-! ## Several leaves -/

/-- Leaves are taken one after the other. -/
inductive Sweep (pmu : Pmu σ) (c : Callchain) : List Taking → Machine σ → Machine σ → Prop
  | nil (m : Machine σ) : Sweep pmu c [] m m
  | cons {k : Taking} {ks : List Taking} {m m₁ m' : Machine σ} (hfirst : Takes pmu c k m m₁)
      (hrest : Sweep pmu c ks m₁ m') : Sweep pmu c (k :: ks) m m'

/-- **Leaves are all taken, up to the first that is stuck.** -/
theorem sweep_or_stuck (pmu : Pmu σ) (c : Callchain) : ∀ (leaves : List (Leaf × CpuSession)),
    (∀ l ∈ leaves, l.2.counters.Fits) → ∀ m : Machine σ,
      (∃ ks m', ks.map Taking.place = leaves ∧ Sweep pmu c ks m m') ∨
      ∃ ks leaf s later m₁ e bytes m', leaves = ks.map Taking.place ++ (leaf, s) :: later ∧
        Sweep pmu c ks m m₁ ∧ Stuck pmu leaf s m₁ e bytes m'
  | [], _, m => .inl ⟨[], m, rfl, .nil m⟩
  | (leaf, s) :: rest, hfits, m => by
      obtain ⟨hfirst, hrest⟩ := List.forall_mem_cons.mp hfits
      rcases takes_or_stuck c leaf hfirst m with ⟨k, m₁, hplace, htakes⟩ | ⟨e, bytes, m', hstuck⟩
      · rcases sweep_or_stuck pmu c rest hrest m₁ with ⟨ks, m', hplaces, hsweep⟩ |
          ⟨ks, leaf', s', later, m₂, e, bytes, m', hplaces, hsweep, hstuck⟩
        · exact .inl ⟨k :: ks, m', by rw [List.map_cons, hplace, hplaces], .cons htakes hsweep⟩
        · refine .inr ⟨k :: ks, leaf', s', later, m₂, e, bytes, m', ?_, .cons htakes hsweep, hstuck⟩
          rw [List.map_cons, hplace, hplaces, List.cons_append]
      · exact .inr ⟨[], leaf, s, rest, m, e, bytes, m', rfl, .nil m, hstuck⟩

namespace Sweep

variable {c : Callchain} {ks : List Taking} {m m' : Machine σ}

theorem undergoes (h : Sweep pmu c ks m m') :
    m.Undergoes (ks.flatMap Taking.happenings) m' := by
  induction h with
  | nil m => exact .of_rings_eq rfl
  | cons hfirst _ ih => exact (Machine.undergoes_taken hfirst).trans ih

/-- **What is taken from leaves** is what their rings show. -/
theorem shows (h : Sweep pmu c ks m m') {id : CounterId} {r : Ring}
    (hring : m.rings.get? id = some r) : r.Shows id (ks.flatMap Taking.happenings) := by
  induction h generalizing r with
  | nil m => trivial
  | cons hfirst _ ih =>
      have hnext := Machine.undergoes_taken hfirst id
      rw [hring] at hnext
      exact along_append.mpr ⟨hfirst.shows hring, ih hnext⟩

/-- **Every leaf of a sweep is read once and then reset once**, one leaf after the other. -/
theorem counterCalls (h : Sweep pmu c ks m m') :
    m'.counterCalls = m.counterCalls ++ (ks.map Taking.place).flatMap takingCalls := by
  induction h with
  | nil m => exact (List.append_nil _).symm
  | cons hfirst _ ih => rw [ih, hfirst.counterCalls, List.map_cons, List.flatMap_cons,
      List.append_assoc]

/-- A sweep comes by each of its leaves. -/
theorem split {k : Taking} : ∀ {earlier : List Taking} {later : List Taking} {m : Machine σ},
    Sweep pmu c (earlier ++ k :: later) m m' →
      ∃ m₁ m₂, Sweep pmu c earlier m m₁ ∧ Takes pmu c k m₁ m₂ ∧ Sweep pmu c later m₂ m'
  | [], _, m, .cons hfirst hrest => ⟨m, _, .nil m, hfirst, hrest⟩
  | _ :: _, _, _, .cons hfirst hrest => by
      obtain ⟨m₁, m₂, hearlier, htakes, hlater⟩ := split hrest
      exact ⟨m₁, m₂, .cons hfirst hearlier, htakes, hlater⟩

theorem exists_takes (h : Sweep pmu c ks m m') {k : Taking} (hk : k ∈ ks) :
    ∃ m₁ m₂, Takes pmu c k m₁ m₂ := by
  obtain ⟨earlier, later, rfl⟩ := List.append_of_mem hk
  obtain ⟨m₁, m₂, -, htakes, -⟩ := h.split
  exact ⟨m₁, m₂, htakes⟩

end Sweep

/-- Collects a leaf, when the events of groups have these names. -/
def collectLeaf (pmu : Pmu σ) (c : Callchain) (events : String → List String) (leaf : Leaf)
    (s : CpuSession) (m : Machine σ) : Except Failure CpuData × CpuSession × Machine σ :=
  s.collect pmu c (events leaf.group) leaf m

/-- **A sweep over all leaves is what collecting them does**, and every one of them reports. -/
theorem Sweep.visitEntries_eq {c : Callchain} {ks : List Taking} {m m' : Machine σ}
    (h : Sweep pmu c ks m m') (events : String → List String) :
    OrderedMap.visitEntries (collectLeaf pmu c events) (ks.map Taking.place) m
      = (.ok (ks.map fun k => (k.leaf, k.data c (events k.leaf.group))), ks.map Taking.after, m')
    := by
  induction h with
  | nil m => rfl
  | @cons k ks m m₁ m' hfirst _ ih =>
      have hk : collectLeaf pmu c events k.leaf k.session m = _ := hfirst.collect_eq _
      rw [List.map_cons, Taking.place, OrderedMap.visitEntries, hk]
      dsimp only
      rw [ih]
      rfl

/-- Behind a leaf that is stuck nothing is collected, and the leaves there stay as they are. -/
theorem Stuck.visitEntries_eq {c : Callchain} {ks : List Taking} {leaf : Leaf} {s : CpuSession}
    {m m₁ m' : Machine σ} {e : Failure} {bytes : Bytes} (hsweep : Sweep pmu c ks m m₁)
    (hstuck : Stuck pmu leaf s m₁ e bytes m') (later : List (Leaf × CpuSession))
    (events : String → List String) :
    OrderedMap.visitEntries (collectLeaf pmu c events) (ks.map Taking.place ++ (leaf, s) :: later) m
      = (.error e, ks.map Taking.after ++ (leaf, s.refill bytes) :: later, m') := by
  have hleaf : collectLeaf pmu c events leaf s m₁ = _ := hstuck.collect_eq _ _
  rw [OrderedMap.visitEntries_append, hsweep.visitEntries_eq]
  dsimp only
  rw [OrderedMap.visitEntries, hleaf]
  rfl

/-! ## The whole tree -/

/-- The events groups of a tree. -/
def SessionTree.configs (t : SessionTree) : List (String × EventsGroup) :=
  t.groups.entries.map fun g => (g.1, g.2.config)

/-- The names of the events of a group. -/
def SessionTree.events (t : SessionTree) (group : String) : List String :=
  ((OrderedMap.find group t.configs).map fun config => config.events.map (·.name)).getD []

/-- What is reported of the leaves of a package. -/
def PackageData.leaves (group : String) (package : UInt32) (p : PackageData) :
    List (Leaf × CpuData) :=
  p.cpus.entries.map fun c => (⟨group, package, c.1⟩, c.2)

/-- What is reported of the leaves of an events group. -/
def GroupData.leaves (group : String) (g : GroupData) : List (Leaf × CpuData) :=
  g.packages.entries.flatMap fun p => p.2.leaves group p.1

/-- What is reported of every leaf, in order. -/
def Payload.leaves (p : Payload) : List (Leaf × CpuData) :=
  p.groups.entries.flatMap fun g => g.2.leaves g.1

theorem SessionTree.events_of_mem {t : SessionTree} {group : String} {g : GroupSession}
    (h : (group, g) ∈ t.groups.entries) : t.events group = g.config.events.map (·.name) := by
  have hascending : t.configs.Pairwise fun a b => compare a.1 b.1 = .lt :=
    OrderedMap.pairwise_of_keys_eq (by rw [configs, List.map_map]; rfl) t.groups.ascending
  have hmem : (group, g.config) ∈ t.configs := List.mem_map.mpr ⟨_, h, rfl⟩
  rw [events, OrderedMap.find_of_mem hascending hmem]
  rfl

theorem PackageSession.collect_leaves (c : Callchain) (events : String → List String)
    (group : String) (package : UInt32) (s : PackageSession) (m : Machine σ) :
    OrderedMap.visitEntries (collectLeaf pmu c events) (s.leaves group package) m
      = ((s.collect pmu c (events group) group package m).1.map (PackageData.leaves group package),
        (s.collect pmu c (events group) group package m).2.1.leaves group package,
        (s.collect pmu c (events group) group package m).2.2) := by
  have hwalk := OrderedMap.visit_flatMap (m := s.cpus)
    (f := fun cpu session m => session.collect pmu c (events group) ⟨group, package, cpu⟩ m)
    (collectLeaf pmu c events) (fun p => [(⟨group, package, p.1⟩, p.2)])
    (PackageData.leaves group package) (fun p => [(⟨group, package, p.1⟩, p.2)]) PackageData.mk
    (fun _ => List.map_eq_flatMap) (fun p _ m => OrderedMap.visitEntries_singleton _ _ _ m) m
  rw [← List.map_eq_flatMap, ← List.map_eq_flatMap] at hwalk
  exact hwalk

theorem GroupSession.collect_leaves (c : Callchain) {events : String → List String}
    {group : String} {s : GroupSession} (hevents : events group = s.config.events.map (·.name))
    (m : Machine σ) :
    OrderedMap.visitEntries (collectLeaf pmu c events) (s.leaves group) m
      = ((s.collect pmu c group m).1.map (GroupData.leaves group),
        (s.collect pmu c group m).2.1.leaves group, (s.collect pmu c group m).2.2) := by
  have hwalk := OrderedMap.visit_flatMap (m := s.packages) (collectLeaf pmu c events)
    (fun p => p.2.leaves group p.1) (GroupData.leaves group) (fun p => p.2.leaves group p.1)
    GroupData.mk (fun _ => rfl)
    (fun p _ m => PackageSession.collect_leaves c events group p.1 p.2 m) m
  rw [hevents] at hwalk
  exact hwalk

/-- **Collecting a tree walks through its leaves.** -/
theorem SessionTree.collect_leaves (pmu : Pmu σ) (timestamp : UInt64) (target : String)
    (t : SessionTree) (m : Machine σ) :
    OrderedMap.visitEntries (collectLeaf pmu t.callchain t.events) t.leaves m
      = ((t.collect pmu timestamp target m).1.map Payload.leaves,
        (t.collect pmu timestamp target m).2.1.leaves,
        (t.collect pmu timestamp target m).2.2) :=
  OrderedMap.visit_flatMap (m := t.groups) (collectLeaf pmu t.callchain t.events)
    (fun g => g.2.leaves g.1) Payload.leaves (fun g => g.2.leaves g.1) (Payload.mk timestamp target)
    (fun _ => rfl) (fun _ hg m => GroupSession.collect_leaves t.callchain (events_of_mem hg) m) m

namespace SessionTree

variable {t : SessionTree} {ks : List Taking} {m m₁ m' : Machine σ}

/-- What a payload says of leaves that were taken. -/
def reports (t : SessionTree) (ks : List Taking) : List (Leaf × CpuData) :=
  ks.map fun k => (k.leaf, k.data t.callchain (t.events k.leaf.group))

/-- **When every leaf is taken, a collection reports just what was taken.** -/
theorem collect_of_sweep (hplaces : ks.map Taking.place = t.leaves)
    (h : Sweep pmu t.callchain ks m m') (timestamp : UInt64) (target : String) :
    ∃ p t', t.collect pmu timestamp target m = (.ok p, t', m') ∧
      p.leaves = t.reports ks ∧ t'.leaves = ks.map Taking.after := by
  have hwalk := t.collect_leaves pmu timestamp target m
  rw [← hplaces, h.visitEntries_eq] at hwalk
  rcases hc : t.collect pmu timestamp target m with ⟨e | p, t', m''⟩
  · rw [hc] at hwalk
    cases congrArg Prod.fst hwalk
  · rw [hc] at hwalk
    obtain ⟨hreports, hafter⟩ := Prod.mk.inj hwalk
    obtain ⟨hleaves, rfl⟩ := Prod.mk.inj hafter
    exact ⟨p, t', rfl, (Except.ok.inj hreports).symm, hleaves.symm⟩

/-- **When a leaf is stuck, a collection fails there**, with its failure. -/
theorem collect_of_stuck {leaf : Leaf} {s : CpuSession} {later : List (Leaf × CpuSession)}
    {e : Failure} {bytes : Bytes} (hplaces : t.leaves = ks.map Taking.place ++ (leaf, s) :: later)
    (hsweep : Sweep pmu t.callchain ks m m₁) (hstuck : Stuck pmu leaf s m₁ e bytes m')
    (timestamp : UInt64) (target : String) :
    ∃ t', t.collect pmu timestamp target m = (.error e, t', m') ∧
      t'.leaves = ks.map Taking.after ++ (leaf, s.refill bytes) :: later := by
  have hwalk := t.collect_leaves pmu timestamp target m
  rw [hplaces, Stuck.visitEntries_eq hsweep hstuck] at hwalk
  rcases hc : t.collect pmu timestamp target m with ⟨e' | p, t', m''⟩
  · rw [hc] at hwalk
    obtain ⟨herror, hafter⟩ := Prod.mk.inj hwalk
    obtain ⟨hleaves, rfl⟩ := Prod.mk.inj hafter
    obtain rfl := Except.error.inj herror
    exact ⟨t', rfl, hleaves.symm⟩
  · rw [hc] at hwalk
    cases congrArg Prod.fst hwalk

/-- **A collection is a sweep of the leaves**, of all of them or up to the first that is stuck. -/
theorem collect_cases (pmu : Pmu σ) (hfits : ∀ l ∈ t.leaves, l.2.counters.Fits) (timestamp : UInt64)
    (target : String) (m : Machine σ) :
    match t.collect pmu timestamp target m with
    | (.ok p, t', m') => ∃ ks, ks.map Taking.place = t.leaves ∧ Sweep pmu t.callchain ks m m' ∧
        p.leaves = t.reports ks ∧ t'.leaves = ks.map Taking.after
    | (.error e, t', m') => ∃ ks leaf s later m₁ bytes,
        t.leaves = ks.map Taking.place ++ (leaf, s) :: later ∧ Sweep pmu t.callchain ks m m₁ ∧
        Stuck pmu leaf s m₁ e bytes m' ∧
        t'.leaves = ks.map Taking.after ++ (leaf, s.refill bytes) :: later := by
  rcases sweep_or_stuck pmu t.callchain t.leaves hfits m with ⟨ks, m', hplaces, hsweep⟩ |
    ⟨ks, leaf, s, later, m₁, e, bytes, m', hplaces, hsweep, hstuck⟩
  · obtain ⟨p, t', hcollect, hleaves, hafter⟩ :=
      collect_of_sweep hplaces hsweep timestamp target
    rw [hcollect]
    exact ⟨ks, hplaces, hsweep, hleaves, hafter⟩
  · obtain ⟨t', hcollect, hafter⟩ := collect_of_stuck hplaces hsweep hstuck timestamp target
    rw [hcollect]
    exact ⟨ks, leaf, s, later, m₁, bytes, hplaces, hsweep, hstuck, hafter⟩

end SessionTree

end CounterWatch
