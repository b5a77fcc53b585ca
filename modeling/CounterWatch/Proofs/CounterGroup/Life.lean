import CounterWatch.Pmu.Scripted
import CounterWatch.Proofs.Report.Decoding
import CounterWatch.Proofs.Session.Ownership
import CounterWatch.Proofs.Session.Sweep

/-!
# Proofs/CounterGroup/Life — a group over all it is asked to do

A group is asked to take in counters and to enable, clear and report them, in any order and with any
success.  Its members are its leader and what it took in; its buffer is as long as their report; and
whatever concerns all of them goes through the leader.

* `GroupTask` — what a group can be asked; `GroupTask.performAll` does one task after the other.
* `CounterGroup.stat_eq_judged` — the counts of a group, by what the read of its leader brought.
* `GroupTask.Sound` — what holds before every task, and is kept by each; `sound_of_performAll`.
* `group_stays_consistent` — a group over its whole life, and what it does next.
-/

namespace CounterWatch

variable {σ : Type} {pmu : Pmu σ}

/-! ## Tasks -/

/-- What a group can be asked to do. -/
inductive GroupTask where
  | add (attr : Attribute) (scope : Scope)
  | enable
  | clear
  | stat

/-- What a group answers to a task. -/
inductive GroupAnswer where
  | added (result : Except SystemError CounterId)
  | enabled (result : Except SystemError Unit)
  | cleared (result : Except SystemError Unit)
  | counted (result : Except SystemError Report)

/-- The counter that was taken in, if one was. -/
def GroupAnswer.joined? : GroupAnswer → Option CounterId
  | .added (.ok id) => some id
  | _ => none

namespace GroupTask

/-- Does one task. -/
def perform (pmu : Pmu σ) : GroupTask → CounterGroup → Machine σ →
    GroupAnswer × CounterGroup × Machine σ
  | .add attr scope, g, m =>
      let (result, g, m) := g.add pmu attr scope m
      (.added result, g, m)
  | .enable, g, m =>
      let (result, m) := g.enable pmu m
      (.enabled result, g, m)
  | .clear, g, m =>
      let (result, m) := g.clear pmu m
      (.cleared result, g, m)
  | .stat, g, m =>
      let (result, g, m) := g.stat pmu m
      (.counted result, g, m)

/-- Does one task after the other, whatever comes of them. -/
def performAll (pmu : Pmu σ) : List GroupTask → CounterGroup → Machine σ →
    List GroupAnswer × CounterGroup × Machine σ
  | [], g, m => ([], g, m)
  | task :: rest, g, m =>
      let (answer, g, m) := task.perform pmu g m
      let (answers, g, m) := performAll pmu rest g m
      (answer :: answers, g, m)

end GroupTask

/-! ## Counts -/

namespace CounterGroup

theorem length_buffer_of_fits {g : CounterGroup} (h : g.Fits) :
    g.buffer.length = 8 * (3 + g.size) := h.trans (Nat.mul_comm _ _)

/-- **The bytes of a buffer that fits are accepted just when they announce as many counts as there
are members**, and are then the words in their places. -/
theorem check_of_fits {g : CounterGroup} (h : g.Fits) :
    g.check g.buffer.length
      = if Report.announced g.buffer = g.size then .ok (Report.carried g.buffer)
        else .error (g.miscount (g.buffer.wordAt 0)) := by
  have hlength := length_buffer_of_fits h
  obtain ⟨nr, timeEnabled, timeRunning, counts, hwords, hcounts⟩ := h.spelled_or_miscounted
  have hplaces := (Report.words_of_room (b := g.buffer) (by omega)).symm.trans hwords
  simp only [List.cons.injEq] at hplaces
  obtain ⟨rfl, rfl, rfl, rfl⟩ := hplaces
  by_cases hsize : Report.announced g.buffer = g.size
  · have hcomplete : Report.IsComplete g.buffer := ⟨by omega, by omega⟩
    have hcarried : (Report.carried g.buffer).counts = Bytes.words (g.buffer.drop 24) := by
      rw [← Report.take_words_of_isComplete hcomplete, List.take_of_length_le (by omega)]
    rw [if_pos hsize]
    refine check_of_spelled ⟨⟨g.buffer.wordAt 0, ?_, ?_⟩, ?_⟩
    · rw [hwords, hcarried]
      rfl
    · rw [Report.toNat_wordAt_zero, hsize]
    · rw [hcarried, hcounts]
  · rw [if_neg hsize]
    exact check_of_miscounted hwords hcounts (by rwa [Report.toNat_wordAt_zero])

/-- What becomes of the counts of a group, by the number of bytes its read claims and the bytes it
left in the buffer. -/
def judged (g : CounterGroup) (bytes : Bytes) : Except SystemError Nat → Except SystemError Report
  | .error e => .error e
  | .ok got =>
      if got ≠ 8 * (3 + g.size) then .error (g.shortRead got)
      else if Report.announced bytes ≠ g.size then .error (g.miscount (bytes.wordAt 0))
      else .ok (Report.carried bytes)

/-- **The counts of a group** are judged by what the read of its leader brought: first whether it
failed, then its length, then the number of counts. -/
theorem stat_eq_judged {g : CounterGroup} (h : g.Fits) {m m' : Machine σ} {bytes : Bytes}
    {result : Except SystemError Nat} (hread : m.read pmu g.leader g.buffer = (result, bytes, m')) :
    g.stat pmu m = (g.judged bytes result, g.refill bytes, m') := by
  have hlength : bytes.length = g.buffer.length := Machine.length_of_read hread
  rw [stat_of_read hread]
  rcases result with e | got
  · rfl
  refine congrArg (fun r => (r, g.refill bytes, m')) ?_
  rw [judged, ← length_buffer_of_fits h]
  by_cases hgot : got ≠ g.buffer.length
  · rw [if_pos hgot, ← shortRead_refill hlength]
    exact check_of_short (hlength ▸ hgot)
  · obtain rfl := (not_not.mp hgot).trans hlength.symm
    rw [if_neg (not_not_intro hlength)]
    refine (check_of_fits (g := g.refill bytes) (hlength.trans h)).trans ?_
    rw [ite_not, miscount_refill hlength]
    rfl

/-- **What a group does for its counts, and what it answers.**  It reads its leader once, into a
buffer as long as the report of its members, and keeps its members.  The answer is a report just
when the read succeeds, claims as many bytes as asked for and leaves the number of members as the
first word; the report has the words behind it, a count for every member.  Otherwise the answer is
the error of the read, or an error of its own that tells a wrong length from a wrong number. -/
structure Counts (pmu : Pmu σ) (g : CounterGroup) (m : Machine σ) : Prop where
  calls : (g.stat pmu m).2.2.counterCalls = m.counterCalls ++ [.read g.leader (8 * (3 + g.size))]
  members : (g.stat pmu m).2.1.members = g.members
  ok_iff : ∀ r, (g.stat pmu m).1 = .ok r ↔ ∃ bytes m',
    m.read pmu g.leader g.buffer = (.ok (8 * (3 + g.size)), bytes, m') ∧
    Bytes.toNat (bytes.take 8) = g.size ∧
    r.timeEnabled = bytes.wordAt 8 ∧ r.timeRunning = bytes.wordAt 16 ∧
    r.counts.length = g.size ∧
    r.counts = (List.range g.size).map fun i => bytes.wordAt (24 + 8 * i)
  error : ∀ e, (g.stat pmu m).1 = .error e → ∃ result bytes m',
    m.read pmu g.leader g.buffer = (result, bytes, m') ∧
    (result = .error e ∨
      (∃ got, result = .ok got ∧ got ≠ 8 * (3 + g.size) ∧ e.kind = .unexpectedEof) ∨
      (result = .ok (8 * (3 + g.size)) ∧ Bytes.toNat (bytes.take 8) ≠ g.size ∧
        e.kind = .invalidData))

/-- A read is accepted if it claims the bytes asked for and announces a count for every member. -/
theorem judged_eq_ok_iff {g : CounterGroup} {bytes : Bytes} {result : Except SystemError Nat}
    {r : Report} : g.judged bytes result = .ok r ↔
      result = .ok (8 * (3 + g.size)) ∧ Report.announced bytes = g.size ∧
        Report.carried bytes = r := by
  rcases result with e | got
  · simp [judged]
  · rw [judged]
    split_ifs with hgot hsize
    · simp [hgot]
    · simp [hsize]
    · simp [not_not.mp hgot, not_not.mp hsize]

theorem counts_of_fits (pmu : Pmu σ) {g : CounterGroup} (h : g.Fits) (m : Machine σ) :
    g.Counts pmu m := by
  rcases hread : m.read pmu g.leader g.buffer with ⟨result, bytes, m'⟩
  have hstat := stat_eq_judged h hread
  have hcalls := m.counterCalls_read pmu g.leader g.buffer
  rw [hread, length_buffer_of_fits h] at hcalls
  refine ⟨by rw [hstat]; exact hcalls, by rw [hstat]; rfl, fun r => ?ok_iff, fun e he => ?error⟩
  case ok_iff =>
    rw [hstat, judged_eq_ok_iff]
    constructor
    · rintro ⟨rfl, hsize, rfl⟩
      have hcounts : (Report.carried bytes).counts
          = (List.range g.size).map fun i => bytes.wordAt (24 + 8 * i) := by
        rw [Report.carried, hsize]
      exact ⟨bytes, m', hread, hsize, rfl, rfl, by simp [hcounts], hcounts⟩
    · rintro ⟨bytes', m'', hread', hsize, hte, htr, -, hcounts⟩
      obtain ⟨rfl, rfl, rfl⟩ := by simpa only [Prod.mk.injEq] using hread.symm.trans hread'
      refine ⟨rfl, hsize, ?_⟩
      rw [Report.carried, Report.announced, hsize, ← hte, ← htr, ← hcounts]
  case error =>
    rw [hstat] at he
    refine ⟨result, bytes, m', hread, ?_⟩
    rcases result with e' | got
    · obtain rfl := Except.error.inj (show Except.error e' = Except.error e from he)
      exact .inl rfl
    · change g.judged bytes (.ok got) = .error e at he
      rw [judged] at he
      split_ifs at he with hgot hsize
      · obtain rfl := Except.error.inj he
        exact .inr (.inl ⟨got, rfl, hgot, rfl⟩)
      · obtain rfl := Except.error.inj he
        exact .inr (.inr ⟨congrArg _ (not_not.mp hgot), hsize, rfl⟩)

end CounterGroup

/-! ## Lives -/

/-- What a group is at any time: its leader and the counters it took in, in order, all of them
opened since and none closed, those it took in under its leader; with a buffer for their report. -/
structure CounterGroup.Consists (l : Ledger) (leader : CounterId) (joined : List CounterId)
    (g : CounterGroup) (m : Machine σ) : Prop where
  members : g.members = leader :: joined
  opens : Ledger.Opens l m.ledger g.counters
  fits : g.Fits

namespace GroupTask

/-- **What comes of a task.**  Taking in a counter opens it under the leader and puts it behind the
other members, or leaves the group as it was.  Everything else is one call to the leader, and leaves
the members as they were. -/
def Does (pmu : Pmu σ) (g : CounterGroup) (m : Machine σ) : GroupTask → Prop
  | .add attr scope =>
      match g.add pmu attr scope m with
      | (.ok id, g', m') => g'.members = g.members ++ [id] ∧
          m'.trace = m.trace ++ [.opened id { attr, scope, leader := some g.leader }]
      | (.error e, g', m') => g' = g ∧ m'.trace = m.trace ++ [.openFailed m.attempts] ∧
          (pmu.openCounter { attr, scope, leader := some g.leader } m.state).1 = .error e
  | .enable => (g.enable pmu m).1 = (pmu.enable g.leader m.state).1 ∧
      (g.enable pmu m).2.trace = m.trace ++ [.enable g.leader]
  | .clear => (g.clear pmu m).1 = (pmu.reset g.leader m.state).1 ∧
      (g.clear pmu m).2.trace = m.trace ++ [.reset g.leader]
  | .stat => g.Counts pmu m

theorem does_of_fits (pmu : Pmu σ) {g : CounterGroup} (h : g.Fits) (m : Machine σ) :
    ∀ task : GroupTask, task.Does pmu g m
  | .add attr scope => by
      rw [Does, CounterGroup.add, Machine.openCounter]
      rcases pmu.openCounter { attr, scope, leader := some g.leader } m.state with ⟨e | _, state⟩
      · exact ⟨rfl, rfl, rfl⟩
      · exact ⟨rfl, rfl⟩
  | .enable => ⟨rfl, rfl⟩
  | .clear => ⟨rfl, rfl⟩
  | .stat => CounterGroup.counts_of_fits pmu h m

variable {l : Ledger} {leader : CounterId} {joined : List CounterId} {g : CounterGroup}
  {m : Machine σ}

/-- A counter that is opened joins the group behind the others; one that is not leaves it as it was.
-/
theorem consists_add (pmu : Pmu σ) (h : g.Consists l leader joined m) (attr : Attribute)
    (scope : Scope) :
    (g.add pmu attr scope m).2.1.Consists l leader
      (joined ++ ((GroupAnswer.added (g.add pmu attr scope m).1).joined?).toList)
      (g.add pmu attr scope m).2.2 := by
  have hopens := CounterGroup.opens_add pmu h.opens attr scope
  rw [CounterGroup.add] at hopens ⊢
  rcases ho : m.openCounter pmu { attr, scope, leader := some g.leader } with ⟨e | id, m'⟩
  · rw [ho] at hopens
    exact ⟨h.members.trans (by simp [GroupAnswer.joined?]), hopens, h.fits⟩
  · rw [ho] at hopens
    refine ⟨?_, hopens, CounterGroup.length_buffer_join h.fits id⟩
    have hmembers : (g.join id).members = g.members ++ [id] := rfl
    exact hmembers.trans (congrArg (· ++ [id]) h.members)

/-- **A task leaves a group that consists of what it should**, whatever comes of it. -/
theorem consists_perform (pmu : Pmu σ) (h : g.Consists l leader joined m) (task : GroupTask) :
    (task.perform pmu g m).2.1.Consists l leader
      (joined ++ (task.perform pmu g m).1.joined?.toList) (task.perform pmu g m).2.2 := by
  -- a task that takes in no counter neither opens nor closes one
  have hkept : ∀ {m' : Machine σ}, Machine.Uses pmu m m' →
      Ledger.Opens l m'.ledger g.counters := by
    intro m' huses
    rw [Machine.ledger_uses huses]
    exact h.opens
  cases task with
  | add attr scope => exact consists_add pmu h attr scope
  | enable =>
      exact ⟨h.members.trans (by simp [perform, GroupAnswer.joined?]), hkept (.single (.enable _)),
        h.fits⟩
  | clear =>
      exact ⟨h.members.trans (by simp [perform, GroupAnswer.joined?]), hkept (.single (.reset _)),
        h.fits⟩
  | stat =>
      have hstat : (g.stat pmu m).2.1
          = { g with buffer := (m.read pmu g.leader g.buffer).2.1 } := g.stat_eq m
      have hlength : (m.read pmu g.leader g.buffer).2.1.length = g.buffer.length :=
        Bytes.length_overwrite _ _
      have hopens := hkept (g.stat_uses m)
      simp only [perform, GroupAnswer.joined?, Option.toList_none, List.append_nil]
      exact ⟨by rw [hstat]; exact h.members, by rw [hstat]; exact hopens,
        by rw [hstat]; exact hlength.trans h.fits⟩

/-- **A group consists of its leader and all that joined it**, after any tasks. -/
theorem consists_performAll (pmu : Pmu σ) : ∀ (tasks : List GroupTask) {joined : List CounterId}
    {g : CounterGroup} {m : Machine σ}, g.Consists l leader joined m →
      (performAll pmu tasks g m).2.1.Consists l leader
        (joined ++ (performAll pmu tasks g m).1.filterMap GroupAnswer.joined?)
        (performAll pmu tasks g m).2.2
  | [], joined, g, m, h => by
      simp only [performAll, List.filterMap_nil, List.append_nil]
      exact h
  | task :: rest, joined, g, m, h => by
      have hrest := consists_performAll pmu rest (consists_perform pmu h task)
      simp only [performAll, List.filterMap_cons]
      rw [List.append_assoc] at hrest
      cases hjoined : (task.perform pmu g m).1.joined? with
      | none => simpa only [hjoined, Option.toList_none, List.nil_append] using hrest
      | some id => simpa only [hjoined, Option.toList_some, List.singleton_append] using hrest

end GroupTask

/-- **A group stays consistent over all it is asked to do.**  After any tasks, its members are the
leader and behind it the counters that were taken in, in order; all of them are open, and those
taken in were opened under the leader.  The buffer is as long as the report of the members.
Whatever the group is asked next, it does what is said of the task, and no more. -/
theorem group_stays_consistent {request : OpenRequest} {leader : CounterId} {m₀ m₁ m : Machine σ}
    {tasks : List GroupTask} {answers : List GroupAnswer} {g : CounterGroup}
    (hleads : request.leader = none) (hopen : m₀.openCounter pmu request = (.ok leader, m₁))
    (htasks : GroupTask.performAll pmu tasks (.ofLeader leader) m₁ = (answers, g, m)) :
    g.members = leader :: answers.filterMap GroupAnswer.joined? ∧
    Ledger.Opens m₀.ledger m.ledger (⟨leader, none⟩ ::
      (answers.filterMap GroupAnswer.joined?).map fun id => ⟨id, some leader⟩) ∧
    g.buffer.length = 8 * (3 + g.size) ∧
    ∀ next : GroupTask, next.Does pmu g m := by
  have hopened := m₀.ledger_openCounter pmu request
  rw [hopen, hleads] at hopened
  obtain ⟨rfl, hledger⟩ := hopened
  have hstart : (CounterGroup.ofLeader m₀.ledger.next).Consists m₀.ledger m₀.ledger.next [] m₁ := by
    refine ⟨rfl, ?_, CounterGroup.length_buffer_ofLeader _⟩
    rw [hledger]
    exact .enter _ _
  have hlife := GroupTask.consists_performAll pmu tasks hstart
  rw [htasks, List.nil_append] at hlife
  obtain ⟨hmembers, hopens, hfits⟩ := hlife
  obtain ⟨hleader, hjoined⟩ := List.cons.inj hmembers
  rw [CounterGroup.counters, hleader, hjoined] at hopens
  exact ⟨hmembers, hopens, CounterGroup.length_buffer_of_fits hfits,
    GroupTask.does_of_fits pmu hfits m⟩

/-- A group takes in a counter, fails to take in another, and is counted. -/
theorem group_stays_consistent_after_failed_add :
    let pmu : Pmu ScriptProgress := Script.pmu { openErrors := [(2, .tooManyOpenFiles)] }
    let add : GroupTask := .add (.counting Hardware.instr.event) (.onCpu 0)
    let request : OpenRequest := ⟨.counting Hardware.cpuCycle.event, .onCpu 0, none⟩
    ∃ m₀ m₁ answers g m, Machine.openCounter pmu request m₀ = (.ok 0, m₁) ∧
      GroupTask.performAll pmu [add, add, .stat] (.ofLeader 0) m₁ = (answers, g, m) ∧
      g.members = [0, 1] ∧ g.buffer.length = 40 ∧ g.Counts pmu m := by
  intro pmu add request
  let m₀ : Machine ScriptProgress := { state := {} }
  let m₁ := (Machine.openCounter pmu request m₀).2
  let after := GroupTask.performAll pmu [add, add, .stat] (.ofLeader 0) m₁
  have hopen : Machine.openCounter pmu request m₀ = (.ok 0, m₁) := rfl
  have htasks : GroupTask.performAll pmu [add, add, .stat] (.ofLeader 0) m₁
      = (after.1, after.2.1, after.2.2) := rfl
  obtain ⟨hmembers, -, hlength, hnext⟩ := group_stays_consistent rfl hopen htasks
  have hsize : after.2.1.size = 2 := rfl
  rw [hsize] at hlength
  exact ⟨m₀, m₁, _, _, _, hopen, htasks, hmembers, hlength, hnext .stat⟩

end CounterWatch
