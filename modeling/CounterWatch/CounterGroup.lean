import CounterWatch.Machine

/-!
# CounterGroup — counters that are scheduled together

The first counter leads the group: enabling, resetting and reading go through it and concern every
member.  The group keeps the buffer that its reports are read into, always as long as the report of
its members.
-/

namespace CounterWatch

/-- A group of open counters. -/
structure CounterGroup where
  leader : CounterId
  /-- The other members, in the order they were added. -/
  siblings : List CounterId
  /-- What the last report left in the buffer. -/
  buffer : Bytes
  deriving DecidableEq

namespace CounterGroup

variable {σ : Type}

/-- The number of members. -/
def size (g : CounterGroup) : Nat := g.siblings.length + 1

/-- The members in group order. -/
def members (g : CounterGroup) : List CounterId := g.leader :: g.siblings

/-- A group of one, with a buffer of zeros. -/
def ofLeader (leader : CounterId) : CounterGroup :=
  ⟨leader, [], List.replicate (Report.byteSize 1) 0⟩

/-- The group with one more member; the buffer grows by zeros. -/
def join (g : CounterGroup) (sibling : CounterId) : CounterGroup :=
  { g with
    siblings := g.siblings ++ [sibling]
    buffer := g.buffer ++ List.replicate (Report.byteSize (g.size + 1) - g.buffer.length) 0 }

/-- Opens one more member. -/
def add (pmu : Pmu σ) (attr : Attribute) (scope : Scope) (g : CounterGroup) (m : Machine σ) :
    Except SystemError CounterId × CounterGroup × Machine σ :=
  match m.openCounter pmu { attr, scope, leader := some g.leader } with
  | (.ok id, m) => (.ok id, g.join id, m)
  | (.error e, m) => (.error e, g, m)

/-- Enables every member. -/
def enable (pmu : Pmu σ) (g : CounterGroup) (m : Machine σ) : Except SystemError Unit × Machine σ :=
  m.enable pmu g.leader

/-- Sets the counts of every member to zero. -/
def clear (pmu : Pmu σ) (g : CounterGroup) (m : Machine σ) : Except SystemError Unit × Machine σ :=
  m.reset pmu g.leader

/-- Makes a report of a read: all of the buffer has to be there, it has to be a report, and the
report has to be one of this group. -/
def check (g : CounterGroup) (got : Nat) : Except SystemError Report :=
  if got ≠ g.buffer.length then
    .error (.custom .unexpectedEof
      ("short read: " ++ toString got ++ " of " ++ toString g.buffer.length ++ " bytes"))
  else match Report.decode g.buffer with
    | .error fault => .error fault.error
    | .ok report =>
        if report.counts.length ≠ g.size then
          .error (.custom .invalidData
            (toString report.counts.length ++ " counts for a group of " ++ toString g.size))
        else .ok report

/-- Reads the counts of every member. -/
def stat (pmu : Pmu σ) (g : CounterGroup) (m : Machine σ) :
    Except SystemError Report × CounterGroup × Machine σ :=
  let (result, buffer, m) := m.read pmu g.leader g.buffer
  let g := { g with buffer }
  match result with
  | .ok got => (g.check got, g, m)
  | .error e => (.error e, g, m)

/-- Closes every member, the leader last. -/
def close (g : CounterGroup) (m : Machine σ) : Machine σ :=
  (g.siblings.foldl (fun m id => m.closeCounter ⟨id, some g.leader⟩) m).closeCounter
    ⟨g.leader, none⟩

theorem length_buffer_ofLeader (leader : CounterId) :
    (ofLeader leader).buffer.length = Report.byteSize (ofLeader leader).size := by
  simp [ofLeader, size]

/-- The buffer grows with the group, so it always has room for the whole report. -/
theorem length_buffer_join {g : CounterGroup} (h : g.buffer.length = Report.byteSize g.size)
    (sibling : CounterId) :
    (g.join sibling).buffer.length = Report.byteSize (g.join sibling).size := by
  simp only [join, size, Report.byteSize, List.length_append, List.length_replicate,
    List.length_cons, List.length_nil] at h ⊢
  omega

end CounterGroup
end CounterWatch
