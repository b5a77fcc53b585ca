import CounterWatch.Pmu.Scripted
import CounterWatch.Proofs.Session.Run

/-!
# Proofs/Session/Enabling — enabling comes to every leaf

Enabling a tree makes two calls for every leaf, a reset and an enable.  Which calls these are is
settled before the first of them is made; what they are answered only settles what is reported.

* `LeafCall` — the calls; `LeafCall.askAll` makes them, whatever they are answered.
* `SessionTree.enable_eq` — enabling a tree is making its calls, and reporting those that failed.
* `Leaf.Before`, `SessionTree.pairwise_leaves` — the order of the leaves.
* `enabling_reaches_every_leaf` — all of it, for a tree that was opened.
-/

namespace CounterWatch

variable {σ : Type} {pmu : Pmu σ}

/-! ## Calls -/

/-- A call made for a leaf while its tree is enabled. -/
inductive LeafCall where
  | reset (leaf : Leaf) (leader : CounterId)
  | enable (leaf : Leaf) (leader : CounterId)
  deriving DecidableEq

namespace LeafCall

/-- The call as it is recorded. -/
def call : LeafCall → Call
  | .reset _ leader => .reset leader
  | .enable _ leader => .enable leader

/-- What counters answer to the call. -/
def ask (pmu : Pmu σ) : LeafCall → σ → Except SystemError Unit × σ
  | .reset _ leader => pmu.reset leader
  | .enable _ leader => pmu.enable leader

/-- The failure that the call is reported as. -/
def failure (e : SystemError) : LeafCall → Failure
  | .reset leaf _ => .resetCounts leaf e
  | .enable leaf _ => .enableCounts leaf e

/-- The line that is logged when the call fails. -/
def notice (e : SystemError) : LeafCall → Notice
  | .reset leaf _ => .resetFailed leaf e
  | .enable leaf _ => .enableFailed leaf e

/-- Makes calls one after the other, whatever they are answered: every call with its answer. -/
def askAll (pmu : Pmu σ) : List LeafCall → σ → List (LeafCall × Except SystemError Unit) × σ
  | [], s => ([], s)
  | c :: rest, s =>
      let (answer, s) := c.ask pmu s
      let (answers, s) := askAll pmu rest s
      ((c, answer) :: answers, s)

/-- The calls that failed, with their errors. -/
def failed (answered : List (LeafCall × Except SystemError Unit)) : List (LeafCall × SystemError) :=
  answered.filterMap fun
    | (_, .ok ()) => none
    | (c, .error e) => some (c, e)

/-- A machine after calls were made. -/
def made (pmu : Pmu σ) (calls : List LeafCall) (m : Machine σ) : Machine σ :=
  let (answered, state) := askAll pmu calls m.state
  { m with
    state
    trace := m.trace ++ calls.map call
    log := m.log ++ (failed answered).map fun f => f.1.notice f.2 }

/-- What is reported of calls: those that failed, in order. -/
def reported (pmu : Pmu σ) (calls : List LeafCall) (m : Machine σ) : List Failure :=
  (failed (askAll pmu calls m.state).1).map fun f => f.1.failure f.2

/-- Every call is made, and in order, whatever those before it were answered. -/
theorem map_fst_askAll (pmu : Pmu σ) : ∀ (calls : List LeafCall) (s : σ),
    (askAll pmu calls s).1.map Prod.fst = calls
  | [], _ => rfl
  | c :: rest, _ => congrArg (c :: ·) (map_fst_askAll pmu rest _)

/-- Nothing is listed as failed just when every call went well. -/
theorem failed_eq_nil_iff {answered : List (LeafCall × Except SystemError Unit)} :
    failed answered = [] ↔ ∀ a ∈ answered, a.2 = .ok () := by
  rw [failed, List.filterMap_eq_nil_iff]
  refine forall₂_congr fun a _ => ?_
  rcases a with ⟨c, e | _⟩ <;> simp

/-- Calls may be made in two goes, the second on what the first left behind. -/
theorem askAll_append (pmu : Pmu σ) : ∀ (calls more : List LeafCall) (s : σ),
    askAll pmu (calls ++ more) s
      = ((askAll pmu calls s).1 ++ (askAll pmu more (askAll pmu calls s).2).1,
        (askAll pmu more (askAll pmu calls s).2).2)
  | [], _, _ => rfl
  | c :: rest, more, s => by
      simp only [List.cons_append, askAll, askAll_append pmu rest more]

theorem failed_append (answered more : List (LeafCall × Except SystemError Unit)) :
    failed (answered ++ more) = failed answered ++ failed more := List.filterMap_append

theorem made_append (calls more : List LeafCall) (m : Machine σ) :
    made pmu (calls ++ more) m = made pmu more (made pmu calls m) := by
  simp only [made, askAll_append, failed_append, List.map_append, List.append_assoc]

theorem reported_append (calls more : List LeafCall) (m : Machine σ) :
    reported pmu (calls ++ more) m
      = reported pmu calls m ++ reported pmu more (made pmu calls m) := by
  simp only [reported, made, askAll_append, failed_append, List.map_append]

end LeafCall

/-! ## Enabling -/

/-- The calls made for a leaf. -/
def CpuSession.enablingCalls (leaf : Leaf) (s : CpuSession) : List LeafCall :=
  [.reset leaf s.counters.leader, .enable leaf s.counters.leader]

/-- The calls made for leaves, one leaf after the other. -/
def enablingCalls (leaves : List (Leaf × CpuSession)) : List LeafCall :=
  leaves.flatMap fun l => l.2.enablingCalls l.1

theorem Machine.reset_eq {m : Machine σ} {id : CounterId} {result : Except SystemError Unit}
    {state : σ} (h : pmu.reset id m.state = (result, state)) :
    m.reset pmu id = (result, { m.call (.reset id) with state }) := by
  rw [Machine.reset, h]

theorem Machine.enable_eq {m : Machine σ} {id : CounterId} {result : Except SystemError Unit}
    {state : σ} (h : pmu.enable id m.state = (result, state)) :
    m.enable pmu id = (result, { m.call (.enable id) with state }) := by
  rw [Machine.enable, h]

/-- **Enabling a leaf makes both its calls**, and reports those that failed. -/
theorem CpuSession.enable_eq (leaf : Leaf) (s : CpuSession) (m : Machine σ) :
    s.enable pmu leaf m = (LeafCall.reported pmu (s.enablingCalls leaf) m,
      LeafCall.made pmu (s.enablingCalls leaf) m) := by
  rcases hreset : pmu.reset s.counters.leader m.state with ⟨cleared, s₁⟩
  rcases henable : pmu.enable s.counters.leader s₁ with ⟨enabled, s₂⟩
  have hasked : LeafCall.askAll pmu (s.enablingCalls leaf) m.state
      = ([(.reset leaf s.counters.leader, cleared), (.enable leaf s.counters.leader, enabled)],
        s₂) := by
    simp only [enablingCalls, LeafCall.askAll, LeafCall.ask, hreset, henable]
  -- the second call is made on the state that the first one left, whether that one failed or not
  rw [CpuSession.enable, CounterGroup.clear, Machine.reset_eq hreset, LeafCall.reported,
    LeafCall.made, hasked]
  cases cleared
  all_goals
    dsimp only
    rw [CounterGroup.enable, Machine.enable_eq (by exact henable)]
    cases enabled <;> simp [LeafCall.failed, LeafCall.failure, LeafCall.notice, LeafCall.call,
      enablingCalls, Machine.note, Machine.call]

/-- **Enabling leaves makes all their calls**, and reports those that failed. -/
theorem enableLeaves_eq : ∀ (leaves : List (Leaf × CpuSession)) (m : Machine σ),
    enableLeaves pmu leaves m = (LeafCall.reported pmu (enablingCalls leaves) m,
      LeafCall.made pmu (enablingCalls leaves) m)
  | [], m => by
      simp [enableLeaves, enablingCalls, LeafCall.reported, LeafCall.made, LeafCall.askAll,
        LeafCall.failed]
  | (leaf, s) :: rest, m => by
      rw [enableLeaves, s.enable_eq leaf m]
      dsimp only
      rw [enableLeaves_eq rest, ← LeafCall.reported_append, ← LeafCall.made_append]
      rfl

/-- **Enabling a tree makes the calls of its leaves**, and reports those that failed. -/
theorem SessionTree.enable_eq (t : SessionTree) (m : Machine σ) :
    t.enable pmu m = (LeafCall.reported pmu (enablingCalls t.leaves) m,
      LeafCall.made pmu (enablingCalls t.leaves) m) := enableLeaves_eq t.leaves m

/-! ## Order -/

/-- A leaf comes before another if its group does, in one group if its package does, and in one
package if its CPU does. -/
def Leaf.Before (l l' : Leaf) : Prop :=
  compare l.group l'.group = .lt ∨ l.group = l'.group ∧
    (compare l.package l'.package = .lt ∨ l.package = l'.package ∧ compare l.cpu l'.cpu = .lt)

theorem PackageSession.pairwise_leaves (group : String) (package : UInt32) (p : PackageSession) :
    (p.leaves group package).Pairwise fun l l' => l.1.Before l'.1 :=
  List.pairwise_map.mpr (p.cpus.ascending.imp fun h => .inr ⟨rfl, .inr ⟨rfl, h⟩⟩)

/-- The leaves of a group come in the order of their packages, and in each of their CPUs. -/
theorem GroupSession.pairwise_leaves (group : String) (g : GroupSession) :
    (g.leaves group).Pairwise fun l l' => l.1.Before l'.1 := by
  refine List.pairwise_flatMap.mpr ⟨fun p _ => p.2.pairwise_leaves group p.1,
    g.packages.ascending.imp fun h l hl l' hl' => ?_⟩
  obtain ⟨c, -, rfl⟩ := List.mem_map.mp hl
  obtain ⟨c', -, rfl⟩ := List.mem_map.mp hl'
  exact .inr ⟨rfl, .inl h⟩

/-- **The leaves of a tree come in order**, and no two are the same. -/
theorem SessionTree.pairwise_leaves (t : SessionTree) :
    t.leaves.Pairwise fun l l' => l.1.Before l'.1 := by
  have hgroup : ∀ {group : String} {g : GroupSession} {l : Leaf × CpuSession},
      l ∈ g.leaves group → l.1.group = group := by
    intro group g l hl
    obtain ⟨p, -, hl⟩ := List.mem_flatMap.mp hl
    obtain ⟨c, -, rfl⟩ := List.mem_map.mp hl
    rfl
  refine List.pairwise_flatMap.mpr ⟨fun g _ => g.2.pairwise_leaves g.1,
    t.groups.ascending.imp fun h l hl l' hl' => .inl ?_⟩
  rw [hgroup hl, hgroup hl']
  exact h

/-! ## Siblings -/

/-- **No sibling is a leader** in a tree whose counters all have numbers of their own. -/
theorem SessionTree.sibling_ne_leader {t : SessionTree} (h : (t.counters.map Counter.id).Nodup)
    {l l' : Leaf × CpuSession} (hl : l ∈ t.leaves) (hl' : l' ∈ t.leaves) {id : CounterId}
    (hid : id ∈ l.2.counters.siblings) : id ≠ l'.2.counters.leader := by
  rintro rfl
  have hsibling : (⟨l'.2.counters.leader, some l.2.counters.leader⟩ : Counter) ∈ t.counters :=
    List.mem_flatMap.mpr ⟨l, hl, List.mem_cons_of_mem _ (List.mem_map.mpr ⟨_, hid, rfl⟩)⟩
  have hleader : (⟨l'.2.counters.leader, none⟩ : Counter) ∈ t.counters :=
    List.mem_flatMap.mpr ⟨l', hl', List.mem_cons_self⟩
  cases List.inj_on_of_nodup_map h hsibling hleader rfl

/-- The counters of a tree that was opened have numbers of their own, whatever is done with it. -/
theorem SessionTree.nodup_counters {config : MonitoringConfig} {backend : Option Backend}
    {m m₀ m₁ : Machine σ} {t₀ t : SessionTree}
    (hstart : SessionTree.start pmu config backend m = (.ok t₀, m₀))
    (hworks : SessionTree.Works pmu (t₀, m₀) (t, m₁)) : (t.counters.map Counter.id).Nodup := by
  have hopens := SessionTree.start_allOrNothing pmu config backend m
  rw [hstart, AllOrNothing, t₀.flatMap_counterGroups] at hopens
  rw [(SessionTree.works_keep hworks).1]
  exact hopens.nodup

/-! ## Trees -/

/-- **Enabling reaches every leaf, whatever fails.**  For each leaf of a tree, in order, the leader
is reset and then enabled, each once; these calls are made whatever any of them is answered, and
none is made to a sibling.  What is reported are the calls that failed, in order, each once, with
its leaf and its error, and each is logged as an error; so nothing is reported just when every call
succeeded.  Nothing else changes but what the counters make of it. -/
theorem enabling_reaches_every_leaf {config : MonitoringConfig} {backend : Option Backend}
    {m m₀ m₁ : Machine σ} {t₀ t : SessionTree}
    (hstart : SessionTree.start pmu config backend m = (.ok t₀, m₀))
    (hworks : SessionTree.Works pmu (t₀, m₀) (t, m₁)) :
    ∃ (calls : List LeafCall) (answered : List (LeafCall × Except SystemError Unit)) (state : σ),
      calls = (t.leaves.flatMap fun l =>
        [.reset l.1 l.2.counters.leader, .enable l.1 l.2.counters.leader]) ∧
      (t.leaves.Pairwise fun l l' => l.1.Before l'.1) ∧
      LeafCall.askAll pmu calls m₁.state = (answered, state) ∧ answered.map Prod.fst = calls ∧
      (t.enable pmu m₁).1 = (LeafCall.failed answered).map (fun f => f.1.failure f.2) ∧
      (t.enable pmu m₁).2 = { m₁ with
        state
        trace := m₁.trace ++ calls.map LeafCall.call
        log := m₁.log ++ (LeafCall.failed answered).map fun f => f.1.notice f.2 } ∧
      ((t.enable pmu m₁).1 = [] ↔ ∀ a ∈ answered, a.2 = .ok ()) ∧
      (∀ c e, (LeafCall.notice e c).level = .error) ∧
      ∀ l ∈ t.leaves, ∀ id ∈ l.2.counters.siblings, ∀ c ∈ calls.map LeafCall.call,
        c ≠ .reset id ∧ c ≠ .enable id := by
  have hnodup := SessionTree.nodup_counters hstart hworks
  refine ⟨enablingCalls t.leaves, _, _, rfl, t.pairwise_leaves, rfl, LeafCall.map_fst_askAll _ _ _,
    by rw [t.enable_eq]; rfl, by rw [t.enable_eq]; rfl, ?nothing, ?level, ?siblings⟩
  case nothing =>
    rw [t.enable_eq, LeafCall.reported, List.map_eq_nil_iff, LeafCall.failed_eq_nil_iff]
  case level => exact fun c e => by cases c <;> rfl
  case siblings =>
    intro l hl id hid c hc
    obtain ⟨call, hcall, rfl⟩ := List.mem_map.mp hc
    obtain ⟨l', hl', hcall⟩ := List.mem_flatMap.mp hcall
    have hne := SessionTree.sibling_ne_leader hnodup hl hl' hid
    rcases List.mem_pair.mp hcall with rfl | rfl
    · exact ⟨fun h => hne (Call.reset.inj h).symm, nofun⟩
    · exact ⟨nofun, fun h => hne (Call.enable.inj h).symm⟩

/-- One event on two CPUs: the first reset fails, and so does the second enable. -/
theorem enabling_reaches_every_leaf_of_two :
    let pmu : Pmu ScriptProgress := Script.pmu
      { resetErrors := [(0, .invalidArgument)], enableErrors := [(1, .badDescriptor)] }
    let core : EventsGroup := ⟨"core", .allCpus, [⟨"cycles", Hardware.cpuCycle.event⟩]⟩
    let config : MonitoringConfig :=
      { topology := ⟨⟨[(0, ⟨[3, 5], by decide⟩)], by decide⟩⟩
        groups := ⟨[("core", core)], by decide⟩
        target := .system
        sampling := {} }
    ∃ t m₀, SessionTree.start pmu config none { state := {} } = (.ok t, m₀) ∧
      (t.enable pmu m₀).1 = [.resetCounts ⟨"core", 0, 3⟩ .invalidArgument,
        .enableCounts ⟨"core", 0, 5⟩ .badDescriptor] ∧
      (t.enable pmu m₀).2.trace = m₀.trace ++ [.reset 0, .enable 0, .reset 1, .enable 1] := by
  intro pmu core config
  let s (leader : CounterId) : CpuSession := ⟨⟨leader, [], List.replicate 32 0⟩, false⟩
  let t : SessionTree :=
    { groups := ⟨[("core", ⟨core, ⟨[(0, ⟨⟨[(3, s 0), (5, s 1)], by decide⟩⟩)], by decide⟩⟩)],
        by decide⟩
      callchain := ⟨.none, 50⟩
      pid := none
      inCgroup := false }
  let m₀ : Machine ScriptProgress := (SessionTree.start pmu config none { state := {} }).2
  have hstart : SessionTree.start pmu config none { state := {} } = (.ok t, m₀) := rfl
  obtain ⟨calls, answered, state, rfl, -, hasked, -, hfailed, hmachine, -⟩ :=
    enabling_reaches_every_leaf hstart .refl
  obtain ⟨rfl, rfl⟩ := Prod.mk.inj hasked
  exact ⟨t, m₀, hstart, hfailed, congrArg Machine.trace hmachine⟩

end CounterWatch
