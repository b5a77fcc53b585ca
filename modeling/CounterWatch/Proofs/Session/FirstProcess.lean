import CounterWatch.Proofs.Cgroup.ProcessList
import CounterWatch.Proofs.Session.Agreement
import CounterWatch.Proofs.Session.Callchains
import CounterWatch.Proofs.Session.Plan

/-!
# Proofs/Session/FirstProcess — the process that call chains are symbolized for

Before the first counter of a control group is opened, its list of processes is read.  Unless there
is a process on it, opening ends there, and neither a backend nor the counters have been asked for
anything.  Otherwise a backend is asked once, for the first process; how many others there are, and
whether the backend has symbols, is logged and has no bearing on the counters.

* `Machine.listed`, `Machine.asked` — what the lookups leave: their calls, and what they log.
* `prepareTarget_of_pid` — the target is known once its list has a process.
* `OpenedFor` — an outcome of opening the counters, and nothing but the counters.
* `SameButLog` — machines that only differ in their files and in what was logged.
* `counters_opened_for_first_process` — the outcome of opening, by what is found of the control
  group.
-/

namespace CounterWatch

variable {σ : Type} {pmu : Pmu σ} {config : MonitoringConfig} {backend backend' : Option Backend}
  {m m' m₁ : Machine σ} {directory : Path} {content content' : String} {pid : UInt32}

open Cgroup

/-! ## The lookups -/

/-- What is logged of several processes: that the first one is taken. -/
def noteSeveral (directory : Path) : List UInt32 → List Notice
  | [] | [_] => []
  | pid :: others => [.severalProcesses directory (others.length + 1) pid]

/-- The error that a backend has for a process instead of symbols. -/
def attachError? (backend : Option Backend) (pid : UInt32) : Option SystemError :=
  backend.bind fun attach =>
    match attach pid with
    | .ok _ => none
    | .error e => some e

namespace Machine

/-- The machine after a control group was opened and its list of processes read. -/
def looked (m : Machine σ) (directory : Path) : Machine σ :=
  { m with trace := m.trace ++ [.openPath directory, .readFile (procsFile directory)] }

/-- The machine after the list of processes turned out to be a text. -/
def listed (m : Machine σ) (directory : Path) (content : String) : Machine σ :=
  { m.looked directory with
    log := m.log ++ (strays content).map .strayProcessLine ++ noteSeveral directory (ids content) }

/-- The machine after the backend, if there is one, was asked for the symbols of a process. -/
def asked (m : Machine σ) (backend : Option Backend) (pid : UInt32) : Machine σ :=
  { m with
    trace := m.trace ++ backend.toList.map fun _ => .attach pid
    log := m.log ++ (attachError? backend pid).toList.map (.noSymbols pid) }

end Machine

theorem strayLines_entries (content : String) :
    strayLines (entries content) = (strays content).map .strayProcessLine := by
  rw [strayLines, entries, strays, List.filterMap_filterMap, List.map_filterMap]
  refine List.filterMap_congr fun line _ => ?_
  rw [ entry?_eq]
  rcases hid : id? line with _ | id
  · rcases stray? line with _ | text
    · rfl
    · rfl
  · rw [stray?_eq_none_of_id? hid]
    rfl

theorem Machine.readProcesses_of_opened (directory : Path) (m : Machine σ) :
    (m.call (.openPath directory)).readProcesses directory
      = (readEntries m.files directory, m.looked directory) := by
  rw [readProcesses, looked, call, call, List.append_assoc]
  rfl

theorem firstProcess_of_unopened {e : SystemError} (h : m.files.openPath directory = .error e) :
    firstProcess directory m = (.error (.cgroup directory e), m.call (.openPath directory)) := by
  rw [firstProcess, Machine.openPath, h]

theorem firstProcess_of_unread {e : SystemError} (hopen : m.files.openPath directory = .ok ())
    (h : readEntries m.files directory = .error e) :
    firstProcess directory m = (.error (.cgroup directory e), m.looked directory) := by
  rw [firstProcess, Machine.openPath, hopen]
  dsimp only
  rw [Machine.readProcesses_of_opened, h]

/-- **Of a list that can be read, the first process is taken**, if there is one. -/
theorem firstProcess_of_lists (h : Lists m.files directory content) :
    firstProcess directory m =
      ((firstId? content).elim (.error (.noPid directory)) .ok, m.listed directory content) := by
  rw [firstProcess, Machine.openPath, h.opens]
  dsimp only
  rw [Machine.readProcesses_of_opened, readEntries_of_text h.reads]
  dsimp only
  rw [pids_entries, strayLines_entries, ← head?_ids, Machine.listed, Machine.notes]
  rcases ids content with _ | ⟨pid, _ | ⟨other, rest⟩⟩
  · rw [noteSeveral, List.append_nil]
    rfl
  · rw [noteSeveral, List.append_nil]
    rfl
  · rfl

/-- **A backend is asked once**, and only its error is logged. -/
theorem attachSymbols_snd (backend : Option Backend) (pid : UInt32) (m : Machine σ) :
    (attachSymbols backend pid m).2 = m.asked backend pid := by
  cases backend with
  | none => simp [attachSymbols, Machine.asked, attachError?]
  | some attach =>
      rw [attachSymbols, Machine.attach, Machine.asked, attachError?, Option.bind_some]
      rcases attach pid with e | symbols
      · rfl
      · simp [Machine.call]

theorem prepareTarget_of_failure (hpath : config.target.cgroupPath? = some directory) {e : Failure}
    (h : firstProcess directory m = (.error e, m₁)) :
    prepareTarget config.target backend m = (.error e, m₁) := by
  rw [prepareTarget, hpath]
  dsimp only
  rw [h]

/-- **A target is known once its list has a process**, and the backend was asked for that one. -/
theorem prepareTarget_of_pid (backend : Option Backend)
    (hpath : config.target.cgroupPath? = some directory) (h : Lists m.files directory content)
    (hpid : firstId? content = some pid) :
    prepareTarget config.target backend m = (.ok (some pid, symbolsFor backend (some pid)),
      (m.listed directory content).asked backend pid) := by
  rw [prepareTarget, hpath]
  dsimp only
  rw [firstProcess_of_lists h, hpid, Option.elim_some]
  dsimp only
  rw [attachSymbols_fst, attachSymbols_snd]

/-! ## Nothing but counters -/

/-- An outcome of opening the counters for a process, with its symbols. -/
structure OpenedFor (m : Machine σ) (pid : Option UInt32) (symbols : Symbols)
    (x : Except Failure SessionTree × Machine σ) : Prop extends OpensCounters m x where
  tree : ∀ t, x.1 = .ok t → t.pid = pid ∧ t.callchain.symbols = symbols

/-- **Once the target is known, nothing is left to be done but to open its counters.** -/
theorem SessionTree.start_openedFor {found : Option UInt32 × Symbols}
    (h : prepareTarget config.target backend m = (.ok found, m₁)) :
    OpenedFor m₁ found.1 found.2 (start pmu config backend m) where
  toOpensCounters := (start_asPlanned pmu h).opensCounters
  tree t ht := by
    rw [start_of_prepared h] at ht
    generalize (openGroups pmu config m₁).1 = r at ht
    rcases r with e | groups
    · cases ht
    · cases ht
      exact ⟨rfl, rfl⟩

/-! ## What is only logged -/

/-- Two machines only differ in their files and in what was logged. -/
def Machine.SameButLog (m m' : Machine σ) : Prop := ∃ files log, m' = { m with files, log }

/-- **Neither files nor the log have a bearing on counters.** -/
theorem Machine.opensAlike_sameButLog (pmu : Pmu σ) :
    OpensAlike (SameButLog (σ := σ)) pmu pmu where
  unmapRing := by
    rintro m _ ⟨files, log, rfl⟩ id
    exact ⟨files, log, rfl⟩
  closeCounter := by
    rintro m _ ⟨files, log, rfl⟩ c
    exact ⟨files, log, rfl⟩
  openCounter := by
    rintro m _ ⟨files, log, rfl⟩ request
    rw [openCounter, openCounter]
    rcases pmu.openCounter request m.state with ⟨e | _, state⟩
    · exact .of_eq _ ⟨files, log, rfl⟩
    · exact .of_eq _ ⟨files, log, rfl⟩
  mapRing := by
    rintro m _ ⟨files, log, rfl⟩ id length
    rw [mapRing, mapRing, map, map]
    rcases pmu.map id length m.state with ⟨e | arena, state⟩
    · exact .of_eq _ ⟨files, log, rfl⟩
    · exact .of_eq _ ⟨files, log, rfl⟩

/-- The lookups of one process leave the same, but for what is logged. -/
theorem Machine.sameButLog_asked (m : Machine σ) (files : Files) (directory : Path)
    (content content' : String) (hbackend : backend'.isSome = backend.isSome) (pid : UInt32) :
    SameButLog ((m.listed directory content).asked backend pid)
      (({ m with files }.listed directory content').asked backend' pid) := by
  have hcalls : (backend'.toList.map fun _ => Call.attach pid)
      = backend.toList.map fun _ => .attach pid := by
    rcases backend with _ | attach <;> rcases backend' with _ | attach'
    · rfl
    · cases hbackend
    · cases hbackend
    · rfl
  rw [asked, asked, hcalls]
  exact ⟨files, _, rfl⟩

/-- **Who else is on the list makes no difference, and neither does what a backend answers**: the
same counters are opened, with the same calls. -/
theorem SessionTree.start_sameButLog {files : Files}
    (hpath : config.target.cgroupPath? = some directory) (h : Lists m.files directory content)
    (h' : Lists files directory content') (hpid : firstId? content = some pid)
    (hpid' : firstId? content' = some pid) (hbackend : backend'.isSome = backend.isSome) :
    ∃ (r : Except Failure SessionTree) (m₁ m₁' : Machine σ),
      start pmu config backend m = (r.map (symbolized backend), m₁) ∧
      start pmu config backend' { m with files } = (r.map (symbolized backend'), m₁') ∧
      m₁.SameButLog m₁' := by
  have hprepare := prepareTarget_of_pid backend hpath h hpid
  have h' : Lists { m with files }.files directory content' := h'
  have hprepare' := prepareTarget_of_pid backend' hpath h' hpid'
  have hasked := m.sameButLog_asked files directory content content' hbackend pid
  obtain ⟨r, m₁, m₁', hgroups, hgroups', h₁⟩ :=
    openGroups_alike (Machine.opensAlike_sameButLog pmu) hasked config
  rw [start_of_prepared hprepare, start_of_prepared hprepare', hgroups, hgroups']
  rcases r with e | groups
  · exact ⟨.error e, _, _, rfl, rfl, h₁⟩
  · exact ⟨.ok (ofGroups config (some pid, .none) groups), _, _, rfl, rfl, h₁⟩

/-! ## Opening -/

/-- **Counters are opened for the first process of a control group**, or not at all.  If the control
group cannot be opened, or its list of processes cannot be read or is no text, or has no process on
it, opening fails with that, and all that was done is to look.  Otherwise the backend, if there is
one, is asked for the symbols of the first process on the list, once and before any counter is
opened, and what comes then are only the counters.  Other processes on the list, and an error of the
backend, are logged and change nothing else.  Blanks around the ids of a list, blank lines and lines
without an id do not change which processes are on it. -/
theorem counters_opened_for_first_process (pmu : Pmu σ) (config : MonitoringConfig)
    (backend : Option Backend) (m : Machine σ) :
    (config.target.cgroupPath? = none →
      OpenedFor m none .none (SessionTree.start pmu config backend m)) ∧
    (∀ directory, config.target.cgroupPath? = some directory →
      (∀ e, m.files.openPath directory = .error e → SessionTree.start pmu config backend m
        = (.error (.cgroup directory e), m.call (.openPath directory))) ∧
      (∀ e, m.files.openPath directory = .ok () → m.files.read (procsFile directory) = .error e →
        SessionTree.start pmu config backend m
          = (.error (.cgroup directory e), m.looked directory)) ∧
      (∀ bytes, m.files.openPath directory = .ok () →
        m.files.read (procsFile directory) = .ok bytes → (∀ text, bytes ≠ Utf8.encode text) →
        SessionTree.start pmu config backend m
          = (.error (.cgroup directory (.custom .invalidData "stream did not contain valid UTF-8")),
            m.looked directory)) ∧
      ∀ content, Lists m.files directory content →
        (firstId? content = none → SessionTree.start pmu config backend m
          = (.error (.noPid directory), m.listed directory content)) ∧
        ∀ pid, firstId? content = some pid →
          OpenedFor ((m.listed directory content).asked backend pid) (some pid)
            (symbolsFor backend (some pid)) (SessionTree.start pmu config backend m) ∧
          ∀ files content' backend', Lists files directory content' →
            firstId? content' = some pid → backend'.isSome = backend.isSome →
            ∃ (r : Except Failure SessionTree) (m₁ m₁' : Machine σ),
              SessionTree.start pmu config backend m = (r.map (.symbolized backend), m₁) ∧
              SessionTree.start pmu config backend' { m with files }
                = (r.map (.symbolized backend'), m₁') ∧
              m₁.SameButLog m₁') ∧
    ∀ (files : Files) directory ls last,
      files.read (procsFile directory) = .ok (Utf8.encode (written ls last)) →
      (readEntries files directory).map pids = .ok (writtenPids ls last) := by
  refine ⟨fun hpath => ?_, fun directory hpath => ⟨fun e hopen => ?_, fun e hopen hread => ?_,
    fun bytes hopen hread hbytes => ?_, fun content hlists => ⟨fun hnone => ?_, fun pid hpid =>
      ⟨?_, fun files content' backend' hlists' hpid' hbackend => ?_⟩⟩⟩,
    fun files directory ls last hread => ?_⟩
  · have hprepare : prepareTarget config.target backend m = (.ok (none, .none), m) := by
      rw [prepareTarget, hpath]
    exact SessionTree.start_openedFor hprepare
  · exact SessionTree.start_of_unprepared
      (prepareTarget_of_failure hpath (firstProcess_of_unopened hopen))
  · exact SessionTree.start_of_unprepared
      (prepareTarget_of_failure hpath (firstProcess_of_unread hopen (readEntries_of_error hread)))
  · exact SessionTree.start_of_unprepared (prepareTarget_of_failure hpath
      (firstProcess_of_unread hopen (readEntries_of_malformed hread hbytes)))
  · have hfirst := firstProcess_of_lists hlists
    rw [hnone, Option.elim_none] at hfirst
    exact SessionTree.start_of_unprepared (prepareTarget_of_failure hpath hfirst)
  · exact SessionTree.start_openedFor (prepareTarget_of_pid backend hpath hlists hpid)
  · exact SessionTree.start_sameButLog hpath hlists hlists' hpid hpid' hbackend
  · rw [readEntries_of_text hread, Except.map, pids_entries, ids_written]

/-- The processes 12 and 7, with blanks around them and lines between them, and a backend that knows
neither, beside the process 12 alone and a backend that knows it.  Then control groups that cannot
be opened or have no list, one with a list that is no text, and one with an empty list; and no
control group. -/
theorem counters_opened_for_first_process_of_two :
    let pmu := Script.pmu { dataSize := some 4096 }
    let unknown : Option Backend := some fun _ => .error .noEntry
    let known : Option Backend := some fun _ => .ok .none
    let ended : List Line :=
      [.process (.one ' ' (by decide)) 12 (.one '\r' (by decide)),
        .stray ['a'] (by decide) (by decide) rfl, .blank ['\t'] (by decide) rfl]
    let last : Option Line := some (.process .none 7 .none)
    let list := written ended last
    let m (contents : Except SystemError Bytes) : Machine ScriptProgress :=
      { state := {}, files := ⟨fun _ => .ok (), fun _ => contents, fun _ => .ok []⟩ }
    (∃ t m₁, SessionTree.start pmu .oneLeaf unknown (m (.ok (Utf8.encode list))) = (.ok t, m₁) ∧
      t.pid = some 12 ∧
      m₁.log = [.strayProcessLine "a", .severalProcesses ⟨[99]⟩ 2 12, .noSymbols 12 .noEntry] ∧
      (∃ calls, m₁.trace = [.openPath ⟨[99]⟩, .readFile (procsFile ⟨[99]⟩), .attach 12] ++ calls ∧
        ∀ c ∈ calls, c.opensCounter = true) ∧
      m₁.SameButLog
        (SessionTree.start pmu .oneLeaf known (m (.ok (Utf8.encode "12")))).2) ∧
    SessionTree.start pmu .oneLeaf unknown { state := {} }
      = (.error (.cgroup ⟨[99]⟩ .noEntry), { state := {}, trace := [.openPath ⟨[99]⟩] }) ∧
    SessionTree.start pmu .oneLeaf unknown (m (.error .noEntry))
      = (.error (.cgroup ⟨[99]⟩ .noEntry), (m (.error .noEntry)).looked ⟨[99]⟩) ∧
    SessionTree.start pmu .oneLeaf unknown (m (.ok [255]))
      = (.error (.cgroup ⟨[99]⟩ (.custom .invalidData "stream did not contain valid UTF-8")),
        (m (.ok [255])).looked ⟨[99]⟩) ∧
    SessionTree.start pmu .oneLeaf unknown (m (.ok []))
      = (.error (.noPid ⟨[99]⟩), (m (.ok [])).listed ⟨[99]⟩ "") ∧
    (∀ c ∈ (SessionTree.start pmu { MonitoringConfig.oneLeaf with target := .system } unknown
      { state := {} }).2.trace, c.opensCounter = true) ∧
    (readEntries (m (.ok (Utf8.encode list))).files ⟨[99]⟩).map pids = .ok [12, 7] := by
  intro pmu unknown known ended last list m
  have hmalformed : ∀ text, [255] ≠ Utf8.encode text := fun text htext => by
    have hdecoded := Utf8.decode?_eq_some_iff.mpr htext
    have hnone : Utf8.decode? [255] = none := by decide +kernel
    rw [hnone] at hdecoded
    cases hdecoded
  have hstarts (m : Machine ScriptProgress) :=
    (counters_opened_for_first_process pmu .oneLeaf unknown m).2.1 ⟨[99]⟩ rfl
  have hpid : firstId? list = some 12 := by
    rw [← head?_ids, ids_written]
    rfl
  have hlog : (((m (.ok (Utf8.encode list))).listed ⟨[99]⟩ list).asked unknown 12).log
      = [.strayProcessLine "a", .severalProcesses ⟨[99]⟩ 2 12, .noSymbols 12 .noEntry] := by
    decide +kernel
  have hok : (SessionTree.start pmu .oneLeaf unknown
      (m (.ok (Utf8.encode list)))).1.toBool = true := by decide +kernel
  obtain ⟨hopened, hsame⟩ :=
    ((hstarts (m (.ok (Utf8.encode list)))).2.2.2 list ⟨rfl, rfl⟩).2 12 hpid
  obtain ⟨r, m₁, m₁', hr, hr', hm₁⟩ := hsame (m (.ok (Utf8.encode "12"))).files "12" known
    ⟨rfl, rfl⟩ (by decide +kernel) rfl
  rw [hr] at hopened hok
  obtain ⟨hsystem, -, hread⟩ := counters_opened_for_first_process pmu
    { MonitoringConfig.oneLeaf with target := .system } unknown { state := {} }
  obtain ⟨calls, htrace, hcalls⟩ := (hsystem rfl).trace
  refine ⟨?_, (hstarts _).1 _ rfl, (hstarts _).2.1 _ rfl rfl,
    (hstarts _).2.2.1 _ rfl rfl hmalformed, ((hstarts _).2.2.2 "" ⟨rfl, rfl⟩).1 rfl, ?_,
    hread (m (.ok (Utf8.encode list))).files ⟨[99]⟩ ended last rfl⟩
  · rcases r with e | t
    · cases hok
    · refine ⟨_, m₁, hr, (hopened.tree _ rfl).1, hopened.log.trans hlog, hopened.trace, ?_⟩
      have hknown : SessionTree.start pmu .oneLeaf known (m (.ok (Utf8.encode "12"))) = _ := hr'
      rw [hknown]
      exact hm₁
  · rw [htrace]
    exact hcalls

end CounterWatch
