import CounterWatch.Proofs.Except
import CounterWatch.Proofs.Topology.Additions
import CounterWatch.Topology.Discovery
import Mathlib.Data.List.Perm.Basic

/-!
# Proofs/Topology/Listing — the order of a directory cannot be told from what is discovered

Every entry of the directory says for itself whether it adds a CPU to a package, is left out, or
spoils the discovery.  If none spoils it, the topology is that of the additions, which do not depend
on their order.

* `IsCpu`, `Holds` — what the name of an entry says, and what its package file holds.
* `Places`, `Spoils` — which CPUs are placed by the entries, and which entries make discovery fail.
* `discover_eq_ok`, `discover_eq_error` — the outcome of a discovery.
* `discovery_ignores_order` — when it fails, what it finds, and that the order does not matter.
-/

namespace CounterWatch

/-- A file is read as a text when it holds the bytes of that text. -/
theorem Files.toOption_readText {files : Files} {path : Path} {text : String} :
    (files.readText path).toOption = some text ↔ files.read path = .ok (Utf8.encode text) := by
  rw [readText]
  cases files.read path with
  | error e => exact ⟨nofun, nofun⟩
  | ok bytes =>
      rw [Except.ok.injEq, ← Utf8.decode?_eq_some_iff]
      simp only [bind, Except.bind]
      cases Utf8.decode? bytes <;> simp [Except.toOption]

namespace Topology

variable {packageId : Bytes → Option String} {name : Bytes} {names names' : List Bytes}
  {files files' : Files} {root : Path} {t : Topology} {p n : UInt32}

/-! ## Entries -/

/-- The name of the entry is `cpu` and then the number. -/
def IsCpu (name : Bytes) (n : UInt32) : Prop :=
  ∃ digits, name = Utf8.encode ("cpu" ++ String.ofList digits) ∧ Text.readUInt32 digits = .ok n

/-- The package file of the entry can be read, and holds the text. -/
def Holds (files : Files) (root : Path) (name : Bytes) (content : String) : Prop :=
  files.read (packageFile root name) = .ok (Utf8.encode content)

/-- A number is read from the names of CPUs, and from no others. -/
theorem cpuNumber?_eq_some_iff : cpuNumber? name = some n ↔ IsCpu name n := by
  constructor
  · intro h
    rw [cpuNumber?] at h
    split at h
    next digits hname =>
      obtain ⟨text, htext, hdigits⟩ := Option.map_eq_some_iff.mp hname
      refine ⟨digits, ?_, Except.toOption_eq_some_iff.mp h⟩
      rw [Utf8.decode?_eq_some_iff.mp htext]
      exact congrArg Utf8.encode (String.toList_inj.mp (by simp [hdigits]))
    · cases h
  · rintro ⟨digits, rfl, hn⟩
    have hname : (Utf8.decode? (Utf8.encode ("cpu" ++ String.ofList digits))).map String.toList
        = some ('c' :: 'p' :: 'u' :: digits) := by
      rw [Utf8.decode?_eq_some_iff.mpr rfl]
      simp
    rw [cpuNumber?, hname]
    exact Except.toOption_eq_some_iff.mpr hn

/-- What an entry adds. -/
def addition? (packageId : Bytes → Option String) (name : Bytes) :
    Option (UInt32 × List UInt32) := do
  let n ← cpuNumber? name
  let content ← packageId name
  let p ← (Text.readUInt32 (Text.trim content.toList)).toOption
  return (p, [n])

/-- The entry is a CPU whose package is no number. -/
def Spoils (packageId : Bytes → Option String) (name : Bytes) : Prop :=
  ∃ n content e, cpuNumber? name = some n ∧ packageId name = some content ∧
    Text.readUInt32 (Text.trim content.toList) = .error e

/-- An entry that does not spoil the discovery adds what it says, which may be nothing. -/
theorem addEntries_cons_of_not_spoils (h : ¬ Spoils packageId name) (rest : List Bytes)
    (t : Topology) : addEntries packageId (name :: rest) t
      = addEntries packageId rest (t.addAll (addition? packageId name).toList) := by
  rw [addEntries, addition?]
  cases hn : cpuNumber? name with
  | none => rfl
  | some n =>
      cases hcontent : packageId name with
      | none => rfl
      | some content =>
          cases hp : Text.readUInt32 (Text.trim content.toList) with
          | error e => exact absurd ⟨n, content, e, hn, hcontent, hp⟩ h
          | ok p => simp [hp, Except.toOption, addAll]

/-- **If no entry spoils it, every entry adds what it says.** -/
theorem addEntries_of_not_spoils (h : ∀ name ∈ names, ¬ Spoils packageId name) (t : Topology) :
    addEntries packageId names t = .ok (t.addAll (names.filterMap (addition? packageId))) := by
  induction names generalizing t with
  | nil => rfl
  | cons name rest ih =>
      rw [addEntries_cons_of_not_spoils (h name List.mem_cons_self),
        ih fun name hname => h name (List.mem_cons_of_mem _ hname), List.filterMap_cons]
      cases addition? packageId name <;> rfl

/-- **An entry that spoils the discovery does so wherever it stands.** -/
theorem addEntries_of_spoils (h : ∃ name ∈ names, Spoils packageId name) (t : Topology) :
    ∃ e, addEntries packageId names t = .error e := by
  induction names generalizing t with
  | nil => simp at h
  | cons name rest ih =>
      by_cases hname : Spoils packageId name
      · obtain ⟨n, content, e, hn, hcontent, hp⟩ := hname
        exact ⟨e, by simp [addEntries, hn, hcontent, hp]⟩
      · rw [addEntries_cons_of_not_spoils hname]
        exact ih (by simpa [hname] using h) _

/-! ## Directories -/

/-- An entry puts the CPU into the package. -/
def Places (files : Files) (root : Path) (names : List Bytes) (p n : UInt32) : Prop :=
  ∃ name ∈ names, IsCpu name n ∧ ∃ content, Holds files root name content ∧
    Text.readUInt32 (Text.trim content.toList) = .ok p

/-- Some entry is a CPU whose package file holds something that is no number. -/
def Spoiled (files : Files) (root : Path) (names : List Bytes) : Prop :=
  ∃ name ∈ names, (∃ n, IsCpu name n) ∧ ∃ content, Holds files root name content ∧
    ∀ p, Text.readUInt32 (Text.trim content.toList) ≠ .ok p

/-- The text of the package file of an entry, if it can be read. -/
def packageText (files : Files) (root : Path) (name : Bytes) : Option String :=
  (files.readText (packageFile root name)).toOption

theorem packageText_eq_some_iff {content : String} :
    packageText files root name = some content ↔ Holds files root name content :=
  Files.toOption_readText

/-- The additions that a directory makes. -/
def additionsOf (files : Files) (root : Path) (names : List Bytes) : List (UInt32 × List UInt32) :=
  names.filterMap (addition? (packageText files root))

/-- **What a directory adds** are the CPUs its entries place, one at a time. -/
theorem mem_additionsOf {cpus : List UInt32} : (p, cpus) ∈ additionsOf files root names ↔
    ∃ n, cpus = [n] ∧ Places files root names p n := by
  simp only [additionsOf, List.mem_filterMap, addition?, Places, ← cpuNumber?_eq_some_iff,
    ← packageText_eq_some_iff, ← Except.toOption_eq_some_iff]
  simp [Option.bind_eq_some_iff]
  grind

theorem added_additionsOf : Added (additionsOf files root names) p n ↔
    Places files root names p n := by
  simp [Added, mem_additionsOf]

theorem named_additionsOf : Named (additionsOf files root names) p ↔
    ∃ n, Places files root names p n := by
  simp [Named, mem_additionsOf]

/-- A directory is spoiled by one of its entries. -/
theorem spoiled_iff : Spoiled files root names ↔
    ∃ name ∈ names, Spoils (packageText files root) name := by
  simp only [Spoiled, Spoils, cpuNumber?_eq_some_iff, packageText_eq_some_iff,
    ← Except.exists_eq_error_iff]
  grind

/-- Once the directory is listed, what is discovered is decided by its entries. -/
theorem discover_of_list (hlist : files.list root = .ok names) :
    discover files root = (addEntries (packageText files root) names empty).mapError
      fun e => .custom .other e.message := by
  have htext : (fun name => (files.readText (packageFile root name)).toOption)
    = packageText files root := rfl
  simp only [discover, hlist, htext]
  cases addEntries (packageText files root) names empty <;> rfl

/-- **A directory that is not spoiled** makes the topology of its additions. -/
theorem discover_eq_ok (hlist : files.list root = .ok names) (h : ¬ Spoiled files root names) :
    discover files root = .ok (ofAdditions (additionsOf files root names)) := by
  rw [discover_of_list hlist, addEntries_of_not_spoils fun name hname hspoils =>
    h (spoiled_iff.mpr ⟨name, hname, hspoils⟩)]
  rfl

/-- **A directory that is spoiled** makes none. -/
theorem discover_eq_error (hlist : files.list root = .ok names) (h : Spoiled files root names) :
    ∃ e, discover files root = .error e := by
  obtain ⟨e, hentries⟩ := addEntries_of_spoils (spoiled_iff.mp h) empty
  exact ⟨_, by rw [discover_of_list hlist, hentries]; rfl⟩

/-- What spoils a directory does so in any order. -/
theorem spoiled_congr (hread : files'.read = files.read) (hperm : names'.Perm names) :
    Spoiled files' root names' ↔ Spoiled files root names := by
  simp only [Spoiled, Holds, hread, hperm.mem_iff]

/-- The order of the entries does not change which CPUs they place. -/
theorem places_congr (hread : files'.read = files.read) (hperm : names'.Perm names) :
    Places files' root names' p n ↔ Places files root names p n := by
  simp only [Places, Holds, hread, hperm.mem_iff]

/-- The order in which a directory is listed makes no difference to what it adds. -/
theorem ofAdditions_congr (hread : files'.read = files.read) (hperm : names'.Perm names) :
    ofAdditions (additionsOf files' root names') = ofAdditions (additionsOf files root names) := by
  refine ofAdditions_eq_iff.mpr ⟨fun p => ?_, fun p n => ?_⟩
  · simp only [named_additionsOf, places_congr hread hperm]
  · simp only [added_additionsOf, places_congr hread hperm]

/-- **The order of a directory cannot be told from what is discovered.**  Discovery fails just when
the directory cannot be listed or an entry that is called like a CPU has a package file that can be
read and holds no number.  Otherwise a package is found just when an entry places a CPU in it, and
it has the CPUs placed there, in ascending order.  A directory with the same files that lists its
entries in another order leads to the same topology, or to a failure as well. -/
theorem discovery_ignores_order (files : Files) (root : Path) :
    ((∃ e, discover files root = .error e) ↔
      (∃ e, files.list root = .error e) ∨
        ∃ names, files.list root = .ok names ∧ Spoiled files root names) ∧
    (∀ t, discover files root = .ok t → ∃ names, files.list root = .ok names ∧
      (∀ p, p ∈ t.packages.keys ↔ ∃ n, Places files root names p n) ∧
      ∀ p cpus, t.packages.get? p = some cpus →
        cpus.toList.Pairwise (· < ·) ∧ ∀ n, n ∈ cpus.toList ↔ Places files root names p n) ∧
    ∀ (files' : Files) (names names' : List Bytes), files'.read = files.read →
      files.list root = .ok names → files'.list root = .ok names' → names'.Perm names →
        (discover files' root).toOption = (discover files root).toOption := by
  refine ⟨?fails, ?finds, ?order⟩
  case fails =>
    cases hlist : files.list root with
    | error e => simp [discover, hlist]
    | ok names =>
        by_cases h : Spoiled files root names
        · simp [discover_eq_error hlist h, h]
        · simp [discover_eq_ok hlist h, h]
  case finds =>
    intro t ht
    cases hlist : files.list root with
    | error e => simp [discover, hlist] at ht
    | ok names =>
        have h : ¬ Spoiled files root names := fun h => by
          obtain ⟨e, he⟩ := discover_eq_error hlist h
          cases ht.symm.trans he
        obtain rfl := Except.ok.inj ((discover_eq_ok hlist h).symm.trans ht)
        refine ⟨names, rfl, fun p => mem_keys_ofAdditions.trans named_additionsOf,
          fun p cpus hcpus => ⟨cpus.pairwise_lt, fun n => ?_⟩⟩
        exact (mem_of_get?_ofAdditions hcpus).trans added_additionsOf
  case order =>
    intro files' names names' hread hlist hlist' hperm
    by_cases h : Spoiled files root names
    · obtain ⟨e, he⟩ := discover_eq_error hlist h
      obtain ⟨e', he'⟩ := discover_eq_error hlist' ((spoiled_congr hread hperm).mpr h)
      rw [he, he']
      rfl
    · rw [discover_eq_ok hlist h, discover_eq_ok hlist' (mt (spoiled_congr hread hperm).mp h),
        ofAdditions_congr hread hperm]

/-- A directory with these entries: two CPUs, and one whose package file is no text. -/
def rack (names : List String) : Files where
  openPath _ := .error .noEntry
  list _ := .ok (names.map Utf8.encode)
  read path :=
    if path = packageFile (.ofString "sys") (Utf8.encode "cpu10") then .ok (Utf8.encode " 0\n")
    else if path = packageFile (.ofString "sys") (Utf8.encode "cpu2") then .ok (Utf8.encode "+0")
    else if path = packageFile (.ofString "sys") (Utf8.encode "cpu3") then .ok [0xff]
    else .error .noEntry

/-- Five entries in two orders: two CPUs of one package, and three that add nothing. -/
theorem discovery_ignores_order_of_rack :
    (discover (rack ["cpu10", "cpu3", "cpu4", "cpufreq", "cpu2"]) (.ofString "sys")).toOption
        = some ⟨⟨[(0, ⟨[2, 10], by decide⟩)], by decide⟩⟩ ∧
      (discover (rack ["cpufreq", "cpu2", "cpu10", "cpu4", "cpu3"]) (.ofString "sys")).toOption
        = some ⟨⟨[(0, ⟨[2, 10], by decide⟩)], by decide⟩⟩ := by
  have hfound : (discover (rack ["cpu10", "cpu3", "cpu4", "cpufreq", "cpu2"])
      (.ofString "sys")).toOption = some ⟨⟨[(0, ⟨[2, 10], by decide⟩)], by decide⟩⟩ := by
    decide +kernel
  obtain ⟨-, -, hsame⟩ :=
    discovery_ignores_order (rack ["cpu10", "cpu3", "cpu4", "cpufreq", "cpu2"]) (.ofString "sys")
  have hperm : ["cpufreq", "cpu2", "cpu10", "cpu4", "cpu3"].Perm
      ["cpu10", "cpu3", "cpu4", "cpufreq", "cpu2"] := by decide
  have hshuffled := hsame (rack ["cpufreq", "cpu2", "cpu10", "cpu4", "cpu3"]) _ _ rfl rfl rfl
    (hperm.map _)
  exact ⟨hfound, hshuffled.trans hfound⟩

end Topology
end CounterWatch
