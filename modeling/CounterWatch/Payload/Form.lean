import CounterWatch.Payload
import CounterWatch.Text.Numeral

/-!
# Payload/Form — payloads as self-describing data

A payload is exchanged as data that says what it is: numbers, texts, lists and objects.  A record is
an object with a field of that name for each of its parts, or the list of its parts in order; fields
of other names are passed over.  A map is an object whose keys are the map's keys, numbers in their
one decimal form.  A metric is its bare count or text.
-/

namespace CounterWatch

/-- Self-describing data.  Of two fields of an object with one name the first counts. -/
inductive Form where
  | null
  | bool (b : Bool)
  | integer (n : Int)
  /-- A number that is no integer. -/
  | fraction
  | text (s : String)
  | list (items : List Form)
  | object (fields : List (String × Form))
  deriving Inhabited

namespace Form

/-- The parts of a record with these field names. -/
def parts? (names : List String) : Form → Option (List Form)
  | .object fields => names.mapM fun name => fields.lookup name
  | .list items => if items.length = names.length then some items else none
  | _ => none

/-- A count. -/
def word? : Form → Option UInt64
  | .integer (.ofNat n) => if n < UInt64.size then some (UInt64.ofNat n) else none
  | _ => none

/-- A text. -/
def text? : Form → Option String
  | .text s => some s
  | _ => none

/-- The form of a count. -/
def ofWord (n : UInt64) : Form := .integer n.toNat

/-! ## Maps -/

/-- The number that a key spells in its one decimal form. -/
def index? (key : String) : Option UInt32 :=
  match Text.readUInt32 key.toList with
  | .ok n => if toString n = key then some n else none
  | .error _ => none

/-- The entries of a map, keys and values read one by one. -/
def entries? {α β : Type} (key? : String → Option α) (value? : Form → Option β) :
    List (String × Form) → Option (List (α × β))
  | [] => some []
  | (name, form) :: rest => do
      let key ← key? name
      let value ← value? form
      let entries ← entries? key? value? rest
      return (key, value) :: entries

/-- A map. -/
def map? {α β : Type} [Ord α] [Std.TransOrd α] [Std.LawfulEqOrd α] (key? : String → Option α)
    (value? : Form → Option β) : Form → Option (OrderedMap α β)
  | .object fields => (entries? key? value? fields).map OrderedMap.ofList
  | _ => none

/-- The form of a map. -/
def ofMap {α β : Type} [Ord α] (key : α → String) (value : β → Form) (m : OrderedMap α β) : Form :=
  .object (m.entries.map fun p => (key p.1, value p.2))

end Form

/-! ## Payloads -/

/-- The form of a metric. -/
def Metric.form : Metric → Form
  | .counter n => .ofWord n
  | .callchain s => .text s

/-- Reads a metric: a count if it is one, else a text. -/
def Metric.ofForm? (f : Form) : Option Metric :=
  match f.word? with
  | some n => some (.counter n)
  | none => f.text?.map .callchain

/-- The form of the metrics of a CPU. -/
def CpuData.form (d : CpuData) : Form := .object [("metrics", Form.ofMap id Metric.form d.metrics)]

/-- Reads the metrics of a CPU. -/
def CpuData.ofForm? (f : Form) : Option CpuData :=
  match f.parts? ["metrics"] with
  | some [metrics] => (Form.map? some Metric.ofForm? metrics).map .mk
  | _ => none

/-- The form of a package. -/
def PackageData.form (d : PackageData) : Form :=
  .object [("cpus", Form.ofMap toString CpuData.form d.cpus)]

/-- Reads a package. -/
def PackageData.ofForm? (f : Form) : Option PackageData :=
  match f.parts? ["cpus"] with
  | some [cpus] => (Form.map? Form.index? CpuData.ofForm? cpus).map .mk
  | _ => none

/-- The form of an events group. -/
def GroupData.form (d : GroupData) : Form :=
  .object [("pkgs", Form.ofMap toString PackageData.form d.packages)]

/-- Reads an events group. -/
def GroupData.ofForm? (f : Form) : Option GroupData :=
  match f.parts? ["pkgs"] with
  | some [packages] => (Form.map? Form.index? PackageData.ofForm? packages).map .mk
  | _ => none

/-- The form of a payload. -/
def Payload.form (p : Payload) : Form :=
  .object [("timestamp", .ofWord p.timestamp), ("target", .text p.target),
    ("groups", Form.ofMap id GroupData.form p.groups)]

/-- Reads a payload. -/
def Payload.ofForm? (f : Form) : Option Payload :=
  match f.parts? ["timestamp", "target", "groups"] with
  | some [timestamp, target, groups] => do
      return {
        timestamp := ← timestamp.word?
        target := ← target.text?
        groups := ← Form.map? some GroupData.ofForm? groups }
  | _ => none

end CounterWatch
