import CounterWatch.Payload.Form
import CounterWatch.Proofs.Text.Numeral

/-!
# Proofs/Payload/RoundTrip — a payload is told by its form

Nothing of a payload is lost in its form, on any of its levels: the keys of a map come in order and
spell what they are, and a metric is told by what its bare form is, whatever its text looks like.

* `Form.map?_ofMap` — a map is read back if its keys and its values are.
* `form_tells_payload` — a payload is read back from its form.
-/

namespace CounterWatch

/-! ## Maps -/

namespace OrderedMap

variable {α β : Type} [Ord α]

/-- A key behind all others is put behind them. -/
theorem put_eq_concat {k : α} {v : β} : ∀ {l : List (α × β)},
    (∀ p ∈ l, compare k p.1 = .gt) → put k v l = l ++ [(k, v)]
  | [], _ => rfl
  | (a, b) :: rest, h => by
      obtain ⟨ha, hrest⟩ := List.forall_mem_cons.mp h
      simp only [put, ha, put_eq_concat hrest, List.cons_append]

variable [Std.TransOrd α] [Std.LawfulEqOrd α]

/-- Inserting what comes behind a map appends it. -/
theorem entries_foldl_insert : ∀ (l : List (α × β)) (m : OrderedMap α β),
    ((m.entries ++ l).Pairwise fun a b => compare a.1 b.1 = .lt) →
      (l.foldl (fun m p => m.insert p.1 p.2) m).entries = m.entries ++ l
  | [], m, _ => (List.append_nil _).symm
  | (k, v) :: rest, m, h => by
      have hbehind : ∀ p ∈ m.entries, compare k p.1 = .gt := fun p hp =>
        Std.OrientedCmp.gt_iff_lt.mpr
          ((List.pairwise_append.mp h).2.2 p hp (k, v) List.mem_cons_self)
      have hinsert : (m.insert k v).entries = m.entries ++ [(k, v)] := put_eq_concat hbehind
      have hsplit : (m.insert k v).entries ++ rest = m.entries ++ (k, v) :: rest := by
        simp [hinsert]
      exact (entries_foldl_insert rest (m.insert k v) (hsplit ▸ h)).trans hsplit

/-- **A map is the map of its entries.** -/
theorem ofList_entries (m : OrderedMap α β) : ofList m.entries = m :=
  ext (entries_foldl_insert m.entries empty m.ascending)

end OrderedMap

namespace Form

theorem word?_ofWord (n : UInt64) : (ofWord n).word? = some n := by
  have h : n.toNat < UInt64.size := n.toNat_lt
  simp [ofWord, word?, h]

/-- **A decimal key is read as its number.** -/
theorem index?_toString (n : UInt32) : index? (toString n) = some n := by
  simp [index?, Text.readUInt32_toString]

section Maps

variable {α β : Type} {key? : String → Option α} {key : α → String} {value? : Form → Option β}
  {value : β → Form} (hkey : ∀ k, key? (key k) = some k) (hvalue : ∀ v, value? (value v) = some v)

include hkey hvalue

/-- Entries that are written are read back, if keys and values are. -/
theorem entries?_map : ∀ l : List (α × β),
    entries? key? value? (l.map fun p => (key p.1, value p.2)) = some l
  | [] => rfl
  | (k, v) :: rest => by simp [entries?, hkey, hvalue, entries?_map rest]

/-- **A map is read back from its form**, if its keys and its values are. -/
theorem map?_ofMap [Ord α] [Std.TransOrd α] [Std.LawfulEqOrd α] (m : OrderedMap α β) :
    map? key? value? (ofMap key value m) = some m := by
  simp [map?, ofMap, entries?_map hkey hvalue, OrderedMap.ofList_entries]

end Maps

end Form

/-! ## Payloads

One level is read back because the one below it is. -/

/-- A count is never read as a text, and a text never as a count. -/
theorem Metric.ofForm?_form : ∀ m : Metric, Metric.ofForm? m.form = some m
  | .counter n => by simp [Metric.form, Metric.ofForm?, Form.word?_ofWord]
  | .callchain s => rfl

theorem CpuData.ofForm?_form (d : CpuData) : CpuData.ofForm? d.form = some d := by
  have hmetrics : Form.map? some Metric.ofForm? (Form.ofMap id Metric.form d.metrics)
      = some d.metrics := Form.map?_ofMap (fun _ => rfl) Metric.ofForm?_form d.metrics
  simp [CpuData.form, CpuData.ofForm?, Form.parts?, hmetrics]

theorem PackageData.ofForm?_form (d : PackageData) : PackageData.ofForm? d.form = some d := by
  have hcpus := Form.map?_ofMap Form.index?_toString CpuData.ofForm?_form d.cpus
  simp [PackageData.form, PackageData.ofForm?, Form.parts?, hcpus]

theorem GroupData.ofForm?_form (d : GroupData) : GroupData.ofForm? d.form = some d := by
  have hpackages := Form.map?_ofMap Form.index?_toString PackageData.ofForm?_form d.packages
  simp [GroupData.form, GroupData.ofForm?, Form.parts?, hpackages]

/-- **A payload is read back from its form.** -/
theorem Payload.ofForm?_form (p : Payload) : Payload.ofForm? p.form = some p := by
  have hgroups : Form.map? some GroupData.ofForm? (Form.ofMap id GroupData.form p.groups)
      = some p.groups := Form.map?_ofMap (fun _ => rfl) GroupData.ofForm?_form p.groups
  have hparts : p.form.parts? ["timestamp", "target", "groups"] = some
      [.ofWord p.timestamp, .text p.target, Form.ofMap id GroupData.form p.groups] := rfl
  simp [Payload.ofForm?, hparts, Form.word?_ofWord, Form.text?, hgroups]

/-- **A payload is told by its form**: it is read back from it, and no other payload has the same
form. -/
theorem form_tells_payload (p : Payload) :
    Payload.ofForm? p.form = some p ∧ ∀ q : Payload, p.form = q.form ↔ p = q := by
  refine ⟨p.ofForm?_form, fun q => ⟨fun h => ?_, congrArg Payload.form⟩⟩
  have hsame : some p = some q := by rw [← p.ofForm?_form, h, q.ofForm?_form]
  exact Option.some.inj hsame

end CounterWatch
