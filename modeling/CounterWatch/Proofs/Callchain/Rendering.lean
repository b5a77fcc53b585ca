import CounterWatch.Sampler
import Mathlib.Data.List.Basic

/-!
# Proofs/Callchain/Rendering — the chains of several records

Of several records those that are samples have a chain, and the chains stand one behind the other.

* `accepted` — the chains of the records that have one; `rendering` — their text.
* `samples` — the addresses in them; `rendering_eq` says that the text has one chain for each.
* `renderAll` — a text with the chains of several records behind it; `renderAll_eq`.
-/

namespace CounterWatch

namespace Callchain

/-- The chains of the records that have one. -/
def accepted (c : Callchain) (records : List Bytes) : List String :=
  records.filterMap fun record => (c.render record "").toOption

/-- The chains of the records that have one, one behind the other. -/
def rendering (c : Callchain) (records : List Bytes) : String := String.join (c.accepted records)

/-- The addresses of those records that are samples and not dropped. -/
def samples (maxDepth : UInt64) (records : List Bytes) : List (List UInt64) :=
  records.filterMap fun record => (addresses maxDepth record).toOption

/-- The text with the chains of several records behind it; a record without one leaves it as it
is. -/
def renderAll (c : Callchain) (records : List Bytes) (out : String) : String :=
  records.foldl (fun out record => (c.render record out).toOption.getD out) out

/-! ## One chain for every sample -/

/-- The texts of accepted records are the chains of the samples among them. -/
theorem accepted_eq (c : Callchain) (records : List Bytes) :
    c.accepted records = (samples c.maxDepth records).map c.chain := by
  rw [accepted, samples, List.map_filterMap]
  refine List.filterMap_congr fun record _ => ?_
  rw [render]
  rcases addresses c.maxDepth record with refusal | addresses
  · rfl
  · exact congrArg some String.empty_append

/-- **A rendering joins one chain for every sample.** -/
theorem rendering_eq (c : Callchain) (records : List Bytes) :
    c.rendering records = String.join ((samples c.maxDepth records).map c.chain) := by
  rw [rendering, accepted_eq]

/-- No chain is empty: each ends with a bar. -/
theorem ne_empty_of_mem_accepted {c : Callchain} {records : List Bytes} {text : String}
    (h : text ∈ c.accepted records) : text ≠ "" := by
  rw [accepted_eq] at h
  obtain ⟨addresses, -, rfl⟩ := List.mem_map.mp h
  simp [chain]

/-- **Nothing is rendered only if there is no chain.** -/
theorem isEmpty_rendering {c : Callchain} {records : List Bytes} :
    (c.rendering records).isEmpty = true ↔ c.accepted records = [] := by
  rw [String.isEmpty_iff, rendering]
  constructor
  · intro h
    rcases haccepted : c.accepted records with _ | ⟨text, rest⟩
    · rfl
    · rw [haccepted, String.join_cons] at h
      have htext : text = "" := (String.append_eq_empty_iff.mp h).1
      exact absurd htext (ne_empty_of_mem_accepted (haccepted ▸ List.mem_cons_self))
  · intro h
    rw [h]
    rfl

/-! ## Record by record -/

theorem rendering_append (c : Callchain) (records more : List Bytes) :
    c.rendering (records ++ more) = c.rendering records ++ c.rendering more := by
  rw [rendering, accepted, List.filterMap_append, String.join_append]
  rfl

theorem rendering_singleton (c : Callchain) (record : Bytes) :
    c.rendering [record] = (c.render record "").toOption.getD "" := by
  rw [rendering, accepted, List.filterMap_cons]
  rcases c.render record "" with refusal | text
  · rfl
  · exact String.join_cons.trans String.append_empty

/-- What is there already is kept in front, and has no say in what is written. -/
theorem render_eq (c : Callchain) (record : Bytes) (out : String) :
    c.render record out = (c.render record "").map (out ++ ·) := by
  rw [render, render]
  rcases addresses c.maxDepth record with refusal | addresses
  · rfl
  · simp only [Except.map, String.empty_append]

/-- **Rendering records one by one appends their rendering.** -/
theorem renderAll_eq (c : Callchain) (records : List Bytes) (out : String) :
    c.renderAll records out = out ++ c.rendering records := by
  induction records generalizing out with
  | nil => exact String.append_empty.symm
  | cons record rest ih =>
      have hfirst : (c.render record out).toOption.getD out = out ++ c.rendering [record] := by
        rw [render_eq, rendering_singleton]
        rcases c.render record "" with refusal | text
        · exact String.append_empty.symm
        · rfl
      rw [renderAll, List.foldl_cons, hfirst, ← renderAll, ih, String.append_assoc,
        ← rendering_append, List.singleton_append]

end Callchain

/-- A visit does to the text what rendering does, and nothing if the record has no chain. -/
theorem Sampler.text_renderRecord (c : Callchain) (record : Bytes) (ring : Ring) (out : String)
    (notices : List Notice) :
    (renderRecord c record ring (out, notices)).2.1 = (c.render record out).toOption.getD out := by
  rw [renderRecord]
  rcases c.render record out with refusal | text <;> rfl

end CounterWatch
