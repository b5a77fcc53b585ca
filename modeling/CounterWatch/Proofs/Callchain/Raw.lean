import CounterWatch.Proofs.Callchain.Framing
import CounterWatch.Proofs.Session.Happening

/-!
# Proofs/Callchain/Raw — raw chains are read back

Without symbols a frame is its address in sixteen digits, so no frame has a bar or a semicolon,
and nothing of the samples is lost: not an empty one, not one of two that are the same.

* `decode` — reads the text of raw chains; `decode_rendering`.
* `raw_chains_tell_samples` — what is taken from a ring without symbols tells its samples.
-/

namespace CounterWatch

namespace Callchain

/-! ## Decoding -/

/-- The address in a raw frame: sixteen hexadecimal digits behind the mark of their base. -/
def address? : List Char → Option UInt64
  | '0' :: 'x' :: digits =>
      if digits.length = 16 then (Text.readHex64 digits).toOption else none
  | _ => none

/-- Reads the text of raw chains: cut behind every bar, and then at the semicolons. -/
def decode (text : String) : Option (List (List UInt64)) :=
  (cut text).mapM fun frames => frames.mapM address?

/-- Call chains written without symbols. -/
def raw (maxDepth : UInt64) : Callchain := ⟨.none, maxDepth⟩

theorem mapM_map_eq_some {α β : Type} {write : α → β} {read : β → Option α}
    (h : ∀ a, read (write a) = some a) : ∀ l : List α, (l.map write).mapM read = some l
  | [] => rfl
  | a :: rest => by
      rw [List.map_cons, List.mapM_cons, h, mapM_map_eq_some h rest]
      rfl

/-- A raw frame is read as the address it shows. -/
theorem address?_frame (maxDepth address : UInt64) :
    address? ((raw maxDepth).frame address).toList = some address := by
  have hframe : ((raw maxDepth).frame address).toList
      = '0' :: 'x' :: Text.hexPlaces 16 address.toNat := by
    simp [frame, raw, Symbols.none, rawFrame]
  rw [hframe, address?, if_pos (Text.length_hexPlaces 16 _), Text.readHex64_hexPlaces]
  rfl

/-- **Raw chains are read back**, whatever their addresses are. -/
theorem decode_chains (maxDepth : UInt64) (samples : List (List UInt64)) :
    decode (String.join (samples.map (raw maxDepth).chain)) = some samples := by
  have hplain : ∀ addresses ∈ samples, ∀ address ∈ addresses,
      Plain ((raw maxDepth).frame address) := fun _ _ address _ => plain_rawFrame address
  rw [decode, cut_join_chain hplain]
  exact mapM_map_eq_some (mapM_map_eq_some (address?_frame maxDepth)) samples

end Callchain
/-! ## Taking raw chains from a ring -/

/-- The addresses of the samples that a drain shows, and that are not too deep. -/
def Ring.samples (r : Ring) (maxDepth : UInt64) : List (List UInt64) :=
  (r.shown.filter (Callchain.IsSample maxDepth ·)).map Callchain.carried

namespace Sampler

variable {σ : Type}

/-- A drain has nothing to tell where nothing was written, or nothing can be. -/
theorem drain_eq_none_iff (c : Callchain) (r : Ring) :
    drain c r = none ↔ r.tail = r.head ∨ r.size = 0 := by
  rw [drain, Option.map_eq_none_iff, Ring.drain]
  split <;> simp_all

theorem fst_callchains (c : Callchain) (counter : CounterId) (m : Machine σ) :
    (callchains c counter m).1 = ((m.rings.get? counter).bind (drain c)).map (·.1) := by
  rw [callchains]
  rcases (m.rings.get? counter).bind (drain c) with _ | ⟨text, ring, notices⟩ <;> rfl

/-- **What is taken from a ring is the text of its samples**; nothing is taken if there is nothing
to read. -/
theorem fst_callchains_eq {m : Machine σ} {counter : CounterId} {r : Ring}
    (hring : m.rings.get? counter = some r) (c : Callchain) :
    (callchains c counter m).1 = if r.tail = r.head ∨ r.size = 0 then none
      else some (String.join ((r.samples c.maxDepth).map c.chain)) := by
  rw [fst_callchains, hring, Option.bind_some]
  have hcases := drain_cases c r
  split
  next hidle => rw [(drain_eq_none_iff c r).mpr hidle, Option.map_none]
  next hbusy =>
    rcases hdrain : drain c r with _ | ⟨text, ring, notices⟩
    · exact absurd ((drain_eq_none_iff c r).mp hdrain) hbusy
    · rw [hdrain] at hcases
      rw [Option.map_some, hcases.1, Callchain.rendering_eq, Callchain.samples_eq, Ring.samples]

end Sampler

/-- **The raw chains of a ring tell its samples.**  Nothing is taken from a ring just when there is
nothing to read in it.  What is taken is read back as the addresses of the samples in the ring, in
order, each as often as it is there; so the same text comes from the same samples only. -/
theorem raw_chains_tell_samples {σ : Type} {m : Machine σ} {counter : CounterId} {r : Ring}
    (hring : m.rings.get? counter = some r) (maxDepth : UInt64) :
    ((Sampler.callchains (.raw maxDepth) counter m).1 = none ↔ r.tail = r.head ∨ r.size = 0) ∧
    (∀ text, (Sampler.callchains (.raw maxDepth) counter m).1 = some text →
      Callchain.decode text = some (r.samples maxDepth)) ∧
    ∀ (m' : Machine σ) (counter' : CounterId) (r' : Ring) (maxDepth' : UInt64) (text : String),
      m'.rings.get? counter' = some r' →
      (Sampler.callchains (.raw maxDepth) counter m).1 = some text →
      (Sampler.callchains (.raw maxDepth') counter' m').1 = some text →
      r'.samples maxDepth' = r.samples maxDepth := by
  have hdecode : ∀ {m : Machine σ} {counter : CounterId} {r : Ring} {maxDepth : UInt64}
      {text : String}, m.rings.get? counter = some r →
      (Sampler.callchains (.raw maxDepth) counter m).1 = some text →
      Callchain.decode text = some (r.samples maxDepth) := by
    intro m counter r maxDepth text hring htext
    rw [Sampler.fst_callchains_eq hring] at htext
    split at htext
    · cases htext
    · rw [← Option.some.inj htext]
      exact Callchain.decode_chains maxDepth _
  refine ⟨?_, fun text => hdecode hring,
    fun m' counter' r' maxDepth' text hring' htext htext' => ?_⟩
  · rw [Sampler.fst_callchains_eq hring]
    split <;> simp_all
  · exact Option.some.inj ((hdecode hring' htext').symm.trans (hdecode hring htext))

/-- An empty sample, a record of another type and a sample that comes twice, around the end of the
data and of the positions. -/
theorem raw_chains_tell_samples_around_end :
    let records : List Bytes := [[9, 0, 0, 0, 0, 0, 16, 0] ++ Bytes.ofWords [0],
      [2, 0, 0, 0, 0, 0, 8, 0],
      [9, 0, 0, 0, 0, 0, 32, 0] ++ Bytes.ofWords [2, 0xffffffffffffffff, 16],
      [9, 0, 0, 0, 0, 0, 32, 0] ++ Bytes.ofWords [2, 0xffffffffffffffff, 16]]
    let ring : Ring := { Ring.zero 128 with head := 0xffffffffffffffd8, tail := 0xffffffffffffffd8 }
    let m : Machine Unit :=
      { state := (), rings := OrderedMap.empty.insert 3 (ring.append records.flatten) }
    ∃ text, (Sampler.callchains (.raw 50) 3 m).1 = some text ∧
      Callchain.decode text = some [[], [0xffffffffffffffff, 16], [0xffffffffffffffff, 16]] := by
  intro records ring m
  have hring : m.rings.get? 3 = some (ring.append records.flatten) := rfl
  obtain ⟨hnone, hdecode, -⟩ := raw_chains_tell_samples hring 50
  have hbusy : ¬ ((ring.append records.flatten).tail = (ring.append records.flatten).head ∨
      (ring.append records.flatten).size = 0) := by decide +kernel
  obtain ⟨text, htext⟩ := Option.ne_none_iff_exists'.mp (mt hnone.mp hbusy)
  refine ⟨text, htext, (hdecode text htext).trans (congrArg some ?_)⟩
  decide +kernel

end CounterWatch
