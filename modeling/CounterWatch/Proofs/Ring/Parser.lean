import CounterWatch.Notice
import CounterWatch.Proofs.Ring.Segment

/-!
# Proofs/Ring/Parser — draining a ring reads a byte stream

Seen from its tail, a ring is a stream of bytes, and draining it is parsing the stream: wherever
the data end, whatever the bytes are.

* `parse` — the records of a byte stream, by their sizes alone; nothing in it knows of a ring.
* `scan` — what a drain finds, whoever is shown it; `drainTo_eq_scan` says that every visitor sees
  exactly this.
* `drain_refines_parse` — what a drain finds is what `parse` finds in the bytes between tail and
  head.
-/

namespace CounterWatch.Ring

variable {σ : Type}

/-! ## The records of a byte stream -/

/-- The size that a header at the start of a stream gives. -/
def announced (s : Bytes) : Nat := Bytes.toNat ((s.drop 6).take 2)

/-- The size of the record at the start of a stream, if there is one of at most so many bytes. -/
def recordSize? (most : Nat) (s : Bytes) : Option Nat :=
  if headerSize ≤ s.length ∧ headerSize ≤ announced s ∧ announced s ≤ min s.length most then
    some (announced s)
  else none

/-- The records of a stream, each with its position, and the position behind the last. -/
structure Parse where
  records : List (Nat × Bytes)
  stop : Nat

theorem recordSize?_bounds {most n : Nat} {s : Bytes} (h : recordSize? most s = some n) :
    headerSize ≤ n ∧ n ≤ s.length ∧ n ≤ most := by
  rw [recordSize?] at h
  split at h
  next hc =>
    obtain rfl := Option.some.inj h
    exact ⟨hc.2.1, by omega, by omega⟩
  next => cases h

/-- **The records of a stream from a position on**, none of more than so many bytes.  Where no
record starts, there are no more. -/
def parse (most : Nat) (s : Bytes) (p : Nat) : Parse :=
  match _h : recordSize? most (s.drop p) with
  | some n =>
      let rest := parse most s (p + n)
      ⟨(p, (s.drop p).take n) :: rest.records, rest.stop⟩
  | none => ⟨[], p⟩
termination_by s.length - p
decreasing_by
  have hb := recordSize?_bounds _h
  rw [List.length_drop, headerSize] at hb
  omega

theorem parse_of_some {most n p : Nat} {s : Bytes} (h : recordSize? most (s.drop p) = some n) :
    parse most s p = ⟨(p, (s.drop p).take n) :: (parse most s (p + n)).records,
      (parse most s (p + n)).stop⟩ := by
  rw [parse]
  split
  next n' h' =>
    obtain rfl : n' = n := Option.some.inj (h'.symm.trans h)
    rfl
  next h' => exact absurd (h'.symm.trans h) (by simp)

theorem parse_of_none {most p : Nat} {s : Bytes} (h : recordSize? most (s.drop p) = none) :
    parse most s p = ⟨[], p⟩ := by
  rw [parse]
  split
  next n h' => exact absurd (h'.symm.trans h) (by simp)
  next => rfl

/-! ## What a drain finds -/

/-- The records a drain comes by, each with the tail as it is then, and what ends it early. -/
def scan (limit : UInt64) (r : Ring) : List (UInt64 × Bytes) × Option Fault :=
  if r.tail = limit then ([], none)
  else
    match _h : r.frame limit with
    | .error fault => ([], some fault)
    | .ok size =>
        let rest := scan limit { r with tail := r.tail + UInt64.ofNat size }
        ((r.tail, r.segment r.tail.toNat size) :: rest.1, rest.2)
termination_by (limit - r.tail).toNat
decreasing_by
  have hb := frame_bounds _h
  exact toNat_sub_add_lt (by simp only [headerSize] at hb; omega) hb.2.1

/-- Shows records to a visitor, each at its tail: the head and the visitor's state afterwards. -/
def showTo (visit : Visitor σ) (r : Ring) (records : List (UInt64 × Bytes)) (s : σ) : UInt64 × σ :=
  records.foldl (fun seen record =>
    visit record.2 { r with head := seen.1, tail := record.1 } seen.2) (r.head, s)

/-! ## A drain and its scan -/

/-- The bytes between the tail and a limit. -/
def stream (r : Ring) (limit : UInt64) : Bytes := r.segment r.tail.toNat (limit - r.tail).toNat

theorem announced_stream {r : Ring} {limit : UInt64} (h : headerSize ≤ (limit - r.tail).toNat) :
    announced (r.stream limit) = Bytes.toNat (r.segment (r.tail.toNat + 6) 2) := by
  rw [headerSize] at h
  rw [announced, stream, drop_segment, take_segment r _ (by omega)]

/-- **The record that a ring tells at its tail is the one its stream starts with.** -/
theorem frame_eq_ok_iff {r : Ring} (hs : 0 < r.size) (limit : UInt64) (n : Nat) :
    r.frame limit = .ok n ↔ recordSize? r.size (r.stream limit) = some n := by
  have hlen : (r.stream limit).length = (limit - r.tail).toNat := length_segment _ _ _
  have hmod : r.tail.toNat % r.size < r.size := Nat.mod_lt _ hs
  rw [frame, recordSize?, hlen]
  by_cases hfit : (limit - r.tail).toNat < headerSize ∨
      r.size - r.tail.toNat % r.size + r.size < headerSize
  · -- a ring in which a header would run into itself has no room for a record either
    have hno : ¬ (headerSize ≤ (limit - r.tail).toNat ∧ headerSize ≤ announced (r.stream limit) ∧
        announced (r.stream limit) ≤ min (limit - r.tail).toNat r.size) := by omega
    simp only [if_pos hfit, if_neg hno, reduceCtorEq]
  · rw [announced_stream (by omega)]
    generalize Bytes.toNat (r.segment (r.tail.toNat + 6) 2) = size
    by_cases hbad : size < headerSize ∨ (limit - r.tail).toNat < size ∨ r.size < size
    · have hno : ¬ (headerSize ≤ (limit - r.tail).toNat ∧ headerSize ≤ size ∧
          size ≤ min (limit - r.tail).toNat r.size) := by omega
      simp only [if_neg hfit, if_pos hbad, if_neg hno, reduceCtorEq]
    · have hyes : headerSize ≤ (limit - r.tail).toNat ∧ headerSize ≤ size ∧
          size ≤ min (limit - r.tail).toNat r.size := by omega
      simp only [if_neg hfit, if_neg hbad, if_pos hyes, Except.ok.injEq, Option.some.injEq]

/-- **Every visitor is shown what the scan finds**, wherever the head moves meanwhile: the tail ends
at the limit, and nothing else of the ring changes. -/
theorem drainTo_eq_scan (visit : Visitor σ) (limit : UInt64) (r : Ring) (head : UInt64)
    (visited : Nat) (s : σ) :
    drainTo visit limit { r with head } visited s =
      { ring := { r with
          head := (showTo visit { r with head } (scan limit r).1 s).1, tail := limit }
        visited := visited + (scan limit r).1.length
        fault := (scan limit r).2
        state := (showTo visit { r with head } (scan limit r).1 s).2 } := by
  fun_induction scan limit r generalizing head visited s with
  | case1 r h =>
      obtain rfl := h
      rw [drainTo, if_pos rfl]
      rfl
  | case2 r h fault hf =>
      rw [drainTo, if_neg h]
      split
      next fault' hf' =>
        obtain rfl : fault' = fault := Except.error.inj (hf'.symm.trans hf)
        rfl
      next size hf' => exact absurd (hf'.symm.trans hf) (by simp)
  | case3 r h size hf rest ih =>
      rw [drainTo, if_neg h]
      split
      next fault hf' => exact absurd (hf'.symm.trans hf) (by simp)
      next size' hf' =>
        obtain rfl : size' = size := Except.ok.inj (hf'.symm.trans hf)
        have hnext := ih (visit (r.segment r.tail.toNat size') { r with head } s).1 (visited + 1)
          (visit (r.segment r.tail.toNat size') { r with head } s).2
        refine hnext.trans ?_
        rw [List.length_cons, Nat.add_assoc, Nat.add_comm 1]
        rfl

/-- What no visit changes, no drain changes. -/
theorem state_drain {P : σ → Prop} {visit : Visitor σ} {r : Ring} {s : σ} {d : Drained σ}
    (hvisit : ∀ record ring s, P s → P (visit record ring s).2) (hs : P s)
    (h : r.drain visit s = some d) : P d.state := by
  have hshow : ∀ (records : List (UInt64 × Bytes)) (seen : UInt64 × σ), P seen.2 →
      P (records.foldl (fun seen record =>
        visit record.2 { r with head := seen.1, tail := record.1 } seen.2) seen).2 := by
    intro records
    induction records with
    | nil => exact fun _ hseen => hseen
    | cons record rest ih => exact fun seen hseen => ih _ (hvisit _ _ _ hseen)
  rw [drain] at h
  split at h
  · cases h
  · obtain rfl := Option.some.inj h
    have hscan := drainTo_eq_scan visit r.head r r.head 0 s
    have hstate : (drainTo visit r.head r 0 s).state = (showTo visit r (scan r.head r).1 s).2 :=
      congrArg Drained.state hscan
    rw [hstate]
    exact hshow _ (r.head, s) hs

/-- A record found in a ring, at the tail it was found at: no shorter than a header, no longer than
the ring, and made of the data from the tail's cell on and, if those end before it, from the first
on. -/
def Holds (r : Ring) (found : UInt64 × Bytes) : Prop :=
  headerSize ≤ found.2.length ∧ found.2.length ≤ r.size ∧
    found.2 = (r.data.drop (found.1.toNat % r.size)).take found.2.length ++
      r.data.take (found.2.length - (r.size - found.1.toNat % r.size))

/-- **Whatever the bytes are, a drain takes nothing from outside the data**, and it comes by at most
one record in eight bytes. -/
theorem scan_bounds (limit : UInt64) (r : Ring) :
    (∀ found ∈ (scan limit r).1, r.Holds found) ∧
      headerSize * (scan limit r).1.length ≤ (limit - r.tail).toNat := by
  fun_induction scan limit r with
  | case1 r h => exact ⟨fun _ hf => absurd hf List.not_mem_nil, Nat.zero_le _⟩
  | case2 r h fault hf => exact ⟨fun _ hf => absurd hf List.not_mem_nil, Nat.zero_le _⟩
  | case3 r h size hf rest ih =>
      obtain ⟨hmin, hmax, hsize⟩ := frame_bounds hf
      have hpos : 0 < r.size := by rw [headerSize] at hmin; omega
      refine ⟨fun found hfound => ?_, ?_⟩
      · rcases List.mem_cons.mp hfound with rfl | hfound
        · simp only [Holds, length_segment]
          exact ⟨hmin, hsize, segment_eq_parts r hpos hsize⟩
        · exact ih.1 found hfound
      · have hlater : headerSize * rest.1.length ≤ (limit - (r.tail + UInt64.ofNat size)).toNat :=
          ih.2
        rw [toNat_sub_add hmax] at hlater
        rw [List.length_cons, Nat.mul_succ]
        omega

/-! ## The scan and the stream -/

/-- Positions between a tail and a limit are no less than those before them, unless they wrap. -/
theorem toNat_add_of_le {limit t : UInt64} {n : Nat} (hle : t ≤ limit)
    (h : n ≤ (limit - t).toNat) : (t + UInt64.ofNat n).toNat = t.toNat + n := by
  have hsub : (limit - t).toNat = limit.toNat - t.toNat := UInt64.toNat_sub_of_le _ _ hle
  have hle' : t.toNat ≤ limit.toNat := UInt64.le_iff_toNat_le.mp hle
  have hlt : limit.toNat < 2 ^ 64 := limit.toNat_lt
  rw [UInt64.toNat_add, toNat_ofNat_of_lt (by omega), Nat.mod_eq_of_lt (by omega)]

/-- Whether positions between the tail and a limit name cells without a break. -/
def Unbroken (r : Ring) (limit : UInt64) : Prop := r.size ∣ 2 ^ 64 ∨ r.tail ≤ limit

/-- **Moving the tail forward takes the bytes before it off the stream.** -/
theorem stream_advance {r : Ring} {limit : UInt64} (hu : r.Unbroken limit) {n : Nat}
    (h : n ≤ (limit - r.tail).toNat) :
    stream { r with tail := r.tail + UInt64.ofNat n } limit = (r.stream limit).drop n := by
  have hcell : (r.tail + UInt64.ofNat n).toNat % r.size = (r.tail.toNat + n) % r.size := by
    rcases hu with hdvd | hle
    · exact toNat_add_mod hdvd r.tail n
    · rw [toNat_add_of_le hle h]
  rw [stream, stream, drop_segment, toNat_sub_add h]
  exact segment_congr hcell _

theorem unbroken_advance {r : Ring} {limit : UInt64} (hu : r.Unbroken limit) {n : Nat}
    (h : n ≤ (limit - r.tail).toNat) :
    Unbroken { r with tail := r.tail + UInt64.ofNat n } limit := by
  refine hu.imp id fun hle => ?_
  have hsub : (limit - r.tail).toNat = limit.toNat - r.tail.toNat :=
    UInt64.toNat_sub_of_le _ _ hle
  have hle' : r.tail.toNat ≤ limit.toNat := UInt64.le_iff_toNat_le.mp hle
  rw [UInt64.le_iff_toNat_le, toNat_add_of_le hle h]
  omega

/-- **The scan of a ring is the parse of its stream**, tail for position, and something ends it
early just when the parse stops before the end. -/
theorem scan_eq_parse {limit : UInt64} {r : Ring} (hs : 0 < r.size) (hu : r.Unbroken limit)
    {t : UInt64} {s : Bytes} {p : Nat} (htail : r.tail = t + UInt64.ofNat p)
    (hstream : s.drop p = r.stream limit) (hp : p ≤ s.length) :
    (scan limit r).1
        = (parse r.size s p).records.map (fun x => (t + UInt64.ofNat x.1, x.2)) ∧
      ((scan limit r).2.isSome ↔ (parse r.size s p).stop < s.length) := by
  have hlen : s.length - p = (limit - r.tail).toNat := by
    rw [← List.length_drop, hstream, stream, length_segment]
  fun_induction scan limit r generalizing p with
  | case1 r h =>
      have hzero : (limit - r.tail).toNat = 0 := toNat_sub_eq_zero.mpr h
      have hnone : recordSize? r.size (s.drop p) = none := by
        rw [List.drop_eq_nil_of_le (by omega)]
        rfl
      rw [parse_of_none hnone]
      exact ⟨rfl, by simp only [Option.isSome_none, Bool.false_eq_true, false_iff]; omega⟩
  | case2 r h fault hf =>
      have hpos : (limit - r.tail).toNat ≠ 0 := fun hz => h (toNat_sub_eq_zero.mp hz)
      have hnone : recordSize? r.size (s.drop p) = none := by
        rw [Option.eq_none_iff_forall_ne_some, hstream]
        intro n hn
        exact absurd (((frame_eq_ok_iff hs limit n).mpr hn).symm.trans hf) (by simp)
      rw [parse_of_none hnone]
      exact ⟨rfl, by simp only [Option.isSome_some, true_iff]; omega⟩
  | case3 r h size hf rest ih =>
      obtain ⟨-, hmax, -⟩ := frame_bounds hf
      have hsome : recordSize? r.size (s.drop p) = some size := by
        rw [hstream]
        exact (frame_eq_ok_iff hs limit size).mp hf
      have htail' : r.tail + UInt64.ofNat size = t + UInt64.ofNat (p + size) := by
        rw [htail, UInt64.add_assoc, UInt64.ofNat_add]
      have hrest := ih hs (unbroken_advance hu hmax) htail'
        (by rw [stream_advance hu hmax, ← hstream, List.drop_drop]) (by omega)
        (by rw [toNat_sub_add hmax]; omega)
      rw [parse_of_some hsome, hstream, stream, take_segment r _ hmax, List.map_cons, ← htail]
      exact ⟨congrArg ((r.tail, r.segment r.tail.toNat size) :: ·) hrest.1, hrest.2⟩

/-! ## Draining -/

/-- **Draining a ring is parsing the bytes between its tail and its head.**  A drain that finds
anything to read shows every visitor the same records, each with the tail it starts at, counts them,
and leaves the tail at the head it set out for, wherever the head was moved meanwhile.  Every record
lies within the data, and the records are those `parse` finds, with one warning when it stops early,
unless the positions wrap at another place than the cells do. -/
theorem drain_refines_parse (r : Ring) :
    (r.tail = r.head ∨ r.size = 0 →
      ∀ {σ : Type} (visit : Visitor σ) (s : σ), r.drain visit s = none) ∧
    (r.tail ≠ r.head → 0 < r.size → ∃ (found : List (UInt64 × Bytes)) (fault : Option Fault),
      (∀ {σ : Type} (visit : Visitor σ) (s : σ), r.drain visit s = some
        { ring := { r with head := (showTo visit r found s).1, tail := r.head }
          visited := found.length
          fault := fault
          state := (showTo visit r found s).2 }) ∧
      (∀ x ∈ found, r.Holds x) ∧
      headerSize * found.length ≤ (r.head - r.tail).toNat ∧
      (r.size ∣ 2 ^ 64 ∨ r.tail ≤ r.head →
        let parsed := parse r.size (r.stream r.head) 0
        found = parsed.records.map (fun x => (r.tail + UInt64.ofNat x.1, x.2)) ∧
        (fault.map Notice.ring).toList.map Notice.level
          = if parsed.stop < (r.head - r.tail).toNat then [.warn] else [])) := by
  refine ⟨fun h σ visit s => if_pos h, fun hne hs => ?_⟩
  obtain ⟨hholds, hcount⟩ := scan_bounds r.head r
  refine ⟨(scan r.head r).1, (scan r.head r).2, fun visit s => ?_, hholds, hcount, fun hu => ?_⟩
  · have hgo : ¬ (r.tail = r.head ∨ r.size = 0) := by
      rintro (h | h)
      · exact hne h
      · exact absurd hs (by omega)
    have hdrain := drainTo_eq_scan visit r.head r r.head 0 s
    rw [Nat.zero_add] at hdrain
    rw [drain, if_neg hgo]
    exact congrArg some hdrain
  · have hlen : (r.stream r.head).length = (r.head - r.tail).toNat := length_segment _ _ _
    obtain ⟨hfound, hfault⟩ := scan_eq_parse hs hu (UInt64.add_zero r.tail).symm
      (List.drop_zero (l := r.stream r.head)) (Nat.zero_le _)
    rw [hlen] at hfault
    refine ⟨hfound, ?_⟩
    cases hf : (scan r.head r).2 with
    | none =>
        rw [hf] at hfault
        rw [if_neg (fun h => by simpa using hfault.mpr h)]
        rfl
    | some fault =>
        rw [hf] at hfault
        rw [if_pos (hfault.mp rfl)]
        cases fault <;> rfl

end CounterWatch.Ring
