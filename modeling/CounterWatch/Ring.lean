import CounterWatch.Arena
import Std.Data.TreeMap

/-!
# Ring — the buffer that samples arrive in

A producer appends records at `head`, the consumer takes them at `tail`.  Both are running 64-bit
positions; the cell of a position is its remainder by the number of data bytes, so a record, and
even its header, may lie around the end of the data.  A record starts with an eight-byte header
whose last two bytes are the record's size, header included.

* `frame` — tells the size of the record at the tail, or why none can be told.
* `drain` — hands every record written so far to a visitor, moving the tail behind each one, and
  gives up whatever cannot be told apart any more.
-/

namespace CounterWatch

/-- A ring of samples.  Cells that were never written hold zero. -/
structure Ring where
  /-- The number of data bytes. -/
  size : Nat
  /-- The written cells, by offset. -/
  cells : Std.TreeMap Nat UInt8
  /-- The position behind the last byte produced. -/
  head : UInt64
  /-- The position of the first byte not consumed. -/
  tail : UInt64
  deriving Inhabited

namespace Ring

/-- The bytes of a record's header. -/
def headerSize : Nat := 8

/-! ## Cells -/

/-- A ring of zeros with both positions at the start. -/
def zero (size : Nat) : Ring := ⟨size, ∅, 0, 0⟩

/-- The byte at an offset. -/
def cell (r : Ring) (offset : Nat) : UInt8 := r.cells.getD offset 0

/-- Writes bytes from a position on, around the end of the data as often as it takes. -/
def write (r : Ring) : (position : Nat) → Bytes → Ring
  | _, [] => r
  | position, b :: rest =>
      write { r with cells := r.cells.insert (position % r.size) b } (position + 1) rest

/-- The bytes from a position on, around the end of the data. -/
def segment (r : Ring) (position length : Nat) : Bytes :=
  (List.range length).map fun i => r.cell ((position + i) % r.size)

/-- As many bytes are read as asked for, around the end if need be. -/
@[simp] theorem length_segment (r : Ring) (position length : Nat) :
    (r.segment position length).length = length := by
  simp [segment]

@[simp] theorem size_write (r : Ring) (position : Nat) (b : Bytes) :
    (r.write position b).size = r.size := by
  induction b generalizing r position with
  | nil => rfl
  | cons b rest ih => rw [write, ih]

@[simp] theorem head_write (r : Ring) (position : Nat) (b : Bytes) :
    (r.write position b).head = r.head := by
  induction b generalizing r position with
  | nil => rfl
  | cons b rest ih => rw [write, ih]

@[simp] theorem tail_write (r : Ring) (position : Nat) (b : Bytes) :
    (r.write position b).tail = r.tail := by
  induction b generalizing r position with
  | nil => rfl
  | cons b rest ih => rw [write, ih]

/-! ## Producing -/

/-- The ring after the producer appended bytes.  Nothing keeps it from overwriting bytes that were
not consumed yet. -/
def append (r : Ring) (b : Bytes) : Ring :=
  { r.write r.head.toNat b with head := r.head + UInt64.ofNat b.length }

/-- The ring in a mapping: a page of metadata, in which the head is at offset 1024 and the tail at
1032, and then the data. -/
def ofArena (a : Arena) : Ring :=
  let word (offset : Nat) : UInt64 :=
    UInt64.ofNat (Bytes.toNat ((List.range 8).map fun i => a.byte (offset + i)))
  { (zero (a.length - pageSize)).write 0 (a.contents.drop pageSize) with
      head := word 1024, tail := word 1032 }

/-! ## Consuming -/

/-- Why the bytes left in a ring are no records. -/
inductive Fault where
  /-- There is no room for a whole header. -/
  | truncatedHeader (tail head : UInt64)
  /-- The size in the header cannot be that of a record here. -/
  | malformedSize (tail head : UInt64) (size : Nat)
  deriving DecidableEq

/-- The size of the record at the tail, when the records end at `limit`.  The header must fit before
the limit, and must not run into itself in a ring of few bytes; the size must be that of a record
with a header that fits before the limit and in the ring. -/
def frame (r : Ring) (limit : UInt64) : Except Fault Nat :=
  let remaining := (limit - r.tail).toNat
  if remaining < headerSize ∨ r.size - r.tail.toNat % r.size + r.size < headerSize then
    .error (.truncatedHeader r.tail limit)
  else
    let size := Bytes.toNat (r.segment (r.tail.toNat + 6) 2)
    if size < headerSize ∨ remaining < size ∨ r.size < size then
      .error (.malformedSize r.tail limit size)
    else .ok size

/-- **A record that is framed has a header, and fits before the limit and into the ring.** -/
theorem frame_bounds {r : Ring} {limit : UInt64} {size : Nat} (h : r.frame limit = .ok size) :
    headerSize ≤ size ∧ size ≤ (limit - r.tail).toNat ∧ size ≤ r.size := by
  simp only [frame] at h
  split at h
  · cases h
  · split at h
    · cases h
    · cases h
      omega

/-- Moving forward from a position within what remains shortens what remains. -/
theorem toNat_sub_add {limit t : UInt64} {n : Nat} (h : n ≤ (limit - t).toNat) :
    (limit - (t + UInt64.ofNat n)).toNat = (limit - t).toNat - n := by
  have hlt : (limit - t).toNat < 2 ^ 64 := (limit - t).toNat_lt
  have hn : (UInt64.ofNat n).toNat = n := by
    rw [UInt64.toNat_ofNat']
    exact Nat.mod_eq_of_lt (by omega)
  have heq : limit - (t + UInt64.ofNat n) = (limit - t) - UInt64.ofNat n := by
    simp only [UInt64.sub_eq_add_neg, UInt64.neg_add, UInt64.add_assoc]
  have hle : UInt64.ofNat n ≤ limit - t := by rw [UInt64.le_iff_toNat_le, hn]; exact h
  rw [heq, UInt64.toNat_sub_of_le _ _ hle, hn]

/-- Moving past a record brings the tail closer to the limit. -/
theorem toNat_sub_add_lt {limit tail : UInt64} {size : Nat} (hpos : 0 < size)
    (hle : size ≤ (limit - tail).toNat) :
    (limit - (tail + UInt64.ofNat size)).toNat < (limit - tail).toNat := by
  rw [toNat_sub_add hle]
  omega

/-- What a drain leaves behind. -/
structure Drained (σ : Type) where
  ring : Ring
  /-- The number of records handed to the visitor. -/
  visited : Nat
  /-- What ended the drain early. -/
  fault : Option Fault
  /-- The visitor's state. -/
  state : σ

/-- Someone who is shown the records.  The visitor sees the record, the ring as it is during the
visit and its own state; it returns its new state, and the head the producer has moved to
meanwhile. -/
abbrev Visitor (σ : Type) := Bytes → Ring → σ → UInt64 × σ

/-- Hands the records before `limit` to the visitor.  The tail is moved behind a record after its
visit; at bytes that are no record it is moved to the limit. -/
def drainTo {σ : Type} (visit : Visitor σ) (limit : UInt64) (r : Ring) (visited : Nat) (s : σ) :
    Drained σ :=
  if r.tail = limit then ⟨r, visited, none, s⟩
  else
    match _h : r.frame limit with
    | .error fault => ⟨{ r with tail := limit }, visited, some fault, s⟩
    | .ok size =>
        let next := visit (r.segment r.tail.toNat size) r s
        drainTo visit limit { r with head := next.1, tail := r.tail + UInt64.ofNat size }
          (visited + 1) next.2
termination_by (limit - r.tail).toNat
decreasing_by
  have hb := frame_bounds _h
  exact toNat_sub_add_lt (by simp only [headerSize] at hb; omega) hb.2.1

/-- **Hands every record written so far to the visitor**; nothing if nothing was written, or if the
ring has no data.  What the producer appends during the drain is left for the next one. -/
def drain {σ : Type} (r : Ring) (visit : Visitor σ) (s : σ) : Option (Drained σ) :=
  if r.tail = r.head ∨ r.size = 0 then none else some (drainTo visit r.head r 0 s)

end Ring
end CounterWatch
