import CounterWatch.Ring
import Mathlib.Algebra.Group.Nat.Defs

/-!
# Proofs/Ring/Segment — the bytes around the end of the data

A segment of a ring is read cell by cell, each position taken modulo the number of data bytes, so
two positions with one remainder name the same segment (`segment_congr`).  Segments split and
join like the byte lists they are (`segment_add`), writing at a position makes its bytes the
segment there (`segment_write_self`), and writing within the free part of the ring leaves every
byte before it alone (`segment_write_behind`).
-/

namespace CounterWatch.Ring

/-! ## Positions -/

theorem toNat_ofNat_of_lt {n : Nat} (h : n < 2 ^ 64) : (UInt64.ofNat n).toNat = n := by
  rw [UInt64.toNat_ofNat']
  exact Nat.mod_eq_of_lt h

/-- **A wrapped position names the same cell** when the number of cells divides the number of
positions. -/
theorem toNat_add_mod {size : Nat} (hs : size ∣ 2 ^ 64) (t : UInt64) (n : Nat) :
    (t + UInt64.ofNat n).toNat % size = (t.toNat + n) % size := by
  rw [UInt64.toNat_add, UInt64.toNat_ofNat', Nat.mod_mod_of_dvd _ hs, Nat.add_mod,
    Nat.mod_mod_of_dvd _ hs, ← Nat.add_mod]

/-- A position is its distance from another, as far as the cells go. -/
theorem toNat_mod_eq {size : Nat} (hs : size ∣ 2 ^ 64) (t limit : UInt64) :
    limit.toNat % size = (t.toNat + (limit - t).toNat) % size := by
  have hlimit : limit = t + UInt64.ofNat (limit - t).toNat := by
    rw [UInt64.ofNat_toNat, UInt64.add_comm, UInt64.sub_add_cancel]
  have hmod := toNat_add_mod hs t (limit - t).toNat
  rwa [← hlimit] at hmod

theorem toNat_sub_eq_zero {limit t : UInt64} : (limit - t).toNat = 0 ↔ t = limit := by
  constructor
  · intro h
    have hz : limit - t = 0 := UInt64.toNat_inj.mp h
    rw [← UInt64.sub_add_cancel limit t, hz, UInt64.zero_add]
  · rintro rfl
    rw [UInt64.sub_self]
    rfl

/-! ## Reading -/

/-- Reading goes by the cell a position falls on, not by the position. -/
theorem segment_congr {r : Ring} {p q : Nat} (h : p % r.size = q % r.size) (n : Nat) :
    r.segment p n = r.segment q n := by
  refine List.map_congr_left fun i _ => ?_
  rw [Nat.add_mod p, h, ← Nat.add_mod]

@[simp] theorem segment_zero (r : Ring) (p : Nat) : r.segment p 0 = [] := rfl

/-- **A segment is its first bytes and the segment behind them.** -/
theorem segment_add (r : Ring) (p m n : Nat) :
    r.segment p (m + n) = r.segment p m ++ r.segment (p + m) n := by
  rw [segment, List.range_add, List.map_append, List.map_map]
  refine congrArg (r.segment p m ++ ·) (List.map_congr_left fun i _ => ?_)
  rw [Function.comp_apply, Nat.add_assoc]

theorem drop_segment (r : Ring) (p n k : Nat) :
    (r.segment p n).drop k = r.segment (p + k) (n - k) := by
  rcases Nat.le_total k n with h | h
  · obtain ⟨m, rfl⟩ := Nat.exists_eq_add_of_le h
    rw [segment_add, List.drop_left' (length_segment r p k), Nat.add_sub_cancel_left]
  · rw [List.drop_eq_nil_of_le (by rw [length_segment]; exact h), Nat.sub_eq_zero_of_le h,
      segment_zero]

/-- The beginning of what is read is what is read in fewer bytes. -/
theorem take_segment (r : Ring) (p : Nat) {n k : Nat} (h : k ≤ n) :
    (r.segment p n).take k = r.segment p k := by
  obtain ⟨m, rfl⟩ := Nat.exists_eq_add_of_le h
  rw [segment_add, List.take_left' (length_segment r p k)]

/-- The data bytes, from the first to the last. -/
def data (r : Ring) : Bytes := r.segment 0 r.size

/-- **A segment around the end of the data is the rest of the data and as much of its start as is
missing**; if the data do not end before it, nothing is missing. -/
theorem segment_eq_parts (r : Ring) {p n : Nat} (hs : 0 < r.size) (h : n ≤ r.size) :
    r.segment p n
      = (r.data.drop (p % r.size)).take n ++ r.data.take (n - (r.size - p % r.size)) := by
  have hp : p % r.size < r.size := Nat.mod_lt p hs
  rw [segment_congr (Nat.mod_mod p r.size).symm, data, drop_segment, Nat.zero_add]
  rcases Nat.le_total n (r.size - p % r.size) with hn | hn
  · rw [take_segment r _ hn, Nat.sub_eq_zero_of_le hn, List.take_zero, List.append_nil]
  · obtain ⟨m, hm⟩ := Nat.exists_eq_add_of_le hn
    have hwrap : (p % r.size + (r.size - p % r.size)) % r.size = 0 % r.size := by
      rw [Nat.add_sub_cancel' (Nat.le_of_lt hp), Nat.mod_self, Nat.zero_mod]
    rw [List.take_of_length_le (by rw [length_segment]; exact hn), hm, segment_add,
      Nat.add_sub_cancel_left, segment_congr hwrap, take_segment r 0 (by omega)]

/-! ## Writing -/

theorem cell_insert (r : Ring) (k j : Nat) (b : UInt8) :
    cell { r with cells := r.cells.insert k b } j = if k = j then b else r.cell j := by
  simp only [cell, Std.TreeMap.getD_insert, Nat.compare_eq_eq]

/-- **A write leaves a cell alone** that is none of those written. -/
theorem cell_write_of_ne (r : Ring) {q j : Nat} {b : Bytes}
    (h : ∀ i < b.length, (q + i) % r.size ≠ j) : (r.write q b).cell j = r.cell j := by
  induction b generalizing r q with
  | nil => rfl
  | cons b rest ih =>
      have hq : q % r.size ≠ j := h 0 (Nat.succ_pos _)
      rw [write, ih, cell_insert, if_neg hq]
      intro i hi
      have := h (i + 1) (Nat.succ_lt_succ hi)
      rwa [show q + (i + 1) = q + 1 + i by omega] at this

/-- Two positions less than the number of cells apart have different cells. -/
theorem mod_ne_of_lt {n p q : Nat} (h : p < q) (hn : q < p + n) : q % n ≠ p % n := by
  obtain ⟨d, rfl⟩ := Nat.exists_eq_add_of_lt h
  intro he
  have hd : (p + (d + 1)) % n = p % n := by rwa [Nat.add_assoc] at he
  have hz : (d + 1) % n = 0 := by
    have := Nat.sub_mod_eq_zero_of_mod_eq hd
    rwa [Nat.add_sub_cancel_left] at this
  rw [Nat.mod_eq_of_lt (by omega)] at hz
  omega

/-- **Writing behind a segment leaves it alone** as long as both fit into the ring together. -/
theorem segment_write_behind (r : Ring) {p n k : Nat} {b : Bytes}
    (hn : n ≤ k) (h : k + b.length ≤ r.size) :
    (r.write (p + k) b).segment p n = r.segment p n := by
  refine List.map_congr_left fun i hi => ?_
  have hi : i < n := List.mem_range.mp hi
  rw [size_write]
  refine cell_write_of_ne r fun j hj => ?_
  exact mod_ne_of_lt (by omega) (by omega)

/-- **What was written is the segment there.** -/
theorem segment_write_self (r : Ring) {q : Nat} {b : Bytes} (h : b.length ≤ r.size) :
    (r.write q b).segment q b.length = b := by
  induction b generalizing r q with
  | nil => rfl
  | cons b rest ih =>
      have h : rest.length + 1 ≤ r.size := h
      -- the bytes behind the first do not come round to it
      have hfirst : ∀ i < rest.length, (q + 1 + i) % r.size ≠ q % r.size := fun i hi =>
        mod_ne_of_lt (by omega) (by omega)
      let r' : Ring := { r with cells := r.cells.insert (q % r.size) b }
      have hrest : (r'.write (q + 1) rest).segment (q + 1) rest.length = rest :=
        ih r' (Nat.le_of_succ_le h)
      have hcell : (r'.write (q + 1) rest).cell (q % r.size) = b := by
        rw [cell_write_of_ne r' hfirst, cell_insert, if_pos rfl]
      have hhead : (r'.write (q + 1) rest).segment q 1 = [b] := by
        rw [segment, List.range_one, List.map_singleton, size_write, Nat.add_zero]
        exact congrArg ([·]) hcell
      rw [write, List.length_cons, Nat.add_comm rest.length 1, segment_add, hhead, hrest,
        List.singleton_append]

end CounterWatch.Ring
