import CounterWatch.Proofs.Ring.Delivery

/-!
# Proofs/Ring/Queue — a ring as a queue of records

As long as its producer writes whole records, and only where there is room, a ring is a queue:
appending puts a record behind the others, and a drain shows all of them and leaves none.

* `shown` — the records a drain shows, whatever the bytes are; `emptied` — the ring it leaves.
* `drain_of_still` — a visitor that moves no head is shown just these, and leaves just this ring.
* `Queued` — the bytes between tail and head are those of some records.
* `Queued.append`, `Queued.shown_eq`, `Queued.emptied` — the laws of a queue.
-/

namespace CounterWatch.Ring

variable {σ : Type}

/-! ## What a drain shows -/

/-- The records that a drain shows. -/
def shown (r : Ring) : List Bytes :=
  ((r.drain (fun record ring seen => (ring.head, seen ++ [record])) []).map (·.state)).getD []

/-- The ring that a drain leaves. -/
def emptied (r : Ring) : Ring := if r.size = 0 then r else { r with tail := r.head }

/-- Whether a visitor moves no head, and takes notice of nothing but the records. -/
def Still (visit : Visitor σ) (step : σ → Bytes → σ) : Prop :=
  ∀ record ring s, visit record ring s = (ring.head, step s record)

/-- A visitor who moves no head is shown records as a list is folded. -/
theorem showTo_of_still {visit : Visitor σ} {step : σ → Bytes → σ} (h : Still visit step)
    (r : Ring) (records : List (UInt64 × Bytes)) (s : σ) :
    showTo visit r records s = (r.head, (records.map Prod.snd).foldl step s) := by
  rw [showTo]
  induction records generalizing s with
  | nil => rfl
  | cons record rest ih => rw [List.foldl_cons, h, ih, List.map_cons, List.foldl_cons]

theorem drain_eq_scan {visit : Visitor σ} {step : σ → Bytes → σ} (h : Still visit step)
    {r : Ring} (hne : r.tail ≠ r.head) (hs : r.size ≠ 0) (s : σ) :
    r.drain visit s = some
      { ring := { r with tail := r.head }
        visited := (scan r.head r).1.length
        fault := (scan r.head r).2
        state := ((scan r.head r).1.map Prod.snd).foldl step s } := by
  have hdrain := drainTo_eq_scan visit r.head r r.head 0 s
  have hshow := showTo_of_still h { r with head := r.head } (scan r.head r).1 s
  rw [hshow, Nat.zero_add] at hdrain
  rw [drain, if_neg (not_or.mpr ⟨hne, hs⟩)]
  exact congrArg some hdrain

theorem foldl_concat {α : Type} (records seen : List α) :
    records.foldl (fun seen record => seen ++ [record]) seen = seen ++ records := by
  induction records generalizing seen with
  | nil => rw [List.foldl_nil, List.append_nil]
  | cons record rest ih => rw [List.foldl_cons, ih, List.append_assoc, List.singleton_append]

/-- What a ring shows is what a scan up to its head comes by. -/
theorem shown_eq_scan {r : Ring} (hne : r.tail ≠ r.head) (hs : r.size ≠ 0) :
    r.shown = (scan r.head r).1.map Prod.snd := by
  have hstill : Still (fun record (ring : Ring) seen => (ring.head, seen ++ [record]))
      (fun seen record => seen ++ [record]) := fun _ _ _ => rfl
  rw [shown, drain_eq_scan hstill hne hs []]
  exact foldl_concat _ []

/-- **A drain shows its visitor the records it shows any visitor**, and leaves the tail at the head;
nothing is shown, and nothing changed, if there is nothing to read. -/
theorem drain_of_still {visit : Visitor σ} {step : σ → Bytes → σ} (h : Still visit step) (r : Ring)
    (s : σ) :
    match r.drain visit s with
    | some d => d.state = r.shown.foldl step s ∧ d.ring = r.emptied
    | none => r.shown = [] ∧ r.emptied = r := by
  by_cases hidle : r.tail = r.head ∨ r.size = 0
  · rw [drain, if_pos hidle, shown, drain, if_pos hidle]
    refine ⟨rfl, ?_⟩
    rw [emptied]
    split
    · rfl
    next hs =>
      exact congrArg (fun tail => { r with tail }) (hidle.resolve_right hs).symm
  · obtain ⟨hne, hs⟩ := not_or.mp hidle
    rw [drain_eq_scan h hne hs, shown_eq_scan hne hs, emptied, if_neg hs]
    exact ⟨rfl, rfl⟩

/-! ## Queues -/

/-- The number of bytes that can be appended before the first unread byte is overwritten. -/
def free (r : Ring) : Nat := r.size - (r.head - r.tail).toNat

/-- A ring whose unread bytes are these records. -/
structure Queued (r : Ring) (records : List Bytes) : Prop where
  dvd : r.size ∣ 2 ^ 64
  small : r.size < 2 ^ 64
  room : (r.head - r.tail).toNat ≤ r.size
  stream : r.stream r.head = records.flatten
  records : ∀ b ∈ records, IsRecord b

/-- Writing goes by the cell a position falls on, not by the position. -/
theorem write_congr {p q : Nat} (b : Bytes) : ∀ {r : Ring}, p % r.size = q % r.size →
    r.write p b = r.write q b := by
  induction b generalizing p q with
  | nil => exact fun _ => rfl
  | cons b rest ih =>
      intro r h
      have hnext : (p + 1) % r.size = (q + 1) % r.size := by rw [Nat.add_mod, h, ← Nat.add_mod]
      rw [write, write, h]
      exact ih hnext

/-- **Appending leaves the unread bytes alone and puts its own behind them**, if there is room. -/
theorem stream_append {r : Ring} (hdvd : r.size ∣ 2 ^ 64) (hsmall : r.size < 2 ^ 64) {b : Bytes}
    (hroom : (r.head - r.tail).toNat + b.length ≤ r.size) :
    (r.append b).stream (r.append b).head = r.stream r.head ++ b := by
  have hlength : ((r.append b).head - (r.append b).tail).toNat
      = (r.head - r.tail).toNat + b.length := by
    rw [append]
    simp only [tail_write]
    exact toNat_add_sub (by omega)
  have hcell : r.head.toNat % r.size = (r.tail.toNat + (r.head - r.tail).toNat) % r.size :=
    toNat_mod_eq hdvd r.tail r.head
  have hsegment : ∀ p n, (r.append b).segment p n
      = (r.write (r.tail.toNat + (r.head - r.tail).toNat) b).segment p n := by
    intro p n
    rw [append, write_congr b hcell]
    rfl
  rw [stream, hlength, hsegment, segment_add, append]
  simp only [tail_write]
  rw [segment_write_behind r (Nat.le_refl _) hroom, segment_write_self r (by omega)]
  rfl

/-- **Records that fill a stream are the ones a scan comes by**, each of them whole. -/
theorem scan_of_stream {limit : UInt64} {records : List Bytes} (h : ∀ b ∈ records, IsRecord b) :
    ∀ {r : Ring}, r.size ∣ 2 ^ 64 → (limit - r.tail).toNat ≤ r.size →
      r.stream limit = records.flatten → (scan limit r).1.map Prod.snd = records := by
  induction records with
  | nil =>
      intro r _ _ hstream
      have hzero : (limit - r.tail).toNat = 0 := by rw [← length_stream, hstream]; rfl
      rw [scan, if_pos (toNat_sub_eq_zero.mp hzero)]
      rfl
  | cons record rest ih =>
      intro r hdvd hroom hstream
      obtain ⟨hrecord, hrest⟩ := List.forall_mem_cons.mp h
      rw [List.flatten_cons] at hstream
      have hlength := congrArg List.length hstream
      rw [length_stream, List.length_append] at hlength
      have hne : r.tail ≠ limit := by
        intro htail
        have hmin := hrecord.1
        rw [headerSize] at hmin
        have := toNat_sub_eq_zero.mpr htail
        omega
      have hframe := frame_of_stream hrecord (by omega) hstream
      have hfirst : r.segment r.tail.toNat record.length = record := by
        rw [← take_segment r r.tail.toNat (n := (limit - r.tail).toNat) (by omega)]
        exact (congrArg (List.take record.length) hstream).trans (List.take_left' rfl)
      let next : Ring := { r with tail := r.tail + UInt64.ofNat record.length }
      have hnext : next.stream limit = rest.flatten := by
        have hfits : record.length ≤ (limit - r.tail).toNat := by omega
        have hadvance := stream_advance (.inl hdvd) hfits
        rwa [hstream, List.drop_left' rfl] at hadvance
      have hlater : (scan limit next).1.map Prod.snd = rest := by
        refine ih hrest hdvd ?_ hnext
        change (limit - (r.tail + UInt64.ofNat record.length)).toNat ≤ r.size
        rw [toNat_sub_add (by omega)]
        omega
      rw [scan, if_neg hne]
      split
      next fault hf => exact absurd (hf.symm.trans hframe) (by simp)
      next size hf =>
        obtain rfl : size = record.length := Except.ok.inj (hf.symm.trans hframe)
        rw [List.map_cons, hlater, hfirst]

namespace Queued

variable {r : Ring} {records : List Bytes}

/-- In an empty ring nothing waits. -/
theorem of_empty (hdvd : r.size ∣ 2 ^ 64) (hsmall : r.size < 2 ^ 64) (h : r.tail = r.head) :
    r.Queued [] where
  dvd := hdvd
  small := hsmall
  room := by rw [h, UInt64.sub_self]; exact Nat.zero_le _
  stream := by rw [Ring.stream, h, UInt64.sub_self]; rfl
  records := fun _ h => absurd h List.not_mem_nil

/-- **A record appended within the free space is queued behind the others.** -/
theorem append (h : r.Queued records) {b : Bytes} (hb : IsRecord b) (hfree : b.length ≤ r.free) :
    (r.append b).Queued (records ++ [b]) where
  dvd := by rw [Ring.append]; simp only [size_write]; exact h.dvd
  small := by rw [Ring.append]; simp only [size_write]; exact h.small
  room := by
    have hroom := h.room
    have hsmall := h.small
    rw [free] at hfree
    rw [Ring.append]
    simp only [size_write, tail_write]
    rw [toNat_add_sub (by omega)]
    omega
  stream := by
    have hroom := h.room
    rw [free] at hfree
    rw [stream_append h.dvd h.small (by omega), h.stream, List.flatten_append,
      List.flatten_singleton]
  records := by
    intro b' hb'
    rcases List.mem_append.mp hb' with hb' | hb'
    · exact h.records b' hb'
    · rwa [List.mem_singleton.mp hb']

/-- **A drain shows the queued records**, each once and in order. -/
theorem shown_eq (h : r.Queued records) : r.shown = records := by
  have hs : r.size ≠ 0 := by
    rintro hs
    have hdvd := h.dvd
    rw [hs] at hdvd
    omega
  by_cases hne : r.tail = r.head
  · have hstream := h.stream
    have hzero : records.flatten.length = 0 := by
      rw [← hstream, length_stream, toNat_sub_eq_zero.mpr hne]
    rw [eq_nil_of_length_flatten h.records hzero, shown, drain, if_pos (.inl hne)]
    rfl
  · rw [shown_eq_scan hne hs]
    exact scan_of_stream h.records h.dvd h.room h.stream

/-- **A drain leaves no record.** -/
theorem emptied (h : r.Queued records) : r.emptied.Queued [] := by
  rw [Ring.emptied]
  split
  next hs => exact absurd h.dvd (by rw [hs]; omega)
  next => exact of_empty h.dvd h.small rfl

end Queued

end CounterWatch.Ring
