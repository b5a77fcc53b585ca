import CounterWatch.Proofs.Ring.Parser
import Mathlib.Logic.Function.Iterate
import Mathlib.Logic.Relation

/-!
# Proofs/Ring/Delivery — every record once, whoever steps when

A producer and a consumer share a ring without waiting for each other.  The producer takes a record
in hand when there is room for it, writes it byte by byte and then moves the head; the consumer
takes note of the head, and then reads a header, shows the record to a visitor and moves the tail,
again and again.  Any step of one may fall between any two of the other.

* `Exchange` — the ring and how far either has come; `Step` is any step of any of them.
* `consume_iterate_eq_drain` — consumer steps that nothing falls between are a drain.
* `Exchange.Sound` — what every step preserves: the bytes between tail and head are the records
  not yet passed by, and the record in hand grows behind them.
* `delivered_exactly_once` — the visitor is shown the records produced, each once and in order.
-/

namespace CounterWatch.Ring

/-- Bytes that a producer may write: their header gives their number. -/
def IsRecord (b : Bytes) : Prop := headerSize ≤ b.length ∧ announced b = b.length

instance (b : Bytes) : Decidable (IsRecord b) := inferInstanceAs (Decidable (_ ∧ _))

/-- How far a consumer has come with a drain. -/
inductive Stage where
  | idle
  /-- It is to look at the tail, on its way to a limit. -/
  | seeking (limit : UInt64)
  /-- It has read the size of the record at the tail. -/
  | framed (limit : UInt64) (size : Nat)
  /-- The record at the tail is being visited. -/
  | visiting (limit : UInt64) (size : Nat)
  deriving DecidableEq

/-- A ring between a producer and a consumer, and what has passed between them. -/
structure Exchange where
  ring : Ring
  stage : Stage := .idle
  /-- The bytes of the record in hand that are in the ring. -/
  written : Bytes := []
  /-- The bytes of the record in hand that are still to be written. -/
  unwritten : Bytes := []
  /-- The records produced so far. -/
  produced : List Bytes := []
  /-- The records shown to the visitor so far. -/
  delivered : List Bytes := []
  /-- What had been produced when the latest drain set out. -/
  due : List Bytes := []
  /-- Why drains ended early. -/
  faults : List Fault := []

namespace Exchange

/-! ## Steps -/

/-- The next step of the consumer. -/
def consume (e : Exchange) : Exchange :=
  match e.stage with
  | .idle =>
      { e with
        due := e.produced
        stage := if e.ring.tail = e.ring.head ∨ e.ring.size = 0 then .idle
          else .seeking e.ring.head }
  | .seeking limit =>
      if e.ring.tail = limit then { e with stage := .idle }
      else
        match e.ring.frame limit with
        | .error fault =>
            { e with
              ring := { e.ring with tail := limit }
              faults := e.faults ++ [fault]
              stage := .idle }
        | .ok size => { e with stage := .framed limit size }
  | .framed limit size =>
      { e with
        delivered := e.delivered ++ [e.ring.segment e.ring.tail.toNat size]
        stage := .visiting limit size }
  | .visiting limit size =>
      { e with
        ring := { e.ring with tail := e.ring.tail + UInt64.ofNat size }
        stage := .seeking limit }

/-- The producer with a record in hand. -/
def take (e : Exchange) (record : Bytes) : Exchange := { e with unwritten := record }

/-- The producer one byte further with its record. -/
def writeByte (e : Exchange) (b : UInt8) (rest : Bytes) : Exchange :=
  { e with
    ring := e.ring.write (e.ring.head.toNat + e.written.length) [b]
    written := e.written ++ [b]
    unwritten := rest }

/-- The producer done with its record. -/
def publish (e : Exchange) : Exchange :=
  { e with
    ring := { e.ring with head := e.ring.head + UInt64.ofNat e.written.length }
    produced := e.produced ++ [e.written]
    written := [] }

/-- A step of the producer or the consumer.  The producer takes a record in hand only when there is
room for it, as far as the tail tells. -/
inductive Step (e : Exchange) : Exchange → Prop
  | take {record : Bytes} (hrecord : IsRecord record) (hfree : e.written = [] ∧ e.unwritten = [])
      (hroom : record.length + (e.ring.head - e.ring.tail).toNat ≤ e.ring.size) :
      Step e (e.take record)
  | writeByte {b : UInt8} {rest : Bytes} (h : e.unwritten = b :: rest) :
      Step e (e.writeByte b rest)
  | publish (hall : e.unwritten = []) (hsome : e.written ≠ []) : Step e e.publish
  | consume : Step e e.consume

/-- The steps the consumer has still to take in a drain. -/
def remaining (e : Exchange) : Nat :=
  match e.stage with
  | .idle => 0
  | .seeking _ => 3 * (e.due.length - e.delivered.length) + 1
  | .framed _ _ => 3 * (e.due.length - e.delivered.length)
  | .visiting _ _ => 3 * (e.due.length - e.delivered.length) + 2

/-- Whether one exchange comes out of another, in any number of steps. -/
def Reaches : Exchange → Exchange → Prop := Relation.ReflTransGen Step

end Exchange

/-! ## Streams of records -/

/-- The size a header announces does not depend on what follows the header. -/
theorem announced_append {b : Bytes} (h : headerSize ≤ b.length) (rest : Bytes) :
    announced (b ++ rest) = announced b := by
  rw [headerSize] at h
  rw [announced, announced, List.drop_append_of_le_length (by omega),
    List.take_append_of_le_length (by rw [List.length_drop]; omega)]

/-- **A record at the start of a stream is told from what follows.** -/
theorem recordSize?_append {record : Bytes} (h : IsRecord record) {most : Nat}
    (hmost : record.length ≤ most) (rest : Bytes) :
    recordSize? most (record ++ rest) = some record.length := by
  obtain ⟨hmin, hsize⟩ := h
  rw [recordSize?, announced_append hmin, hsize, List.length_append, if_pos]
  exact ⟨by omega, hmin, by omega⟩

/-- **The record at the start of a stream is framed by its own size.** -/
theorem frame_of_stream {r : Ring} {limit : UInt64} {record rest : Bytes}
    (hrecord : IsRecord record) (hle : record.length ≤ r.size)
    (hstream : r.stream limit = record ++ rest) : r.frame limit = .ok record.length := by
  have hs : 0 < r.size := by have := hrecord.1; rw [headerSize] at this; omega
  rw [frame_eq_ok_iff hs, hstream]
  exact recordSize?_append hrecord hle rest

theorem take_stream {r : Ring} {limit head : UInt64}
    (h : (limit - r.tail).toNat ≤ (head - r.tail).toNat) :
    (r.stream head).take (limit - r.tail).toNat = r.stream limit :=
  take_segment r _ h

theorem length_stream (r : Ring) (limit : UInt64) :
    (r.stream limit).length = (limit - r.tail).toNat := length_segment _ _ _

/-- Records take room, so only a stream of none is empty. -/
theorem eq_nil_of_length_flatten {l : List Bytes} (h : ∀ b ∈ l, IsRecord b)
    (hz : l.flatten.length = 0) : l = [] := by
  cases l with
  | nil => rfl
  | cons b rest =>
      have hmin := (h b List.mem_cons_self).1
      rw [List.flatten_cons, List.length_append] at hz
      rw [headerSize] at hmin
      omega

/-- Moving the head forward lengthens what lies between, as long as no position comes twice. -/
theorem toNat_add_sub {head t : UInt64} {n : Nat} (h : (head - t).toNat + n < 2 ^ 64) :
    (head + UInt64.ofNat n - t).toNat = (head - t).toNat + n := by
  have heq : head + UInt64.ofNat n - t = (head - t) + UInt64.ofNat n := by
    rw [UInt64.sub_eq_add_neg, UInt64.sub_eq_add_neg, UInt64.add_assoc, UInt64.add_assoc,
      UInt64.add_comm (UInt64.ofNat n)]
  rw [heq, UInt64.toNat_add, toNat_ofNat_of_lt (by omega), Nat.mod_eq_of_lt h]

/-! ## What every step preserves -/

/-- The records that lie between a tail and the limit of a drain, the first of those not passed by.
-/
structure Ahead (tail limit : UInt64) (now unread : List Bytes) : Prop where
  isPrefix : now <+: unread
  length : (limit - tail).toNat = now.flatten.length

/-- What a stage says of the records the tail has passed by and of those it has not. -/
def Stage.At (tail : UInt64) (delivered due passed unread : List Bytes) : Stage → Prop
  | .idle => delivered = passed ∧ due = passed
  | .seeking limit =>
      ∃ now, delivered = passed ∧ due = passed ++ now ∧ Ahead tail limit now unread
  | .framed limit size =>
      ∃ record now, delivered = passed ∧ due = passed ++ record :: now ∧
        Ahead tail limit (record :: now) unread ∧ size = record.length
  | .visiting limit size =>
      ∃ record now, delivered = passed ++ [record] ∧ due = passed ++ record :: now ∧
        Ahead tail limit (record :: now) unread ∧ size = record.length

/-- What the producer publishes meanwhile makes no difference to how far a drain has come. -/
theorem Stage.At.append {stage : Stage} {tail : UInt64} {delivered due passed unread : List Bytes}
    (h : stage.At tail delivered due passed unread) (more : List Bytes) :
    stage.At tail delivered due passed (unread ++ more) := by
  have hahead : ∀ {limit now}, Ahead tail limit now unread →
      Ahead tail limit now (unread ++ more) :=
    fun ha => ⟨ha.isPrefix.trans (List.prefix_append _ _), ha.length⟩
  cases stage with
  | idle => exact h
  | seeking limit =>
      obtain ⟨now, hd, hdue, ha⟩ := h
      exact ⟨now, hd, hdue, hahead ha⟩
  | framed limit size =>
      obtain ⟨record, now, hd, hdue, ha, hsize⟩ := h
      exact ⟨record, now, hd, hdue, hahead ha, hsize⟩
  | visiting limit size =>
      obtain ⟨record, now, hd, hdue, ha, hsize⟩ := h
      exact ⟨record, now, hd, hdue, hahead ha, hsize⟩

namespace Exchange

/-- An exchange in which some records were passed by and others are still to be read. -/
structure Sound (e : Exchange) (passed unread : List Bytes) : Prop where
  dvd : e.ring.size ∣ 2 ^ 64
  small : e.ring.size < 2 ^ 64
  /-- There is room for the record in hand. -/
  room : (e.ring.head - e.ring.tail).toNat + (e.written ++ e.unwritten).length ≤ e.ring.size
  inHand : e.written ++ e.unwritten ≠ [] → IsRecord (e.written ++ e.unwritten)
  /-- What is written of it lies behind the head. -/
  behind : e.ring.segment e.ring.head.toNat e.written.length = e.written
  /-- The bytes between tail and head are the records to be read. -/
  stream : e.ring.stream e.ring.head = unread.flatten
  records : ∀ b ∈ unread, IsRecord b
  produced : e.produced = passed ++ unread
  faultless : e.faults = []
  stage : e.stage.At e.ring.tail e.delivered e.due passed unread

namespace Sound

variable {e : Exchange} {passed unread : List Bytes}

theorem of_empty {r : Ring} (hdvd : r.size ∣ 2 ^ 64) (hsmall : r.size < 2 ^ 64)
    (hempty : r.tail = r.head) : Sound { ring := r } [] [] where
  dvd := hdvd
  small := hsmall
  room := by rw [hempty, UInt64.sub_self]; exact Nat.zero_le _
  inHand := fun h => absurd rfl h
  behind := rfl
  stream := by rw [Ring.stream, hempty, UInt64.sub_self]; rfl
  records := fun _ h => absurd h List.not_mem_nil
  produced := rfl
  faultless := rfl
  stage := ⟨rfl, rfl⟩

/-! ### The producer -/

theorem take {record : Bytes} (h : e.Sound passed unread) (hrecord : IsRecord record)
    (hfree : e.written = [])
    (hroom : record.length + (e.ring.head - e.ring.tail).toNat ≤ e.ring.size) :
    (e.take record).Sound passed unread where
  dvd := h.dvd
  small := h.small
  room := by
    change _ + (e.written ++ record).length ≤ _
    rw [hfree, List.nil_append, Nat.add_comm]
    exact hroom
  inHand := fun _ => by
    change IsRecord (e.written ++ record)
    rw [hfree]
    exact hrecord
  behind := h.behind
  stream := h.stream
  records := h.records
  produced := h.produced
  faultless := h.faultless
  stage := h.stage

/-- **A byte written behind the head leaves the bytes before it alone** and joins those of the
record in hand. -/
theorem writeByte {b : UInt8} {rest : Bytes} (h : e.Sound passed unread)
    (hb : e.unwritten = b :: rest) : (e.writeByte b rest).Sound passed unread := by
  have hall : (e.written ++ [b]) ++ rest = e.written ++ e.unwritten := by
    rw [List.append_assoc, List.singleton_append, hb]
  have hroom := h.room
  rw [← hall, List.length_append, List.length_append, List.length_singleton] at hroom
  -- seen from the tail, the cell written to comes behind everything in use
  have hcell : e.ring.write (e.ring.head.toNat + e.written.length) [b]
      = e.ring.write
          (e.ring.tail.toNat + ((e.ring.head - e.ring.tail).toNat + e.written.length)) [b] := by
    have hpos : (e.ring.head.toNat + e.written.length) % e.ring.size
        = (e.ring.tail.toNat + ((e.ring.head - e.ring.tail).toNat + e.written.length))
          % e.ring.size := by
      rw [Nat.add_mod, toNat_mod_eq h.dvd e.ring.tail, ← Nat.add_mod, Nat.add_assoc]
    rw [write, write, write, write, hpos]
  have hstream : (e.writeByte b rest).ring.stream e.ring.head = e.ring.stream e.ring.head := by
    rw [Ring.stream, Ring.stream, Exchange.writeByte, tail_write, hcell]
    exact segment_write_behind _ (Nat.le_add_right _ _) (by rw [List.length_singleton]; omega)
  refine ⟨?_, ?_, ?_, fun _ => ?_, ?_, ?_, h.records, h.produced, h.faultless, ?_⟩
  · rw [Exchange.writeByte, size_write]
    exact h.dvd
  · rw [Exchange.writeByte, size_write]
    exact h.small
  · simp only [Exchange.writeByte, size_write, head_write, tail_write, hall]
    exact h.room
  · have := h.inHand (by rw [hb]; simp)
    rwa [← hall] at this
  · simp only [Exchange.writeByte, head_write, List.length_append, List.length_singleton]
    rw [segment_add, segment_write_behind _ (Nat.le_refl _) (by rw [List.length_singleton]; omega),
      h.behind]
    exact congrArg (e.written ++ ·)
      (segment_write_self e.ring (by rw [List.length_singleton]; omega))
  · have : (e.writeByte b rest).ring.head = e.ring.head := head_write _ _ _
    rw [this, hstream]
    exact h.stream
  · have : (e.writeByte b rest).ring.tail = e.ring.tail := tail_write _ _ _
    rw [this]
    exact h.stage

/-- **Publishing the record in hand puts it behind those to be read.** -/
theorem publish (h : e.Sound passed unread) (hall : e.unwritten = []) (hsome : e.written ≠ []) :
    e.publish.Sound passed (unread ++ [e.written]) := by
  have hinHand : e.written ++ e.unwritten = e.written := by rw [hall, List.append_nil]
  have hroom := h.room
  have hsmall := h.small
  rw [hinHand] at hroom
  have hlen : (e.publish.ring.head - e.publish.ring.tail).toNat
      = (e.ring.head - e.ring.tail).toNat + e.written.length := by
    change (e.ring.head + UInt64.ofNat e.written.length - e.ring.tail).toNat = _
    exact toNat_add_sub (by omega)
  refine ⟨h.dvd, h.small, ?_, fun hne => absurd hall ?_, rfl, ?_, fun b hb => ?_, ?_, h.faultless,
    ?_⟩
  · rw [hlen]
    change _ + (([] : Bytes) ++ e.unwritten).length ≤ _
    rw [hall]
    exact hroom
  · exact hne
  · rw [Ring.stream, hlen]
    change e.ring.segment e.ring.tail.toNat _ = _
    rw [segment_add, segment_congr (toNat_mod_eq h.dvd e.ring.tail e.ring.head).symm, h.behind,
      List.flatten_append, List.flatten_singleton, ← h.stream]
    rfl
  · rcases List.mem_append.mp hb with hb | hb
    · exact h.records b hb
    · obtain rfl := List.mem_singleton.mp hb
      have := h.inHand (by rw [hinHand]; exact hsome)
      rwa [hinHand] at this
  · change e.produced ++ [e.written] = _
    rw [h.produced, List.append_assoc]
  · exact h.stage.append [e.written]

/-! ### The consumer -/

/-- A consumer step that leaves the ring alone only has to come to a stage that fits. -/
theorem restage (h : e.Sound passed unread) {stage : Stage} {delivered due : List Bytes}
    (hs : stage.At e.ring.tail delivered due passed unread) :
    Sound { e with stage, delivered, due } passed unread :=
  { h with stage := hs }

/-- **Setting out**, a drain is due to deliver whatever lies in the ring. -/
theorem consume_idle (h : e.Sound passed unread) (hs : e.stage = .idle) :
    e.consume.Sound passed unread := by
  have hstage := h.stage
  rw [hs] at hstage
  obtain ⟨hdelivered, -⟩ := hstage
  have hpos : e.ring.size ≠ 0 := fun hz => by have := h.dvd; rw [hz] at this; omega
  simp only [Exchange.consume, hs]
  refine h.restage ?_
  by_cases htail : e.ring.tail = e.ring.head
  · -- nothing lies between tail and head, so nothing is to be read
    have hnil : unread = [] := eq_nil_of_length_flatten h.records <| by
      rw [← h.stream, length_stream, htail, UInt64.sub_self]
      rfl
    rw [if_pos (Or.inl htail), h.produced, hnil, List.append_nil]
    exact ⟨hdelivered, rfl⟩
  · rw [if_neg (by rintro (ht | hz); exacts [htail ht, hpos hz])]
    refine ⟨unread, hdelivered, h.produced, List.prefix_rfl, ?_⟩
    rw [← h.stream, length_stream]

/-- The bytes before the limit of a drain are the records it has still to come by. -/
theorem stream_eq_flatten (h : e.Sound passed unread) {limit : UInt64} {now : List Bytes}
    (ha : Ahead e.ring.tail limit now unread) : e.ring.stream limit = now.flatten := by
  obtain ⟨later, hunread⟩ := ha.isPrefix
  have hstream := h.stream
  rw [← hunread, List.flatten_append] at hstream
  have hle : (limit - e.ring.tail).toNat ≤ (e.ring.head - e.ring.tail).toNat := by
    rw [ha.length, ← length_stream, hstream, List.length_append]
    exact Nat.le_add_right _ _
  rw [← take_stream hle, hstream, ha.length, List.take_left]

/-- A record that lies in the ring fits into it. -/
theorem length_le_size (h : e.Sound passed unread) {record : Bytes} (hm : record ∈ unread) :
    record.length ≤ e.ring.size := by
  have hroom := h.room
  have hlen : record.length ≤ unread.flatten.length := (List.sublist_flatten_of_mem hm).length_le
  rw [← h.stream, length_stream] at hlen
  omega

/-- **Looking at the tail**, a drain is through, or it reads the size of the next record. -/
theorem consume_seeking (h : e.Sound passed unread) {limit : UInt64}
    (hs : e.stage = .seeking limit) :
    (e.consume = { e with stage := .idle } ∧ e.delivered = passed ∧ e.due = passed) ∨
      ∃ record now, e.consume = { e with stage := .framed limit record.length } ∧
        e.delivered = passed ∧ e.due = passed ++ record :: now ∧
        Ahead e.ring.tail limit (record :: now) unread := by
  have hstage := h.stage
  rw [hs] at hstage
  obtain ⟨now, hdelivered, hdue, ha⟩ := hstage
  simp only [Exchange.consume, hs]
  by_cases htail : e.ring.tail = limit
  · have hnil : now = [] := eq_nil_of_length_flatten
      (fun b hb => h.records b (ha.isPrefix.mem hb)) <| by
        rw [← ha.length, htail, UInt64.sub_self]
        rfl
    rw [hnil, List.append_nil] at hdue
    exact .inl ⟨if_pos htail, hdelivered, hdue⟩
  · have hstream := h.stream_eq_flatten ha
    cases now with
    | nil => exact absurd (toNat_sub_eq_zero.mp ha.length) htail
    | cons record now =>
        have hm : record ∈ unread := ha.isPrefix.mem List.mem_cons_self
        rw [List.flatten_cons] at hstream
        rw [if_neg htail, frame_of_stream (h.records record hm) (h.length_le_size hm) hstream]
        exact .inr ⟨record, now, rfl, hdelivered, hdue, ha⟩

/-- **What the visitor is shown is the next record**, whatever was written since its size was read.
-/
theorem segment_eq_record (h : e.Sound passed unread) {limit : UInt64} {record : Bytes}
    {now : List Bytes} (ha : Ahead e.ring.tail limit (record :: now) unread) :
    e.ring.segment e.ring.tail.toNat record.length = record := by
  have hstream := h.stream_eq_flatten ha
  have hle : record.length ≤ (limit - e.ring.tail).toNat := by
    rw [ha.length, List.flatten_cons, List.length_append]
    exact Nat.le_add_right _ _
  rw [← take_segment e.ring _ hle]
  change (e.ring.stream limit).take _ = _
  rw [hstream, List.flatten_cons, List.take_left]

theorem consume_framed (h : e.Sound passed unread) {limit : UInt64} {size : Nat}
    (hs : e.stage = .framed limit size) : e.consume.Sound passed unread := by
  have hstage := h.stage
  rw [hs] at hstage
  obtain ⟨record, now, hdelivered, hdue, ha, rfl⟩ := hstage
  simp only [Exchange.consume, hs]
  refine h.restage ⟨record, now, ?_, hdue, ha, rfl⟩
  rw [h.segment_eq_record ha, hdelivered]

/-- **Moving the tail passes one record by.** -/
theorem consume_visiting (h : e.Sound passed unread) {limit : UInt64} {size : Nat}
    (hs : e.stage = .visiting limit size) :
    ∃ record rest, unread = record :: rest ∧ e.consume.Sound (passed ++ [record]) rest := by
  have hstage := h.stage
  rw [hs] at hstage
  obtain ⟨record, now, hdelivered, hdue, ha, rfl⟩ := hstage
  obtain ⟨later, rfl⟩ := ha.isPrefix
  have hroom := h.room
  have hhead : record.length ≤ (e.ring.head - e.ring.tail).toNat := by
    rw [← length_stream, h.stream, List.cons_append, List.flatten_cons, List.length_append]
    exact Nat.le_add_right _ _
  have hlimit : record.length ≤ (limit - e.ring.tail).toNat := by
    rw [ha.length, List.flatten_cons, List.length_append]
    exact Nat.le_add_right _ _
  refine ⟨record, now ++ later, rfl, ?_⟩
  simp only [Exchange.consume, hs]
  refine ⟨h.dvd, h.small, ?_, h.inHand, h.behind, ?_, fun b hb => ?_, ?_, h.faultless, ?_⟩
  · change (e.ring.head - (e.ring.tail + UInt64.ofNat record.length)).toNat + _ ≤ _
    rw [toNat_sub_add hhead]
    exact Nat.le_trans (Nat.add_le_add_right (Nat.sub_le _ _) _) hroom
  · rw [stream_advance (.inl h.dvd) hhead, h.stream, List.cons_append, List.flatten_cons,
      List.drop_left]
  · exact h.records b (List.mem_cons_of_mem _ hb)
  · rw [List.append_assoc]
    exact h.produced
  · refine ⟨now, hdelivered, ?_, List.prefix_append _ _, ?_⟩
    · rw [List.append_assoc]
      exact hdue
    · rw [toNat_sub_add hlimit, ha.length, List.flatten_cons, List.length_append,
        Nat.add_sub_cancel_left]

/-- What was shown is the first of what was produced, the record under visit included. -/
theorem delivered_isPrefix (h : e.Sound passed unread) : e.delivered <+: e.produced := by
  have hat := h.stage
  rw [h.produced]
  cases hs : e.stage with
  | idle =>
      rw [hs] at hat
      exact hat.1 ▸ List.prefix_append _ _
  | seeking limit =>
      rw [hs] at hat
      obtain ⟨now, hd, -⟩ := hat
      exact hd ▸ List.prefix_append _ _
  | framed limit size =>
      rw [hs] at hat
      obtain ⟨record, now, hd, -⟩ := hat
      exact hd ▸ List.prefix_append _ _
  | visiting limit size =>
      rw [hs] at hat
      obtain ⟨record, now, hd, -, ha, -⟩ := hat
      obtain ⟨later, rfl⟩ := ha.isPrefix
      refine ⟨now ++ later, ?_⟩
      rw [hd, List.append_assoc]
      rfl

/-! ### Any step -/

/-- **Every step of either side keeps an exchange sound.** -/
theorem step (h : e.Sound passed unread) {e' : Exchange} (hstep : Step e e') :
    ∃ passed' unread', e'.Sound passed' unread' := by
  cases hstep with
  | take hrecord hfree hroom => exact ⟨_, _, h.take hrecord hfree.1 hroom⟩
  | writeByte hb => exact ⟨_, _, h.writeByte hb⟩
  | publish hall hsome => exact ⟨_, _, h.publish hall hsome⟩
  | consume =>
      cases hs : e.stage with
      | idle => exact ⟨_, _, h.consume_idle hs⟩
      | seeking limit =>
          rcases h.consume_seeking hs with ⟨heq, hd, hdue⟩ | ⟨record, now, heq, hd, hdue, ha⟩
          · rw [heq]
            refine ⟨passed, unread, h.restage ?_⟩
            exact ⟨hd, hdue⟩
          · rw [heq]
            refine ⟨passed, unread, h.restage ?_⟩
            exact ⟨record, now, hd, hdue, ha, rfl⟩
      | framed limit size => exact ⟨_, _, h.consume_framed hs⟩
      | visiting limit size =>
          obtain ⟨record, rest, -, hnext⟩ := h.consume_visiting hs
          exact ⟨_, _, hnext⟩

theorem reaches (h : e.Sound passed unread) {e' : Exchange} (hreach : Reaches e e') :
    ∃ passed' unread', e'.Sound passed' unread' := by
  induction hreach with
  | refl => exact ⟨_, _, h⟩
  | tail _ hstep ih =>
      obtain ⟨_, _, hmid⟩ := ih
      exact hmid.step hstep

/-! ### Coming to the end of a drain -/

/-- **Every step of the consumer brings a drain closer to its end.** -/
theorem remaining_consume (h : e.Sound passed unread) (hs : e.stage ≠ .idle) :
    e.consume.remaining + 1 = e.remaining := by
  cases hstage : e.stage with
  | idle => exact absurd hstage hs
  | seeking limit =>
      rcases h.consume_seeking hstage with ⟨heq, hd, hdue⟩ | ⟨record, now, heq, hd, hdue, -⟩
      · simp only [heq, remaining, hstage, hd, hdue, Nat.sub_self]
      · simp only [heq, remaining, hstage]
  | framed limit size =>
      have hat := h.stage
      rw [hstage] at hat
      obtain ⟨record, now, hd, hdue, -, -⟩ := hat
      simp only [Exchange.consume, remaining, hstage, hd, hdue, List.length_append,
        List.length_cons, List.length_nil]
      omega
  | visiting limit size => simp only [Exchange.consume, remaining, hstage]

end Sound

/-- Only the consumer gets a drain closer to its end; the producer does not delay it. -/
theorem remaining_step {e e' : Exchange} (h : Step e e') :
    e' = e.consume ∨ e'.remaining = e.remaining := by
  cases h with
  | consume => exact .inl rfl
  | _ => exact .inr rfl

theorem size_step {e e' : Exchange} (h : Step e e') : e'.ring.size = e.ring.size := by
  cases h with
  | take => rfl
  | writeByte => exact size_write _ _ _
  | publish => rfl
  | consume =>
      unfold consume
      split
      · rfl
      · split
        · rfl
        · split <;> rfl
      · rfl
      · rfl

theorem size_reaches {e e' : Exchange} (h : Reaches e e') : e'.ring.size = e.ring.size := by
  induction h with
  | refl => rfl
  | tail _ hstep ih => exact (size_step hstep).trans ih

/-! ## Steps that nothing falls between -/

/-- The bytes still to be written go in behind those that are there. -/
theorem reaches_written (rest : Bytes) : ∀ e : Exchange, e.unwritten = rest →
    Reaches e
      { e with
        ring := e.ring.write (e.ring.head.toNat + e.written.length) rest
        written := e.written ++ rest
        unwritten := [] } := by
  induction rest with
  | nil =>
      intro e hrest
      rw [List.append_nil, write, ← hrest]
      exact .refl
  | cons b rest ih =>
      intro e hrest
      refine .head (.writeByte hrest) ?_
      have hnext := ih (e.writeByte b rest) rfl
      simp only [writeByte, head_write, List.length_append, List.length_singleton,
        List.append_assoc, List.singleton_append] at hnext
      exact hnext

/-- **A record produced at one go is appended.** -/
theorem reaches_append {e : Exchange} {record : Bytes} (hrecord : IsRecord record)
    (hw : e.written = []) (hu : e.unwritten = [])
    (hroom : record.length + (e.ring.head - e.ring.tail).toNat ≤ e.ring.size) :
    Reaches e { e with ring := e.ring.append record, produced := e.produced ++ [record] } := by
  obtain ⟨ring, stage, written, unwritten, produced, delivered, due, faults⟩ := e
  obtain rfl : written = [] := hw
  obtain rfl : unwritten = [] := hu
  have hsome : record ≠ [] := by
    rintro rfl
    exact absurd hrecord.1 (by decide)
  have hdone := reaches_written record (take ⟨ring, stage, [], [], produced, delivered, due, faults⟩
    record) rfl
  refine .head (.take hrecord ⟨rfl, rfl⟩ hroom) (.tail hdone ?_)
  have hlast := Step.publish (e := ⟨ring.write ring.head.toNat record, stage, record, [], produced,
    delivered, due, faults⟩) rfl hsome
  simp only [publish, head_write] at hlast
  exact hlast

/-- The consumer may take any number of steps in a row. -/
theorem reaches_consume_iterate (e : Exchange) : ∀ k, Reaches e (consume^[k] e)
  | 0 => .refl
  | k + 1 => by
      rw [Function.iterate_succ_apply']
      exact (reaches_consume_iterate e k).tail .consume

/-- A visitor who keeps what it is shown. -/
def keeper : Visitor (List Bytes) := fun record ring seen => (ring.head, seen ++ [record])

theorem showTo_keeper (r : Ring) (found : List (UInt64 × Bytes)) (seen : List Bytes) :
    showTo keeper r found seen = (r.head, seen ++ found.map Prod.snd) := by
  induction found generalizing seen with
  | nil => rw [List.map_nil, List.append_nil]; rfl
  | cons x found ih =>
      have hnext := ih (seen ++ [x.2])
      rw [List.append_assoc, List.singleton_append] at hnext
      exact hnext

/-- A drain that is under way takes three steps for every record of the scan, and one to see that it
is through. -/
theorem consume_iterate_scan (limit : UInt64) (r : Ring) : ∀ e : Exchange, e.ring = r →
    e.stage = .seeking limit →
    consume^[3 * (scan limit r).1.length + 1] e =
      { e with
        ring := { r with tail := limit }
        stage := .idle
        delivered := e.delivered ++ (scan limit r).1.map Prod.snd
        faults := e.faults ++ (scan limit r).2.toList } := by
  fun_induction scan limit r with
  | case1 r h =>
      rintro e rfl hs
      change e.consume = _
      obtain rfl := h
      simp only [consume, hs, if_true, Option.toList_none, List.map_nil, List.append_nil]
  | case2 r h fault hf =>
      rintro e rfl hs
      change e.consume = _
      simp only [consume, hs, if_neg h, hf, Option.toList_some, List.map_nil, List.append_nil]
  | case3 r h size hf rest ih =>
      rintro e rfl hs
      -- one record takes three steps
      have hthree : consume^[3] e =
          { e with
            ring := { e.ring with tail := e.ring.tail + UInt64.ofNat size }
            stage := .seeking limit
            delivered := e.delivered ++ [e.ring.segment e.ring.tail.toNat size] } := by
        have hone : e.consume = { e with stage := .framed limit size } := by
          simp only [consume, hs, if_neg h, hf]
        rw [Function.iterate_succ_apply, hone]
        rfl
      rw [List.length_cons, show 3 * (rest.1.length + 1) + 1 = 3 * rest.1.length + 1 + 3 by omega,
        Function.iterate_add_apply, hthree, ih _ rfl rfl, List.map_cons, List.append_assoc,
        List.singleton_append]

/-- **Consumer steps that nothing falls between are a drain**, shown to a visitor who keeps what it
is shown. -/
theorem consume_iterate_eq_drain {e : Exchange} (hs : e.stage = .idle) :
    ∃ k, consume^[k] e =
      match e.ring.drain keeper e.delivered with
      | none => { e with due := e.produced }
      | some d =>
          { e with
            ring := d.ring
            delivered := d.state
            due := e.produced
            faults := e.faults ++ d.fault.toList } := by
  by_cases hgo : e.ring.tail = e.ring.head ∨ e.ring.size = 0
  · refine ⟨1, ?_⟩
    rw [drain, if_pos hgo, Function.iterate_one, consume, hs]
    simp only [if_pos hgo, ← hs]
  · refine ⟨3 * (scan e.ring.head e.ring).1.length + 1 + 1, ?_⟩
    have hout : e.consume = { e with due := e.produced, stage := .seeking e.ring.head } := by
      simp only [consume, hs, if_neg hgo]
    have hscan := consume_iterate_scan e.ring.head e.ring
      { e with due := e.produced, stage := .seeking e.ring.head } rfl rfl
    have hdrain := drainTo_eq_scan keeper e.ring.head e.ring e.ring.head 0 e.delivered
    rw [showTo_keeper] at hdrain
    rw [Function.iterate_succ_apply, hout, hscan, drain, if_neg hgo, hdrain, hs]

end Exchange

/-! ## Delivery -/

/-- **Every record produced is delivered once, in order and unaltered.**  A ring starts out empty,
and its cells fit both the positions and an address.  However producer and consumer steps fall
between each other from then on: what lies in the ring never exceeds it; the records shown to the
visitor are the first of those produced; the bytes of a record under visit stay what the visitor was
shown; a drain comes to its end, whatever is produced meanwhile, with everything delivered that had
been produced when it set out; and none ends early.  Consumer steps are those of a drain: from where
none is under way, as many of them as it takes do what `drain` does. -/
theorem delivered_exactly_once {r : Ring} (hdvd : r.size ∣ 2 ^ 64) (hsmall : r.size < 2 ^ 64)
    (hempty : r.tail = r.head) {e : Exchange} (h : Exchange.Reaches { ring := r } e) :
    (e.ring.head - e.ring.tail).toNat ≤ r.size ∧
    e.delivered <+: e.produced ∧
    (∀ limit size, e.stage = .visiting limit size →
      e.delivered.getLast? = some (e.ring.segment e.ring.tail.toNat size)) ∧
    (e.stage = .idle → e.delivered = e.due) ∧
    (e.stage ≠ .idle → e.consume.remaining < e.remaining ∧
      ∀ e', e.Step e' → e' = e.consume ∨ e'.remaining = e.remaining) ∧
    e.faults = [] ∧
    (e.stage = .idle → ∃ k, Exchange.consume^[k] e =
      match e.ring.drain Exchange.keeper e.delivered with
      | none => { e with due := e.produced }
      | some d =>
          { e with
            ring := d.ring
            delivered := d.state
            due := e.produced
            faults := e.faults ++ d.fault.toList }) := by
  obtain ⟨passed, unread, hsound⟩ := (Exchange.Sound.of_empty hdvd hsmall hempty).reaches h
  have hsize : e.ring.size = r.size := Exchange.size_reaches h
  have hat := hsound.stage
  refine ⟨?_, ?_, fun limit size hs => ?_, fun hs => ?_, fun hs => ?_, hsound.faultless,
    Exchange.consume_iterate_eq_drain⟩
  · exact Nat.le_trans (Nat.le_add_right _ _) (hsize ▸ hsound.room)
  · exact hsound.delivered_isPrefix
  · rw [hs] at hat
    obtain ⟨record, now, hdelivered, -, hahead, rfl⟩ := hat
    rw [hsound.segment_eq_record hahead, hdelivered, List.getLast?_concat]
  · rw [hs] at hat
    exact hat.1.trans hat.2.symm
  · have hnext := hsound.remaining_consume hs
    exact ⟨by omega, fun e' hstep => Exchange.remaining_step hstep⟩

/-- A ring of sixteen bytes.  While the first record is read, the second is written, one byte of it
before the visit and the others after; it lies across the end of the ring, header and all.  The
drain under way leaves it for the next one. -/
theorem delivered_exactly_once_in_visit :
    let r : Ring := { zero 16 with head := 4, tail := 4 }
    let first : Bytes := [9, 0, 0, 0, 0, 0, 8, 0]
    let second : Bytes := [7, 0, 0, 0, 0, 0, 8, 0]
    ∃ e e' : Exchange, Exchange.Reaches { ring := r } e ∧ Exchange.Reaches e e' ∧
      e.stage = .idle ∧ e.delivered = [first] ∧ e.produced = [first, second] ∧
      e'.stage = .visiting 20 8 ∧ e'.ring.tail = 12 ∧ e'.delivered = [first, second] ∧
      e'.delivered.getLast? = some (e'.ring.segment e'.ring.tail.toNat 8) ∧ e'.faults = [] := by
  intro r first second
  have hfirst : IsRecord first := by decide
  have hsecond : IsRecord second := by decide
  let framed : Exchange := Exchange.consume^[2] { ring := r.append first, produced := [first] }
  have hframed : Exchange.Reaches { ring := r } framed :=
    (Exchange.reaches_append hfirst rfl rfl (by decide +kernel)).trans
      (Exchange.reaches_consume_iterate _ 2)
  let begun : Exchange := (framed.take second).writeByte 7 second.tail
  have hbegun : Exchange.Reaches { ring := r } begun :=
    (hframed.tail (.take hsecond (by decide +kernel) (by decide +kernel))).tail (.writeByte rfl)
  -- the visit falls between the first byte and the others
  have hwritten := (hbegun.tail .consume).trans
    (Exchange.reaches_written second.tail _ (by decide +kernel))
  have hdrained := (hwritten.tail (.publish rfl (by decide +kernel))).trans
    (Exchange.reaches_consume_iterate _ 2)
  have hvisit := hdrained.trans (Exchange.reaches_consume_iterate _ 3)
  obtain ⟨-, -, -, hdue, -⟩ :=
    delivered_exactly_once (r := r) (by decide) (by decide) rfl hdrained
  obtain ⟨-, -, hshown, -, -, hfaults, -⟩ :=
    delivered_exactly_once (r := r) (by decide) (by decide) rfl hvisit
  exact ⟨_, _, hdrained, Exchange.reaches_consume_iterate _ 3, by decide +kernel,
    (hdue (by decide +kernel)).trans (by decide +kernel), by decide +kernel, by decide +kernel,
    by decide +kernel, by decide +kernel, hshown 20 8 (by decide +kernel), hfaults⟩

end CounterWatch.Ring
