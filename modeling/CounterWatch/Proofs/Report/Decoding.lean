import CounterWatch.Proofs.Bytes.Offsets
import CounterWatch.Report

/-!
# Proofs/Report/Decoding — which bytes are a report

A report is told by the number it announces: there has to be room for that many counts behind the
three first words.  Nothing behind the counts is looked at, and nothing outside the bytes.

* `IsComplete`, `carried` — the bytes that are a report, and what they report, by offsets.
* `decode_eq` — they are those that are decoded.
* `walk?` — decoding as a walk through the bytes that may run beyond their end; `walk?_eq`.
* `decode_encode_append`, `encode_carried` — writing and decoding undo each other.
* `decodes_exactly` — all of it.
-/

namespace CounterWatch.Report

/-! ## Complete reports -/

/-- The number of counts that bytes announce. -/
def announced (b : Bytes) : Nat := Bytes.toNat (b.take 8)

/-- Bytes are a report if they have room for three words, and for as many more as they announce. -/
def IsComplete (b : Bytes) : Prop := 24 ≤ b.length ∧ 24 + 8 * announced b ≤ b.length

instance (b : Bytes) : Decidable (IsComplete b) := inferInstanceAs (Decidable (_ ∧ _))

/-- What bytes report that are a report: the words behind the first one, in their places. -/
def carried (b : Bytes) : Report where
  timeEnabled := b.wordAt 8
  timeRunning := b.wordAt 16
  counts := (List.range (announced b)).map fun i => b.wordAt (24 + 8 * i)

theorem toNat_wordAt_zero (b : Bytes) : (b.wordAt 0).toNat = announced b := Bytes.toNat_wordAt b 0

/-- Bytes with room for three words are these, and others. -/
theorem words_of_room {b : Bytes} (h : 24 ≤ b.length) :
    Bytes.words b
      = b.wordAt 0 :: b.wordAt 8 :: b.wordAt 16 :: Bytes.words (b.drop 24) := by
  rw [Bytes.words_of_le (by omega), Bytes.words_of_le (by rw [List.length_drop]; omega),
    Bytes.words_of_le (by simp only [List.length_drop]; omega)]
  simp only [Bytes.wordAt_drop, List.drop_drop, Nat.add_zero, Nat.reduceAdd]

theorem take_words_of_isComplete {b : Bytes} (h : IsComplete b) :
    (Bytes.words (b.drop 24)).take (announced b) = (carried b).counts := by
  rw [Bytes.take_words (by rw [List.length_drop]; have := h.2; omega)]
  simp only [Bytes.wordAt_drop, carried]

/-- **Bytes are decoded just when they are a report**, and then into what they report; otherwise
three words are not there, or the counts are not. -/
theorem decode_eq (b : Bytes) :
    decode b = if IsComplete b then .ok (carried b)
      else if b.length < 24 then .error .truncated
      else .error (.tooMany (b.wordAt 0) b.length) := by
  by_cases hroom : 24 ≤ b.length
  · have hguard : announced b ≤ (Bytes.words (b.drop 24)).length ↔ IsComplete b := by
      rw [Bytes.length_words, List.length_drop, IsComplete]
      omega
    rw [decode, words_of_room hroom]
    dsimp only
    rw [toNat_wordAt_zero]
    by_cases h : IsComplete b
    · rw [if_pos (hguard.mpr h), if_pos h, take_words_of_isComplete h]
      rfl
    · rw [if_neg (mt hguard.mp h), if_neg h, if_neg (by omega)]
  · have hlength : (Bytes.words b).length < 3 := by rw [Bytes.length_words]; omega
    rw [if_neg fun h => hroom h.1, if_pos (by omega), decode]
    match Bytes.words b, hlength with
    | [], _ | [_], _ | [_, _], _ => rfl

theorem decode_of_isComplete {b : Bytes} (h : IsComplete b) : decode b = .ok (carried b) := by
  rw [decode_eq, if_pos h]

/-- What is decoded was complete, and is what it carried. -/
theorem isComplete_of_decode {b : Bytes} {r : Report} (h : decode b = .ok r) :
    IsComplete b ∧ r = carried b := by
  rw [decode_eq] at h
  split_ifs at h with hcomplete
  exact ⟨hcomplete, (Except.ok.inj h).symm⟩

/-! ## Walking through the bytes -/

/-- Takes a word off the front; none if it reaches beyond the end. -/
def readWord? (b : Bytes) : Option (UInt64 × Bytes) :=
  if 8 ≤ b.length then some (b.wordAt 0, b.drop 8) else none

/-- Takes so many words off the front; none if one of them reaches beyond the end. -/
def readWords? : (count : Nat) → Bytes → Option (List UInt64)
  | 0, _ => some []
  | count + 1, b => do
      let (word, rest) ← readWord? b
      let words ← readWords? count rest
      return word :: words

/-- **Decoding in one walk through the bytes**: the number of counts, compared with the number of
whole words there are, the two times, the counts.  None if the walk leaves the bytes. -/
def walk? (b : Bytes) : Option (Except Fault Report) :=
  if b.length < 24 then some (.error .truncated)
  else do
    let (nr, rest) ← readWord? b
    if b.length / 8 - 3 < nr.toNat then return .error (.tooMany nr b.length)
    let (timeEnabled, rest) ← readWord? rest
    let (timeRunning, rest) ← readWord? rest
    let counts ← readWords? nr.toNat rest
    return .ok { timeEnabled, timeRunning, counts }

/-- Reading a word behind an offset needs eight bytes there. -/
theorem readWord?_drop {b : Bytes} {offset : Nat} (h : offset + 8 ≤ b.length) :
    readWord? (b.drop offset) = some (b.wordAt offset, b.drop (offset + 8)) := by
  rw [readWord?, if_pos (by rw [List.length_drop]; omega), Bytes.wordAt_drop, List.drop_drop]
  rfl

theorem readWords?_of_le : ∀ {count : Nat} {b : Bytes}, 8 * count ≤ b.length →
    readWords? count b = some ((List.range count).map fun i => b.wordAt (8 * i))
  | 0, _, _ => rfl
  | count + 1, b, h => by
      have hrest : 8 * count ≤ (b.drop 8).length := by rw [List.length_drop]; omega
      rw [readWords?, readWord?, if_pos (by omega), Bytes.map_wordAt_range_succ]
      simp only [Option.bind_eq_bind, Option.bind_some, readWords?_of_le hrest]
      rfl

/-- **The walk never leaves the bytes**, and finds what they report if they are a report. -/
theorem walk?_eq (b : Bytes) : walk? b = some (decode b) := by
  rw [walk?, decode_eq]
  by_cases hroom : b.length < 24
  · rw [if_pos hroom, if_neg fun h => absurd h.1 (by omega), if_pos hroom]
  · have hfirst : readWord? b = some (b.wordAt 0, b.drop 8) := if_pos (by omega)
    rw [if_neg hroom]
    simp (disch := omega) only [hfirst, readWord?_drop, Option.bind_eq_bind, Option.bind_some,
      toNat_wordAt_zero]
    by_cases h : IsComplete b
    · have hfits := h.2
      have hroom : 8 * announced b ≤ (b.drop 24).length := by rw [List.length_drop]; omega
      have hcounts := readWords?_of_le hroom
      simp only [Bytes.wordAt_drop] at hcounts
      rw [if_neg (by omega), if_pos h]
      simp only [Nat.reduceAdd, hcounts, Option.bind_some]
      rfl
    · have hmany : b.length / 8 - 3 < announced b := by
        have hshort : ¬ (24 ≤ b.length ∧ 24 + 8 * announced b ≤ b.length) := h
        omega
      rw [if_pos hmany, if_neg h, if_neg hroom]
      rfl

/-! ## Writing -/

/-- **A written report is read back**, whatever follows it, if a word can tell the number of its
counts. -/
theorem decode_encode_append {r : Report} (h : r.counts.length < 2 ^ 64) (trailing : Bytes) :
    decode (encode r ++ trailing) = .ok r := by
  have hnumber : (UInt64.ofNat r.counts.length).toNat = r.counts.length := by
    rw [UInt64.toNat_ofNat']
    exact Nat.mod_eq_of_lt h
  rw [decode, encode, Bytes.words_ofWords_append]
  simp only [List.cons_append, hnumber, List.length_append, Nat.le_add_right, if_true,
    List.take_left]

/-- **What bytes report is written as they begin.** -/
theorem encode_carried {b : Bytes} (h : IsComplete b) :
    encode (carried b) = b.take (24 + 8 * announced b) := by
  have hroom := h.1
  have hcount : (carried b).counts.length = announced b := by simp [carried]
  have hfirst : UInt64.ofNat (carried b).counts.length = b.wordAt 0 := by
    rw [hcount, ← toNat_wordAt_zero, UInt64.ofNat_toNat]
  have hwords : b.wordAt 0 :: (carried b).timeEnabled :: (carried b).timeRunning ::
      (carried b).counts = (Bytes.words b).take (announced b + 3) := by
    rw [words_of_room hroom]
    simp only [List.take_succ_cons, take_words_of_isComplete h]
    rfl
  rw [encode, hfirst, hwords, Bytes.ofWords_take_words (by have := h.2; omega), Nat.mul_add,
    Nat.add_comm]

/-- **Decoding is exact and total.**  Bytes are accepted just when they have room for three words
and for as many counts as the first of them announces, as a number that nothing bounds; they are
then decoded into the words in their places, and written again as they begin.  Whatever else there
is, is refused as invalid data.  The walk from word to word never leaves the bytes.  A report that
was written is read back, whatever bytes follow it. -/
theorem decodes_exactly (b : Bytes) :
    ((∃ r, decode b = .ok r) ↔
      24 ≤ b.length ∧ 24 + 8 * Bytes.toNat (b.take 8) ≤ b.length) ∧
    (∀ r, decode b = .ok r → r.timeEnabled = b.wordAt 8 ∧ r.timeRunning = b.wordAt 16 ∧
      r.counts = ((List.range (Bytes.toNat (b.take 8))).map fun i => b.wordAt (24 + 8 * i)) ∧
      encode r <+: b) ∧
    (∀ fault, decode b = .error fault → fault.error.kind = .invalidData) ∧
    walk? b = some (decode b) ∧
    ∀ r : Report, r.counts.length < 2 ^ 64 → ∀ trailing, decode (encode r ++ trailing) = .ok r := by
  refine ⟨⟨?_, fun h => ⟨_, decode_of_isComplete h⟩⟩, fun r h => ?_, fun fault _ => rfl, walk?_eq b,
    fun r h => decode_encode_append h⟩
  · rintro ⟨r, h⟩
    exact (isComplete_of_decode h).1
  · obtain ⟨hcomplete, rfl⟩ := isComplete_of_decode h
    refine ⟨rfl, rfl, rfl, ?_⟩
    rw [encode_carried hcomplete]
    exact List.take_prefix _ _

/-- Two counts, with three bytes behind them. -/
theorem decodes_exactly_before_three_bytes :
    ([7, 9] : List UInt64).length < 2 ^ 64 ∧
      decode (encode ⟨5, 3, [7, 9]⟩ ++ [1, 2, 3]) = .ok ⟨5, 3, [7, 9]⟩ :=
  ⟨by decide, (decodes_exactly []).2.2.2.2 ⟨5, 3, [7, 9]⟩ (by decide) [1, 2, 3]⟩

end CounterWatch.Report
