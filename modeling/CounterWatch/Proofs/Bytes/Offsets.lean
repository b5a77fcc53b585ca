import CounterWatch.Bytes
import Mathlib.Algebra.Group.Nat.Defs
import Mathlib.Data.List.Basic

/-!
# Proofs/Bytes/Offsets — words at their places

The words of a byte list are those at the multiples of eight, and writing them down again gives the
bytes they were read from.

* `wordAt` — the word at an offset; `take_words` says which offsets those of `words` are.
* `ofWords_take_words` — words that were read are written as they stood.
-/

namespace CounterWatch.Bytes

/-- The 64-bit word at an offset. -/
def wordAt (b : Bytes) (offset : Nat) : UInt64 := UInt64.ofNat (toNat ((b.drop offset).take 8))

theorem toNat_lt : ∀ b : Bytes, toNat b < 256 ^ b.length
  | [] => Nat.one_pos
  | b :: rest => by
      have hb := b.toNat_lt
      have hrest := toNat_lt rest
      simp only [toNat, List.length_cons, Nat.pow_succ]
      omega

/-- The first bytes of a number are what its last places leave. -/
theorem toNat_take : ∀ (n : Nat) (b : Bytes), toNat (b.take n) = toNat b % 256 ^ n
  | 0, b => by simp [toNat, Nat.mod_one]
  | n + 1, [] => by simp [toNat]
  | n + 1, b :: rest => by
      have hb := b.toNat_lt
      have hrest : (b.toNat + 256 * toNat rest) / 256 = toNat rest := by omega
      have hlow : (b.toNat + 256 * toNat rest) % 256 = b.toNat := by omega
      simp only [List.take_succ_cons, toNat, toNat_take n rest, Nat.pow_succ', Nat.mod_mul, hrest,
        hlow]

/-- The word at an offset is the number of the eight bytes there, or of those that are left. -/
theorem toNat_wordAt (b : Bytes) (offset : Nat) :
    (b.wordAt offset).toNat = toNat ((b.drop offset).take 8) := by
  have hlt := toNat_lt ((b.drop offset).take 8)
  have hpow : 256 ^ ((b.drop offset).take 8).length ≤ 256 ^ 8 :=
    Nat.pow_le_pow_right (by decide) (List.length_take_le 8 _)
  rw [wordAt, UInt64.toNat_ofNat']
  exact Nat.mod_eq_of_lt (by omega)

theorem take_drop_append {b : Bytes} {offset width : Nat} (h : offset + width ≤ b.length)
    (more : Bytes) : ((b ++ more).drop offset).take width = (b.drop offset).take width := by
  rw [List.drop_append_of_le_length (by omega),
    List.take_append_of_le_length (by rw [List.length_drop]; omega)]

theorem wordAt_drop (b : Bytes) (n offset : Nat) :
    wordAt (b.drop n) offset = b.wordAt (n + offset) := by
  rw [wordAt, wordAt, List.drop_drop]

/-- The words of bytes are the first eight bytes and the words of the rest. -/
theorem words_of_le {b : Bytes} (h : 8 ≤ b.length) : words b = wordAt b 0 :: words (b.drop 8) := by
  match b, h with
  | _ :: _ :: _ :: _ :: _ :: _ :: _ :: _ :: _, _ => rfl

theorem map_wordAt_range_succ (b : Bytes) (n : Nat) :
    ((List.range (n + 1)).map fun i => b.wordAt (8 * i))
      = b.wordAt 0 :: (List.range n).map fun i => wordAt (b.drop 8) (8 * i) := by
  rw [List.range_succ_eq_map, List.map_cons, List.map_map]
  refine congrArg (b.wordAt 0 :: ·) (List.map_congr_left fun i _ => ?_)
  rw [Function.comp_apply, wordAt_drop, Nat.mul_succ, Nat.add_comm]

/-- **The words are those at the multiples of eight.** -/
theorem take_words : ∀ {n : Nat} {b : Bytes}, 8 * n ≤ b.length →
    (words b).take n = (List.range n).map fun i => b.wordAt (8 * i)
  | 0, b, _ => rfl
  | n + 1, b, h => by
      have hrest : 8 * n ≤ (b.drop 8).length := by rw [List.length_drop]; omega
      rw [words_of_le (by omega), List.take_succ_cons, take_words hrest, map_wordAt_range_succ]

/-! ## Writing what was read -/

/-- **The number that bytes spell is written as those bytes.** -/
theorem ofNat_toNat : ∀ b : Bytes, ofNat b.length (toNat b) = b
  | [] => rfl
  | b :: rest => by
      have hb := b.toNat_lt
      have hlow : UInt8.ofNat (b.toNat + 256 * toNat rest) = b := by
        refine UInt8.toNat_inj.mp ?_
        rw [UInt8.toNat_ofNat']
        omega
      have hrest : (b.toNat + 256 * toNat rest) / 256 = toNat rest := by omega
      rw [List.length_cons, toNat, ofNat, hlow, hrest, ofNat_toNat rest]

/-- A word that was read whole is written back as the bytes it was read from. -/
theorem ofWord_wordAt {b : Bytes} {offset : Nat} (h : offset + 8 ≤ b.length) :
    ofWord (b.wordAt offset) = (b.drop offset).take 8 := by
  have hlength : ((b.drop offset).take 8).length = 8 := by
    rw [List.length_take, List.length_drop]
    omega
  have hwritten := ofNat_toNat ((b.drop offset).take 8)
  rw [hlength] at hwritten
  rw [ofWord, toNat_wordAt, hwritten]

/-- Words read one behind the other are written back as the bytes they were read from. -/
theorem ofWords_map_wordAt : ∀ {n : Nat} {b : Bytes}, 8 * n ≤ b.length →
    ofWords ((List.range n).map fun i => b.wordAt (8 * i)) = b.take (8 * n)
  | 0, b, _ => rfl
  | n + 1, b, h => by
      have hrest : 8 * n ≤ (b.drop 8).length := by rw [List.length_drop]; omega
      rw [map_wordAt_range_succ, ofWords, List.flatMap_cons, ← ofWords, ofWords_map_wordAt hrest,
        ofWord_wordAt (by omega), List.drop_zero, ← List.take_add, Nat.mul_succ, Nat.add_comm]

/-- **Words that were read are written as they stood.** -/
theorem ofWords_take_words {n : Nat} {b : Bytes} (h : 8 * n ≤ b.length) :
    ofWords ((words b).take n) = b.take (8 * n) := by
  rw [take_words h, ofWords_map_wordAt h]

end CounterWatch.Bytes
