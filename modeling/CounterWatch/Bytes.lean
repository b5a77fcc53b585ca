/-!
# Bytes — little-endian words inside byte lists

Reports, records and attributes all cross the counter interface as bytes, least significant byte
first.  A byte list is read as whole 64-bit words (`words`) and written word by word (`ofWord`);
reading what was written gives the words back (`words_ofWord_append`), and bytes that do not fill a
word are not read (`length_words`).
-/

namespace CounterWatch

/-- Raw memory, file contents and everything else that is a sequence of bytes. -/
abbrev Bytes := List UInt8

namespace Bytes

/-! ## Numbers -/

/-- The number a byte list spells, least significant byte first. -/
def toNat : Bytes → Nat
  | [] => 0
  | b :: rest => b.toNat + 256 * toNat rest

/-- The lowest `width` bytes of a number, least significant byte first. -/
def ofNat : (width : Nat) → Nat → Bytes
  | 0, _ => []
  | width + 1, n => UInt8.ofNat n :: ofNat width (n / 256)

@[simp] theorem length_ofNat : ∀ (width n : Nat), (ofNat width n).length = width
  | 0, _ => rfl
  | width + 1, n => by simp [ofNat, length_ofNat width]

/-! ## 64-bit words -/

/-- The whole 64-bit words at the start of a byte list; a last incomplete word is left out. -/
def words : Bytes → List UInt64
  | b₀ :: b₁ :: b₂ :: b₃ :: b₄ :: b₅ :: b₆ :: b₇ :: rest =>
      UInt64.ofNat (toNat [b₀, b₁, b₂, b₃, b₄, b₅, b₆, b₇]) :: words rest
  | _ => []

/-- The eight bytes of a word. -/
def ofWord (w : UInt64) : Bytes := ofNat 8 w.toNat

/-- The bytes of a list of words, one after the other. -/
def ofWords (ws : List UInt64) : Bytes := ws.flatMap ofWord

@[simp] theorem length_ofWord (w : UInt64) : (ofWord w).length = 8 := length_ofNat 8 _

/-- The bytes of a word, read as a number, are the word. -/
theorem toNat_ofWord (w : UInt64) : toNat (ofWord w) = w.toNat := by
  have hlt : w.toNat < 18446744073709551616 := w.toNat_lt
  simp only [ofWord, ofNat, toNat, UInt8.toNat_ofNat']
  omega

/-- Words take eight bytes each. -/
@[simp] theorem length_ofWords (ws : List UInt64) : (ofWords ws).length = 8 * ws.length := by
  induction ws with
  | nil => rfl
  | cons w ws ih =>
      simp only [ofWords, List.flatMap_cons, List.length_append, length_ofWord,
        List.length_cons] at ih ⊢
      omega

/-- **Reading a written word back** leaves the rest of the bytes to be read. -/
theorem words_ofWord_append (w : UInt64) (rest : Bytes) :
    words (ofWord w ++ rest) = w :: words rest := by
  have h : ofWord w = [UInt8.ofNat w.toNat, UInt8.ofNat (w.toNat / 256),
      UInt8.ofNat (w.toNat / 256 / 256), UInt8.ofNat (w.toNat / 256 / 256 / 256),
      UInt8.ofNat (w.toNat / 256 / 256 / 256 / 256),
      UInt8.ofNat (w.toNat / 256 / 256 / 256 / 256 / 256),
      UInt8.ofNat (w.toNat / 256 / 256 / 256 / 256 / 256 / 256),
      UInt8.ofNat (w.toNat / 256 / 256 / 256 / 256 / 256 / 256 / 256)] := rfl
  have hv : UInt64.ofNat (toNat (ofWord w)) = w := by rw [toNat_ofWord, UInt64.ofNat_toNat]
  rw [h] at hv ⊢
  simp only [List.cons_append, List.nil_append, words, hv]

/-- Words that were written are read back, and then those of the rest. -/
theorem words_ofWords_append (ws : List UInt64) (rest : Bytes) :
    words (ofWords ws ++ rest) = ws ++ words rest := by
  induction ws with
  | nil => rfl
  | cons w ws ih =>
      rw [ofWords, List.flatMap_cons, List.append_assoc, words_ofWord_append]
      exact congrArg (w :: ·) ih

/-- There are as many words as are whole; bytes left over make none. -/
theorem length_words (b : Bytes) : (words b).length = b.length / 8 := by
  fun_induction words b with
  | case1 b₀ b₁ b₂ b₃ b₄ b₅ b₆ b₇ rest ih => simp only [List.length_cons, ih]; omega
  | case2 b h =>
      match b with
      | [] | [_] | [_, _] | [_, _, _] | [_, _, _, _] | [_, _, _, _, _] | [_, _, _, _, _, _]
      | [_, _, _, _, _, _, _] => simp
      | b₀ :: b₁ :: b₂ :: b₃ :: b₄ :: b₅ :: b₆ :: b₇ :: rest =>
          exact absurd rfl (h b₀ b₁ b₂ b₃ b₄ b₅ b₆ b₇ rest)

/-! ## Writing into a buffer -/

/-- A buffer after bytes were written into it from its start: what does not fit is lost, and bytes
that nothing was written over keep what they held. -/
def overwrite (buffer written : Bytes) : Bytes :=
  written.take buffer.length ++ buffer.drop written.length

/-- Writing into a buffer leaves its length. -/
@[simp] theorem length_overwrite (buffer written : Bytes) :
    (overwrite buffer written).length = buffer.length := by
  simp only [overwrite, List.length_append, List.length_take, List.length_drop]
  omega

end Bytes
end CounterWatch
