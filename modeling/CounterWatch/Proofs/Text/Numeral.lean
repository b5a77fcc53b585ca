import CounterWatch.Text.Blank
import CounterWatch.Text.Numeral
import Mathlib.Algebra.Group.Nat.Defs

/-!
# Proofs/Text/Numeral — written numbers are read back

Reading takes more than what is written: either case, leading zeros, a sign.  What is written reads
back in every base of up to sixteen digits.

* `readNumeral_toDigits`, `readUInt32_toString` — a number without leading zeros.
* `isHexNumeral_toDigits` — what such a number looks like in hexadecimal.
* `readHex64_hexPlaces` — a 64-bit number in sixteen places.
* `readHex64_paddedHex` — a 64-bit number in at least so many places.
-/

namespace CounterWatch.Text

variable {base limit : Nat}

/-! ## Digits -/

/-- A digit that is written is read as the number it stands for. -/
theorem digit?_digitChar (hbase : base ≤ 16) {d : Nat} (h : d < base) :
    digit? base (Nat.digitChar d) = some d := by
  have hall : ∀ d < 16, digit? 16 (Nat.digitChar d) = some d := by decide
  obtain ⟨hvalue, -⟩ := Option.filter_eq_some_iff.mp (hall d (by omega))
  exact Option.filter_eq_some_iff.mpr ⟨hvalue, decide_eq_true h⟩

/-- The digits of bases up to sixteen are those of base sixteen, in lower case. -/
def IsHexDigit (c : Char) : Prop := ∃ d < 16, c = Nat.digitChar d

theorem ne_of_isHexDigit {c : Char} (h : IsHexDigit c) : c ≠ '+' ∧ c ≠ '|' ∧ c ≠ ';' := by
  obtain ⟨d, hd, rfl⟩ := h
  decide +revert

/-- A hexadecimal digit keeps fields together, and the ends of a range. -/
theorem unblank_of_isHexDigit {c : Char} (h : IsHexDigit c) : isBlank c = false ∧ c ≠ '-' := by
  obtain ⟨d, hd, rfl⟩ := h
  decide +revert

theorem isHexDigit_of_mem_toDigits (h₁ : 1 < base) (h₁₆ : base ≤ 16) (n : Nat) {c : Char}
    (h : c ∈ Nat.toDigits base n) : IsHexDigit c := by
  induction n using Nat.strongRecOn with
  | _ n ih =>
      rw [Nat.toDigits_eq_if h₁] at h
      split at h
      · exact ⟨n, by omega, List.mem_singleton.mp h⟩
      next hn =>
        have hrest : n / base < n := Nat.div_lt_self (by omega) h₁
        have hlast : n % base < 16 := Nat.lt_of_lt_of_le (Nat.mod_lt n (by omega)) h₁₆
        rcases List.mem_append.mp h with h | h
        · exact ih _ hrest h
        · exact ⟨_, hlast, List.mem_singleton.mp h⟩

theorem isHexDigit_of_mem_hexPlaces {c : Char} :
    ∀ {width n : Nat}, c ∈ hexPlaces width n → IsHexDigit c
  | 0, _, h => absurd h List.not_mem_nil
  | width + 1, n, h => by
      rcases List.mem_append.mp h with h | h
      · exact isHexDigit_of_mem_hexPlaces h
      · exact ⟨n % 16, Nat.mod_lt n (by decide), List.mem_singleton.mp h⟩

/-! ## Reading digits -/

/-- Digits are read from left to right, so a numeral may be read in two goes. -/
theorem readDigits_append (value : Nat) (text more : List Char) :
    readDigits base limit value (text ++ more)
      = (readDigits base limit value text).bind fun value =>
          readDigits base limit value more := by
  induction text generalizing value with
  | nil => rfl
  | cons c rest ih =>
      simp only [List.cons_append, readDigits, ih]
      split
      · rfl
      · split <;> rfl

theorem readDigits_digitChar (hbase : base ≤ 16) (value : Nat) {d : Nat} (hd : d < base)
    (h : value * base + d < limit) :
    readDigits base limit value [Nat.digitChar d] = .ok (value * base + d) := by
  simp [readDigits, digit?_digitChar hbase hd, h]

/-- **The digits of a number are read as that number.** -/
theorem readDigits_toDigits (h₁ : 1 < base) (h₁₆ : base ≤ 16) {n : Nat} (h : n < limit) :
    readDigits base limit 0 (Nat.toDigits base n) = .ok n := by
  induction n using Nat.strongRecOn with
  | _ n ih =>
      rw [Nat.toDigits_eq_if h₁]
      split
      next hn => simpa using readDigits_digitChar h₁₆ 0 hn (by simpa using h)
      next hn =>
        have hrest : n / base < n := Nat.div_lt_self (by omega) h₁
        have hn : n / base * base + n % base = n := Nat.div_add_mod' n base
        have hlast : n % base < base := Nat.mod_lt n (by omega)
        rw [readDigits_append, ih _ hrest (by omega)]
        exact (readDigits_digitChar h₁₆ _ hlast (by omega)).trans (congrArg _ hn)

/-- Without a sign in front, a text is read digit by digit. -/
theorem readNumeral_eq_readDigits {text : List Char} (hne : text ≠ []) (h : '+' ∉ text) :
    readNumeral base limit text = readDigits base limit 0 text := by
  fun_cases readNumeral base limit text <;> simp_all

/-- **A number written without leading zeros reads back.** -/
theorem readNumeral_toDigits (h₁ : 1 < base) (h₁₆ : base ≤ 16) {n : Nat} (h : n < limit) :
    readNumeral base limit (Nat.toDigits base n) = .ok n := by
  have hsign : '+' ∉ Nat.toDigits base n := fun hc =>
    (ne_of_isHexDigit (isHexDigit_of_mem_toDigits h₁ h₁₆ n hc)).1 rfl
  rw [readNumeral_eq_readDigits Nat.toDigits_ne_nil hsign, readDigits_toDigits h₁ h₁₆ h]

/-- **A decimal 32-bit number reads back.** -/
theorem readUInt32_toString (n : UInt32) : readUInt32 (toString n).toList = .ok n := by
  have htext : (toString n).toList = Nat.toDigits 10 n.toNat := Nat.toList_repr
  rw [readUInt32, htext, readNumeral_toDigits (by decide) (by decide) (n := n.toNat) n.toNat_lt]
  exact congrArg Except.ok UInt32.ofNat_toNat

/-- Different numbers are written differently. -/
theorem toDigits_injective (h₁ : 1 < base) (h₁₆ : base ≤ 16) :
    Function.Injective (Nat.toDigits base) := by
  intro n n' h
  have hn : readNumeral base (n + n' + 1) (Nat.toDigits base n) = .ok n :=
    readNumeral_toDigits h₁ h₁₆ (by omega)
  have hn' : readNumeral base (n + n' + 1) (Nat.toDigits base n') = .ok n' :=
    readNumeral_toDigits h₁ h₁₆ (by omega)
  rw [h, hn'] at hn
  exact (Except.ok.inj hn).symm

/-- Only zero is written with a zero in front. -/
theorem eq_zero_of_head?_toDigits (h₁ : 1 < base) (n : Nat)
    (h : (Nat.toDigits base n).head? = some '0') : n = 0 := by
  induction n using Nat.strongRecOn with
  | _ n ih =>
      rw [Nat.toDigits_eq_if h₁] at h
      split at h
      · exact Nat.digitChar_eq_zero.mp (Option.some.inj h)
      next hn =>
        have hrest : n / base < n := Nat.div_lt_self (by omega) h₁
        rw [List.head?_append, Option.or_of_isSome (List.isSome_head?.mpr Nat.toDigits_ne_nil)] at h
        exact absurd (Nat.lt_of_div_eq_zero (by omega) (ih _ hrest h)) hn

/-- A number in hexadecimal: its digits are in lower case, and none of them is a leading zero. -/
structure IsHexNumeral (n : Nat) (text : List Char) : Prop where
  value : readNumeral 16 (n + 1) text = .ok n
  lower : ∀ c ∈ text, IsHexDigit c
  unpadded : text.head? = some '0' → text = ['0']

/-- **Hexadecimal is written in lower case and without leading zeros.** -/
theorem isHexNumeral_toDigits (n : Nat) : IsHexNumeral n (Nat.toDigits 16 n) where
  value := readNumeral_toDigits (by decide) (Nat.le_refl 16) (Nat.lt_succ_self n)
  lower _ := isHexDigit_of_mem_toDigits (by decide) (Nat.le_refl 16) n
  unpadded h := by
    obtain rfl := eq_zero_of_head?_toDigits (by decide) n h
    rfl

/-! ## Places -/

/-- **The lowest places of a number are read as what they leave of it.** -/
theorem readDigits_hexPlaces {width n : Nat} (h : n % 16 ^ width < limit) :
    readDigits 16 limit 0 (hexPlaces width n) = .ok (n % 16 ^ width) := by
  induction width generalizing n with
  | zero => simp [hexPlaces, readDigits, Nat.mod_one]
  | succ width ih =>
      have hvalue : n / 16 % 16 ^ width * 16 + n % 16 = n % 16 ^ (width + 1) := by
        rw [Nat.pow_succ', Nat.mod_mul]
        omega
      have hlast : n % 16 < 16 := Nat.mod_lt n (by decide)
      rw [hexPlaces, readDigits_append, ih (by omega)]
      exact (readDigits_digitChar (Nat.le_refl 16) _ hlast (by omega)).trans (congrArg _ hvalue)

/-- Hexadecimal digits alone are read as the number they come to. -/
theorem readHex64_eq_ok {text : List Char} (hne : text ≠ []) (hhex : ∀ c ∈ text, IsHexDigit c)
    {w : UInt64} (h : readDigits 16 UInt64.size 0 text = .ok w.toNat) : readHex64 text = .ok w := by
  have hsign : '+' ∉ text := fun hc => (ne_of_isHexDigit (hhex _ hc)).1 rfl
  rw [readHex64, readNumeral_eq_readDigits hne hsign, h]
  exact congrArg Except.ok (UInt64.ofNat_toNat)

/-- **A 64-bit number in sixteen places reads back.** -/
theorem readHex64_hexPlaces (w : UInt64) : readHex64 (hexPlaces 16 w.toNat) = .ok w := by
  have hvalue : w.toNat % 16 ^ 16 = w.toNat := Nat.mod_eq_of_lt w.toNat_lt
  have hdigits : readDigits 16 UInt64.size 0 (hexPlaces 16 w.toNat) = .ok (w.toNat % 16 ^ 16) :=
    readDigits_hexPlaces (by rw [hvalue]; exact w.toNat_lt)
  have hne : hexPlaces 16 w.toNat ≠ [] := List.ne_nil_of_length_eq_add_one (length_hexPlaces 16 _)
  exact readHex64_eq_ok hne (fun _ => isHexDigit_of_mem_hexPlaces) (by rw [hdigits, hvalue])

/-! ## Padding -/

/-- Lower-case hexadecimal, with zeros in front if there are fewer than `width` digits. -/
def paddedHex (width n : Nat) : List Char := (Nat.toDigits 16 n).leftpad width '0'

theorem paddedHex_eq (width n : Nat) :
    paddedHex width n
      = List.replicate (width - (Nat.toDigits 16 n).length) '0' ++ Nat.toDigits 16 n := rfl

theorem paddedHex_ne_nil (width n : Nat) : paddedHex width n ≠ [] :=
  List.append_ne_nil_of_right_ne_nil _ Nat.toDigits_ne_nil

theorem isHexDigit_of_mem_paddedHex {width n : Nat} {c : Char} (h : c ∈ paddedHex width n) :
    IsHexDigit c := by
  rcases List.mem_append.mp h with h | h
  · exact ⟨0, by decide, List.eq_of_mem_replicate h⟩
  · exact isHexDigit_of_mem_toDigits (by decide) (Nat.le_refl 16) n h

/-- Zeros in front add nothing. -/
theorem readDigits_replicate_zero (hlimit : 0 < limit) :
    ∀ k, readDigits 16 limit 0 (List.replicate k '0') = .ok 0
  | 0 => rfl
  | k + 1 => by
      rw [List.replicate_succ', readDigits_append, readDigits_replicate_zero hlimit k]
      exact readDigits_digitChar (Nat.le_refl 16) 0 (d := 0) (by decide) (by simpa using hlimit)

/-- **A 64-bit number with zeros in front reads back.** -/
theorem readHex64_paddedHex (width : Nat) (w : UInt64) :
    readHex64 (paddedHex width w.toNat) = .ok w := by
  have hdigits : readDigits 16 UInt64.size 0 (paddedHex width w.toNat) = .ok w.toNat := by
    rw [paddedHex_eq, readDigits_append, readDigits_replicate_zero (by decide)]
    exact readDigits_toDigits (by decide) (Nat.le_refl 16) w.toNat_lt
  exact readHex64_eq_ok (paddedHex_ne_nil _ _) (fun _ => isHexDigit_of_mem_paddedHex) hdigits

end CounterWatch.Text
