/-!
# Text/Numeral — reading and writing unsigned numbers

A numeral is a non-empty row of digits of a base, after at most one plus sign; leading zeros do not
matter.  Reading is bounded: the digits are taken from the left, and the first one that is not a
digit, or that takes the value to the limit, decides the error.
-/

namespace CounterWatch.Text

/-- Why a text is no numeral below the limit. -/
inductive NumeralError where
  /-- There is no text. -/
  | empty
  /-- A character is no digit of the base. -/
  | invalidDigit
  /-- The value reaches the limit. -/
  | tooLarge
  deriving DecidableEq, Repr

/-- The wording of each cause. -/
def NumeralError.message : NumeralError → String
  | .empty => "cannot parse integer from empty string"
  | .invalidDigit => "invalid digit found in string"
  | .tooLarge => "number too large to fit in target type"

/-- The value of an ASCII digit or letter in a base up to 36; letters count from ten on. -/
def digit? (base : Nat) (c : Char) : Option Nat :=
  let value? :=
    if '0' ≤ c && c ≤ '9' then some (c.toNat - 48)
    else if 'a' ≤ c && c ≤ 'z' then some (c.toNat - 87)
    else if 'A' ≤ c && c ≤ 'Z' then some (c.toNat - 55)
    else none
  value?.filter (· < base)

/-- Reads digits on top of the value of those already read. -/
def readDigits (base limit : Nat) : Nat → List Char → Except NumeralError Nat
  | value, [] => .ok value
  | value, c :: rest =>
      match digit? base c with
      | none => .error .invalidDigit
      | some d =>
          if value * base + d < limit then readDigits base limit (value * base + d) rest
          else .error .tooLarge

/-- Reads a numeral below `limit`.  A lone plus sign is no numeral, and neither is a lone minus
sign. -/
def readNumeral (base limit : Nat) : List Char → Except NumeralError Nat
  | [] => .error .empty
  | ['+'] => .error .invalidDigit
  | '+' :: rest => readDigits base limit 0 rest
  | text => readDigits base limit 0 text

/-- A decimal 32-bit number. -/
def readUInt32 (text : List Char) : Except NumeralError UInt32 :=
  (readNumeral 10 UInt32.size text).map UInt32.ofNat

/-- A hexadecimal 64-bit number, in either case. -/
def readHex64 (text : List Char) : Except NumeralError UInt64 :=
  (readNumeral 16 UInt64.size text).map UInt64.ofNat

/-! ## Writing -/

/-- Lower-case hexadecimal without leading zeros. -/
def hex (n : Nat) : String := String.ofList (Nat.toDigits 16 n)

/-- The lower-case hexadecimal digits of the lowest `width` places, leading zeros included. -/
def hexPlaces : (width : Nat) → Nat → List Char
  | 0, _ => []
  | width + 1, n => hexPlaces width (n / 16) ++ [Nat.digitChar (n % 16)]

@[simp] theorem length_hexPlaces : ∀ (width n : Nat), (hexPlaces width n).length = width
  | 0, _ => rfl
  | width + 1, n => by simp [hexPlaces, length_hexPlaces width]

end CounterWatch.Text
