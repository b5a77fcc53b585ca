import CounterWatch.Bytes

/-!
# Text/Utf8 — bytes that may not be text

Names and file contents are bytes.  Where text is needed they have to be well-formed UTF-8
(`decode?`); where they are only shown, each malformed stretch becomes one replacement character
(`lossy`).  A malformed stretch is the longest beginning of a well-formed sequence found at that
place, at least one byte.
-/

namespace CounterWatch.Utf8

/-- The bytes of a text. -/
def encode (text : String) : Bytes := text.toUTF8.data.toList

/-- The text that well-formed bytes spell. -/
def decode? (bytes : Bytes) : Option String := String.fromUTF8? bytes.toByteArray

theorem toByteArray_encode (text : String) : (encode text).toByteArray = text.toByteArray :=
  ByteArray.ext (by rw [encode, List.data_toByteArray, Array.toArray_toList, String.toUTF8])

/-- **Bytes spell a text just when they are the bytes of that text.** -/
theorem decode?_eq_some_iff {bytes : Bytes} {text : String} :
    decode? bytes = some text ↔ bytes = encode text := by
  constructor
  · intro h
    rw [decode?, String.fromUTF8?] at h
    split at h
    · obtain rfl := Option.some.inj h
      rw [encode, String.toUTF8, String.fromUTF8, List.data_toByteArray]
    · cases h
  · rintro rfl
    rw [decode?, toByteArray_encode, String.fromUTF8?, dif_pos text.isValidUTF8]
    rfl

/-! ## Taking bytes apart -/

/-- A stretch of bytes: one character, or a malformed sequence. -/
inductive Piece where
  | char (c : Char)
  | malformed (bytes : Bytes)
  deriving DecidableEq

/-- A continuation byte within the range that the byte before it leaves open. -/
private def within (low high b : UInt8) : Bool := low ≤ b && b ≤ high

/-- The range of the second byte after each lead byte, and the number of bytes of the sequence. -/
private def lead? (b : UInt8) : Option (UInt8 × UInt8 × Nat) :=
  if within 0xc2 0xdf b then some (0x80, 0xbf, 2)
  else if b = 0xe0 then some (0xa0, 0xbf, 3)
  else if b = 0xed then some (0x80, 0x9f, 3)
  else if within 0xe1 0xef b then some (0x80, 0xbf, 3)
  else if b = 0xf0 then some (0x90, 0xbf, 4)
  else if within 0xf1 0xf3 b then some (0x80, 0xbf, 4)
  else if b = 0xf4 then some (0x80, 0x8f, 4)
  else none

/-- The continuation bytes that follow a lead byte: at most `count`, the first one from its own
range and the others from the whole range. -/
private def continuation : (low high : UInt8) → (count : Nat) → Bytes → Bytes
  | low, high, count + 1, b :: rest =>
      if within low high b then b :: continuation 0x80 0xbf count rest else []
  | _, _, _, _ => []

/-- The payload bits of a sequence, most significant first. -/
private def scalar (leadBits : Nat) (rest : Bytes) : Nat :=
  rest.foldl (fun n b => n * 64 + (b.toNat - 0x80)) leadBits

/-- The piece at the start of the bytes, and how many bytes after the first one it takes. -/
def firstPiece (b : UInt8) (rest : Bytes) : Piece × Nat :=
  if b < 0x80 then (.char (Char.ofNat b.toNat), 0)
  else match lead? b with
    | none => (.malformed [b], 0)
    | some (low, high, width) =>
        let tail := continuation low high (width - 1) rest
        if tail.length + 1 = width then
          (.char (Char.ofNat (scalar (b.toNat % (0x80 >>> width)) tail)), tail.length)
        else (.malformed (b :: tail), tail.length)

/-- All pieces of the bytes, in order. -/
def pieces : Bytes → List Piece
  | [] => []
  | b :: rest =>
      (firstPiece b rest).1 :: pieces (rest.drop (firstPiece b rest).2)
termination_by bytes => bytes.length
decreasing_by simp only [List.length_drop, List.length_cons]; omega

/-- The text with each malformed stretch replaced by U+FFFD. -/
def lossy (bytes : Bytes) : String :=
  String.ofList ((pieces bytes).map fun
    | .char c => c
    | .malformed _ => Char.ofNat 0xfffd)

end CounterWatch.Utf8
