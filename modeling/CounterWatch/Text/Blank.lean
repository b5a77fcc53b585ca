/-!
# Text/Blank — white space

The characters that separate words, as the Unicode property `White_Space` lists them: more than the
ASCII blanks, so a no-break space around a number is dropped like any other.
-/

namespace CounterWatch.Text

/-- The characters of the Unicode property `White_Space`. -/
def isBlank (c : Char) : Bool :=
  let n := c.toNat
  (0x09 ≤ n && n ≤ 0x0d) || n == 0x20 || n == 0x85 || n == 0xa0 || n == 0x1680 ||
    (0x2000 ≤ n && n ≤ 0x200a) || n == 0x2028 || n == 0x2029 || n == 0x202f || n == 0x205f ||
    n == 0x3000

/-- Drops the blanks at both ends. -/
def trim (text : List Char) : List Char :=
  ((text.dropWhile isBlank).reverse.dropWhile isBlank).reverse

/-- The maximal runs of other characters, in order. -/
def fields (text : List Char) : List (List Char) :=
  collect [] text
where
  /-- Reads on with a run in hand, kept last character first. -/
  collect : List Char → List Char → List (List Char)
    | [], [] => []
    | run, [] => [run.reverse]
    | [], c :: rest => if isBlank c then collect [] rest else collect [c] rest
    | run, c :: rest =>
        if isBlank c then run.reverse :: collect [] rest else collect (c :: run) rest

end CounterWatch.Text
