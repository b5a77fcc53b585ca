import CounterWatch.Text.Utf8

/-!
# Path — file names as bytes

A path is cut into steps at its slashes.  Empty steps and single dots name nothing, so a trailing
slash or a doubled one does not change which name comes last; `..` stays what it is, since it may
lead through a link.  The rules are stated for any alphabet (`lastName?`), so they hold for paths
that are bytes and for paths found in a text.
-/

namespace CounterWatch

namespace Steps

variable {α : Type} [DecidableEq α]

/-- The parts between the separators, empty ones included. -/
def split (slash : α) : List α → List (List α)
  | [] => [[]]
  | a :: rest =>
      if a = slash then [] :: split slash rest
      else match split slash rest with
        | [] => [[a]]
        | step :: steps => (a :: step) :: steps

/-- The steps that lead anywhere. -/
def names (slash dot : α) (path : List α) : List (List α) :=
  (split slash path).filter fun s => s ≠ [] ∧ s ≠ [dot]

/-- The name that a path ends in, if it ends in a name and not at the root or on the way up. -/
def lastName? (slash dot : α) (path : List α) : Option (List α) :=
  (names slash dot path).getLast?.filter fun s => s ≠ [dot, dot]

end Steps

/-- A path of the file system: any bytes, of which the slash separates steps. -/
structure Path where
  bytes : Bytes
  deriving DecidableEq, Inhabited

namespace Path

/-- The path a text spells. -/
def ofString (text : String) : Path := ⟨Utf8.encode text⟩

/-- The byte between steps. -/
def slash : UInt8 := 0x2f

/-- The byte that dots are written with. -/
def dot : UInt8 := 0x2e

/-- The step that stays where it is. -/
def here : Bytes := [dot]

/-- The step to the containing directory. -/
def above : Bytes := [dot, dot]

/-- Whether the path starts at the root directory. -/
def isAbsolute (p : Path) : Bool := p.bytes.head? == some slash

/-- The steps that lead anywhere. -/
def names (p : Path) : List Bytes := Steps.names slash dot p.bytes

/-- The name of the file or directory that the path ends in. -/
def fileName? (p : Path) : Option Bytes := Steps.lastName? slash dot p.bytes

/-- The path of something below the directory; `entry` is not absolute. -/
def join (p entry : Path) : Path :=
  match p.bytes.getLast? with
  | none => entry
  | some b => ⟨p.bytes ++ (if b = slash then [] else [slash]) ++ entry.bytes⟩

/-- The path as it is shown: bytes that are no text become replacement characters. -/
def display (p : Path) : String := Utf8.lossy p.bytes

end Path
end CounterWatch
