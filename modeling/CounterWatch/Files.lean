import CounterWatch.Path
import CounterWatch.SystemError

/-!
# Files — what the file system answers

The monitor only asks three things of a path: can it be opened, what does the file hold, what are
the entries of the directory.  `Files` is any set of answers to these questions; `FileTree` is a
file system held in memory, and `FileTree.files` are its answers.
-/

namespace CounterWatch

/-- The answers of a file system. -/
structure Files where
  /-- Opens a file or directory for reading. -/
  openPath : Path → Except SystemError Unit
  /-- The contents of a file. -/
  read : Path → Except SystemError Bytes
  /-- The names of the entries of a directory, in the order it lists them. -/
  list : Path → Except SystemError (List Bytes)

namespace Files

/-- A file system without files. -/
def none : Files :=
  ⟨fun _ => .error .noEntry, fun _ => .error .noEntry, fun _ => .error .noEntry⟩

instance : Inhabited Files := ⟨none⟩

/-- The contents of a file as text. -/
def readText (files : Files) (path : Path) : Except SystemError String := do
  match Utf8.decode? (← files.read path) with
  | some text => .ok text
  | Option.none => .error (.custom .invalidData "stream did not contain valid UTF-8")

end Files

/-- What a path leads to. -/
inductive FileNode where
  | file (contents : Bytes)
  | directory
  deriving DecidableEq, Inhabited

/-- A file system in memory: the files and directories below the working directory, each under the
names that lead to it.  Of two nodes under the same names the first counts.  Beyond the working
directory there are only directories nothing is known to be in. -/
structure FileTree where
  nodes : List (List Bytes × FileNode)
  deriving Inhabited

namespace FileTree

/-- The working directory alone. -/
def empty : FileTree := ⟨[]⟩

/-- The node under the names, seen from the working directory. -/
def node? (t : FileTree) (names : List Bytes) : Option FileNode :=
  if names = [] then some .directory else t.nodes.lookup names

/-- The names of the places that steps lead through, from the one under `names` to the last. -/
def trail (names : List Bytes) : List Bytes → List (List Bytes)
  | [] => [names]
  | s :: rest =>
      names :: trail (if s = [] ∨ s = Path.here then names
        else if s = Path.above then names.dropLast
        else names ++ [s]) rest

/-- The tree with a directory, if there is nothing under the names yet. -/
def addDirectory (t : FileTree) (names : List Bytes) : FileTree :=
  if (t.node? names).isSome then t else ⟨(names, .directory) :: t.nodes⟩

/-- The tree with a node at the end of a path and directories at all the places before it. -/
def add (t : FileTree) (path : Path) (node : FileNode) : FileTree :=
  let places := trail [] (Steps.split Path.slash path.bytes)
  let t := places.dropLast.foldl addDirectory t
  match places.getLast?, node with
  | none, _ => t
  | some names, .directory => t.addDirectory names
  | some names, .file contents => ⟨(names, .file contents) :: t.nodes⟩

/-- Where a walk along a path has come to: a place below the working directory, or beyond it. -/
inductive Place where
  | below (names : List Bytes)
  | beyond
  deriving DecidableEq

/-- The node at a place. -/
def nodeAt? (t : FileTree) : Place → Option FileNode
  | .below names => t.node? names
  | .beyond => some .directory

/-- The number of bytes no name can have more of. -/
def nameLimit : Nat := 255

/-- The number of bytes no path can have. -/
def pathLimit : Nat := 4096

/-- Takes one step of a path.  Every step, even one that stays, has to start in a directory. -/
def step (t : FileTree) (place : Place) (s : Bytes) : Except SystemError Place :=
  match t.nodeAt? place with
  | none => .error .noEntry
  | some (.file _) => .error .notADirectory
  | some .directory =>
      if s = [] ∨ s = Path.here then .ok place
      else match place with
        | .beyond =>
            if s = Path.above then .ok .beyond
            else if nameLimit < s.length then .error .nameTooLong
            else .error .noEntry
        | .below names =>
            if s = Path.above then .ok (if names = [] then .beyond else .below names.dropLast)
            else if nameLimit < s.length then .error .nameTooLong
            else if (t.node? (names ++ [s])).isSome then .ok (.below (names ++ [s]))
            else .error .noEntry

/-- Where a walk along a path starts. -/
def origin (path : Path) : Place := if path.isAbsolute then .beyond else .below []

/-- Follows a path to the end. -/
def resolve (t : FileTree) (path : Path) : Except SystemError Place :=
  if path.bytes = [] then .error .noEntry
  else if path.bytes.contains 0 then
    .error (.custom .invalidInput "file name contained an unexpected NUL byte")
  else if pathLimit ≤ path.bytes.length then .error .nameTooLong
  else (Steps.split Path.slash path.bytes).foldlM t.step (origin path)

/-- The node a path leads to. -/
def lookup (t : FileTree) (path : Path) : Except SystemError FileNode := do
  match t.nodeAt? (← t.resolve path) with
  | some node => .ok node
  | none => .error .noEntry

/-- The contents of a file. -/
def read (t : FileTree) (path : Path) : Except SystemError Bytes := do
  match ← t.lookup path with
  | .file contents => .ok contents
  | .directory => .error .isADirectory

/-- The names of the entries of a directory. -/
def list (t : FileTree) (path : Path) : Except SystemError (List Bytes) := do
  let place ← t.resolve path
  match t.nodeAt? place, place with
  | none, _ => .error .noEntry
  | some (.file _), _ => .error .notADirectory
  | some .directory, .beyond => .ok []
  | some .directory, .below names =>
      .ok (t.nodes.filterMap fun n =>
        match n.1.getLast? with
        | some name => if n.1.dropLast = names then some name else none
        | none => none).eraseDups

/-- The answers of the tree. -/
def files (t : FileTree) : Files where
  openPath path := (t.lookup path).map fun _ => ()
  read := t.read
  list := t.list

end FileTree
end CounterWatch
