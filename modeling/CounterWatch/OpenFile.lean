import CounterWatch.Files

/-!
# OpenFile — reading through a descriptor

An open file remembers how far it was read.  What is read goes into the start of a buffer, whose
other bytes stay; plain files and directories know no device requests.
-/

namespace CounterWatch

/-- How a file is opened. -/
inductive OpenMode where
  | read
  | write
  deriving DecidableEq

/-- An open file or directory. -/
structure OpenFile where
  node : FileNode
  mode : OpenMode
  /-- How many bytes were read so far. -/
  position : Nat

namespace OpenFile

/-- Opens what a path leads to; directories cannot be opened for writing. -/
def openPath (t : FileTree) (path : Path) (mode : OpenMode) : Except SystemError OpenFile := do
  match ← t.lookup path, mode with
  | .directory, .write => .error .isADirectory
  | node, _ => .ok ⟨node, mode, 0⟩

/-- Reads at most a buffer of bytes: their number and the buffer afterwards. -/
def read (f : OpenFile) (buffer : Bytes) : Except SystemError (Nat × Bytes) × OpenFile :=
  match f.mode, f.node with
  | .write, _ => (.error .badDescriptor, f)
  | .read, .directory => (.error .isADirectory, f)
  | .read, .file contents =>
      let chunk := (contents.drop f.position).take buffer.length
      (.ok (chunk.length, Bytes.overwrite buffer chunk),
        { f with position := f.position + chunk.length })

/-- Makes a device request. -/
def request (_ : OpenFile) (_operation _argument : UInt64) : Except SystemError Int :=
  .error .notATerminal

end OpenFile
end CounterWatch
