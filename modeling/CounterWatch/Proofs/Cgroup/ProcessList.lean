import CounterWatch.Cgroup
import CounterWatch.Proofs.Text.Layout
import CounterWatch.Proofs.Text.Numeral
import Mathlib.Data.List.Basic

/-!
# Proofs/Cgroup/ProcessList — the processes of a control group, as text

Every line of a process list is looked at by itself.  What is left of it without the blanks around
it is a process id, or something that is reported, or nothing.  So a list may have any blanks around
its ids, and any lines between them that are no ids.

* `ids`, `strays` — what a text says, line by line; `pids_entries`.
* `readEntries_of_error`, `readEntries_of_malformed`, `readEntries_of_text` — what comes of reading
  the file.
* `Line`, `written` — a list of process ids as somebody may have written it.
* `ids_written` — the ids on such a list are those that were written, in order.
-/

namespace CounterWatch.Cgroup

/-! ## What a text says -/

/-- The process id on a line. -/
def id? (line : List Char) : Option UInt32 := (Text.readUInt32 (Text.trim line)).toOption

/-- What is on a line that is neither blank nor a process id. -/
def stray? (line : List Char) : Option String :=
  if Text.trim line = [] ∨ (id? line).isSome then none else some (String.ofList (Text.trim line))

/-- The process ids a text lists. -/
def ids (content : String) : List UInt32 := (Text.lines content.toList).filterMap id?

/-- What else there is in a text. -/
def strays (content : String) : List String := (Text.lines content.toList).filterMap stray?

/-- The process id on the first line that has one. -/
def firstId? (content : String) : Option UInt32 := (Text.lines content.toList).findSome? id?

theorem head?_ids (content : String) : (ids content).head? = firstId? content :=
  List.head?_filterMap

/-- A line without text has no process id, as no numeral is empty. -/
theorem id?_of_blank {line : List Char} (h : Text.trim line = []) : id? line = none := by
  rw [id?, h]
  rfl

/-- **An entry is a process id, or what else is on the line.** -/
theorem entry?_eq (line : List Char) :
    entry? line = ((id? line).map Entry.pid).or ((stray? line).map Entry.other) := by
  rw [ entry?]
  split
  next hblank => rw [id?_of_blank hblank, stray?, if_pos (.inl hblank)]; rfl
  next hblank =>
    split
    next id hread =>
      have hid : id? line = some id := by rw [id?, hread]; rfl
      rw [hid]
      rfl
    next e hread =>
      have hid : id? line = none := by rw [id?, hread]; rfl
      rw [stray?, hid, if_neg (by simpa using hblank)]
      rfl

theorem stray?_eq_none_of_id? {line : List Char} {id : UInt32} (h : id? line = some id) :
    stray? line = none := if_pos (.inr (Option.isSome_of_eq_some h))

/-- **The process ids among the entries** are those of the lines. -/
theorem pids_entries (content : String) : pids (entries content) = ids content := by
  rw [pids, entries, ids, List.filterMap_filterMap]
  refine List.filterMap_congr fun line _ => ?_
  rw [ entry?_eq]
  rcases id? line with _ | id
  · rcases stray? line with _ | text
    · rfl
    · rfl
  · rfl

/-! ## Reading a list -/

section Reading

variable {files : Files} {directory : Path} {content : String}

/-- The directory of a control group can be opened, and its list holds a text. -/
structure Lists (files : Files) (directory : Path) (content : String) : Prop where
  opens : files.openPath directory = .ok ()
  reads : files.read (procsFile directory) = .ok (Utf8.encode content)

/-- A list that cannot be read fails with the error of reading it. -/
theorem readEntries_of_error {e : SystemError}
    (h : files.read (procsFile directory) = .error e) : readEntries files directory = .error e := by
  rw [readEntries, Files.readText, h]
  rfl

/-- **A list that is no text cannot be read.** -/
theorem readEntries_of_malformed {bytes : Bytes}
    (h : files.read (procsFile directory) = .ok bytes) (hbytes : ∀ text, bytes ≠ Utf8.encode text) :
    readEntries files directory
      = .error (.custom .invalidData "stream did not contain valid UTF-8") := by
  have hnone : Utf8.decode? bytes = none := Option.eq_none_iff_forall_ne_some.mpr
    fun text htext => hbytes text (Utf8.decode?_eq_some_iff.mp htext)
  rw [readEntries, Files.readText, h]
  simp only [bind, Except.bind, hnone]
  rfl

/-- A list that is text is read as its entries. -/
theorem readEntries_of_text (h : files.read (procsFile directory) = .ok (Utf8.encode content)) :
    readEntries files directory = .ok (entries content) := by
  have htext : Utf8.decode? (Utf8.encode content) = some content :=
    Utf8.decode?_eq_some_iff.mpr rfl
  rw [readEntries, Files.readText, h]
  simp only [bind, Except.bind, htext]
  rfl

end Reading

/-! ## Lists as they are written -/

/-- White space within a line. -/
structure Margin where
  text : List Char
  blank : ∀ c ∈ text, Text.isBlank c = true
  sameLine : ∀ c ∈ text, c ≠ '\n'

/-- No white space. -/
def Margin.none : Margin := ⟨[], List.forall_mem_nil _, List.forall_mem_nil _⟩

/-- A single blank. -/
def Margin.one (c : Char) (h : Text.isBlank c = true ∧ c ≠ '\n') : Margin :=
  ⟨[c], List.forall_mem_singleton.mpr h.1, List.forall_mem_singleton.mpr h.2⟩

theorem Margin.newline_not_mem (margin : Margin) : '\n' ∉ margin.text :=
  fun h => margin.sameLine _ h rfl

/-- A line somebody wrote into a list of processes: a process id with white space around it, white
space alone, or something that is no process id. -/
inductive Line where
  | process (before : Margin) (id : UInt32) (after : Margin)
  | blank (text : List Char) (newline_not_mem : '\n' ∉ text) (blank : Text.trim text = [])
  | stray (text : List Char) (newline_not_mem : '\n' ∉ text) (unblank : Text.trim text ≠ [])
    (other : id? text = none)

namespace Line

/-- What is on the line. -/
def text : Line → List Char
  | process before id after => before.text ++ (toString id).toList ++ after.text
  | blank text _ _ | stray text _ _ _ => text

/-- The process id that was written. -/
def pid? : Line → Option UInt32
  | process _ id _ => some id
  | blank _ _ _ | stray _ _ _ _ => none

end Line

/-- **A list as it is written**: lines that are ended one by one, and behind them perhaps one that
is not. -/
def written (ls : List Line) (last : Option Line) : String :=
  String.ofList ((ls.map Line.text).flatMap (· ++ ['\n']) ++ (last.elim [] Line.text))

/-- The process ids that were written. -/
def writtenPids (ls : List Line) (last : Option Line) : List UInt32 :=
  (ls ++ last.toList).filterMap Line.pid?

theorem isWord_toString (id : UInt32) : Text.IsWord (toString id).toList := by
  have htext : (toString id).toList = Nat.toDigits 10 id.toNat := Nat.toList_repr
  rw [htext]
  exact ⟨Nat.toDigits_ne_nil, fun c hc => (Text.unblank_of_isHexDigit
    (Text.isHexDigit_of_mem_toDigits (by decide) (by decide) _ hc)).1⟩

namespace Line

/-- No line that is written has a newline within it. -/
theorem newline_not_mem_text (l : Line) : '\n' ∉ l.text := by
  cases l with
  | process before id after =>
      simp only [text, List.mem_append, not_or]
      exact ⟨⟨before.newline_not_mem, (isWord_toString id).newline_not_mem⟩, after.newline_not_mem⟩
  | blank text h _ => exact h
  | stray text h _ _ => exact h

/-- **A line is read as it was meant.** -/
theorem id?_text (l : Line) : id? l.text = l.pid? := by
  cases l with
  | process before id after =>
      rw [id?, text, Text.trim_padded before.blank (isWord_toString id) after.blank,
        Text.readUInt32_toString]
      rfl
  | blank text _ hblank => exact id?_of_blank hblank
  | stray text _ _ hother => exact hother

end Line

/-- A carriage return at the end is one blank more. -/
theorem id?_withoutReturn (line : List Char) : id? (Text.withoutReturn line) = id? line := by
  rw [id?, Text.trim_withoutReturn, id?]

/-- A last line need not be ended to be read. -/
theorem filterMap_lines_of_newline_not_mem {line : List Char} (h : '\n' ∉ line) :
    (Text.lines line).filterMap id? = [line].filterMap id? := by
  rw [Text.lines_of_newline_not_mem h]
  split
  next hnil => rw [hnil]; rfl
  next => rfl

/-- **Of a written list, just the process ids are read**, in the order they were written in. -/
theorem ids_written (ls : List Line) (last : Option Line) :
    ids (written ls last) = writtenPids ls last := by
  have hlines : ∀ line ∈ ls.map Line.text, '\n' ∉ line :=
    List.forall_mem_map.mpr fun l _ => l.newline_not_mem_text
  have hended : ((ls.map Line.text).map Text.withoutReturn).filterMap id?
      = ls.filterMap Line.pid? := by
    rw [List.filterMap_map, List.filterMap_map]
    exact List.filterMap_congr fun l _ => (id?_withoutReturn l.text).trans l.id?_text
  have hlast : (Text.lines (last.elim [] Line.text)).filterMap id?
      = last.toList.filterMap Line.pid? := by
    cases last with
    | none => rfl
    | some l =>
        have htext : [l.text].filterMap id? = [l].filterMap Line.pid? := by
          rw [List.filterMap_cons, l.id?_text, List.filterMap_cons]
          rfl
        exact (filterMap_lines_of_newline_not_mem l.newline_not_mem_text).trans htext
  rw [ids, written, String.toList_ofList, Text.lines_flatMap_newline_append hlines,
    List.filterMap_append, hended, hlast, writtenPids, List.filterMap_append]

end CounterWatch.Cgroup
