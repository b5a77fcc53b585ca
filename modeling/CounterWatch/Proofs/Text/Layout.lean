import CounterWatch.Text.Blank
import CounterWatch.Text.Lines
import Mathlib.Data.List.TakeWhile

/-!
# Proofs/Text/Layout — lines and fields put together

Text that is written line by line and field by field comes apart at the line ends and the blanks it
was written with, and at those that were in it before.

* `lines_flatMap_newline_append` — lines that are ended one by one; each loses a carriage return at
  its end.
* `fields_append_blank` — a blank takes a text apart into two whose fields stand side by side.
* `fields_of_isWord` — what has no blank is one field.
* `fields_withoutReturn` — the line end does not change the fields.
* `trim_padded` — a word is what is left when the blanks around it are dropped.
-/

namespace CounterWatch.Text

/-! ## Lines -/

/-- A line without the carriage return that counts as part of its end. -/
def withoutReturn (line : List Char) : List Char :=
  if line.getLast? = some '\r' then line.dropLast else line

theorem collect_lines_cons {c : Char} (hc : c ≠ '\n') (run rest : List Char) :
    lines.collect run (c :: rest) = lines.collect (c :: run) rest := by
  rw [lines.collect.eq_def]
  split <;> simp_all

/-- A newline ends the line in hand, if no carriage return stands before it. -/
theorem collect_lines_newline {run : List Char} (h : run.head? ≠ some '\r') (rest : List Char) :
    lines.collect run ('\n' :: rest) = run.reverse :: lines rest := by
  rw [lines.collect.eq_def]
  split <;> grind [lines]

/-- Up to its end, a line is only taken in hand. -/
theorem collect_lines_append {line : List Char} (h : '\n' ∉ line) (run rest : List Char) :
    lines.collect run (line ++ rest) = lines.collect (line.reverse ++ run) rest := by
  induction line generalizing run with
  | nil => rfl
  | cons c line ih =>
      obtain ⟨hc, hline⟩ := List.ne_and_not_mem_of_not_mem_cons h
      rw [List.cons_append, collect_lines_cons hc.symm, ih hline]
      simp

/-- **The first line** of a text that begins with a line and its end. -/
theorem lines_append_newline {line : List Char} (h : '\n' ∉ line) (rest : List Char) :
    lines (line ++ '\n' :: rest) = withoutReturn line :: lines rest := by
  rw [lines, collect_lines_append h, List.append_nil, withoutReturn]
  split
  next hreturn =>
    obtain ⟨front, rfl⟩ := List.getLast?_eq_some_iff.mp hreturn
    rw [List.reverse_append, List.dropLast_concat]
    exact congrArg (· :: lines rest) front.reverse_reverse
  next hreturn =>
    rw [collect_lines_newline (by rwa [List.head?_reverse]), List.reverse_reverse]

/-- **Lines that are ended one by one** are read as they are, up to a carriage return at the end,
and then what comes behind them. -/
theorem lines_flatMap_newline_append {ls : List (List Char)} (h : ∀ line ∈ ls, '\n' ∉ line)
    (rest : List Char) :
    lines (ls.flatMap (· ++ ['\n']) ++ rest) = ls.map withoutReturn ++ lines rest := by
  induction ls with
  | nil => rfl
  | cons line ls ih =>
      rw [List.flatMap_cons, List.append_assoc, List.append_assoc, List.singleton_append,
        lines_append_newline (h line List.mem_cons_self),
        ih fun line hl => h line (List.mem_cons_of_mem _ hl), List.map_cons, List.cons_append]

/-- Lines that are ended are read back as they are, but for a carriage return at their end. -/
theorem lines_flatMap_newline {ls : List (List Char)} (h : ∀ line ∈ ls, '\n' ∉ line) :
    lines (ls.flatMap (· ++ ['\n'])) = ls.map withoutReturn := by
  have hlines := lines_flatMap_newline_append h []
  have hnil : lines [] = [] := rfl
  rwa [List.append_nil, hnil, List.append_nil] at hlines

/-- **A last line that is not ended** is a line as well, unless there is nothing on it. -/
theorem lines_of_newline_not_mem {line : List Char} (h : '\n' ∉ line) :
    lines line = if line = [] then [] else [line] := by
  have hcollect := collect_lines_append h [] []
  rw [List.append_nil, List.append_nil] at hcollect
  rw [lines, hcollect]
  split
  next hnil => rw [hnil, List.reverse_nil, lines.collect]
  next hne =>
    obtain ⟨c, run, hrun⟩ := List.exists_cons_of_ne_nil (mt List.reverse_eq_nil_iff.mp hne)
    rw [hrun, lines.collect, ← hrun, List.reverse_reverse]
    exact List.cons_ne_nil c run

/-! ## Fields -/

/-- A text without blanks. -/
structure IsWord (text : List Char) : Prop where
  ne_nil : text ≠ []
  unblank : ∀ c ∈ text, isBlank c = false

instance (text : List Char) : Decidable (IsWord text) :=
  decidable_of_iff (text ≠ [] ∧ text.all (!isBlank ·) = true)
    ⟨fun h => ⟨h.1, by simpa using h.2⟩, fun h => ⟨h.ne_nil, by simpa using h.unblank⟩⟩

/-- A word stands on one line. -/
theorem IsWord.newline_not_mem {text : List Char} (h : IsWord text) : '\n' ∉ text := fun hc =>
  absurd (h.unblank _ hc) (by decide)

theorem collect_fields_blank {c : Char} (hc : isBlank c = true) (run rest : List Char) :
    fields.collect run (c :: rest) = fields.collect run [] ++ fields rest := by
  cases run <;> exact if_pos hc

theorem collect_fields_unblank {c : Char} (hc : isBlank c = false) (run rest : List Char) :
    fields.collect run (c :: rest) = fields.collect (c :: run) rest := by
  cases run <;> exact if_neg (by simp [hc])

/-- **A blank takes a text apart.** -/
theorem fields_append_blank {c : Char} (hc : isBlank c = true) (text rest : List Char) :
    fields (text ++ c :: rest) = fields text ++ fields rest := by
  suffices ∀ run, fields.collect run (text ++ c :: rest)
      = fields.collect run text ++ fields rest from this []
  -- The run in hand is what the text began with, so it is the text that gets shorter.
  induction text with
  | nil => exact fun run => collect_fields_blank hc run rest
  | cons a text ih =>
      intro run
      cases ha : isBlank a with
      | true =>
          simp only [List.cons_append, collect_fields_blank ha, List.append_assoc]
          exact congrArg _ (ih [])
      | false => simp only [List.cons_append, collect_fields_unblank ha, ih]

theorem fields_cons_blank {c : Char} (hc : isBlank c = true) (rest : List Char) :
    fields (c :: rest) = fields rest := fields_append_blank hc [] rest

/-- Blanks in front are skipped. -/
theorem fields_replicate_blank {c : Char} (hc : isBlank c = true) (rest : List Char) :
    ∀ n, fields (List.replicate n c ++ rest) = fields rest
  | 0 => rfl
  | n + 1 => by
      rw [List.replicate_succ, List.cons_append, fields_cons_blank hc,
        fields_replicate_blank hc rest n]

/-- Text without blanks is read into the field in hand. -/
theorem collect_fields_of_unblank {text : List Char} (h : ∀ c ∈ text, isBlank c = false)
    (run : List Char) : fields.collect run text = fields.collect (text.reverse ++ run) [] := by
  induction text generalizing run with
  | nil => rfl
  | cons c text ih =>
      rw [collect_fields_unblank (h c List.mem_cons_self),
        ih fun a ha => h a (List.mem_cons_of_mem _ ha)]
      simp

/-- **What has no blank is one field.** -/
theorem fields_of_isWord {text : List Char} (h : IsWord text) : fields text = [text] := by
  obtain ⟨c, run, hrun⟩ := List.exists_cons_of_ne_nil (mt List.reverse_eq_nil_iff.mp h.ne_nil)
  calc fields text
      = fields.collect (c :: run) [] := by
        rw [fields, collect_fields_of_unblank h.unblank, List.append_nil, hrun]
    _ = [text.reverse.reverse] := by rw [hrun]; rfl
    _ = [text] := by rw [List.reverse_reverse]

/-- A text that does not start with a blank has its first field before the first blank. -/
theorem head?_fields {c : Char} (hc : isBlank c = false) (rest : List Char) :
    (fields (c :: rest)).head? = some ((c :: rest).takeWhile (!isBlank ·)) := by
  have hword : IsWord ((c :: rest).takeWhile (!isBlank ·)) :=
    ⟨by simp [hc], fun a ha => by simpa using List.mem_takeWhile_imp ha⟩
  suffices (fields ((c :: rest).takeWhile (!isBlank ·) ++ (c :: rest).dropWhile (!isBlank ·))).head?
      = some ((c :: rest).takeWhile (!isBlank ·)) by
    rwa [List.takeWhile_append_dropWhile] at this
  cases hrest : (c :: rest).dropWhile (!isBlank ·) with
  | nil => rw [List.append_nil, fields_of_isWord hword, List.head?_cons]
  | cons a more =>
      have ha : isBlank a = true := by
        have hhead := List.head?_dropWhile_not (!isBlank ·) (c :: rest)
        simpa [hrest] using hhead
      rw [fields_append_blank ha, fields_of_isWord hword, List.singleton_append, List.head?_cons]

/-- **The line end does not change the fields** of a line. -/
theorem fields_withoutReturn (line : List Char) : fields (withoutReturn line) = fields line := by
  rw [withoutReturn]
  split
  next hreturn =>
    obtain ⟨front, rfl⟩ := List.getLast?_eq_some_iff.mp hreturn
    rw [List.dropLast_concat, fields_append_blank (by decide)]
    exact (List.append_nil _).symm
  next => rfl

/-! ## Trimming -/

theorem trim_blank_append {before : List Char} (h : ∀ c ∈ before, isBlank c = true)
    (text : List Char) : trim (before ++ text) = trim text := by
  rw [trim, List.dropWhile_append_of_pos h, trim]

theorem trim_append_blank (text : List Char) {after : List Char}
    (h : ∀ c ∈ after, isBlank c = true) : trim (text ++ after) = trim text := by
  have hreverse : ∀ c ∈ after.reverse, isBlank c = true := fun c hc => h c (List.mem_reverse.mp hc)
  rw [trim, trim, List.dropWhile_append]
  split
  next hnil =>
    rw [List.isEmpty_iff.mp hnil, List.dropWhile_eq_nil_iff.mpr h]
  next =>
    rw [List.reverse_append, List.dropWhile_append_of_pos hreverse]

/-- A word has no blanks to be trimmed. -/
theorem trim_of_isWord {text : List Char} (h : IsWord text) : trim text = text := by
  have hself : ∀ l : List Char, (∀ c ∈ l, isBlank c = false) → l.dropWhile isBlank = l := by
    intro l hl
    cases l with
    | nil => rfl
    | cons c rest => exact List.dropWhile_cons_of_neg (by simp [hl c List.mem_cons_self])
  rw [trim, hself text h.unblank, hself _ fun c hc => h.unblank c (List.mem_reverse.mp hc),
    List.reverse_reverse]

/-- **A word is left of a text when the blanks around it are dropped.** -/
theorem trim_padded {before text after : List Char} (hbefore : ∀ c ∈ before, isBlank c = true)
    (h : IsWord text) (hafter : ∀ c ∈ after, isBlank c = true) :
    trim (before ++ text ++ after) = text := by
  rw [trim_append_blank _ hafter, trim_blank_append hbefore, trim_of_isWord h]

/-- The line end does not change what is left of a line. -/
theorem trim_withoutReturn (line : List Char) : trim (withoutReturn line) = trim line := by
  rw [withoutReturn]
  split
  next hreturn =>
    obtain ⟨front, rfl⟩ := List.getLast?_eq_some_iff.mp hreturn
    rw [List.dropLast_concat, trim_append_blank front (List.forall_mem_singleton.mpr rfl)]
  next => rfl

end CounterWatch.Text
