import CounterWatch.Proofs.Text.Layout
import CounterWatch.Proofs.Text.Numeral
import CounterWatch.ProcessMaps
import Mathlib.Data.List.DropRight
import Mathlib.Data.Option.Basic

/-!
# Proofs/ProcessMaps/Listing — a listing of mappings is read back

A mapping is listed as five fields and, behind some blanks, the pathname as it is.  The reader takes
the sixth field for the pathname, so it reads the pathname up to the first blank in it.

* `Area.line`, `listing` — what is listed.
* `Steps.lastName?_append` — which name a path ends in.
* `ofLine?_line`, `parse_listing` — what a line, and what a listing, is read as.
* `pathnames_read_up_to_blank` — which mappings of files are read, and when they are those listed.
* `pathnames_not_read_whole` — they are not always.
-/

namespace CounterWatch

/-! ## The last step of a path -/

namespace Steps

variable {α : Type} [DecidableEq α] {slash dot : α}

theorem split_ne_nil (slash : α) : ∀ path, split slash path ≠ []
  | [] => List.cons_ne_nil _ _
  | a :: rest => by
      rw [split]
      split
      · exact List.cons_ne_nil _ _
      · split <;> exact List.cons_ne_nil _ _

/-- A path without a slash is its only step. -/
theorem split_of_not_mem : ∀ {path : List α}, slash ∉ path → split slash path = [path]
  | [], _ => rfl
  | a :: rest, h => by
      obtain ⟨ha, hrest⟩ := List.ne_and_not_mem_of_not_mem_cons h
      simp [split, Ne.symm ha, split_of_not_mem hrest]

/-- A slash ends one step and begins the next. -/
theorem split_append_slash (directory path : List α) :
    split slash (directory ++ slash :: path) = split slash directory ++ split slash path := by
  induction directory with
  | nil => simp [split]
  | cons a directory ih =>
      obtain ⟨step, steps, hsplit⟩ := List.exists_cons_of_ne_nil (split_ne_nil slash directory)
      rw [hsplit, List.cons_append] at ih
      rw [List.cons_append, split, split, ih, hsplit]
      split <;> rfl

/-- **A path ends in the name behind its last slash**, if that is one. -/
theorem lastName?_append (directory : List α) {name : List α} (hslash : slash ∉ name)
    (hname : name ∉ [[], [dot], [dot, dot]]) :
    lastName? slash dot (directory ++ slash :: name) = some name := by
  obtain ⟨hne, hdot, habove⟩ : name ≠ [] ∧ name ≠ [dot] ∧ name ≠ [dot, dot] := by simpa using hname
  rw [lastName?, names, split_append_slash, split_of_not_mem hslash]
  simp [List.filter_append, hne, hdot, habove]

/-- The steps of a path are made of its own characters. -/
theorem mem_of_mem_split {path step : List α} (h : step ∈ split slash path) {a : α}
    (ha : a ∈ step) : a ∈ path := by
  induction path generalizing step with
  | nil => simp_all [split]
  | cons b rest ih =>
      rw [split] at h
      split at h
      · rcases List.mem_cons.mp h with rfl | h
        · exact absurd ha List.not_mem_nil
        · exact List.mem_cons_of_mem _ (ih h ha)
      · split at h
        next hsplit => exact absurd hsplit (split_ne_nil _ _)
        next first steps hsplit =>
          rcases List.mem_cons.mp h with rfl | h
          · rcases List.mem_cons.mp ha with rfl | ha
            · exact List.mem_cons_self
            · exact List.mem_cons_of_mem _ (ih (hsplit ▸ List.mem_cons_self) ha)
          · exact List.mem_cons_of_mem _ (ih (hsplit ▸ List.mem_cons_of_mem _ h) ha)

/-- The name that a path ends in is spelled in the path. -/
theorem mem_of_lastName? {path name : List α} (h : lastName? slash dot path = some name) {a : α}
    (ha : a ∈ name) : a ∈ path := by
  obtain ⟨hlast, -⟩ := Option.filter_eq_some_iff.mp h
  exact mem_of_mem_split (List.mem_filter.mp (List.mem_of_getLast? hlast)).1 ha

end Steps

namespace ProcessMaps

open Text (IsWord isBlank paddedHex)

/-! ## Listings -/

/-- What a line is about: an area of memory and what is in it. -/
structure Area where
  start : UInt64
  /-- The first address behind it. -/
  stop : UInt64
  permissions : { text : List Char // IsWord text }
  /-- Where in the file it starts. -/
  offset : UInt64
  device : { text : List Char // IsWord text }
  inode : { text : List Char // IsWord text }
  /-- How many blanks follow. -/
  padding : Nat
  /-- What it is called, as a rule the path of the file in it; empty if it has no name. -/
  name : List Char
  padded : name ≠ [] → 0 < padding
  oneLine : '\n' ∉ name

/-- The pathname's part behind the last slash. -/
def component (name : List Char) : List Char := name.rtakeWhile (· ≠ '/')

namespace Area

/-- The range of the addresses, in at least so many digits each. -/
def range (width : Nat) (a : Area) : List Char :=
  paddedHex width a.start.toNat ++ '-' :: paddedHex width a.stop.toNat

/-- The line of an area. -/
def line (width : Nat) (a : Area) : List Char :=
  [' '].intercalate
      [a.range width, a.permissions, paddedHex width a.offset.toNat, a.device, a.inode]
    ++ List.replicate a.padding ' ' ++ a.name

/-- Code from a file is in it: the name is an absolute path that ends in a name. -/
def IsFile (a : Area) : Prop :=
  'x' ∈ a.permissions.val ∧ a.name.head? = some '/' ∧
    component a.name ∉ [[], ['.'], ['.', '.']]

instance : DecidablePred IsFile := fun _ => inferInstanceAs (Decidable (_ ∧ _ ∧ _))

/-- There is no code in it, or it has no name. -/
def IsOther (a : Area) : Prop := 'x' ∉ a.permissions.val ∨ a.name = []

instance : DecidablePred IsOther := fun _ => inferInstanceAs (Decidable (_ ∨ _))

/-- The mapping of the area, under the name of a module. -/
def mappingTo (a : Area) (module : List Char) : Mapping :=
  ⟨a.start, a.stop, a.offset, String.ofList module⟩

/-- The mapping of the area, named after the file in it. -/
def mapping (a : Area) : Mapping := a.mappingTo (component a.name)

/-- The pathname as far as it goes without a blank. -/
def beginning (a : Area) : List Char := a.name.takeWhile (!isBlank ·)

/-- The mapping of the area, named after the last name in the beginning of the pathname. -/
def mappingOfBeginning? (a : Area) : Option Mapping :=
  (Steps.lastName? '/' '.' a.beginning).map a.mappingTo

end Area

/-- The lines of areas, one below the other. -/
def listing (width : Nat) (areas : List Area) : String :=
  String.ofList ((areas.map (Area.line width)).flatMap (· ++ ['\n']))

/-- The areas with code from files. -/
def files (areas : List Area) : List Area := areas.filter Area.IsFile

variable {width : Nat} {a : Area} {areas : List Area}

/-! ## Lines -/

theorem isWord_paddedHex (width n : Nat) : IsWord (paddedHex width n) :=
  ⟨Text.paddedHex_ne_nil width n, fun _ hc =>
    (Text.unblank_of_isHexDigit (Text.isHexDigit_of_mem_paddedHex hc)).1⟩

/-- A range is one word, as there are no blanks between its addresses. -/
theorem isWord_range (width : Nat) (a : Area) : IsWord (a.range width) where
  ne_nil := List.append_ne_nil_of_right_ne_nil _ (List.cons_ne_nil _ _)
  unblank c hc := by
    rcases List.mem_append.mp hc with hc | hc
    · exact (isWord_paddedHex width _).unblank c hc
    · rcases List.mem_cons.mp hc with rfl | hc
      · decide
      · exact (isWord_paddedHex width _).unblank c hc

theorem dash_not_mem_paddedHex (width n : Nat) : '-' ∉ paddedHex width n := fun hc =>
  (Text.unblank_of_isHexDigit (Text.isHexDigit_of_mem_paddedHex hc)).2 rfl

/-- What stands before the first separator is split off. -/
theorem splitOnce_append {separator : Char} :
    ∀ {front : List Char}, separator ∉ front → ∀ back : List Char,
      Mapping.splitOnce separator (front ++ separator :: back) = some (front, back)
  | [], _, _ => if_pos rfl
  | c :: front, h, back => by
      obtain ⟨hc, hfront⟩ := List.ne_and_not_mem_of_not_mem_cons h
      simp [Mapping.splitOnce, hc.symm, splitOnce_append hfront back]

/-- A word is told from a name behind it by the blanks between them, if there is a name. -/
theorem fields_append_padding {word name : List Char} (hword : IsWord word) {padding : Nat}
    (h : name ≠ [] → 0 < padding) :
    Text.fields (word ++ (List.replicate padding ' ' ++ name)) = word :: Text.fields name := by
  have hblank : isBlank ' ' = true := by decide
  cases padding with
  | zero =>
      obtain rfl : name = [] := by_contra fun hname => absurd (h hname) (Nat.lt_irrefl 0)
      exact (congrArg Text.fields (List.append_nil word)).trans (Text.fields_of_isWord hword)
  | succ padding =>
      rw [List.replicate_succ, List.cons_append, Text.fields_append_blank hblank,
        Text.fields_of_isWord hword, Text.fields_replicate_blank hblank, List.singleton_append]

/-- **The fields of a line** are those it is put together from, and those of the name. -/
theorem fields_line (width : Nat) (a : Area) :
    Text.fields (a.line width)
      = a.range width :: a.permissions :: paddedHex width a.offset.toNat :: a.device :: a.inode ::
          Text.fields a.name := by
  have hblank : isBlank ' ' = true := by decide
  simp only [Area.line, List.intercalate_cons_cons, List.intercalate_singleton, List.append_assoc,
    List.cons_append, List.nil_append, Text.fields_append_blank hblank,
    Text.fields_of_isWord (isWord_range width a),
    Text.fields_of_isWord (isWord_paddedHex width a.offset.toNat),
    Text.fields_of_isWord a.permissions.2, Text.fields_of_isWord a.device.2,
    fields_append_padding a.inode.2 a.padded]

/-- What is read of an area: a mapping, if there is code in it and its name's first field ends in a
name. -/
def Area.read? (a : Area) : Option Mapping :=
  if 'x' ∈ a.permissions.val then
    ((Text.fields a.name).head?.bind (Steps.lastName? '/' '.')).map a.mappingTo
  else none

/-- **What a line is read as.** -/
theorem ofLine?_line (width : Nat) (a : Area) : Mapping.ofLine? (a.line width) = a.read? := by
  have hrange : Mapping.splitOnce '-' (a.range width)
      = some (paddedHex width a.start.toNat, paddedHex width a.stop.toNat) :=
    splitOnce_append (dash_not_mem_paddedHex width _) _
  rw [Mapping.ofLine?, fields_line, Area.read?]
  cases Text.fields a.name with
  | nil => simp
  | cons path more =>
      cases hlast : Steps.lastName? '/' '.' path with
      | none => simp [hrange, hlast]
      | some module =>
          by_cases hx : 'x' ∈ a.permissions.val
          · simp [hrange, hlast, hx, Text.readHex64_paddedHex, Area.mappingTo, Except.toOption]
          · simp [hrange, hx]

/-- The line end does not change what a line is read as. -/
theorem ofLine?_withoutReturn (line : List Char) :
    Mapping.ofLine? (Text.withoutReturn line) = Mapping.ofLine? line := by
  simp only [Mapping.ofLine?, Text.fields_withoutReturn]

/-- A line does not end before its end, as no name may have a newline in it. -/
theorem newline_not_mem_line (width : Nat) (a : Area) : '\n' ∉ a.line width := by
  have hrange := (isWord_range width a).newline_not_mem
  have hoffset := (isWord_paddedHex width a.offset.toNat).newline_not_mem
  have hpermissions := a.permissions.2.newline_not_mem
  have hdevice := a.device.2.newline_not_mem
  have hinode := a.inode.2.newline_not_mem
  simp [Area.line, hrange, hoffset, hpermissions, hdevice, hinode, a.oneLine]

/-- **What a listing is read as**, line by line. -/
theorem parse_listing (width : Nat) (areas : List Area) :
    parse (listing width areas) = ⟨areas.filterMap Area.read?⟩ := by
  have hlines : ∀ line ∈ areas.map (Area.line width), '\n' ∉ line := by
    rintro _ hline
    obtain ⟨a, -, rfl⟩ := List.mem_map.mp hline
    exact newline_not_mem_line width a
  rw [parse, listing, String.toList_ofList, Text.lines_flatMap_newline hlines, List.filterMap_map,
    List.filterMap_map]
  simp only [Function.comp_def, ofLine?_withoutReturn, ofLine?_line]

/-! ## Pathnames -/

theorem slash_not_mem_component (name : List Char) : '/' ∉ component name := fun h =>
  absurd (List.mem_rtakeWhile_imp h) (by decide)

/-- A pathname with a slash is a directory, a slash and the component behind it. -/
theorem exists_eq_append_component {name : List Char} (h : '/' ∈ name) :
    ∃ directory, name = directory ++ '/' :: component name := by
  have hne : name.rdropWhile (· ≠ '/') ≠ [] := fun hnil =>
    absurd (List.rdropWhile_eq_nil_iff.mp hnil _ h) (by decide)
  have hlast : (name.rdropWhile (· ≠ '/')).getLast hne = '/' := by
    simpa using List.rdropWhile_last_not _ _ hne
  have hfront := List.dropLast_append_getLast hne
  rw [hlast] at hfront
  exact ⟨(name.rdropWhile (· ≠ '/')).dropLast, by
    rw [List.append_cons, hfront, component, List.rdropWhile_append_rtakeWhile]⟩

/-- The whole pathname of a file ends in its component. -/
theorem lastName?_of_isFile (h : a.IsFile) :
    Steps.lastName? '/' '.' a.name = some (component a.name) := by
  obtain ⟨-, habsolute, hname⟩ := h
  obtain ⟨directory, hsplit⟩ := exists_eq_append_component (List.mem_of_mem_head? habsolute)
  have := Steps.lastName?_append directory (slash_not_mem_component a.name) hname
  rwa [← hsplit] at this

/-- Of an area with code from a file, the beginning of the pathname is read. -/
theorem read?_of_isFile (h : a.IsFile) : a.read? = a.mappingOfBeginning? := by
  obtain ⟨hcode, habsolute, -⟩ := h
  obtain ⟨rest, hname⟩ : ∃ rest, a.name = '/' :: rest := List.head?_eq_some_iff.mp habsolute
  have hfirst : (Text.fields a.name).head? = some a.beginning := by
    rw [Area.beginning, hname]
    exact Text.head?_fields (by decide) rest
  rw [Area.read?, if_pos hcode, hfirst, Option.bind_some, Area.mappingOfBeginning?]

theorem read?_of_isOther (h : a.IsOther) : a.read? = none := by
  rcases h with hcode | hname
  · exact if_neg hcode
  · have hfields : Text.fields a.name = [] := congrArg Text.fields hname
    rw [Area.read?, hfields]
    exact ite_self none

theorem not_isFile_of_isOther (h : a.IsOther) : ¬ a.IsFile := by
  rintro ⟨hcode, habsolute, -⟩
  rcases h with hnone | hname
  · exact hnone hcode
  · simp [hname] at habsolute

/-- **Only the areas with code from files are read**, named after the beginning of the pathname. -/
theorem parse_listing_of_files (width : Nat) (h : ∀ a ∈ areas, a.IsFile ∨ a.IsOther) :
    parse (listing width areas) = ⟨(files areas).filterMap Area.mappingOfBeginning?⟩ := by
  rw [parse_listing, files, List.filterMap_filter]
  congr 1
  refine List.filterMap_congr fun a ha => ?_
  rcases h a ha with hfile | hother
  · rw [read?_of_isFile hfile, if_pos (decide_eq_true hfile)]
  · rw [read?_of_isOther hother, if_neg (by simpa using not_isFile_of_isOther hother)]

theorem beginning_eq_name (h : ∀ c ∈ a.name, isBlank c = false) : a.beginning = a.name :=
  List.takeWhile_eq_self_iff.mpr fun c hc => by simp [h c hc]

theorem unblank_of_mem_beginning {c : Char} (h : c ∈ a.beginning) : isBlank c = false := by
  simpa using List.mem_takeWhile_imp h

/-- The mapping is the one listed just when the beginning of the pathname ends in the same name. -/
theorem mappingOfBeginning?_eq_some_iff :
    a.mappingOfBeginning? = some a.mapping ↔
      Steps.lastName? '/' '.' a.beginning = some (component a.name) := by
  have hinjective : Function.Injective a.mappingTo := fun name name' h => by
    simpa [Area.mappingTo, String.ofList_inj] using h
  rw [Area.mappingOfBeginning?, Area.mapping, ← Option.map_some,
    (Option.map_injective hinjective).eq_iff]

/-- **A listing of files, of areas without code and of areas without a name is read back but for the
names of the modules.**  What is kept of a file is named after the last name in the part of the
pathname before the first blank, and nothing is kept if there is none.  So the listing is read back
just when each of these parts ends in the same name as the pathname it is a part of: always if the
pathnames have no blanks, and never if there is one in the last component of a pathname. -/
theorem pathnames_read_up_to_blank (width : Nat) (areas : List Area)
    (h : ∀ a ∈ areas, a.IsFile ∨ a.IsOther) :
    parse (listing width areas) = ⟨(files areas).filterMap Area.mappingOfBeginning?⟩ ∧
      (parse (listing width areas) = ⟨(files areas).map Area.mapping⟩ ↔
        ∀ a ∈ files areas,
          Steps.lastName? '/' '.' a.beginning = some (component a.name)) ∧
      ((∀ a ∈ files areas, ∀ c ∈ a.name, isBlank c = false) →
        parse (listing width areas) = ⟨(files areas).map Area.mapping⟩) ∧
      ((∃ a ∈ files areas, ∃ c ∈ component a.name, isBlank c = true) →
        parse (listing width areas) ≠ ⟨(files areas).map Area.mapping⟩) := by
  have hread := parse_listing_of_files width h
  have hwhole : parse (listing width areas) = ⟨(files areas).map Area.mapping⟩ ↔
      ∀ a ∈ files areas,
        Steps.lastName? '/' '.' a.beginning = some (component a.name) := by
    rw [hread, ProcessMaps.mk.injEq, List.filterMap_eq_map_iff_forall_eq_some]
    exact forall₂_congr fun _ _ => mappingOfBeginning?_eq_some_iff
  refine ⟨hread, hwhole, fun hunblank => hwhole.mpr fun a ha => ?_, ?_⟩
  · rw [beginning_eq_name (hunblank a ha)]
    exact lastName?_of_isFile (by simpa [files] using (List.mem_filter.mp ha).2)
  · rintro ⟨a, ha, c, hc, hblank⟩ heq
    have hbeginning := Steps.mem_of_lastName? (hwhole.mp heq a ha) hc
    exact absurd hblank (by simp [unblank_of_mem_beginning hbeginning])

/-- A file with a blank in the name of its directory. -/
def tool : Area where
  start := 0x1000
  stop := 0x2000
  permissions := ⟨"r-xp".toList, by decide⟩
  offset := 0
  device := ⟨"08:01".toList, by decide⟩
  inode := ⟨"7".toList, by decide⟩
  padding := 1
  name := "/opt/my app/tool".toList
  padded := by decide
  oneLine := by decide

/-- Data behind it, without a name. -/
def heap : Area where
  start := 0x2000
  stop := 0x3000
  permissions := ⟨"rw-p".toList, by decide⟩
  offset := 0
  device := ⟨"00:00".toList, by decide⟩
  inode := ⟨"0".toList, by decide⟩
  padding := 0
  name := []
  padded := by decide
  oneLine := by decide

theorem pathnames_read_up_to_blank_of_tool :
    listing 8 [heap, tool]
        = "00002000-00003000 rw-p 00000000 00:00 0\n" ++
          "00001000-00002000 r-xp 00000000 08:01 7 /opt/my app/tool\n" ∧
      (∀ a ∈ [heap, tool], a.IsFile ∨ a.IsOther) ∧
      parse (listing 8 [heap, tool]) = ⟨[⟨0x1000, 0x2000, 0, "my"⟩]⟩ := by
  have h : ∀ a ∈ [heap, tool], a.IsFile ∨ a.IsOther := by decide
  exact ⟨by decide, h, (pathnames_read_up_to_blank 8 [heap, tool] h).1.trans (by decide)⟩

/-- **Not every listing is read back**: a pathname with a blank is cut. -/
theorem pathnames_not_read_whole :
    ¬ ∀ (width : Nat) (areas : List Area), (∀ a ∈ areas, a.IsFile ∨ a.IsOther) →
      parse (listing width areas) = ⟨(files areas).map Area.mapping⟩ := fun hall =>
  absurd (hall 8 [tool] (by decide)) (by decide)

end ProcessMaps
end CounterWatch
