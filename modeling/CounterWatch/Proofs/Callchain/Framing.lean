import CounterWatch.ProcessMaps
import CounterWatch.Proofs.Callchain.Grammar
import Mathlib.Data.List.Forall2

/-!
# Proofs/Callchain/Framing — where chains and frames end

A bar ends a chain and a semicolon stands between two frames, but nothing keeps them out of the name
of a mapped file.  So a text can be taken apart at them only as far as the names have none.

* `cut` — takes a text apart; `cut_join_chain` says when it finds the frames.
* `count_bar_chain`, `count_semicolon_chain` — the bars and semicolons of a chain are those it is
  written with, and those in its frames.
* `Framed` — what a reader of bars and semicolons relies on; `framed_join_chain` says when that is
  so.
* `framed_but_for_modules` — the text of mapped addresses is framed, but for the names of modules.
-/

namespace CounterWatch

namespace Callchain

variable {c : Callchain}

/-! ## Counting -/

/-- The characters of the frames of addresses. -/
def letters (c : Callchain) (addresses : List UInt64) : List Char :=
  addresses.flatMap fun address => (c.frame address).toList

/-- The characters of a chain before its bar. -/
def body (c : Callchain) (addresses : List UInt64) : List Char :=
  [';'].intercalate (addresses.map fun address => (c.frame address).toList)

/-- A chain is its frames with semicolons between them, and a bar. -/
theorem toList_chain (addresses : List UInt64) :
    (c.chain addresses).toList = c.body addresses ++ ['|'] := by
  simp [chain, body, String.toList_intercalate, Function.comp_def]

/-- A character occurs in joined frames as often as in the frames and those separators together. -/
theorem count_intercalate (separator x : Char) : ∀ frames : List (List Char),
    ([separator].intercalate frames).count x
      = (frames.length - 1) * [separator].count x + frames.flatten.count x
  | [] => by simp
  | [frame] => by simp
  | frame :: next :: rest => by
      have ih := count_intercalate separator x (next :: rest)
      simp only [List.intercalate_cons_cons, List.count_append, ih, List.length_cons,
        List.flatten_cons, Nat.add_sub_cancel, Nat.succ_mul]
      omega

theorem count_body (x : Char) (addresses : List UInt64) :
    (c.body addresses).count x
      = (addresses.length - 1) * [';'].count x + (c.letters addresses).count x := by
  rw [body, count_intercalate, List.length_map, ← List.flatMap_def, letters]

/-- **The bars of a chain** are its own and those of its frames. -/
theorem count_bar_chain (addresses : List UInt64) :
    (c.chain addresses).toList.count '|' = 1 + (c.letters addresses).count '|' := by
  have hown : [';'].count '|' = 0 := by decide
  have hclosing : ['|'].count '|' = 1 := by decide
  rw [toList_chain, List.count_append, count_body, hown, hclosing]
  omega

/-- **The semicolons of a chain** are one less than its frames, and those in its frames. -/
theorem count_semicolon_chain (addresses : List UInt64) :
    (c.chain addresses).toList.count ';'
      = (addresses.length - 1) + (c.letters addresses).count ';' := by
  have hown : [';'].count ';' = 1 := by decide
  have hclosing : ['|'].count ';' = 0 := by decide
  rw [toList_chain, List.count_append, count_body, hown, hclosing]
  omega

/-! ## Cutting -/

/-- The frames between semicolons; of nothing there are none. -/
def framesOf (body : List Char) : List (List Char) := if body = [] then [] else body.splitOn ';'

/-- Cuts a text behind every bar, and what ends there into its frames. -/
def cut (text : String) : List (List (List Char)) :=
  (text.toList.splitOn '|').dropLast.map framesOf

/-- A frame that can be told from what stands around it. -/
structure Plain (frame : String) : Prop where
  ne_empty : frame ≠ ""
  bar_not_mem : '|' ∉ frame.toList
  semicolon_not_mem : ';' ∉ frame.toList

theorem plain_of_count {frame : String} (hne : frame ≠ "")
    (h : ∀ x, x = '|' ∨ x = ';' → frame.toList.count x = 0) : Plain frame :=
  ⟨hne, List.count_eq_zero.mp (h _ (.inl rfl)), List.count_eq_zero.mp (h _ (.inr rfl))⟩

theorem Plain.count_eq_zero {frame : String} (h : Plain frame) {x : Char}
    (hx : x = '|' ∨ x = ';') : frame.toList.count x = 0 := by
  rcases hx with rfl | rfl
  · exact List.count_eq_zero.mpr h.bar_not_mem
  · exact List.count_eq_zero.mpr h.semicolon_not_mem

theorem count_letters_of_plain {addresses : List UInt64}
    (h : ∀ address ∈ addresses, Plain (c.frame address)) {x : Char} (hx : x = '|' ∨ x = ';') :
    (c.letters addresses).count x = 0 := by
  refine List.count_eq_zero.mpr fun hmem => ?_
  obtain ⟨address, haddress, hmem⟩ := List.mem_flatMap.mp hmem
  exact List.count_eq_zero.mp ((h address haddress).count_eq_zero hx) hmem

/-- **Plain frames are found again** between the semicolons that were put there. -/
theorem framesOf_body {addresses : List UInt64}
    (h : ∀ address ∈ addresses, Plain (c.frame address)) :
    framesOf (c.body addresses) = addresses.map fun address => (c.frame address).toList := by
  match addresses, h with
  | [], _ => rfl
  | address :: rest, h =>
      have hfirst := (h address List.mem_cons_self).ne_empty
      have hne : c.body (address :: rest) ≠ [] := by
        cases rest <;> simp [body, List.intercalate_cons_cons, hfirst]
      rw [framesOf, if_neg hne]
      refine List.splitOn_intercalate ';' (fun frame hframe => ?_) (by simp)
      obtain ⟨address, haddress, rfl⟩ := List.mem_map.mp hframe
      exact (h address haddress).semicolon_not_mem

/-- Nothing in a chain of plain frames looks like its end. -/
theorem bar_not_mem_body {addresses : List UInt64}
    (h : ∀ address ∈ addresses, Plain (c.frame address)) : '|' ∉ c.body addresses := by
  rw [← List.count_eq_zero, count_body, count_letters_of_plain h (.inl rfl)]
  rfl

theorem intercalate_concat_nil (bar : Char) : ∀ bodies : List (List Char),
    [bar].intercalate (bodies ++ [[]]) = bodies.flatMap (· ++ [bar])
  | [] => rfl
  | body :: rest => by
      rw [List.cons_append, List.intercalate_cons_of_ne_nil (by simp), intercalate_concat_nil,
        List.flatMap_cons]

/-- **The text of chains is cut into their frames** if these are plain. -/
theorem cut_join_chain {samples : List (List UInt64)}
    (h : ∀ addresses ∈ samples, ∀ address ∈ addresses, Plain (c.frame address)) :
    cut (String.join (samples.map c.chain))
      = samples.map (·.map fun address => (c.frame address).toList) := by
  have htext : (String.join (samples.map c.chain)).toList
      = ['|'].intercalate (samples.map c.body ++ [[]]) := by
    simp only [String.toList_join, List.flatMap_map, toList_chain, intercalate_concat_nil]
  have hbars : ∀ body ∈ samples.map c.body ++ [[]], '|' ∉ body := by
    intro body hbody
    rcases List.mem_append.mp hbody with hbody | hbody
    · obtain ⟨addresses, haddresses, rfl⟩ := List.mem_map.mp hbody
      exact bar_not_mem_body (h addresses haddresses)
    · rw [List.mem_singleton.mp hbody]
      exact List.not_mem_nil
  rw [cut, htext, List.splitOn_intercalate '|' hbars (by simp), List.dropLast_concat, List.map_map]
  exact List.map_congr_left fun addresses haddresses => framesOf_body (h addresses haddresses)

/-! ## Raw frames -/

/-- Hexadecimal digits are neither bars nor semicolons. -/
theorem count_of_isHexDigit (digits : List Char) (h : ∀ d ∈ digits, Text.IsHexDigit d) {x : Char}
    (hx : x = '|' ∨ x = ';') : digits.count x = 0 := by
  refine List.count_eq_zero.mpr fun hmem => ?_
  obtain ⟨-, hbar, hsemicolon⟩ := Text.ne_of_isHexDigit (h x hmem)
  exact hx.elim hbar hsemicolon

theorem count_rawFrame (address : UInt64) {x : Char} (hx : x = '|' ∨ x = ';') :
    (rawFrame address).toList.count x = 0 := by
  have hdigits := count_of_isHexDigit (Text.hexPlaces 16 address.toNat)
    (fun _ => Text.isHexDigit_of_mem_hexPlaces) hx
  have hstart : "0x".toList.count x = 0 := by rcases hx with rfl | rfl <;> decide
  rw [rawFrame, String.toList_append, List.count_append, hstart, String.toList_ofList, hdigits]

theorem plain_rawFrame (address : UInt64) : Plain (rawFrame address) :=
  plain_of_count (by simp [rawFrame]) fun _ => count_rawFrame address

end Callchain

/-! ## Framing -/

/-- A text has the framing of samples: a part for each of them, in order, with one bar in it and
with one semicolon less than addresses.  Cutting the text then tells the number of samples, and of
addresses in each. -/
structure Framed (samples : List (List UInt64)) (text : String) : Prop where
  bars : text.toList.count '|' = samples.length
  parts : ∃ parts : List String, text = String.join parts ∧
    List.Forall₂ (fun addresses part => part.toList.count '|' = 1 ∧
      part.toList.count ';' = addresses.length - 1) samples parts
  recovered : (Callchain.cut text).map List.length = samples.map List.length

/-- **The text of chains is framed** if their frames are plain. -/
theorem framed_join_chain {c : Callchain} {samples : List (List UInt64)}
    (h : ∀ addresses ∈ samples, ∀ address ∈ addresses, Callchain.Plain (c.frame address)) :
    Framed samples (String.join (samples.map c.chain)) := by
  have hbar : ∀ addresses ∈ samples, (c.chain addresses).toList.count '|' = 1 := by
    intro addresses haddresses
    rw [Callchain.count_bar_chain,
      Callchain.count_letters_of_plain (h addresses haddresses) (.inl rfl)]
  have hsemicolon : ∀ addresses ∈ samples,
      (c.chain addresses).toList.count ';' = addresses.length - 1 := by
    intro addresses haddresses
    rw [Callchain.count_semicolon_chain,
      Callchain.count_letters_of_plain (h addresses haddresses) (.inr rfl), Nat.add_zero]
  refine ⟨?bars, ⟨_, rfl, ?parts⟩, ?recovered⟩
  case bars =>
    have hone : samples.map (List.count '|' ∘ fun addresses => (c.chain addresses).toList)
        = samples.map fun _ => 1 := List.map_congr_left hbar
    rw [String.toList_join, List.flatMap_map, List.count_flatMap, hone]
    simp
  case parts =>
    exact List.forall₂_map_right_iff.mpr (List.forall₂_same.mpr fun addresses haddresses =>
      ⟨hbar addresses haddresses, hsemicolon addresses haddresses⟩)
  case recovered =>
    rw [Callchain.cut_join_chain h]
    simp [Function.comp_def]

/-! ## Mapped addresses -/

namespace ProcessMaps

variable {maps : ProcessMaps} {maxDepth : UInt64}

/-- The module that an address is named after; nothing if it is not named. -/
def moduleOf (maps : ProcessMaps) (address : UInt64) : String :=
  ((maps.mappings.find? (·.contains address)).map (·.module)).getD ""

/-- The characters of the modules that addresses are named after. -/
def modulesOf (maps : ProcessMaps) (addresses : List UInt64) : List Char :=
  addresses.flatMap fun address => (maps.moduleOf address).toList

/-- Call chains written with the names of mapped addresses. -/
def callchain (maps : ProcessMaps) (maxDepth : UInt64) : Callchain := ⟨maps.resolve, maxDepth⟩

/-- An address has the name that the first mapping with it gives it, or its digits where none has
it. -/
theorem frame_callchain (address : UInt64) : (maps.callchain maxDepth).frame address
    = ((maps.mappings.find? (·.contains address)).map (·.nameOf address)).getD
        (Callchain.rawFrame address) := rfl

/-- However short the name of a module, a frame has its offset, or its digits. -/
theorem frame_ne_empty (address : UInt64) : (maps.callchain maxDepth).frame address ≠ "" := by
  rw [frame_callchain]
  cases maps.mappings.find? (·.contains address) <;> simp [Callchain.rawFrame, Mapping.nameOf]

/-- **A frame has the bars and semicolons of its module** and no others. -/
theorem count_frame (address : UInt64) {x : Char} (hx : x = '|' ∨ x = ';') :
    ((maps.callchain maxDepth).frame address).toList.count x
      = (maps.moduleOf address).toList.count x := by
  rw [frame_callchain, moduleOf]
  cases maps.mappings.find? (·.contains address) with
  | none => simp [Callchain.count_rawFrame address hx]
  | some m =>
      have hoffset := Callchain.count_of_isHexDigit
        (Nat.toDigits 16 (address - m.start + m.offset).toNat)
        (fun _ => Text.isHexDigit_of_mem_toDigits (by decide) (by decide) _) hx
      have hbetween : "+0x".toList.count x = 0 := by rcases hx with rfl | rfl <;> decide
      simp only [Option.map_some, Option.getD_some, Mapping.nameOf, Text.hex, String.toList_append,
        String.toList_ofList, List.count_append, hbetween, hoffset, Nat.add_zero]

/-- **Bars and semicolons in frames come from the names of modules**, and from nothing else. -/
theorem count_letters (addresses : List UInt64) {x : Char} (hx : x = '|' ∨ x = ';') :
    ((maps.callchain maxDepth).letters addresses).count x = (maps.modulesOf addresses).count x := by
  rw [Callchain.letters, modulesOf, List.count_flatMap, List.count_flatMap]
  exact congrArg List.sum (List.map_congr_left fun address _ => count_frame address hx)

/-- Where no module has a bar or a semicolon in its name, every frame is plain. -/
theorem plain_frame {addresses : List UInt64}
    (h : '|' ∉ maps.modulesOf addresses ∧ ';' ∉ maps.modulesOf addresses) {address : UInt64}
    (haddress : address ∈ addresses) :
    Callchain.Plain ((maps.callchain maxDepth).frame address) := by
  refine Callchain.plain_of_count (frame_ne_empty address) fun x hx => ?_
  have hmodules : x ∉ maps.modulesOf addresses := by
    rcases hx with rfl | rfl
    · exact h.1
    · exact h.2
  have hmodule : x ∉ (maps.moduleOf address).toList := fun hmem =>
    hmodules (List.mem_flatMap.mpr ⟨address, haddress, hmem⟩)
  rw [count_frame address hx, List.count_eq_zero.mpr hmodule]

/-- The bars of a chain of mapped addresses are its own and those of its modules. -/
theorem count_bar_chain (addresses : List UInt64) :
    ((maps.callchain maxDepth).chain addresses).toList.count '|'
      = 1 + (maps.modulesOf addresses).count '|' := by
  rw [Callchain.count_bar_chain, count_letters addresses (.inl rfl)]

/-- The semicolons of a chain of mapped addresses are one less than its frames, and those of its
modules. -/
theorem count_semicolon_chain (addresses : List UInt64) :
    ((maps.callchain maxDepth).chain addresses).toList.count ';'
      = (addresses.length - 1) + (maps.modulesOf addresses).count ';' := by
  rw [Callchain.count_semicolon_chain, count_letters addresses (.inr rfl)]

end ProcessMaps

/-- **The text of mapped addresses is framed but for the names of modules.**  Every sample has a
part of the text, in order.  Its bars are the one it ends with and those in the names of modules
that its addresses are named after; its semicolons are one less than its addresses and those in the
names.  If there are none in the names, the text has the framing of the samples. -/
theorem framed_but_for_modules (content : String) (maxDepth : UInt64) (records : List Bytes)
    (out : String) :
    let maps := ProcessMaps.parse content
    let samples := (records.filter (Callchain.IsSample maxDepth ·)).map Callchain.carried
    ∃ parts : List String,
      (maps.callchain maxDepth).renderAll records out = out ++ String.join parts ∧
      List.Forall₂ (fun addresses part =>
        part.toList.count '|' = 1 + (maps.modulesOf addresses).count '|' ∧
        part.toList.count ';' = (addresses.length - 1) + (maps.modulesOf addresses).count ';')
        samples parts ∧
      ((∀ addresses ∈ samples,
          '|' ∉ maps.modulesOf addresses ∧ ';' ∉ maps.modulesOf addresses) →
        Framed samples (String.join parts)) := by
  intro maps samples
  let c := maps.callchain maxDepth
  refine ⟨samples.map c.chain, ?_, ?_, fun hnone => ?_⟩
  · rw [Callchain.renderAll_eq, Callchain.rendering_eq, Callchain.samples_eq]
    rfl
  · exact List.forall₂_map_right_iff.mpr (List.forall₂_same.mpr fun addresses _ =>
      ⟨ProcessMaps.count_bar_chain addresses, ProcessMaps.count_semicolon_chain addresses⟩)
  · exact framed_join_chain fun addresses haddresses _ =>
      ProcessMaps.plain_frame (hnone addresses haddresses)

/-- **Modules can break the framing**: a maps file may name a file with both a bar and a semicolon
in it. -/
theorem not_always_framed : ¬ ∀ (content : String) (maxDepth : UInt64) (records : List Bytes)
    (out : String), ∃ text : String,
      ((ProcessMaps.parse content).callchain maxDepth).renderAll records out = out ++ text ∧
      Framed ((records.filter (Callchain.IsSample maxDepth ·)).map Callchain.carried) text := by
  intro h
  let content := "1000-2000 r-xp 00000000 08:01 7 /srv/a;b|c\n"
  let sample : Bytes :=
    [9, 0, 0, 0, 0, 0, 24, 0] ++ [1, 0, 0, 0, 0, 0, 0, 0] ++ [0, 16, 0, 0, 0, 0, 0, 0]
  have hone : (([sample].filter (Callchain.IsSample 50 ·)).map Callchain.carried).length = 1 := by
    decide +kernel
  have htext : ((ProcessMaps.parse content).callchain 50).renderAll [sample] "" = "a;b|c+0x0|" := by
    decide +kernel
  obtain ⟨text, happended, hframed⟩ := h content 50 [sample] ""
  rw [htext, String.empty_append] at happended
  have hbars := hframed.bars
  rw [hone, ← happended] at hbars
  exact absurd hbars (by decide)

end CounterWatch
