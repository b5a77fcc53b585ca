import CounterWatch.Proofs.ProcessMaps.Listing
import Mathlib.Data.List.Find
import Mathlib.Data.List.Pairwise

/-!
# Proofs/ProcessMaps/Lookup — addresses are found in any order of the lines

The first mapping that covers an address names it.  When no two mappings cover one address, the
first one is the only one, so neither the order of the lines nor the lines in between that are no
mappings can be told from the names.

* `Mapping.Covers`, `Mapping.Names` — where the addresses of a mapping are, and what they are
  called.
* `Rearranges` — one text has the lines of another in any order, and more that are no mappings.
* `Decides` — which line decides about an address.
* `found_in_any_order` — what is found, in any text and in one whose mappings are apart.
-/

namespace CounterWatch

/-! ## Mappings -/

namespace Mapping

variable {m : Mapping} {address address' : UInt64}

/-- The address is in the range of the mapping, its end excluded. -/
def Covers (m : Mapping) (address : UInt64) : Prop := m.start ≤ address ∧ address < m.stop

instance (m : Mapping) (address : UInt64) : Decidable (m.Covers address) :=
  inferInstanceAs (Decidable (_ ∧ _))

/-- Where in the file an address of the mapping is. -/
def place (m : Mapping) (address : UInt64) : Nat :=
  address.toNat - m.start.toNat + m.offset.toNat

/-- The place of the address in the file is a 64-bit number. -/
def Fits (m : Mapping) (address : UInt64) : Prop := m.place address < UInt64.size

instance (m : Mapping) (address : UInt64) : Decidable (m.Fits address) :=
  inferInstanceAs (Decidable (_ < _))

/-- The name of an address of the mapping: the module, and the place in its file in hexadecimal. -/
def Names (m : Mapping) (address : UInt64) (name : String) : Prop :=
  ∃ digits, Text.IsHexNumeral (m.place address) digits ∧
    name = m.module ++ "+0x" ++ String.ofList digits

/-- No address is in both ranges; ranges without addresses are apart from all others. -/
def Apart (m m' : Mapping) : Prop := ∀ address, m.Covers address → ¬ m'.Covers address

@[simp] theorem contains_iff : m.contains address = true ↔ m.Covers address := by
  simp [contains, Covers]

/-- A mapping that ends before another starts is apart from it. -/
theorem apart_of_le {m m' : Mapping} (h : m.stop ≤ m'.start) : m.Apart m' :=
  fun _ hcovers hcovers' => UInt64.not_le.mpr hcovers.2 (UInt64.le_trans h hcovers'.1)

/-- A mapping that does not end behind its start is apart from all. -/
theorem apart_of_empty {m : Mapping} (h : m.stop ≤ m.start) (m' : Mapping) : m.Apart m' :=
  fun _ hcovers => absurd (UInt64.le_trans h hcovers.1) (UInt64.not_le.mpr hcovers.2)

instance : Std.Symm Apart := ⟨fun _ _ h address hcovers' hcovers => h address hcovers hcovers'⟩

/-- Behind the start of the mapping, the words count as the numbers do. -/
theorem toNat_place (hcovers : m.Covers address) (hfits : m.Fits address) :
    (address - m.start + m.offset).toNat = m.place address := by
  rw [UInt64.toNat_add, UInt64.toNat_sub_of_le _ _ hcovers.1]
  exact Nat.mod_eq_of_lt hfits

theorem names_nameOf (hcovers : m.Covers address) (hfits : m.Fits address) :
    m.Names address (m.nameOf address) := by
  refine ⟨_, Text.isHexNumeral_toDigits _, ?_⟩
  rw [nameOf, toNat_place hcovers hfits, Text.hex]

/-- **Different addresses have different names** in one mapping. -/
theorem nameOf_injective (m : Mapping) : Function.Injective m.nameOf := by
  intro address address' h
  have hdigits := Text.toDigits_injective (by decide) (Nat.le_refl 16)
    (String.ofList_injective ((String.append_right_inj _).mp h))
  simpa using UInt64.toNat_inj.mp hdigits

end Mapping

namespace ProcessMaps

/-! ## Texts -/

/-- A line of the text is read as the mapping. -/
def Lists (text : String) (m : Mapping) : Prop :=
  ∃ line ∈ Text.lines text.toList, Mapping.ofLine? line = some m

/-- The text has the lines of another in any order, and maybe others that are no mappings.  What
counts of a line are its fields, so a carriage return may belong to the line in one place and to its
end in another. -/
def Rearranges (text' text : String) : Prop :=
  ∃ others, (∀ line ∈ others, Mapping.ofLine? line = none) ∧
    ((Text.lines text'.toList).map Text.fields).Perm
      ((Text.lines text.toList ++ others).map Text.fields)

/-- The first line whose mapping covers the address is read as this one. -/
def Decides (text : String) (address : UInt64) (m : Mapping) : Prop :=
  ∃ earlier line later, Text.lines text.toList = earlier ++ line :: later ∧
    Mapping.ofLine? line = some m ∧ m.Covers address ∧
    ∀ line ∈ earlier, ∀ m', Mapping.ofLine? line = some m' → ¬ m'.Covers address

variable {text text' : String} {m : Mapping} {address : UInt64}

@[simp] theorem mem_mappings_parse : m ∈ (parse text).mappings ↔ Lists text m :=
  List.mem_filterMap

/-- Only the fields of a line matter. -/
theorem factorsThrough_fields : Mapping.ofLine?.FactorsThrough Text.fields := by
  intro line line' h
  rw [Mapping.ofLine?, Mapping.ofLine?, h]

/-- **Rearranging a text rearranges its mappings.** -/
theorem Rearranges.perm (h : Rearranges text' text) :
    (parse text').mappings.Perm (parse text).mappings := by
  obtain ⟨others, hothers, hperm⟩ := h
  obtain ⟨ofFields?, hfactor⟩ := (Function.factorsThrough_iff _).mp factorsThrough_fields
  have hmappings := hperm.filterMap ofFields?
  rw [List.filterMap_map, List.filterMap_map, ← hfactor, List.filterMap_append,
    List.filterMap_eq_nil_iff.mpr hothers, List.append_nil] at hmappings
  exact hmappings

/-! ## Lookup -/

theorem isSome_resolve : ((parse text).resolve address).isSome ↔
    ∃ m, Lists text m ∧ m.Covers address := by
  simp [resolve]

/-- **The first line that covers an address decides** about it. -/
theorem resolve_of_decides (h : Decides text address m) :
    (parse text).resolve address = some (m.nameOf address) := by
  obtain ⟨earlier, line, later, hlines, hline, hcovers, hearlier⟩ := h
  have hfind : (parse text).mappings.find? (·.contains address) = some m := by
    refine List.find?_eq_some_iff_append.mpr ⟨Mapping.contains_iff.mpr hcovers,
      earlier.filterMap Mapping.ofLine?, later.filterMap Mapping.ofLine?, ?_, fun m' hm' => ?_⟩
    · rw [parse, hlines, List.filterMap_append, List.filterMap_cons_some hline]
    · obtain ⟨line', hline', hm'⟩ := List.mem_filterMap.mp hm'
      simpa [Bool.eq_false_iff] using hearlier line' hline' m' hm'
  rw [resolve, hfind, Option.map_some]

/-- Mappings that are apart have at most one for an address. -/
theorem subsingleton_of_apart (h : (parse text).mappings.Pairwise Mapping.Apart)
    (address : UInt64) :
    {m | m ∈ (parse text).mappings ∧ m.contains address = true}.Subsingleton := by
  rintro m ⟨hm, hcovers⟩ m' ⟨hm', hcovers'⟩
  by_contra hne
  exact h.forall hm hm' hne address (Mapping.contains_iff.mp hcovers)
    (Mapping.contains_iff.mp hcovers')

/-- **A mapping apart from the others names its addresses.** -/
theorem resolve_of_apart (h : (parse text).mappings.Pairwise Mapping.Apart)
    (hlists : Lists text m) (hcovers : m.Covers address) :
    (parse text).resolve address = some (m.nameOf address) := by
  have hmem : m ∈ (parse text).mappings := mem_mappings_parse.mpr hlists
  have hcontains := Mapping.contains_iff.mpr hcovers
  have hsome : ((parse text).mappings.find? (·.contains address)).isSome :=
    List.find?_isSome.mpr ⟨m, hmem, hcontains⟩
  obtain ⟨found, hfound⟩ := Option.isSome_iff_exists.mp hsome
  have hcontains' : found.contains address = true := by simpa using List.find?_some hfound
  obtain rfl := subsingleton_of_apart h address ⟨List.mem_of_find?_eq_some hfound, hcontains'⟩
    ⟨hmem, hcontains⟩
  rw [resolve, hfound, Option.map_some]

/-- **Rearranging a text whose mappings are apart changes no name.** -/
theorem Rearranges.resolve_eq (hrearranges : Rearranges text' text)
    (h : (parse text).mappings.Pairwise Mapping.Apart) :
    (parse text').resolve = (parse text).resolve := by
  funext address
  rw [resolve, resolve, List.find?_eq_find?_of_perm hrearranges.perm.symm
    (subsingleton_of_apart h address)]

/-- **An address is found just when a line is read as a mapping that covers it**, and the first such
line decides about its name.  If the mappings of a text are apart, then every line decides about all
the addresses its mapping covers, in whatever order the lines stand and whatever lines that are no
mappings stand between them, and no two of these addresses are named alike. -/
theorem found_in_any_order (text : String) :
    (∀ address, ((parse text).resolve address).isSome ↔
      ∃ m, Lists text m ∧ m.Covers address) ∧
    (∀ address m, Decides text address m → m.Fits address →
      ∃ name, (parse text).resolve address = some name ∧ m.Names address name) ∧
    ((parse text).mappings.Pairwise Mapping.Apart →
      (∀ text', Rearranges text' text → (parse text').resolve = (parse text).resolve) ∧
      (∀ address m, Lists text m → m.Covers address → m.Fits address →
        ∃ name, (parse text).resolve address = some name ∧ m.Names address name) ∧
      (∀ m address address', Lists text m → m.Covers address → m.Covers address' →
        address ≠ address' → (parse text).resolve address ≠ (parse text).resolve address')) := by
  refine ⟨fun _ => isSome_resolve, ?_, fun hapart => ⟨fun _ h => h.resolve_eq hapart, ?_, ?_⟩⟩
  · intro address m hdecides hfits
    obtain ⟨-, -, -, -, -, hcovers, -⟩ := id hdecides
    exact ⟨_, resolve_of_decides hdecides, Mapping.names_nameOf hcovers hfits⟩
  · intro address m hlists hcovers hfits
    exact ⟨_, resolve_of_apart hapart hlists hcovers, Mapping.names_nameOf hcovers hfits⟩
  · intro m address address' hlists hcovers hcovers' hne heq
    rw [resolve_of_apart hapart hlists hcovers, resolve_of_apart hapart hlists hcovers'] at heq
    exact hne (m.nameOf_injective (Option.some.inj heq))

/-- A file, a range that ends before it starts, and another file. -/
def tools : String := "10-20 x 4 : 7 /bin/tool\r\n60-50 x 0 : 8 /a\n30-40 x 0 : 9 /b"

/-- The same lines and two that are no mappings. -/
def shuffledTools : String :=
  "30-40 x 0 : 9 /b\n\n60-50 x 0 : 8 /a\n10-2z x 0 : 9 /c\n10-20 x 4 : 7 /bin/tool"

theorem found_in_any_order_of_tools :
    Rearranges shuffledTools tools ∧ (parse tools).mappings.Pairwise Mapping.Apart ∧
      (parse shuffledTools).resolve = (parse tools).resolve ∧
      ∃ name, (parse tools).resolve 0x1f = some name ∧
        Mapping.Names ⟨0x10, 0x20, 4, "tool"⟩ 0x1f name := by
  have hrearranges : Rearranges shuffledTools tools :=
    ⟨[[], "10-2z x 0 : 9 /c".toList], by decide, by decide +kernel⟩
  have hmappings : (parse tools).mappings
      = [⟨0x10, 0x20, 4, "tool"⟩, ⟨0x60, 0x50, 0, "a"⟩, ⟨0x30, 0x40, 0, "b"⟩] := by decide +kernel
  have hapart : (parse tools).mappings.Pairwise Mapping.Apart := by
    rw [hmappings]
    exact .cons (by simp [Mapping.apart_of_le]) (by simp [Mapping.apart_of_empty])
  have hlists : Lists tools ⟨0x10, 0x20, 4, "tool"⟩ :=
    mem_mappings_parse.mp (hmappings ▸ List.mem_cons_self)
  obtain ⟨-, -, hfound⟩ := found_in_any_order tools
  obtain ⟨hany, hnames, -⟩ := hfound hapart
  exact ⟨hrearranges, hapart, hany _ hrearranges, hnames _ _ hlists (by decide) (by decide)⟩

end ProcessMaps
end CounterWatch
