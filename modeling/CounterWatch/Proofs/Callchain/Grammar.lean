import CounterWatch.Proofs.Bytes.Offsets
import CounterWatch.Proofs.Callchain.Rendering
import CounterWatch.Proofs.Text.Numeral

/-!
# Proofs/Callchain/Grammar — which records are samples

A sample is told by four places of its record: its length, its type, the number of its addresses and
the addresses themselves.  Nothing else is looked at, and nothing outside the record.

* `IsSample`, `carried` — the samples, and their addresses, by offsets into the record.
* `toOption_addresses` — they are those that are taken apart; `samples_eq`.
* `walk?` — rendering as a walk through the record that may run beyond its end.
* `render_accepts_samples` — what is rendered, and that the walk stays inside.
-/

namespace CounterWatch

namespace Callchain

/-! ## Samples -/

/-- The number of addresses that a record announces. -/
def announced (record : Bytes) : Nat := Bytes.toNat ((record.drop 8).take 8)

/-- A record is a sample, and not too deep, if it has room for its type and its number of addresses,
and then for that many addresses. -/
def IsSample (maxDepth : UInt64) (record : Bytes) : Prop :=
  16 ≤ record.length ∧ Bytes.toNat (record.take 4) = sampleType.toNat ∧
    announced record ≤ maxDepth.toNat ∧ 16 + 8 * announced record ≤ record.length

instance (maxDepth : UInt64) (record : Bytes) : Decidable (IsSample maxDepth record) :=
  inferInstanceAs (Decidable (_ ∧ _ ∧ _ ∧ _))

/-- The addresses that a sample carries. -/
def carried (record : Bytes) : List UInt64 :=
  (List.range (announced record)).map fun i => record.wordAt (16 + 8 * i)

/-- The type of a record is told by its first four bytes. -/
theorem toUInt32_wordAt_eq_iff (record : Bytes) (type : UInt32) :
    (record.wordAt 0).toUInt32 = type ↔ Bytes.toNat (record.take 4) = type.toNat := by
  have hfirst : record.take 4 = (record.take 8).take 4 := by simp [List.take_take]
  have hplaces : 256 ^ 4 = 2 ^ 32 := by decide
  rw [hfirst, Bytes.toNat_take, hplaces, ← UInt32.toNat_inj, UInt64.toNat_toUInt32,
    Bytes.toNat_wordAt, List.drop_zero]

/-- A record with room for a type and a number is these two words, and others. -/
theorem words_of_room {record : Bytes} (h : 16 ≤ record.length) :
    Bytes.words record
      = record.wordAt 0 :: record.wordAt 8 :: Bytes.words (record.drop 16) := by
  rw [Bytes.words_of_le (by omega), Bytes.words_of_le (by rw [List.length_drop]; omega),
    List.drop_drop, Bytes.wordAt_drop]

/-- The test for a sample, word by word. -/
theorem isSample_iff {maxDepth : UInt64} {record : Bytes} (h : 16 ≤ record.length) :
    IsSample maxDepth record ↔ (record.wordAt 0).toUInt32 = sampleType ∧
      ¬ maxDepth < record.wordAt 8 ∧
      ¬ (Bytes.words (record.drop 16)).length < (record.wordAt 8).toNat := by
  have hcount : (record.wordAt 8).toNat = announced record := Bytes.toNat_wordAt record 8
  rw [toUInt32_wordAt_eq_iff, UInt64.lt_iff_toNat_lt, hcount, Bytes.length_words, List.length_drop,
    IsSample]
  omega

theorem map_wordAt_drop (record : Bytes) :
    ((List.range (announced record)).map fun i => Bytes.wordAt (record.drop 16) (8 * i))
      = carried record := by
  simp only [Bytes.wordAt_drop, carried]

/-- The words behind the header of a sample are the addresses it carries, as far as it announces
them. -/
theorem take_words_of_isSample {maxDepth : UInt64} {record : Bytes} (h : IsSample maxDepth record) :
    (Bytes.words (record.drop 16)).take (record.wordAt 8).toNat = carried record := by
  obtain ⟨-, -, -, hfits⟩ := h
  rw [Bytes.toNat_wordAt, ← announced, Bytes.take_words (by rw [List.length_drop]; omega),
    map_wordAt_drop]

/-- **A record is taken apart just when it is a sample**, and then into what it carries. -/
theorem toOption_addresses (maxDepth : UInt64) (record : Bytes) :
    (addresses maxDepth record).toOption
      = if IsSample maxDepth record then some (carried record) else none := by
  by_cases hroom : 16 ≤ record.length
  · rw [addresses, words_of_room hroom]
    dsimp only
    by_cases h : IsSample maxDepth record
    · obtain ⟨htype, hdepth, hfits⟩ := (isSample_iff hroom).mp h
      rw [if_neg (not_not.mpr htype), if_neg hdepth, if_neg hfits, if_pos h,
        take_words_of_isSample h]
      rfl
    · rw [if_neg h]
      split_ifs with htype hdepth hfits
      · rfl
      · rfl
      · rfl
      · exact absurd ((isSample_iff hroom).mpr ⟨not_not.mp htype, hdepth, hfits⟩) h
  · have hlength : (Bytes.words record).length < 2 := by rw [Bytes.length_words]; omega
    rw [if_neg fun h => hroom h.1, addresses]
    match Bytes.words record, hlength with
    | [], _ | [_], _ => rfl

/-- **Of any records, the samples are those that satisfy the definition**, with what they carry. -/
theorem samples_eq (maxDepth : UInt64) (records : List Bytes) :
    samples maxDepth records = (records.filter (IsSample maxDepth ·)).map carried := by
  simp only [samples, toOption_addresses]
  induction records with
  | nil => rfl
  | cons record rest ih =>
      by_cases h : IsSample maxDepth record <;> simp [h, ih]

theorem toOption_render (c : Callchain) (record : Bytes) (out : String) :
    (c.render record out).toOption
      = if IsSample c.maxDepth record then some (out ++ c.chain (carried record)) else none := by
  have hmap : (c.render record out).toOption
      = (addresses c.maxDepth record).toOption.map fun addresses => out ++ c.chain addresses := by
    rw [render]
    rcases addresses c.maxDepth record with refusal | addresses <;> rfl
  rw [hmap, toOption_addresses]
  split <;> rfl

/-- A sample is written behind what is there already. -/
theorem render_of_isSample {c : Callchain} {record : Bytes} (h : IsSample c.maxDepth record)
    (out : String) : c.render record out = .ok (out ++ c.chain (carried record)) := by
  have hrender := c.toOption_render record out
  rw [if_pos h] at hrender
  rcases hr : c.render record out with refusal | text
  · rw [hr] at hrender
    cases hrender
  · rw [hr] at hrender
    exact congrArg Except.ok (Option.some.inj hrender)

/-- **What follows the addresses of a sample is not looked at.** -/
theorem isSample_append {maxDepth : UInt64} {record : Bytes} (h : IsSample maxDepth record)
    (more : Bytes) :
    IsSample maxDepth (record ++ more) ∧ carried (record ++ more) = carried record := by
  obtain ⟨hroom, htype, hdepth, hfits⟩ := h
  have hcount : announced (record ++ more) = announced record := by
    rw [announced, Bytes.take_drop_append hroom, announced]
  have htype' : (record ++ more).take 4 = record.take 4 :=
    List.take_append_of_le_length (by omega)
  refine ⟨?_, ?_⟩
  · rw [IsSample, hcount, htype', List.length_append]
    exact ⟨by omega, htype, hdepth, by omega⟩
  · rw [carried, hcount]
    refine List.map_congr_left fun i hi => ?_
    have hi : i < announced record := List.mem_range.mp hi
    rw [Bytes.wordAt, Bytes.take_drop_append (by omega), Bytes.wordAt]

/-! ## Frames -/

/-- A frame is the name of its address; the address itself, in sixteen lower-case hexadecimal
digits, if it has none. -/
def Shows (c : Callchain) (address : UInt64) (frame : String) : Prop :=
  match c.symbols address with
  | some name => frame = name
  | none => ∃ digits : List Char, frame = "0x" ++ String.ofList digits ∧ digits.length = 16 ∧
      (∀ d ∈ digits, Text.IsHexDigit d) ∧ Text.readHex64 digits = .ok address

/-- A frame shows its address: the name its symbols give it, or its digits. -/
theorem shows_frame (c : Callchain) (address : UInt64) : c.Shows address (c.frame address) := by
  rw [Shows, frame]
  rcases c.symbols address with _ | name
  · exact ⟨_, rfl, Text.length_hexPlaces 16 _, fun _ => Text.isHexDigit_of_mem_hexPlaces,
      Text.readHex64_hexPlaces address⟩
  · rfl

/-! ## Walking through a record -/

/-- Takes a number of so many bytes off the front; none if it reaches beyond the end. -/
def read? (width : Nat) (b : Bytes) : Option (Nat × Bytes) :=
  if width ≤ b.length then some (Bytes.toNat (b.take width), b.drop width) else none

/-- Puts the frames of so many addresses behind a text, taking each off the front of the bytes;
none if one of them reaches beyond the end. -/
def walkFrames? (c : Callchain) : (count : Nat) → (first : Bool) → Bytes → String → Option String
  | 0, _, _, out => some out
  | count + 1, first, b, out => do
      let (address, rest) ← read? 8 b
      let separator := if first then "" else ";"
      walkFrames? c count false rest (out ++ separator ++ c.frame (UInt64.ofNat address))

/-- **Rendering in one walk through the record**: type, two half-words that do not matter, number of
addresses, addresses.  Whether the record is rendered, and the text afterwards; none if the walk
leaves the record. -/
def walk? (c : Callchain) (record : Bytes) (out : String) : Option (Bool × String) :=
  if record.length < 16 then some (false, out)
  else do
    let (type, rest) ← read? 4 record
    let (_misc, rest) ← read? 2 rest
    let (_size, rest) ← read? 2 rest
    if type ≠ sampleType.toNat then return (false, out)
    let (count, rest) ← read? 8 rest
    if c.maxDepth.toNat < count then return (false, out)
    if (record.length - 16) / 8 < count then return (false, out)
    let out ← c.walkFrames? count true rest out
    return (true, out ++ "|")

theorem read?_of_le {width : Nat} {b : Bytes} (h : width ≤ b.length) :
    read? width b = some (Bytes.toNat (b.take width), b.drop width) := if_pos h

/-- Reading behind an offset needs as many bytes as are read there. -/
theorem read?_drop {width offset : Nat} {b : Bytes} (h : offset + width ≤ b.length) :
    read? width (b.drop offset)
      = some (Bytes.toNat ((b.drop offset).take width), b.drop (offset + width)) := by
  rw [read?_of_le (by rw [List.length_drop]; omega), List.drop_drop]

theorem intercalate_cons (separator frame : String) (frames : List String) :
    separator.intercalate (frame :: frames)
      = frame ++ (if frames = [] then "" else separator) ++ separator.intercalate frames := by
  cases frames <;> simp [String.intercalate_cons_cons]

/-- As many addresses as there is room for are all inside. -/
theorem walkFrames?_of_le (c : Callchain) :
    ∀ {count : Nat} {first : Bool} {b : Bytes} {out : String}, 8 * count ≤ b.length →
      c.walkFrames? count first b out
        = some (out ++ (if first ∨ count = 0 then "" else ";") ++
            ";".intercalate (((List.range count).map fun i => b.wordAt (8 * i)).map c.frame))
  | 0, first, b, out, _ => by simp [walkFrames?]
  | count + 1, first, b, out, h => by
      have hrest : 8 * count ≤ (b.drop 8).length := by rw [List.length_drop]; omega
      have hfirst : UInt64.ofNat (Bytes.toNat (b.take 8)) = b.wordAt 0 := rfl
      rw [walkFrames?, read?_of_le (by omega), Bytes.map_wordAt_range_succ, List.map_cons,
        intercalate_cons]
      simp [walkFrames?_of_le c hrest, hfirst, String.append_assoc]

/-- **The walk over the addresses of a sample** puts their frames behind the text. -/
theorem walkFrames?_announced (c : Callchain) {record : Bytes}
    (h : 16 + 8 * announced record ≤ record.length) (out : String) :
    c.walkFrames? (announced record) true (record.drop 16) out
      = some (out ++ ";".intercalate ((carried record).map c.frame)) := by
  rw [walkFrames?_of_le c (by rw [List.length_drop]; omega), map_wordAt_drop]
  simp

/-- **The walk never leaves the record**, and renders what the record carries if it is a sample. -/
theorem walk?_eq (c : Callchain) (record : Bytes) (out : String) :
    c.walk? record out
      = some (if IsSample c.maxDepth record then (true, out ++ c.chain (carried record))
          else (false, out)) := by
  rw [walk?]
  by_cases hroom : record.length < 16
  · rw [if_pos hroom, if_neg fun h => absurd h.1 (by omega)]
  · have hcount : Bytes.toNat ((record.drop 8).take 8) = announced record := rfl
    have htype : read? 4 record = some (Bytes.toNat (record.take 4), record.drop 4) :=
      read?_of_le (by omega)
    simp (disch := omega) only [if_neg hroom, htype, read?_drop, Option.bind_eq_bind,
      Option.bind_some, hcount]
    by_cases h : IsSample c.maxDepth record
    · have ⟨_, htype, hdepth, hfits⟩ := h
      rw [if_neg (not_not.mpr htype), if_neg (by omega), if_neg (by omega),
        c.walkFrames?_announced hfits, if_pos h, chain, ← String.append_assoc]
      rfl
    · rw [if_neg h]
      split_ifs with htype hdepth hfits
      · rfl
      · rfl
      · rfl
      · exact absurd ⟨by omega, not_not.mp htype, by omega, by omega⟩ h

end Callchain

/-- **A record is rendered just when it is a sample.**  What is rendered are the frames of its
addresses, joined by semicolons and closed by a bar; a text is left as it is by any other record.
Bytes behind the addresses make no difference, and no byte outside the record is looked at. -/
theorem render_accepts_samples (c : Callchain) (record : Bytes) (out : String) :
    let chain := ";".intercalate ((Callchain.carried record).map c.frame) ++ "|"
    (∀ address, c.Shows address (c.frame address)) ∧
    (c.render record out).toOption
      = (if Callchain.IsSample c.maxDepth record then some (out ++ chain) else none) ∧
    (∀ ring notices, (Sampler.renderRecord c record ring (out, notices)).2.1
      = if Callchain.IsSample c.maxDepth record then out ++ chain else out) ∧
    (Callchain.IsSample c.maxDepth record →
      ∀ more, c.render (record ++ more) out = c.render record out) ∧
    c.walk? record out
      = some (if Callchain.IsSample c.maxDepth record then (true, out ++ chain)
          else (false, out)) := by
  refine ⟨c.shows_frame, c.toOption_render record out, fun ring notices => ?_, fun h more => ?_,
    c.walk?_eq record out⟩
  · rw [Sampler.text_renderRecord, c.toOption_render]
    split <;> rfl
  · obtain ⟨hmore, hcarried⟩ := Callchain.isSample_append h more
    rw [Callchain.render_of_isSample hmore, hcarried, Callchain.render_of_isSample h]

end CounterWatch
