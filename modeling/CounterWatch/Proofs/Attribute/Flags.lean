import CounterWatch.Attribute
import Mathlib.Logic.Function.Basic

/-!
# Proofs/Attribute/Flags — flags are set one by one

An attribute is told by the bits of its flag word and by its other fields.  Setting a flag writes
one bit, the one at its place, with the lowest bit of the value.  So flags do not get in each
other's way, and a sampling attribute is the counting one but for what it says of sampling.

* `Attribute.has`, `Attribute.unflagged` — the bits of the flag word, and the other fields.
* `ext_has` — attributes with the same bits and the same other fields are equal.
* `has_set` — which bits there are once a flag is set.
* `flags_set_one_by_one` — what setting a flag changes, and what sampling adds to counting.
-/

namespace CounterWatch

/-! ## Places -/

/-- The place of a flag, counted from the lowest bit. -/
def AttributeFlag.place (f : AttributeFlag) : Nat := f.bit.toNat

namespace AttributeFlag

theorem place_lt (f : AttributeFlag) : f.place < 64 := by cases f <;> decide

/-- **No two flags share a place.** -/
theorem place_injective : Function.Injective place := by
  intro f g h
  cases f <;> cases g <;> first | rfl | exact absurd h (by decide)

theorem toBitVec_shiftLeft (word : UInt64) (f : AttributeFlag) :
    (word <<< f.bit).toBitVec = word.toBitVec <<< f.place := by
  cases f <;> rfl

theorem toBitVec_shiftRight (word : UInt64) (f : AttributeFlag) :
    (word >>> f.bit).toBitVec = word.toBitVec >>> f.place := by
  cases f <;> rfl

end AttributeFlag

namespace Attribute

variable {a b : Attribute}

/-! ## Bits -/

/-- Whether the bit at a place of the flag word is set. -/
def has (a : Attribute) (place : Nat) : Bool := a.flags.toBitVec.getLsbD place

/-- The attribute but for its flag word. -/
def unflagged (a : Attribute) : Attribute := { a with flags := 0 }

/-- **An attribute is told by the bits of its flag word and by its other fields.** -/
theorem ext_has (hbits : ∀ place, a.has place = b.has place) (hrest : a.unflagged = b.unflagged) :
    a = b := by
  have hflags : a.flags = b.flags :=
    UInt64.eq_of_toBitVec_eq (BitVec.eq_of_getLsbD_eq fun place _ => hbits place)
  calc a = { a.unflagged with flags := a.flags } := rfl
    _ = { b.unflagged with flags := b.flags } := by rw [hrest, hflags]
    _ = b := rfl

/-- A bit that is cleared and then written is the one written; the others stay. -/
theorem getLsbD_replace (word value : BitVec 64) {place : Nat} (h : place < 64) (i : Nat) :
    (word &&& ~~~BitVec.twoPow 64 place ||| (value &&& 1#64) <<< place).getLsbD i
      = if i = place then value.getLsbD 0 else word.getLsbD i := by
  simp only [BitVec.getLsbD_or, BitVec.getLsbD_and, BitVec.getLsbD_not, BitVec.getLsbD_twoPow,
    BitVec.getLsbD_shiftLeft, BitVec.getLsbD_one]
  split
  next hi => simp [hi, h]
  next hi =>
    by_cases hin : i < 64
    · -- above the place, the value has only zeros
      have hzero : ¬ (place ≤ i ∧ i - place = 0) := by omega
      grind
    · simp [hin, BitVec.getLsbD_of_ge _ _ (Nat.le_of_not_lt hin)]

/-- **Setting a flag writes the bit at its place**, with the lowest bit of the value. -/
theorem has_set (a : Attribute) (f : AttributeFlag) (value : UInt64) (place : Nat) :
    (a.set f value).has place
      = if place = f.place then value.toBitVec.getLsbD 0 else a.has place := by
  have hmask : ((1 : UInt64) <<< f.bit).toBitVec = BitVec.twoPow 64 f.place := by
    rw [AttributeFlag.toBitVec_shiftLeft, BitVec.twoPow_eq]
    rfl
  have hflags : (a.set f value).flags.toBitVec
      = a.flags.toBitVec &&& ~~~BitVec.twoPow 64 f.place
        ||| (value.toBitVec &&& 1#64) <<< f.place := by
    rw [set, UInt64.toBitVec_or, UInt64.toBitVec_and, UInt64.toBitVec_not, hmask,
      AttributeFlag.toBitVec_shiftLeft]
    rfl
  rw [has, hflags]
  exact getLsbD_replace _ _ f.place_lt place

@[simp] theorem unflagged_set (a : Attribute) (f : AttributeFlag) (value : UInt64) :
    (a.set f value).unflagged = a.unflagged := rfl

/-- The value of a flag is the bit at its place. -/
theorem get_eq (a : Attribute) (f : AttributeFlag) : a.get f = if a.has f.place then 1 else 0 := by
  have hbit : (a.get f).toBitVec = a.flags.toBitVec >>> f.place &&& 1#64 := by
    rw [get, UInt64.toBitVec_and, AttributeFlag.toBitVec_shiftRight]
    rfl
  refine UInt64.eq_of_toBitVec_eq ?_
  rw [hbit, BitVec.and_one_eq_setWidth_ofBool_getLsbD, BitVec.getLsbD_ushiftRight, Nat.add_zero,
    has]
  cases a.flags.toBitVec.getLsbD f.place <;> rfl

/-- The lowest bit of a number is its remainder by two. -/
theorem ite_getLsbD_zero (value : UInt64) :
    (if value.toBitVec.getLsbD 0 then 1 else 0) = value % 2 := by
  have hbit : value.toBitVec.getLsbD 0 = decide (value.toNat % 2 = 1) := Nat.testBit_zero _
  rw [hbit]
  refine UInt64.toNat_inj.mp ?_
  rcases Nat.mod_two_eq_zero_or_one value.toNat with h | h <;> simp [h]

/-! ## Flags -/

/-- **A flag that is set reads as the lowest bit of the value.** -/
theorem get_set (a : Attribute) (f : AttributeFlag) (value : UInt64) :
    (a.set f value).get f = value % 2 := by
  rw [get_eq, has_set, if_pos rfl, ite_getLsbD_zero]

/-- Setting one flag leaves the others as they were. -/
theorem get_set_of_ne (a : Attribute) {f g : AttributeFlag} (h : f ≠ g) (value : UInt64) :
    (a.set f value).get g = a.get g := by
  have hplace : g.place ≠ f.place := fun heq => h (AttributeFlag.place_injective heq).symm
  rw [get_eq, has_set, if_neg hplace, get_eq]

/-- The last value that is set counts. -/
theorem set_set (a : Attribute) (f : AttributeFlag) (value value' : UInt64) :
    (a.set f value).set f value' = a.set f value' := by
  refine ext_has (fun place => ?_) rfl
  simp only [has_set]
  split <;> rfl

theorem set_comm (a : Attribute) {f g : AttributeFlag} (h : f ≠ g) (value value' : UInt64) :
    (a.set f value).set g value' = (a.set g value').set f value := by
  have hplace : f.place ≠ g.place := AttributeFlag.place_injective.ne h
  refine ext_has (fun place => ?_) rfl
  simp only [has_set]
  grind

/-- Counting starts disabled, and sampling goes by frequency; no other flag is set. -/
theorem has_sampling (e : Event) (frequency : UInt64) (place : Nat) :
    ((counting e).sampling frequency).has place = true ↔
      place = AttributeFlag.disabled.place ∨ place = AttributeFlag.freq.place := by
  have hflags : ((counting e).sampling frequency).has place
      = ((({} : Attribute).set .disabled 1).set .freq 1).has place := rfl
  have hone : (1 : UInt64).toBitVec.getLsbD 0 = true := rfl
  have hnone : ({} : Attribute).has place = false := BitVec.getLsbD_zero
  rw [hflags, has_set, has_set, hone, hnone]
  grind

/-- **Flags are set one by one.**  A flag that is set has the lowest bit of the value; no other bit
of the flag word changes, whether it has a name or not, and no other field.  Two flags can be set in
either order, and of two values for one flag the last counts.  So an attribute that samples has just
the flags `disabled` and `freq` set, and agrees with the one that counts in all fields but the flag
word, the sample period and the sample type. -/
theorem flags_set_one_by_one :
    (∀ (a : Attribute) (f : AttributeFlag) (value : UInt64),
      (a.set f value).get f = value % 2 ∧
      (∀ place, place ≠ f.place → (a.set f value).has place = a.has place) ∧
      (a.set f value).unflagged = a.unflagged ∧
      ∀ value', (a.set f value).set f value' = a.set f value') ∧
    (∀ (a : Attribute) (f g : AttributeFlag) (value value' : UInt64), f ≠ g →
      (a.set f value).get g = a.get g ∧
      (a.set f value).set g value' = (a.set g value').set f value) ∧
    ∀ (e : Event) (frequency : UInt64),
      (∀ place, ((counting e).sampling frequency).has place = true ↔
        place = AttributeFlag.disabled.place ∨ place = AttributeFlag.freq.place) ∧
      { (counting e).sampling frequency with
        flags := (counting e).flags
        samplePeriod := (counting e).samplePeriod
        sampleType := (counting e).sampleType } = counting e := by
  refine ⟨fun a f value => ⟨a.get_set f value, fun place hplace => ?_, a.unflagged_set f value,
    a.set_set f value⟩, fun a f g value value' h => ?_, fun e frequency => ?_⟩
  · rw [has_set, if_neg hplace]
  · exact ⟨a.get_set_of_ne h value, a.set_comm h value value'⟩
  · exact ⟨has_sampling e frequency, rfl⟩

/-- All bits are set, and a field besides.  Two flags are cleared, by values whose lowest bit is
zero and others are not. -/
theorem flags_set_one_by_one_in_full_word :
    let full : Attribute := { flags := 0xffffffffffffffff, wakeupEvents := 7 }
    AttributeFlag.disabled ≠ .freq ∧
      (full.set .disabled 2).get .disabled = 0 ∧
      (full.set .disabled 2).get .freq = full.get .freq ∧
      63 ≠ AttributeFlag.disabled.place ∧ (full.set .disabled 2).has 63 = full.has 63 ∧
      (full.set .disabled 2).set .freq 12 = (full.set .freq 12).set .disabled 2 ∧
      ((full.set .disabled 2).set .freq 12).flags = 0xfffffffffffffbfe := by
  intro full
  obtain ⟨hone, htwo, -⟩ := flags_set_one_by_one
  have hne : AttributeFlag.disabled ≠ .freq := by decide
  have hplace : 63 ≠ AttributeFlag.disabled.place := by decide
  obtain ⟨hget, hothers, -, -⟩ := hone full .disabled 2
  obtain ⟨hfreq, hcomm⟩ := htwo full .disabled .freq 2 12 hne
  exact ⟨hne, hget, hfreq, hplace, hothers 63 hplace, hcomm, by decide⟩

end Attribute
end CounterWatch
