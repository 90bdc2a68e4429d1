import FormCheck.Proofs.SignedDigits
import FormCheck.Validator.Builtin

/-!
# Bounds of lengths

A length rule compares the number of characters of a value with the integers in front of
its arguments.  An integer beyond the range of 64 bits is not read, so it counts like an
argument without an integer: as a least length it is never reached, and as a greatest
length it is none.  Hence a rule departs from its bounds as integers exactly when a bound
beyond the range would have decided the other way.
-/

namespace FormCheck

/-- The first argument gives a least length, and the value is as long. -/
def LongEnough (reads : String → ℤ → Prop) (value : Value) (args : List String) : Prop :=
  ∃ arg ∈ args[0]?, ∃ n, reads arg n ∧ n ≤ value.charCount

/-- The value is not longer than the greatest length, if the second argument gives one. -/
def ShortEnough (reads : String → ℤ → Prop) (value : Value) (args : List String) : Prop :=
  ∀ arg ∈ args[1]?, ∀ n, reads arg n → value.charCount ≤ n

namespace Argument

/-- An integer of 64 bits in front of an argument. -/
def StartsWithin (arg : String) (n : ℤ) : Prop :=
  StartsWith arg n ∧ n.natAbs ≤ integerLimit

/-- An integer in front of an argument that does not fit into 64 bits. -/
def StartsBeyond (arg : String) (n : ℤ) : Prop :=
  StartsWith arg n ∧ integerLimit < n.natAbs

end Argument

open Argument

variable {value : Value} {args : List String}

theorem integerArg?_eq_some_iff {index : ℕ} {n : ℤ} :
    Builtin.integerArg? args index = some n ↔ ∃ arg ∈ args[index]?, StartsWithin arg n := by
  simp only [Builtin.integerArg?, Option.bind_eq_some_iff, integer?_eq_some_iff, StartsWithin,
    Option.mem_def]

theorem holds_length_iff :
    Builtin.length.holds value args = true ↔
      LongEnough StartsWithin value args ∧ ShortEnough StartsWithin value args := by
  have hlong : LongEnough StartsWithin value args ↔
      ∃ n, Builtin.integerArg? args 0 = some n ∧ n ≤ value.charCount := by
    simp only [LongEnough, integerArg?_eq_some_iff]
    tauto
  have hshort : ShortEnough StartsWithin value args ↔
      ∀ n, Builtin.integerArg? args 1 = some n → value.charCount ≤ n := by
    simp only [ShortEnough, integerArg?_eq_some_iff]
    constructor
    · rintro hshort n ⟨arg, harg, hstarts⟩
      exact hshort arg harg n hstarts
    · intro hshort arg harg n hstarts
      exact hshort n ⟨arg, harg, hstarts⟩
  rw [hlong, hshort, Builtin.holds, Builtin.lengthWithin]
  cases Builtin.integerArg? args 0 with
  | none => simp
  | some least =>
      cases Builtin.integerArg? args 1 with
      | none => simp
      | some greatest => simp

/-! ## Bounds within the range and beyond it -/

theorem longEnough_startsWith_iff :
    LongEnough StartsWith value args ↔
      LongEnough StartsWithin value args ∨ LongEnough StartsBeyond value args := by
  constructor
  · rintro ⟨arg, harg, n, hstarts, hle⟩
    rcases Nat.lt_or_ge integerLimit n.natAbs with hbeyond | hwithin
    · exact .inr ⟨arg, harg, n, ⟨hstarts, hbeyond⟩, hle⟩
    · exact .inl ⟨arg, harg, n, ⟨hstarts, hwithin⟩, hle⟩
  · rintro (⟨arg, harg, n, hstarts, hle⟩ | ⟨arg, harg, n, hstarts, hle⟩)
    · exact ⟨arg, harg, n, hstarts.1, hle⟩
    · exact ⟨arg, harg, n, hstarts.1, hle⟩

theorem shortEnough_startsWith_iff :
    ShortEnough StartsWith value args ↔
      ShortEnough StartsWithin value args ∧ ShortEnough StartsBeyond value args := by
  constructor
  · intro hshort
    exact ⟨fun arg harg n hstarts => hshort arg harg n hstarts.1,
      fun arg harg n hstarts => hshort arg harg n hstarts.1⟩
  · rintro ⟨hwithin, hbeyond⟩ arg harg n hstarts
    rcases Nat.lt_or_ge integerLimit n.natAbs with hlarge | hsmall
    · exact hbeyond arg harg n ⟨hstarts, hlarge⟩
    · exact hwithin arg harg n ⟨hstarts, hsmall⟩

/-- An argument has one integer in front, so it is not both within the range and beyond it. -/
theorem not_longEnough_within_and_beyond
    (hwithin : LongEnough StartsWithin value args) : ¬ LongEnough StartsBeyond value args := by
  rintro ⟨other, hother, m, ⟨hm, hbeyond⟩, -⟩
  obtain ⟨arg, harg, n, ⟨hn, hlimit⟩, -⟩ := hwithin
  obtain rfl : arg = other := Option.some.inj (harg.symm.trans hother)
  obtain rfl := hn.unique hm
  omega

theorem shortEnough_within_or_beyond :
    ShortEnough StartsWithin value args ∨ ShortEnough StartsBeyond value args := by
  by_cases hwithin : ∃ arg ∈ args[1]?, ∃ n, StartsWithin arg n
  · right
    intro other hother m hm
    obtain ⟨arg, harg, n, hn⟩ := hwithin
    obtain rfl : arg = other := Option.some.inj (harg.symm.trans hother)
    have hsame := hn.1.unique hm.1
    have hlimit := hn.2
    have hbeyond := hm.2
    omega
  · left
    intro arg harg n hn
    exact absurd ⟨arg, harg, n, hn⟩ hwithin

/-- A length rule holds when the bounds that are read hold.  This is the same as that the bounds
hold as integers, except in two cases: the least length is beyond the range and both bounds hold,
or the greatest length is beyond the range and only the least one holds. -/
theorem length_honours_read_bounds (value : Value) (args : List String) :
    (Builtin.length.holds value args = true ↔
      LongEnough StartsWithin value args ∧ ShortEnough StartsWithin value args) ∧
    ((Builtin.length.holds value args = true ↔
        LongEnough StartsWith value args ∧ ShortEnough StartsWith value args) ↔
      ¬ (LongEnough StartsBeyond value args ∧ ShortEnough StartsWith value args) ∧
        ¬ (LongEnough StartsWithin value args ∧ ¬ ShortEnough StartsBeyond value args)) := by
  refine ⟨holds_length_iff, ?_⟩
  rw [holds_length_iff, longEnough_startsWith_iff, shortEnough_startsWith_iff]
  have hone : LongEnough StartsWithin value args → ¬ LongEnough StartsBeyond value args :=
    not_longEnough_within_and_beyond
  have heither : ShortEnough StartsWithin value args ∨ ShortEnough StartsBeyond value args :=
    shortEnough_within_or_beyond
  tauto

/-- A greatest length just beyond the range is taken as none, though no text is as short. -/
theorem length_passes_beyond_negative_greatest :
    Builtin.length.holds (.text "abc") ["0", "-9223372036854775809"] = true ∧
    ¬ ShortEnough StartsWith (.text "abc") ["0", "-9223372036854775809"] := by
  constructor
  · decide
  · intro hshort
    have hle := hshort "-9223372036854775809" rfl (-9223372036854775809)
      (startsWith_iff.mpr (by decide))
    exact absurd hle (by decide)

end FormCheck
