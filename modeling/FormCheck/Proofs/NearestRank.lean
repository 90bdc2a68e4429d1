import FormCheck.Number.Rounding
import Mathlib.Algebra.Order.Ring.Nat
import Mathlib.Tactic.Linarith
import Mathlib.Tactic.Ring

/-!
# Rounding to the nearest magnitude

Rounding a fraction chooses a block of magnitudes and then a place in it.  This file
describes the result without the choice of the block: magnitudes round to themselves,
greater fractions round to greater ranks, a fraction that is near enough to a
magnitude rounds to it, and the magnitude that is chosen is near to the fraction.

Fractions are compared by their cross products, so nothing here leaves the natural
numbers.
-/

namespace FormCheck.Number

/-! ## Quotients -/

section Quotients

variable {num den other otherDen k : ℕ}

/-- A rounded quotient is at most a half away, and a half away only if it is even. -/
theorem roundDiv_spec (num : ℕ) (hden : 0 < den) :
    2 * num ≤ 2 * (roundDiv num den * den) + den ∧
    2 * (roundDiv num den * den) ≤ 2 * num + den ∧
    (2 * num = 2 * (roundDiv num den * den) + den → roundDiv num den % 2 = 0) ∧
    (2 * (roundDiv num den * den) = 2 * num + den → roundDiv num den % 2 = 0) := by
  have hsplit := Nat.div_add_mod' num den
  have hrest := Nat.mod_lt num hden
  have hnext : (num / den + 1) * den = num / den * den + den := Nat.succ_mul _ _
  unfold roundDiv
  simp only
  split
  · omega
  · split
    · rw [hnext]
      omega
    · rcases Nat.mod_two_eq_zero_or_one (num / den) with heven | hodd
      · rw [heven, Nat.add_zero]
        omega
      · rw [hodd, hnext]
        omega

theorem roundDiv_mono
    (hden : 0 < den) (hotherDen : 0 < otherDen) (hle : num * otherDen ≤ other * den) :
    roundDiv num den ≤ roundDiv other otherDen := by
  obtain ⟨-, hupper, -, heven⟩ := roundDiv_spec num hden
  obtain ⟨hlower, -, hotherEven, -⟩ := roundDiv_spec other hotherDen
  generalize roundDiv num den = q at *
  generalize roundDiv other otherDen = k at *
  by_contra hlt
  -- Otherwise both quotients lie halfway between `k` and `k + 1`.
  have hcross : (2 * q) * (den * otherDen) ≤ (2 * (k + 1)) * (den * otherDen) := by
    nlinarith [Nat.mul_le_mul_right otherDen hupper, Nat.mul_le_mul_right den hlower]
  have hpos : 0 < den * otherDen := Nat.mul_pos hden hotherDen
  obtain rfl : q = k + 1 := by
    have := Nat.le_of_mul_le_mul_right hcross hpos
    omega
  have hupperEq : 2 * ((k + 1) * den) = 2 * num + den := by
    refine le_antisymm hupper (Nat.le_of_mul_le_mul_right ?_ hotherDen)
    nlinarith [Nat.mul_le_mul_right den hlower]
  have hlowerEq : 2 * other = 2 * (k * otherDen) + otherDen := by
    refine le_antisymm hlower (Nat.le_of_mul_le_mul_right ?_ hden)
    nlinarith [Nat.mul_le_mul_right otherDen hupper]
  have hq := heven hupperEq
  have hk := hotherEven hlowerEq
  omega

theorem roundDiv_mul_right (k : ℕ) (hden : 0 < den) : roundDiv (k * den) den = k := by
  unfold roundDiv
  simp only [Nat.mul_div_cancel _ hden, Nat.mul_mod_left]
  rw [if_pos (by omega)]

theorem le_roundDiv (hden : 0 < den) (hle : k * den ≤ num) : k ≤ roundDiv num den := by
  rw [← roundDiv_mul_right k hden]
  exact roundDiv_mono hden hden (Nat.mul_le_mul_right den hle)

theorem roundDiv_le (hden : 0 < den) (hle : num ≤ k * den) : roundDiv num den ≤ k := by
  rw [← roundDiv_mul_right k hden]
  exact roundDiv_mono hden hden (Nat.mul_le_mul_right den hle)

/-- A quotient that is less than a half away from a whole number rounds to it. -/
theorem roundDiv_eq_of_near
    (hden : 0 < den) (hbelow : 2 * (k * den) < 2 * num + den)
    (habove : 2 * num < 2 * (k * den) + den) : roundDiv num den = k := by
  obtain ⟨hlower, hupper, -, -⟩ := roundDiv_spec num hden
  generalize roundDiv num den = q at *
  apply le_antisymm
  · have hlt : (2 * q) * den < (2 * (k + 1)) * den := by nlinarith
    have := Nat.lt_of_mul_lt_mul_right hlt
    omega
  · have hlt : (2 * k) * den < (2 * (q + 1)) * den := by nlinarith
    have := Nat.lt_of_mul_lt_mul_right hlt
    omega

end Quotients

/-! ## Blocks -/

theorem twoTo_pos (n : ℕ) : 0 < twoTo n := Nat.pow_pos (by decide)

theorem twoTo_add (m n : ℕ) : twoTo (m + n) = twoTo m * twoTo n := Nat.pow_add 2 m n

theorem twoTo_le_twoTo {m n : ℕ} (hle : m ≤ n) : twoTo m ≤ twoTo n :=
  Nat.pow_le_pow_right (by decide) hle

theorem twoTo_succ (n : ℕ) : twoTo (n + 1) = 2 * twoTo n := Nat.pow_succ'

theorem blockSize_eq : blockSize = 2 ^ 52 := rfl

/-- Every place of a block stands for a whole multiple of the distance in the block, and
so does the first place of the next block. -/
theorem units_block {block place : ℕ}
    (hfirst : block = 0 ∨ 2 ^ 52 ≤ place) (hlast : place ≤ 2 ^ 53) :
    units (block * blockSize + place) = place * twoTo block := by
  unfold units
  simp only [blockSize] at *
  by_cases hsmall : place < 0x10000000000000
  · obtain rfl : block = 0 := by omega
    rw [if_pos (by omega)]
    simp [twoTo]
  · rw [if_neg (by omega)]
    by_cases hend : place = 2 ^ 53
    · have hquotient :
          (block * 0x10000000000000 + place) / 0x10000000000000 - 1 = block + 1 := by omega
      have hrest : (block * 0x10000000000000 + place) % 0x10000000000000 = 0 := by omega
      rw [hquotient, hrest, twoTo_succ, hend]
      ring
    · have hquotient : (block * 0x10000000000000 + place) / 0x10000000000000 - 1 = block := by
        omega
      have hrest : 0x10000000000000 + (block * 0x10000000000000 + place) % 0x10000000000000 =
          place := by omega
      rw [hquotient, hrest]

/-- Every rank is a place of a block. -/
theorem exists_block (rank : ℕ) :
    ∃ block place, rank = block * blockSize + place ∧ (block = 0 ∨ 2 ^ 52 ≤ place) ∧
      place < 2 ^ 53 := by
  refine ⟨rank / blockSize - 1, rank - (rank / blockSize - 1) * blockSize, ?_⟩
  simp only [blockSize]
  omega

/-- A fraction lies in a block when its significand there has 53 binary digits, or at most
as many in the first block. -/
structure InBlock (num den block : ℕ) : Prop where
  first : block = 0 ∨ twoTo (52 + block) * den ≤ num * twoTo unitExponent
  last : num * twoTo unitExponent < twoTo (53 + block) * den

section Rounding

variable {num den other otherDen rank block place : ℕ}

theorem exists_inBlock (num : ℕ) (hden : 0 < den) : ∃ block, InBlock num den block := by
  refine ⟨(num * twoTo unitExponent / den).log2 - 52, ?_, ?_⟩
  · generalize hlog : (num * twoTo unitExponent / den).log2 = log
    by_cases hsmall : log ≤ 52
    · exact .inl (by omega)
    · right
      have hpositive : num * twoTo unitExponent / den ≠ 0 := by
        intro hzero
        rw [hzero, Nat.log2_zero] at hlog
        omega
      have hle := Nat.log2_self_le hpositive
      rw [hlog] at hle
      rw [show 52 + (log - 52) = log by omega]
      exact (Nat.le_div_iff_mul_le hden).mp hle
  · have hlt := Nat.lt_log2_self (n := num * twoTo unitExponent / den)
    have hbound : twoTo ((num * twoTo unitExponent / den).log2 + 1) ≤
        twoTo (53 + ((num * twoTo unitExponent / den).log2 - 52)) :=
      twoTo_le_twoTo (by omega)
    exact (Nat.div_lt_iff_lt_mul hden).mp (lt_of_lt_of_le hlt hbound)

/-- Fractions of a block, measured by the distance of its magnitudes. -/
theorem inBlock_iff :
    InBlock num den block ↔
      (block = 0 ∨ 2 ^ 52 * (den * twoTo block) ≤ num * twoTo unitExponent) ∧
        num * twoTo unitExponent < 2 ^ 53 * (den * twoTo block) := by
  have hpower : ∀ n, twoTo (n + block) * den = 2 ^ n * (den * twoTo block) := by
    intro n
    rw [twoTo_add, Nat.mul_comm den, ← Nat.mul_assoc]
    rfl
  rw [← hpower, ← hpower]
  exact ⟨fun hblock => ⟨hblock.first, hblock.last⟩, fun hblock => ⟨hblock.1, hblock.2⟩⟩

namespace InBlock

theorem nearestRank_eq (hden : 0 < den) (hblock : InBlock num den block) :
    nearestRank num den =
      block * blockSize + roundDiv (num * twoTo unitExponent) (den * twoTo block) := by
  have hlog : (num * twoTo unitExponent / den).log2 - 52 = block := by
    have hlast : num * twoTo unitExponent / den < 2 ^ (53 + block) :=
      (Nat.div_lt_iff_lt_mul hden).mpr hblock.last
    by_cases hzero : num * twoTo unitExponent / den = 0
    · rcases hblock.first with hfirst | hfirst
      · rw [hzero, Nat.log2_zero, hfirst]
      · have hle := (Nat.le_div_iff_mul_le hden).mpr hfirst
        have hpos := twoTo_pos (52 + block)
        omega
    · have hupper := (Nat.log2_lt hzero).mpr hlast
      rcases hblock.first with hfirst | hfirst
      · omega
      · have hlower := (Nat.le_log2 hzero).mpr ((Nat.le_div_iff_mul_le hden).mpr hfirst)
        omega
  unfold nearestRank
  simp only
  rw [hlog]

theorem place_le (hden : 0 < den) (hblock : InBlock num den block) :
    roundDiv (num * twoTo unitExponent) (den * twoTo block) ≤ 2 ^ 53 :=
  roundDiv_le (Nat.mul_pos hden (twoTo_pos block)) (inBlock_iff.mp hblock).2.le

theorem le_place (hden : 0 < den) (hblock : InBlock num den block) :
    block = 0 ∨ 2 ^ 52 ≤ roundDiv (num * twoTo unitExponent) (den * twoTo block) :=
  (inBlock_iff.mp hblock).1.imp_right (le_roundDiv (Nat.mul_pos hden (twoTo_pos block)))

theorem units_nearestRank (hden : 0 < den) (hblock : InBlock num den block) :
    units (nearestRank num den) =
      roundDiv (num * twoTo unitExponent) (den * twoTo block) * twoTo block := by
  rw [hblock.nearestRank_eq hden]
  exact units_block (hblock.le_place hden) (hblock.place_le hden)

end InBlock

/-! ## Greater fractions and greater ranks -/

theorem nearestRank_mono
    (hden : 0 < den) (hotherDen : 0 < otherDen) (hle : num * otherDen ≤ other * den) :
    nearestRank num den ≤ nearestRank other otherDen := by
  obtain ⟨block, hblock⟩ := exists_inBlock num hden
  obtain ⟨next, hnext⟩ := exists_inBlock other hotherDen
  have hcross : num * twoTo unitExponent * otherDen ≤ other * twoTo unitExponent * den := by
    nlinarith [Nat.mul_le_mul_right (twoTo unitExponent) hle]
  rw [hblock.nearestRank_eq hden, hnext.nearestRank_eq hotherDen]
  rcases Nat.lt_trichotomy block next with hlt | rfl | hgt
  · -- A later block starts where the earlier one ends.
    have hplace := hblock.place_le hden
    have hfirst := (hnext.le_place hotherDen).resolve_left (by omega)
    have hblocks : (block + 1) * blockSize ≤ next * blockSize := Nat.mul_le_mul_right _ hlt
    rw [Nat.succ_mul] at hblocks
    have hsize := blockSize_eq
    omega
  · apply Nat.add_le_add_left
    apply roundDiv_mono (Nat.mul_pos hden (twoTo_pos _)) (Nat.mul_pos hotherDen (twoTo_pos _))
    nlinarith [Nat.mul_le_mul_right (twoTo block) hcross]
  · exfalso
    have hfirst := hblock.first.resolve_left (by omega)
    have hpower : twoTo (53 + next) ≤ twoTo (52 + block) := twoTo_le_twoTo (by omega)
    have hbelow := Nat.mul_le_mul_right otherDen hfirst
    have habove := (Nat.mul_lt_mul_right hden).mpr hnext.last
    have hdens := Nat.mul_le_mul_right (den * otherDen) hpower
    nlinarith

theorem nearestRank_congr
    (hden : 0 < den) (hotherDen : 0 < otherDen) (heq : num * otherDen = other * den) :
    nearestRank num den = nearestRank other otherDen :=
  le_antisymm (nearestRank_mono hden hotherDen heq.le) (nearestRank_mono hotherDen hden heq.ge)

/-! ## Fractions near to a magnitude -/

/-- A fraction rounds to a magnitude if its relative distance from it is less than two to
the power -54. -/
theorem nearestRank_eq_of_close
    (hden : 0 < den)
    (hbelow : 2 ^ 54 * (units rank * den) <
      2 ^ 54 * (num * twoTo unitExponent) + units rank * den)
    (habove : 2 ^ 54 * (num * twoTo unitExponent) <
      2 ^ 54 * (units rank * den) + units rank * den) :
    nearestRank num den = rank := by
  obtain ⟨block, place, rfl, hfirst, hlast⟩ := exists_block rank
  rw [units_block hfirst hlast.le, show place * twoTo block * den = place * (den * twoTo block) by
    ring] at hbelow habove
  have hstep : 0 < den * twoTo block := Nat.mul_pos hden (twoTo_pos block)
  have hnext : (place + 1) * (den * twoTo block) ≤ 2 ^ 53 * (den * twoTo block) :=
    Nat.mul_le_mul_right _ hlast
  rw [Nat.succ_mul] at hnext
  by_cases hblock : InBlock num den block
  · rw [hblock.nearestRank_eq hden, roundDiv_eq_of_near hstep]
    · omega
    · omega
  · -- The magnitude is the first of its block and the fraction lies at the end of the one before.
    rw [inBlock_iff] at hblock
    obtain ⟨before, rfl⟩ : ∃ before, block = before + 1 := by
      refine Nat.exists_eq_succ_of_ne_zero ?_
      rintro rfl
      exact hblock ⟨.inl rfl, by omega⟩
    have hplace := hfirst.resolve_left (Nat.succ_ne_zero before)
    have hlow := Nat.mul_le_mul_right (den * twoTo (before + 1)) hplace
    obtain rfl : place = 2 ^ 52 := by
      by_contra hne
      have hmore : (2 ^ 52 + 1) * (den * twoTo (before + 1)) ≤
          place * (den * twoTo (before + 1)) :=
        Nat.mul_le_mul_right _ (by omega)
      rw [Nat.succ_mul] at hmore
      exact hblock ⟨.inr (by omega), by omega⟩
    have hhalf : den * twoTo (before + 1) = 2 * (den * twoTo before) := by
      rw [twoTo_succ]
      ring
    have hstepBefore : 0 < den * twoTo before := Nat.mul_pos hden (twoTo_pos before)
    have hbefore : InBlock num den before := by
      rw [inBlock_iff]
      constructor
      · right
        omega
      · by_contra hge
        exact hblock ⟨.inr (by omega), by omega⟩
    have hround : roundDiv (num * twoTo unitExponent) (den * twoTo before) = 2 ^ 53 := by
      apply roundDiv_eq_of_near hstepBefore
      · omega
      · omega
    have hsize := blockSize_eq
    rw [hbefore.nearestRank_eq hden, hround, Nat.succ_mul]
    omega

theorem units_eq_zero_iff : units rank = 0 ↔ rank = 0 := by
  obtain ⟨block, place, rfl, hfirst, hlast⟩ := exists_block rank
  rw [units_block hfirst hlast.le, Nat.mul_eq_zero]
  have hpos := twoTo_pos block
  have hsize := blockSize_eq
  rw [Nat.add_eq_zero_iff, Nat.mul_eq_zero]
  omega

theorem units_pos (hrank : rank ≠ 0) : 0 < units rank :=
  Nat.pos_of_ne_zero (mt units_eq_zero_iff.mp hrank)

theorem nearestRank_zero (hden : 0 < den) : nearestRank 0 den = 0 := by
  have hstep : 0 < den * twoTo 0 := Nat.mul_pos hden (twoTo_pos 0)
  have hround := roundDiv_mul_right 0 hstep
  have hblock : InBlock 0 den 0 := by
    rw [inBlock_iff, Nat.zero_mul]
    exact ⟨.inl rfl, Nat.mul_pos (by decide) hstep⟩
  rw [Nat.zero_mul] at hround
  rw [hblock.nearestRank_eq hden, Nat.zero_mul, Nat.zero_mul, hround]

/-- A magnitude rounds to itself. -/
theorem nearestRank_of_units
    (hden : 0 < den) (hunits : num * twoTo unitExponent = units rank * den) :
    nearestRank num den = rank := by
  by_cases hzero : rank = 0
  · have hnone : units rank = 0 := units_eq_zero_iff.mpr hzero
    have hnum : num = 0 := by
      rw [hnone, Nat.zero_mul, Nat.mul_eq_zero] at hunits
      exact hunits.resolve_right (twoTo_pos unitExponent).ne'
    rw [hnum, nearestRank_zero hden, hzero]
  · have hpos : 0 < units rank * den :=
      Nat.mul_pos (units_pos hzero) hden
    apply nearestRank_eq_of_close hden
    · omega
    · omega

/-- A fraction that is a whole multiple of the distance in its block is a magnitude. -/
theorem units_nearestRank_of_dvd
    (hden : 0 < den) (hblock : InBlock num den block)
    (hdvd : den * twoTo block ∣ num * twoTo unitExponent) :
    units (nearestRank num den) * den = num * twoTo unitExponent := by
  obtain ⟨place, hplace⟩ := hdvd
  have hround := roundDiv_mul_right place (Nat.mul_pos hden (twoTo_pos block))
  rw [hblock.units_nearestRank hden, hplace, Nat.mul_comm (den * twoTo block) place, hround]
  ring

/-- The magnitude nearest to a fraction is at a relative distance of at most half of two to the
power `-bits`, if the fraction has `bits + 1` binary digits before the end of the units. -/
theorem units_nearestRank_close
    {bits : ℕ} (hbits : bits ≤ 52) (hden : 0 < den)
    (hlarge : twoTo bits * den ≤ num * twoTo unitExponent) :
    twoTo (bits + 1) * (units (nearestRank num den) * den) ≤
        (twoTo (bits + 1) + 1) * (num * twoTo unitExponent) ∧
      twoTo (bits + 1) * (num * twoTo unitExponent) ≤
        twoTo (bits + 1) * (units (nearestRank num den) * den) + num * twoTo unitExponent := by
  obtain ⟨block, hblock⟩ := exists_inBlock num hden
  rw [hblock.units_nearestRank hden, show ∀ place, place * twoTo block * den =
    place * (den * twoTo block) by intro place; ring]
  have hstep : 0 < den * twoTo block := Nat.mul_pos hden (twoTo_pos block)
  obtain ⟨hlower, hupper, -, -⟩ := roundDiv_spec (num * twoTo unitExponent) hstep
  -- The distance of the block is a small part of the fraction, wherever the block lies.
  have hfirst : twoTo bits * (den * twoTo block) ≤ num * twoTo unitExponent := by
    rcases (inBlock_iff.mp hblock).1 with rfl | hfirst
    · simpa [twoTo] using hlarge
    · exact (Nat.mul_le_mul_right _ (twoTo_le_twoTo hbits)).trans hfirst
  rw [twoTo_succ]
  constructor
  · nlinarith
  · nlinarith

/-- From a place of a block on, each rank is at least one distance of the block further. -/
theorem le_units_block (hfirst : block = 0 ∨ 2 ^ 52 ≤ place) :
    place * twoTo block ≤ units (block * blockSize + place) := by
  obtain ⟨last, rest, hrank, hrest, hlast⟩ := exists_block (block * blockSize + place)
  rw [hrank, units_block hrest hlast.le]
  have hsize := blockSize_eq
  obtain ⟨blocks, rfl⟩ : ∃ blocks, last = block + blocks := by
    refine Nat.exists_eq_add_of_le ?_
    by_contra hlt
    have hblocks : (last + 1) * blockSize ≤ block * blockSize :=
      Nat.mul_le_mul_right _ (Nat.lt_of_not_le hlt)
    rw [Nat.succ_mul] at hblocks
    omega
  have hplace : place = blocks * blockSize + rest := by
    rw [Nat.add_mul] at hrank
    omega
  rcases Nat.eq_zero_or_pos blocks with rfl | hpos
  · rw [hplace, Nat.zero_mul, Nat.zero_add, Nat.add_zero]
  · have hfull := hrest.resolve_left (by omega)
    have hgrow : blocks + 1 ≤ twoTo blocks := Nat.lt_two_pow_self
    calc place * twoTo block ≤ (blocks + 1) * rest * twoTo block := by
          apply Nat.mul_le_mul_right
          rw [hplace, Nat.succ_mul, hsize]
          exact Nat.add_le_add_right (Nat.mul_le_mul_left blocks hfull) rest
      _ ≤ twoTo blocks * rest * twoTo block :=
          Nat.mul_le_mul_right _ (Nat.mul_le_mul_right rest hgrow)
      _ = rest * twoTo (block + blocks) := by
          rw [twoTo_add]
          ring

end Rounding

end FormCheck.Number
