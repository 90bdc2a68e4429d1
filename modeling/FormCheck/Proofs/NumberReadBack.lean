import FormCheck.Proofs.NumberArguments
import FormCheck.Proofs.WritableRules
import FormCheck.Validator.Builtin

/-!
# Number texts read back

The text of a number can stand as an argument in a rule, and the rule then reads
the number that was written: the shortest digits of a number are a decimal that the
number is nearest to, and the infinities are read by their names.  Only the sign of
a zero is not written.  So numbers at different places have different texts, and a
range with the same number at both ends accepts the numbers at its place only.
-/

namespace FormCheck

namespace Number

variable {n a b : Number}

/-! ## Places of numbers -/

/-- The zero with a sign. -/
def zero (negative : Bool) : Number :=
  .finite negative ⟨0, by decide⟩

/-- The same number, where a zero has no sign. -/
def withoutZeroSign : Number → Number
  | .finite negative magnitude => .finite (negative && magnitude.val != 0) magnitude
  | n => n

theorem signed_neg_iff (negative : Bool) (n : ℕ) :
    signed negative n < 0 ↔ negative = true ∧ n ≠ 0 := by
  cases negative with
  | false => simp [signed]
  | true =>
      simp only [signed, if_true, true_and]
      omega

theorem ofFraction_units (negative : Bool) (rank : ℕ) :
    ofFraction (decide (signed negative (units rank) < 0)) (signed negative (units rank)).natAbs
      (twoTo unitExponent) = ofRank (negative && rank != 0) rank := by
  have hsign : decide (signed negative (units rank) < 0) = (negative && rank != 0) := by
    rw [Bool.eq_iff_iff, decide_eq_true_iff, signed_neg_iff]
    simp [units_eq_zero_iff]
  rw [ofFraction, hsign, natAbs_signed, nearestRank_of_units (twoTo_pos unitExponent) rfl]

/-- A number is the fraction of its place over the units of one, whose zero has no sign. -/
theorem withoutZeroSign_eq {place : ℤ} (hplace : n.position? = some place) :
    n.withoutZeroSign = ofFraction (decide (place < 0)) place.natAbs (twoTo unitExponent) := by
  cases n with
  | nan => cases hplace
  | infinite negative =>
      rw [← Option.some.inj hplace, ofFraction_units, ofRank_beyond _ le_rfl]
      simp [withoutZeroSign]
  | finite negative magnitude =>
      rw [← Option.some.inj hplace, ofFraction_units, ofRank, dif_pos magnitude.isLt]
      rfl

theorem withoutZeroSign_of_ne (hn : n ≠ zero true) : n.withoutZeroSign = n := by
  cases n with
  | nan => rfl
  | infinite negative => rfl
  | finite negative magnitude =>
      rw [withoutZeroSign]
      cases negative with
      | false => rfl
      | true =>
          have hrank : magnitude.val ≠ 0 := by
            intro hzero
            exact hn (congrArg (finite true) (Fin.ext hzero))
          rw [bne_iff_ne.mpr hrank, Bool.and_true]

theorem position?_withoutZeroSign (n : Number) : n.withoutZeroSign.position? = n.position? := by
  by_cases hn : n = zero true
  · rw [hn]
    rfl
  · rw [withoutZeroSign_of_ne hn]

theorem exists_position (hn : n ≠ .nan) : ∃ place, n.position? = some place := by
  cases n with
  | nan => exact absurd rfl hn
  | infinite negative => exact ⟨_, rfl⟩
  | finite negative magnitude => exact ⟨_, rfl⟩

theorem equal_iff_position (hb : b ≠ .nan) : a.equal b = true ↔ a.position? = b.position? := by
  obtain ⟨place, hplace⟩ := exists_position hb
  unfold equal
  rw [hplace]
  cases a.position? with
  | none => simp
  | some other => simp

theorem equal_iff_withoutZeroSign (ha : a ≠ .nan) (hb : b ≠ .nan) :
    a.equal b = true ↔ a.withoutZeroSign = b.withoutZeroSign := by
  rw [equal_iff_position hb]
  constructor
  · intro hplaces
    obtain ⟨place, hplace⟩ := exists_position ha
    rw [withoutZeroSign_eq hplace, withoutZeroSign_eq (hplaces ▸ hplace)]
  · intro hsame
    rw [← position?_withoutZeroSign a, hsame, position?_withoutZeroSign]

/-- A number lies between a place and itself only at that place. -/
theorem le_and_le_eq_equal (a b : Number) : (b.le a && a.le b) = a.equal b := by
  unfold le equal
  cases a.position? with
  | none => cases b.position? <;> rfl
  | some place =>
      cases b.position? with
      | none => rfl
      | some other =>
          rw [Bool.eq_iff_iff, Bool.and_eq_true]
          simp only [decide_eq_true_eq]
          omega

/-! ## Characters of number texts -/

theorem mem_text_literal
    {literal : Literal} (hliteral : literal.WellFormed) {c : Char} (hc : c ∈ literal.text) :
    c.isDigit = true ∨ c ∈ ['.', 'e', '-', '+'] := by
  unfold Literal.text at hc
  rw [List.mem_append, List.mem_append] at hc
  rcases hc with (hwhole | hfraction) | hexponent
  · exact .inl (hliteral.isDigit_whole c hwhole)
  · cases hdigits : literal.fraction with
    | nil =>
        rw [hdigits] at hfraction
        cases hfraction
    | cons digit digits =>
        rw [hdigits] at hfraction
        cases List.mem_cons.mp hfraction with
        | inl hpoint => exact .inr (by simp [hpoint])
        | inr hdigit => exact .inl (hliteral.isDigit_fraction c (hdigits ▸ hdigit))
  · cases hmark : literal.exponent with
    | none =>
        rw [hmark] at hexponent
        cases hexponent
    | some exponent =>
        rw [hmark, Literal.exponentText, List.mem_append] at hexponent
        cases hexponent with
        | inl hsign =>
            have hmarks : ['e', if exponent < 0 then '-' else '+'] ⊆ ['.', 'e', '-', '+'] := by
              split <;> simp
            exact .inr (hmarks hsign)
        | inr hdigit => exact .inl (Text.isDigit_of_mem_digitsOfNumber hdigit)

theorem nearestRank_decimal (literal : Literal) (negative other : Bool) :
    (literal.decimal negative).nearestRank = (literal.decimal other).nearestRank := rfl

theorem toList_text_finite (negative : Bool) (magnitude : Fin magnitudeCount) :
    (finite negative magnitude).text.toList =
      (if negative && magnitude.val != 0 then ['-'] else []) ++
        (NumberStyle.script.magnitudeLiteral negative magnitude).text := by
  have htext := NumberStyle.script.finiteText_eq negative magnitude
  rw [Number.text, String.toList_ofList, htext]
  rfl

/-- A number text holds neither blanks nor the separators of rules. -/
theorem plain_text (n : Number) :
    ∀ c ∈ n.text.toList, Text.isBlank c = false ∧ c ≠ '|' ∧ c ≠ ':' := by
  cases n with
  | nan => simp [text, Text.isBlank]
  | infinite negative => cases negative <;> simp [text, Text.isBlank]
  | finite negative magnitude =>
      intro c hc
      have hkind : c.isDigit = true ∨ c ∈ ['.', 'e', '-', '+'] := by
        rw [toList_text_finite, List.mem_append] at hc
        cases hc with
        | inl hsign =>
            have hmarks : (if negative && magnitude.val != 0 then ['-'] else []) ⊆
                ['.', 'e', '-', '+'] := by
              split <;> simp
            exact .inr (hmarks hsign)
        | inr hliteral =>
            exact mem_text_literal (NumberStyle.script.wellFormed_magnitudeLiteral _ _) hliteral
      cases hkind with
      | inl hdigit =>
          refine ⟨Text.isBlank_of_isDigit hdigit, ?_, ?_⟩
          · rintro rfl
            cases hdigit
          · rintro rfl
            cases hdigit
      | inr hmark =>
          have hmarks : ∀ mark ∈ ['.', 'e', '-', '+'],
              Text.isBlank mark = false ∧ mark ≠ '|' ∧ mark ≠ ':' := by simp [Text.isBlank]
          exact hmarks c hmark

theorem trim_text (n : Number) : Text.trim n.text.toList = n.text.toList := by
  apply Text.trim_eq_self
  · intro c hc
    exact (plain_text n c (List.mem_of_head? hc)).1
  · intro c hc
    exact (plain_text n c (List.mem_of_getLast? hc)).1

/-! ## Reading a number text -/

theorem number?_text (n : Number) :
    Argument.number? n.text.toList = some n.withoutZeroSign := by
  cases n with
  | nan => decide
  | infinite negative => cases negative <;> decide
  | finite negative magnitude =>
      have hliteral := NumberStyle.script.wellFormed_magnitudeLiteral negative magnitude
      have hrank := NumberStyle.script.nearestRank_magnitudeLiteral negative magnitude
      -- A zero is written without its sign, but the rank of its decimal is the same.
      rw [nearestRank_decimal _ negative (negative && magnitude.val != 0)] at hrank
      rw [toList_text_finite, Literal.number?_text hliteral, Decimal.toNumber_eq, hrank, ofRank,
        dif_pos magnitude.isLt]
      rfl

theorem bound?_text (hn : n ≠ .nan) : Argument.bound? n.text = some n.withoutZeroSign := by
  have hread : n.withoutZeroSign ≠ .nan := by
    obtain ⟨place, hplace⟩ := exists_position hn
    intro hnan
    rw [← position?_withoutZeroSign, hnan] at hplace
    cases hplace
  unfold Argument.bound?
  rw [trim_text, number?_text]
  simp [hread]

theorem bound?_text_nan : Argument.bound? nan.text = none := by
  decide

theorem text_withoutZeroSign (n : Number) : n.withoutZeroSign.text = n.text := by
  by_cases hn : n = zero true
  · rw [hn]
    rfl
  · rw [withoutZeroSign_of_ne hn]

theorem text_eq_iff (ha : a ≠ .nan) (hb : b ≠ .nan) : a.text = b.text ↔ a.equal b = true := by
  rw [equal_iff_withoutZeroSign ha hb]
  constructor
  · intro htext
    have hread := bound?_text ha
    rw [htext, bound?_text hb] at hread
    exact (Option.some.inj hread).symm
  · intro hsame
    rw [← text_withoutZeroSign a, hsame, text_withoutZeroSign]

/-! ## Ranges with a number at both ends -/

theorem le_withoutZeroSign (a b : Number) : a.le b.withoutZeroSign = a.le b := by
  rw [le, le, position?_withoutZeroSign]

theorem withoutZeroSign_le (a b : Number) : b.withoutZeroSign.le a = b.le a := by
  rw [le, le, position?_withoutZeroSign]

theorem between_text (hn : n ≠ .nan) (value : Number) :
    Builtin.between.holds (.number value) [n.text, n.text] = value.equal n := by
  have hbound := bound?_text hn
  have hleast : Builtin.isAtLeast (.number value) [n.text, n.text] 0 = n.le value := by
    rw [← withoutZeroSign_le]
    simp [Builtin.isAtLeast, Builtin.boundArg?, Value.number?, hbound]
  have hgreatest : Builtin.isAtMost (.number value) [n.text, n.text] 1 = value.le n := by
    rw [← le_withoutZeroSign]
    simp [Builtin.isAtMost, Builtin.boundArg?, Value.number?, hbound]
  rw [Builtin.holds, hleast, hgreatest, le_and_le_eq_equal]

theorem parse_between_text (n : Number) :
    RuleList.parse ("between:" ++ n.text ++ ":" ++ n.text) =
      [⟨"between", [n.text, n.text]⟩] := by
  have htext : "between:" ++ n.text ++ ":" ++ n.text =
      RuleList.text [⟨"between", [n.text, n.text]⟩] := by
    apply String.toList_inj.mp
    simp [RuleList.text, Clause.text, Clause.segments, RuleList.separator, Clause.separator]
  rw [htext, RuleList.parse_text_iff, RuleList.readable_iff]
  refine ⟨List.cons_ne_nil _ _, ?_⟩
  have hseparators : '|' ∉ n.text.toList ∧ ':' ∉ n.text.toList :=
    ⟨fun hbar => (plain_text n _ hbar).2.1 rfl, fun hcolon => (plain_text n _ hcolon).2.2 rfl⟩
  simp only [forall_eq, List.mem_cons, List.not_mem_nil, or_false, forall_eq_or_imp]
  exact ⟨by decide, hseparators, hseparators⟩

/-- The text of every number but `nan` is read as that number, with all its bits but the sign of
a zero, and the text of `nan` is not read.  Hence texts are the same exactly for equal numbers,
and a range with the text of a number at both ends accepts the numbers equal to it. -/
theorem text_reads_back :
    (∀ n : Number, n ≠ .nan → ∃ read, Argument.bound? n.text = some read ∧
      read.equal n = true ∧ (n ≠ zero true → read = n)) ∧
    Argument.bound? (zero true).text = some (zero false) ∧
    Argument.bound? nan.text = none ∧
    (∀ a b : Number, a ≠ .nan → b ≠ .nan → (a.text = b.text ↔ a.equal b = true)) ∧
    ∀ n : Number, n ≠ .nan →
      RuleList.parse ("between:" ++ n.text ++ ":" ++ n.text) =
        [⟨Builtin.between.name, [n.text, n.text]⟩] ∧
      ∀ value : Number, Builtin.between.holds (.number value) [n.text, n.text] = true ↔
        value.equal n = true := by
  refine ⟨?_, bound?_text (by decide), bound?_text_nan, fun a b => text_eq_iff, ?_⟩
  · intro n hn
    refine ⟨n.withoutZeroSign, bound?_text hn, ?_, withoutZeroSign_of_ne⟩
    rw [equal_iff_position hn, position?_withoutZeroSign]
  · intro n hn
    refine ⟨parse_between_text n, ?_⟩
    intro value
    rw [between_text hn]

theorem least_and_large_read_back :
    (ofEncoding 1).text = "5e-324" ∧ Argument.bound? "5e-324" = some (ofEncoding 1) ∧
    (zero true).text = (zero false).text ∧
    RuleList.parse ("between:" ++ "1e+21" ++ ":" ++ "1e+21") =
      [⟨"between", ["1e+21", "1e+21"]⟩] ∧
    Builtin.between.holds (.number (ofInt (10 ^ 21))) ["1e+21", "1e+21"] = true ∧
    Builtin.between.holds (.number (ofInt (10 ^ 21 + 10 ^ 6))) ["1e+21", "1e+21"] = false := by
  have hleast : (ofEncoding 1).text = "5e-324" := by decide +kernel
  have hlarge : (ofInt (10 ^ 21)).text = "1e+21" := by decide +kernel
  obtain ⟨read, hbound, -, hsame⟩ := text_reads_back.1 (ofEncoding 1) (by decide)
  have hzeros := text_reads_back.2.2.2.1 (zero true) (zero false) (by decide) (by decide)
  obtain ⟨hparse, hrange⟩ := text_reads_back.2.2.2.2 (ofInt (10 ^ 21)) (by decide +kernel)
  rw [hleast, hsame (by decide)] at hbound
  rw [hlarge] at hparse hrange
  refine ⟨hleast, hbound, hzeros.mpr (by decide), hparse, (hrange _).mpr (by decide +kernel), ?_⟩
  rw [Bool.eq_false_iff, ne_eq, hrange]
  decide +kernel

end Number

end FormCheck
