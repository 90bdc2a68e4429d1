/-!
# Blank characters

A blank is a character of the Unicode property White_Space.  The table lists
the property in full, so the control characters U+001C to U+001F, the zero
width space U+200B and the byte order mark U+FEFF are not blanks.
-/

namespace FormCheck.Text

/-- The characters of the property White_Space. -/
def isBlank (c : Char) : Bool :=
  let n := c.toNat
  (0x09 ≤ n && n ≤ 0x0D) || n == 0x20 || n == 0x85 || n == 0xA0 || n == 0x1680 ||
    (0x2000 ≤ n && n ≤ 0x200A) || n == 0x2028 || n == 0x2029 || n == 0x202F ||
    n == 0x205F || n == 0x3000

def trimStart (s : List Char) : List Char :=
  s.dropWhile isBlank

def trimEnd (s : List Char) : List Char :=
  (s.reverse.dropWhile isBlank).reverse

def trim (s : List Char) : List Char :=
  trimEnd (trimStart s)

theorem trimStart_cons_of_blank {c : Char} {s : List Char} (hblank : isBlank c = true) :
    trimStart (c :: s) = trimStart s := by
  simp [trimStart, hblank]

theorem trimStart_cons_of_not_blank {c : Char} {s : List Char} (hblank : isBlank c = false) :
    trimStart (c :: s) = c :: s := by
  simp [trimStart, hblank]

theorem exists_blank_append_trimStart (s : List Char) :
    ∃ blanks : List Char, (∀ c ∈ blanks, isBlank c = true) ∧ s = blanks ++ trimStart s := by
  refine ⟨s.takeWhile isBlank, ?_, ?_⟩
  · intro c hmem
    exact List.all_eq_true.mp List.all_takeWhile c hmem
  · exact (List.takeWhile_append_dropWhile).symm

end FormCheck.Text
