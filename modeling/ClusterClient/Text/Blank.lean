/-!
# Blank characters

The characters with the Unicode property White_Space, trimming them, and the texts that hold
nothing else.
-/

namespace ClusterClient.Text

/-- The White_Space property. -/
def isBlankChar (c : Char) : Bool :=
  let n := c.toNat
  (0x9 ≤ n && n ≤ 0xd) || n == 0x20 || n == 0x85 || n == 0xa0 || n == 0x1680 ||
    (0x2000 ≤ n && n ≤ 0x200a) || n == 0x2028 || n == 0x2029 || n == 0x202f || n == 0x205f ||
    n == 0x3000

/-- A text without the blank characters at its two ends. -/
def trimBlank (s : String) : String :=
  String.ofList ((s.toList.dropWhile isBlankChar).reverse.dropWhile isBlankChar).reverse

/-- A text that holds blank characters only; the empty text is one. -/
def isBlank (s : String) : Bool := s.toList.all isBlankChar

/-! ## What is blank -/

/-- The code points with the White_Space property. -/
def whiteSpace : List Nat :=
  [0x9, 0xa, 0xb, 0xc, 0xd, 0x20, 0x85, 0xa0, 0x1680, 0x2000, 0x2001, 0x2002, 0x2003, 0x2004,
    0x2005, 0x2006, 0x2007, 0x2008, 0x2009, 0x200a, 0x2028, 0x2029, 0x202f, 0x205f, 0x3000]

/-- No character of a text is of another kind than white space. -/
def IsBlank (s : String) : Prop := ∀ c ∈ s.toList, c.toNat ∈ whiteSpace

theorem isBlankChar_iff {c : Char} : isBlankChar c = true ↔ c.toNat ∈ whiteSpace := by
  simp only [isBlankChar, whiteSpace, Bool.or_eq_true, Bool.and_eq_true, decide_eq_true_eq,
    beq_iff_eq, List.mem_cons, List.not_mem_nil, or_false]
  omega

theorem isBlank_iff {s : String} : isBlank s = true ↔ IsBlank s := by
  rw [isBlank, List.all_eq_true]
  exact forall₂_congr fun _ _ => isBlankChar_iff

instance (s : String) : Decidable (IsBlank s) := decidable_of_iff _ isBlank_iff

theorem isBlank_eq_false_iff {s : String} : isBlank s = false ↔ ¬ IsBlank s := by
  rw [← isBlank_iff, Bool.not_eq_true]

end ClusterClient.Text
