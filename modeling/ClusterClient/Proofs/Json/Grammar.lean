import ClusterClient.Json.Reader
/-!
# What a JSON text spells

The grammar of JSON texts, said without the machine that reads them: which texts spell a number, a
string, a value, the items of an array and the members of an object.
-/

namespace ClusterClient.Json

/-- Nothing but white space. -/
def IsSpaces (text : List Char) : Prop := ∀ c ∈ text, isSpace c = true

instance (text : List Char) : Decidable (IsSpaces text) :=
  List.decidableBAll (fun c => isSpace c = true) text

theorem isSpaces_nil : IsSpaces [] := nofun

theorem isSpaces_cons {c : Char} {text : List Char} :
    IsSpaces (c :: text) ↔ isSpace c = true ∧ IsSpaces text := List.forall_mem_cons

/-! ## Numbers -/

/-- Nothing but decimal digits. -/
def IsDigits (text : List Char) : Prop := ∀ c ∈ text, c.isDigit = true

instance (text : List Char) : Decidable (IsDigits text) :=
  List.decidableBAll (fun c : Char => c.isDigit = true) text

theorem isDigits_cons {c : Char} {text : List Char} :
    IsDigits (c :: text) ↔ c.isDigit = true ∧ IsDigits text := List.forall_mem_cons

/-- The sign of a number; there is none for plus. -/
def minus (negative : Bool) : List Char := if negative then ['-'] else []

/-- The digits before a point or an exponent: a single zero, or a run that does not begin with
one. -/
def IsWhole (digits : List Char) : Prop :=
  digits = ['0'] ∨ ∃ c rest, digits = c :: rest ∧ c ≠ '0' ∧ c.isDigit = true ∧ IsDigits rest

/-- A point and digits after it, or nothing. -/
def IsFraction (text : List Char) : Prop :=
  text = [] ∨ ∃ digits, text = '.' :: digits ∧ digits ≠ [] ∧ IsDigits digits

/-- An exponent of either sign, or nothing. -/
def IsExponent (text : List Char) : Prop :=
  text = [] ∨ ∃ mark sign digits, text = mark :: (sign ++ digits) ∧ (mark = 'e' ∨ mark = 'E') ∧
    (sign = [] ∨ sign = ['+'] ∨ sign = ['-']) ∧ digits ≠ [] ∧ IsDigits digits

/-! ## Strings -/

/-- The value of hexadecimal digits, the most significant first, behind those of a value. -/
inductive HexDigits : Nat → List Char → Nat → Prop where
  | nil {value : Nat} : HexDigits value [] value
  | cons {value d result : Nat} {c : Char} {text : List Char} (hc : hexValue? c = some d)
      (h : HexDigits (16 * value + d) text result) : HexDigits value (c :: text) result

/-- One unit of a string: a character as it is, or an escape. -/
inductive SpellsUnit : Nat → List Char → Prop where
  | plain {c : Char} (hquote : c ≠ '"') (hbackslash : c ≠ '\\') (hcontrol : 0x20 ≤ c.toNat) :
      SpellsUnit c.toNat [c]
  | letter {c e : Char} (he : escaped? c = some e) : SpellsUnit e.toNat ['\\', c]
  | digits {text : List Char} {value : Nat} (hlength : text.length = 4)
      (htext : HexDigits 0 text value) : SpellsUnit value ('\\' :: 'u' :: text)

inductive SpellsUnits : List Nat → List Char → Prop where
  | nil : SpellsUnits [] []
  | cons {u : Nat} {units : List Nat} {text rest : List Char} (hu : SpellsUnit u text)
      (h : SpellsUnits units rest) : SpellsUnits (u :: units) (text ++ rest)

/-- Characters that stand in a string as they are: no quote, no backslash, no control character. -/
def IsPlain (text : List Char) : Prop := ∀ c ∈ text, c ≠ '"' ∧ c ≠ '\\' ∧ 0x20 ≤ c.toNat

instance (text : List Char) : Decidable (IsPlain text) :=
  List.decidableBAll (fun c => c ≠ '"' ∧ c ≠ '\\' ∧ 0x20 ≤ c.toNat) text

theorem spellsUnits_of_plain {text : List Char} (h : IsPlain text) :
    SpellsUnits (text.map Char.toNat) text := by
  induction text with
  | nil => exact .nil
  | cons c text ih =>
    obtain ⟨⟨hquote, hbackslash, hcontrol⟩, hrest⟩ := List.forall_mem_cons.mp h
    exact .cons (.plain hquote hbackslash hcontrol) (ih hrest)

-- A string in which nothing is escaped holds its own characters.
theorem SpellsUnits.plain {units : List Nat} {text : List Char} (h : SpellsUnits units text)
    (hbackslash : '\\' ∉ text) : units = text.map Char.toNat ∧ IsPlain text := by
  induction h with
  | nil => exact ⟨rfl, List.forall_mem_nil _⟩
  | cons hu h ih =>
    rw [List.mem_append, not_or] at hbackslash
    obtain ⟨hfirst, hrest⟩ := hbackslash
    obtain ⟨rfl, hplain⟩ := ih hrest
    cases hu with
    | plain hquote hne hcontrol =>
      exact ⟨rfl, List.forall_mem_cons.mpr ⟨⟨hquote, hne, hcontrol⟩, hplain⟩⟩
    | letter => exact absurd List.mem_cons_self hfirst
    | digits => exact absurd List.mem_cons_self hfirst

/-! ## Values -/

/-- What a part of a text can stand for. -/
inductive Phrase where
  | value (j : Json)
  -- A value with white space around it.
  | padded (j : Json)
  | items (js : List Json)
  | member (name : List Nat) (j : Json)
  | members (ms : List (List Nat × Json))

inductive Spells : Phrase → List Char → Prop where
  | null : Spells (.value .null) ['n', 'u', 'l', 'l']
  | yes : Spells (.value (.bool true)) ['t', 'r', 'u', 'e']
  | no : Spells (.value (.bool false)) ['f', 'a', 'l', 's', 'e']
  | number {negative : Bool} {digits fraction exponent : List Char} (hdigits : IsWhole digits)
      (hfraction : IsFraction fraction) (hexponent : IsExponent exponent) :
      Spells (.value (.number negative digits (fraction.isEmpty && exponent.isEmpty)))
        (minus negative ++ (digits ++ (fraction ++ exponent)))
  | string {units : List Nat} {text : List Char} (htext : SpellsUnits units text) :
      Spells (.value (.string units)) ('"' :: (text ++ ['"']))
  | emptyArray {a : List Char} (ha : IsSpaces a) :
      Spells (.value (.array [])) ('[' :: (a ++ [']']))
  | array {js : List Json} {text : List Char} (htext : Spells (.items js) text) :
      Spells (.value (.array js)) ('[' :: (text ++ [']']))
  | emptyObject {a : List Char} (ha : IsSpaces a) :
      Spells (.value (.object [])) ('{' :: (a ++ ['}']))
  | object {ms : List (List Nat × Json)} {text : List Char} (htext : Spells (.members ms) text) :
      Spells (.value (.object ms)) ('{' :: (text ++ ['}']))
  | padded {j : Json} {a text b : List Char} (ha : IsSpaces a) (htext : Spells (.value j) text)
      (hb : IsSpaces b) : Spells (.padded j) (a ++ (text ++ b))
  | lastItem {j : Json} {text : List Char} (htext : Spells (.padded j) text) :
      Spells (.items [j]) text
  | item {j : Json} {js : List Json} {text rest : List Char} (htext : Spells (.padded j) text)
      (hrest : Spells (.items js) rest) : Spells (.items (j :: js)) (text ++ ',' :: rest)
  | member {name : List Nat} {j : Json} {a nameText b text : List Char} (ha : IsSpaces a)
      (hname : SpellsUnits name nameText) (hb : IsSpaces b) (htext : Spells (.padded j) text) :
      Spells (.member name j) (a ++ '"' :: (nameText ++ '"' :: (b ++ ':' :: text)))
  | lastMember {name : List Nat} {j : Json} {text : List Char}
      (htext : Spells (.member name j) text) : Spells (.members [(name, j)]) text
  | moreMembers {name : List Nat} {j : Json} {ms : List (List Nat × Json)} {text rest : List Char}
      (htext : Spells (.member name j) text) (hrest : Spells (.members ms) rest) :
      Spells (.members ((name, j) :: ms)) (text ++ ',' :: rest)

end ClusterClient.Json
