import ClusterClient.Json.Record
import Mathlib.Data.List.Basic
import Mathlib.Data.List.Forall2
/-!
# What values denote

For each kind of typed reading a relation that says which values denote what, without the way in
which they are read; and that the reading gives just what the relation says.
-/

namespace ClusterClient.Json

/-- What is read is just what the relation says. -/
def Recognizes {α β : Type} (read : β → Option α) (P : β → α → Prop) : Prop :=
  ∀ b a, read b = some a ↔ P b a

theorem Recognizes.mapM {α β : Type} {read : β → Option α} {P : β → α → Prop}
    (h : Recognizes read P) : Recognizes (List.mapM read) (List.Forall₂ P) := by
  intro bs list
  induction bs generalizing list with
  | nil =>
    rw [List.mapM_nil, List.forall₂_nil_left_iff, eq_comm]
    exact Option.some_inj
  | cons b bs ih =>
    rw [List.mapM_cons, List.forall₂_cons_left_iff, Option.bind_eq_bind, Option.bind_eq_some_iff]
    refine exists_congr fun a => ?_
    rw [h b a, Option.bind_eq_bind, Option.bind_eq_some_iff]
    constructor
    · rintro ⟨ha, rest, hrest, ⟨⟩⟩
      exact ⟨rest, ha, (ih rest).mp hrest, rfl⟩
    · rintro ⟨rest, ha, hrest, rfl⟩
      exact ⟨ha, rest, (ih rest).mpr hrest, rfl⟩

/-! ## Strings -/

/-- The characters that the units of a string stand for: a unit by itself unless it is a surrogate,
and two surrogates that make a pair. -/
inductive CharsOf : List Nat → List Char → Prop where
  | nil : CharsOf [] []
  | single {u : Nat} {units : List Nat} {text : List Char} (hhigh : isHighSurrogate u = false)
      (hlow : isLowSurrogate u = false) (h : CharsOf units text) :
      CharsOf (u :: units) (Char.ofNat u :: text)
  | pair {high low : Nat} {units : List Nat} {text : List Char}
      (hhigh : isHighSurrogate high = true) (hlow : isLowSurrogate low = true)
      (h : CharsOf units text) :
      CharsOf (high :: low :: units) (Char.ofNat (ofSurrogates high low) :: text)

theorem charsAfter_of_charsOf {units : List Nat} {text : List Char} (h : CharsOf units text)
    (before : List Char) : charsAfter before none units = some (before.reverse ++ text) := by
  induction h generalizing before with
  | nil => rw [charsAfter, List.append_nil]
  | single hhigh hlow h ih =>
    rw [charsAfter, hhigh, hlow, if_neg Bool.false_ne_true, if_neg Bool.false_ne_true, ih,
      List.reverse_cons, List.append_assoc, List.singleton_append]
  | pair hhigh hlow h ih =>
    rw [charsAfter, if_pos hhigh, charsAfter, if_pos hlow, ih, List.reverse_cons,
      List.append_assoc, List.singleton_append]

theorem charsOf_of_charsAfter {before : List Char} :
    ∀ {units : List Nat} {text : List Char}, charsAfter before none units = some text →
      ∃ new, CharsOf units new ∧ text = before.reverse ++ new
  | [], text, h => by
    cases h
    exact ⟨[], .nil, (List.append_nil _).symm⟩
  | u :: units, text, h => by
    rw [charsAfter] at h
    split at h
    · rename_i hhigh
      cases units with
      | nil => cases h
      | cons low units =>
        rw [charsAfter] at h
        split at h
        · rename_i hlow
          obtain ⟨new, hnew, rfl⟩ := charsOf_of_charsAfter h
          refine ⟨_, .pair hhigh hlow hnew, ?_⟩
          rw [List.reverse_cons, List.append_assoc, List.singleton_append]
        · cases h
    split at h
    · cases h
    · rename_i hhigh hlow
      obtain ⟨new, hnew, rfl⟩ := charsOf_of_charsAfter h
      refine ⟨_, .single (Bool.eq_false_iff.mpr hhigh) (Bool.eq_false_iff.mpr hlow) hnew, ?_⟩
      rw [List.reverse_cons, List.append_assoc, List.singleton_append]
termination_by units => units.length

theorem unitsText?_eq_some_iff (units : List Nat) (text : String) :
    unitsText? units = some text ↔ CharsOf units text.toList := by
  rw [unitsText?, Option.map_eq_some_iff]
  constructor
  · rintro ⟨chars, hchars, rfl⟩
    obtain ⟨new, hnew, rfl⟩ := charsOf_of_charsAfter hchars
    rwa [String.toList_ofList]
  · intro h
    exact ⟨text.toList, charsAfter_of_charsOf h [], String.ofList_toList⟩

-- No character is a surrogate.
theorem charsOf_map_toNat (text : List Char) : CharsOf (text.map Char.toNat) text := by
  induction text with
  | nil => exact .nil
  | cons c text ih =>
    have hvalid : c.toNat < 0xd800 ∨ 0xdfff < c.toNat ∧ c.toNat < 0x110000 := c.valid
    have hhigh : isHighSurrogate c.toNat = false := by
      simp only [isHighSurrogate, Bool.and_eq_false_iff, decide_eq_false_iff_not]
      omega
    have hlow : isLowSurrogate c.toNat = false := by
      simp only [isLowSurrogate, Bool.and_eq_false_iff, decide_eq_false_iff_not]
      omega
    have hchars := CharsOf.single hhigh hlow ih
    rwa [Char.ofNat_toNat] at hchars

/-- The value is a text. -/
def IsText (j : Json) (text : String) : Prop :=
  ∃ units, j = .string units ∧ CharsOf units text.toList

theorem recognizes_text : Recognizes text? IsText := by
  intro j text
  cases j with
  | string units =>
    rw [text?, unitsText?_eq_some_iff]
    constructor
    · exact fun h => ⟨units, rfl, h⟩
    · rintro ⟨_, ⟨⟩, h⟩
      exact h
  | _ => exact iff_of_false nofun nofun

/-! ## Whole numbers -/

/-- The number in decimal notation. -/
def decimal (negative : Bool) (digits : List Char) : Int :=
  if negative then -(Nat.ofDigitChars 10 digits 0) else Nat.ofDigitChars 10 digits 0

/-- The value is a whole number in a closed range, not written as minus zero. -/
def IsInt (low high : Int) (j : Json) (n : Int) : Prop :=
  ∃ negative digits, j = .number negative digits true ∧ ¬(negative = true ∧ n = 0) ∧
    n = decimal negative digits ∧ low ≤ n ∧ n ≤ high

theorem recognizes_int (low high : Int) : Recognizes (int? low high) (IsInt low high) := by
  intro j n
  cases j with
  | number negative digits whole =>
    cases whole with
    | false => exact iff_of_false nofun nofun
    | true =>
      have hvalue : int? low high (.number negative digits true) =
          if (negative && digitsValue digits == 0) = true then none
          else if low ≤ decimal negative digits ∧ decimal negative digits ≤ high then
            some (decimal negative digits)
          else none := rfl
      have hzero : (negative && digitsValue digits == 0) = true ↔
          negative = true ∧ decimal negative digits = 0 := by
        rw [Bool.and_eq_true, beq_iff_eq]
        refine and_congr_right fun hnegative => ?_
        rw [decimal, if_pos hnegative, Int.neg_eq_zero, Int.natCast_eq_zero]
        exact Iff.rfl
      rw [hvalue]
      constructor
      · intro h
        split at h
        · cases h
        split at h
        · rename_i hne hrange
          cases h
          exact ⟨negative, digits, rfl, fun h => hne (hzero.mpr h), rfl, hrange⟩
        · cases h
      · rintro ⟨_, _, ⟨⟩, hne, rfl, hrange⟩
        rw [if_neg (fun h => hne (hzero.mp h)), if_pos hrange]
  | _ => exact iff_of_false nofun nofun

/-- The value is a whole number from zero up to a limit. -/
def IsNat (high : Nat) (j : Json) (n : Nat) : Prop := IsInt 0 high j n

theorem recognizes_nat (high : Nat) : Recognizes (nat? high) (IsNat high) := by
  intro j n
  rw [nat?, Option.map_eq_some_iff]
  constructor
  · rintro ⟨i, hi, rfl⟩
    have hint := (recognizes_int 0 high j i).mp hi
    have hlow : 0 ≤ i := by
      obtain ⟨_, _, _, _, _, hlow, _⟩ := hint
      exact hlow
    rwa [IsNat, Int.toNat_of_nonneg hlow]
  · intro h
    exact ⟨n, (recognizes_int 0 high j n).mpr h, Int.toNat_natCast n⟩

/-! ## Lists and nothing -/

section Combined

variable {α : Type} {read : Json → Option α} {P : Json → α → Prop}

/-- The value is an array of values that denote the items of a list. -/
def IsList (P : Json → α → Prop) (j : Json) (list : List α) : Prop :=
  ∃ items, j = .array items ∧ List.Forall₂ P items list

theorem Recognizes.list (h : Recognizes read P) : Recognizes (list? read) (IsList P) := by
  intro j list
  cases j with
  | array items =>
    have hitems : list? read (.array items) = some list ↔ List.Forall₂ P items list := by
      rw [list?, items?, Option.bind_some, h.mapM]
    rw [hitems]
    constructor
    · exact fun h => ⟨items, rfl, h⟩
    · rintro ⟨_, ⟨⟩, h⟩
      exact h
  | _ => exact iff_of_false nofun nofun

/-- The value is `null` for nothing, and for something what denotes it. -/
inductive IsNullable (P : Json → α → Prop) : Json → Option α → Prop where
  | null : IsNullable P .null none
  | value {j : Json} {a : α} (hj : j ≠ .null) (ha : P j a) : IsNullable P j (some a)

theorem Recognizes.nullable (h : Recognizes read P) :
    Recognizes (nullable? read) (IsNullable P) := by
  intro j a
  by_cases hj : j = .null
  · subst hj
    constructor
    · rintro ⟨⟩
      exact .null
    · intro ha
      cases ha with
      | null => rfl
      | value hj => exact absurd rfl hj
  · have hread : nullable? read j = (read j).map some := by
      cases j <;> first | exact absurd rfl hj | rfl
    rw [hread, Option.map_eq_some_iff]
    constructor
    · rintro ⟨a, ha, rfl⟩
      exact .value hj ((h j a).mp ha)
    · intro ha
      cases ha with
      | null => exact absurd rfl hj
      | value _ ha => exact ⟨_, (h j _).mpr ha, rfl⟩

/-! ## Fields -/

/-- A field that is left out stands for the default. -/
inductive OrDefault (default : α) (P : Json → α → Prop) : Option Json → α → Prop where
  | left : OrDefault default P none default
  | written {j : Json} {a : α} (ha : P j a) : OrDefault default P (some j) a

theorem Recognizes.orDefault (h : Recognizes read P) (default : α) :
    Recognizes (orDefault? default read) (OrDefault default P) := by
  intro field a
  cases field with
  | none =>
    constructor
    · rintro ⟨⟩
      exact .left
    · rintro ⟨⟩
      rfl
  | some j =>
    constructor
    · exact fun ha => .written ((h j a).mp ha)
    · intro ha
      cases ha with
      | written ha => exact (h j a).mpr ha

/-- A field that is written. -/
def Required (P : Json → α → Prop) (field : Option Json) (a : α) : Prop :=
  ∃ j, field = some j ∧ P j a

theorem Recognizes.required (h : Recognizes read P) :
    Recognizes (required? read) (Required P) := by
  intro field a
  rw [required?, Option.bind_eq_some_iff]
  exact exists_congr fun j => and_congr_right fun _ => h j a

end Combined

/-! ## Records -/

/-- The members of an object under the texts of their names. -/
def Named (members : List (List Nat × Json)) (named : List (String × Json)) : Prop :=
  List.Forall₂ (fun m n => CharsOf m.1 n.1.toList ∧ m.2 = n.2) members named

/-- The fields of a record in the order of `names`, with `none` for those that are left out. Members
of other names may stand in an object, and fields at the end may be missing from an array. -/
inductive IsRecord (names : List String) : Json → Form → List (Option Json) → Prop where
  | object {members : List (List Nat × Json)} {named : List (String × Json)}
      {fields : List (Option Json)} (hmembers : Named members named)
      (hfields : List.Forall₂ (fun name field => valuesOf name named = field.toList) names fields) :
      IsRecord names (.object members) .named fields
  | array {items : List Json} (hitems : items.length ≤ names.length) :
      IsRecord names (.array items) .positional
        (items.map some ++ List.replicate (names.length - items.length) none)

theorem recognizes_named : Recognizes namedMembers? Named := by
  refine Recognizes.mapM fun m n => ?_
  rw [← unitsText?_eq_some_iff]
  constructor
  · intro h
    obtain ⟨name, hname, rfl⟩ := Option.map_eq_some_iff.mp h
    exact ⟨hname, rfl⟩
  · rintro ⟨hname, hvalue⟩
    exact Option.map_eq_some_iff.mpr ⟨n.1, hname, Prod.ext rfl hvalue⟩

theorem recognizes_field (named : List (String × Json)) :
    Recognizes (field? named) fun name field => valuesOf name named = field.toList := by
  intro name field
  change field? named name = some field ↔ valuesOf name named = field.toList
  rw [field?]
  split
  · rename_i hvalues
    rw [hvalues]
    cases field <;> simp
  · rename_i value hvalues
    rw [hvalues]
    cases field <;> simp
  · rename_i hnone hone
    refine iff_of_false nofun fun h => ?_
    cases field with
    | none => exact hnone h
    | some value => exact hone value h

theorem record?_eq_some_iff (names : List String) (j : Json) (form : Form)
    (fields : List (Option Json)) :
    j.record? names = some (form, fields) ↔ IsRecord names j form fields := by
  cases j with
  | object members =>
    constructor
    · intro h
      obtain ⟨named, hnamed, h⟩ := Option.bind_eq_some_iff.mp h
      obtain ⟨fields, hfields, h⟩ := Option.bind_eq_some_iff.mp h
      cases h
      exact .object ((recognizes_named members named).mp hnamed)
        ((recognizes_field named).mapM names fields |>.mp hfields)
    · intro h
      cases h with
      | @object _ named _ hmembers hfields =>
        refine Option.bind_eq_some_iff.mpr
          ⟨named, (recognizes_named members named).mpr hmembers, ?_⟩
        exact Option.bind_eq_some_iff.mpr
          ⟨fields, (recognizes_field named).mapM names fields |>.mpr hfields, rfl⟩
  | array items =>
    rw [record?]
    constructor
    · intro h
      split at h
      · rename_i hitems
        cases h
        exact .array hitems
      · cases h
    · intro h
      cases h with
      | array hitems => rw [if_pos hitems]
  | _ => exact iff_of_false nofun nofun

end ClusterClient.Json
