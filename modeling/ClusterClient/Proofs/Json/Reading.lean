import ClusterClient.Proofs.Json.Grammar
import Mathlib.Data.List.Basic
/-!
# Texts that are read

The machine reads every text that the grammar allows, whatever its stack, and comes to the value
that the text spells. A number ends only with the character after it, so at the end of a value the
machine either has taken it to its place or stands inside a number that may end there.
-/

namespace ClusterClient.Json

variable {stack : List Frame}

theorem run_append_of_run {s s' : State} {a : List Char} (h : run s a = some s') (b : List Char) :
    run s (a ++ b) = run s' b := by
  rw [run_append, h, Option.bind_some]

theorem run_cons_of_step {s s' : State} {c : Char} (h : step s c = some s') (rest : List Char) :
    run s (c :: rest) = run s' rest := by
  rw [run, h, Option.bind_some]

/-! ## White space -/

-- White space changes nothing where it is passed over.
theorem run_spaces {s : State} (hs : ∀ c, isSpace c = true → step s c = some s) {a : List Char}
    (ha : IsSpaces a) (rest : List Char) : run s (a ++ rest) = run s rest := by
  induction a with
  | nil => rfl
  | cons c a ih =>
    rw [isSpaces_cons] at ha
    rw [List.cons_append, run_cons_of_step (hs c ha.1), ih ha.2]

theorem step_deliver (value : Json) (stack : List Frame) (c : Char) :
    step (deliver value stack) c =
      stepAfter (deliver value stack).stack (deliver value stack).mode c := by
  cases stack with
  | nil => rfl
  | cons frame stack => cases frame <;> rfl

theorem step_deliver_space (value : Json) (stack : List Frame) (c : Char)
    (hc : isSpace c = true) : step (deliver value stack) c = some (deliver value stack) := by
  rw [step_deliver]
  exact if_pos hc

/-! ## Strings -/

-- The machine takes names and values of strings alike: `f` stands inside the string, `g` after it.
section Strings

variable {f : List Nat → Escape → State} {g : List Nat → State}
  (hf : ∀ units escape c, step (f units escape) c = (stringStep units escape c).map fun
    | .closed => g units
    | .more units escape => f units escape)

include hf

theorem run_hexDigits {count value result : Nat} {text : List Char} {units : List Nat}
    (hcount : count + text.length = 4) (hne : text ≠ []) (h : HexDigits value text result) :
    run (f units (.digits count value)) text = some (f (result :: units) .plain) := by
  induction h generalizing count with
  | nil => exact absurd rfl hne
  | @cons value d result c text hc h ih =>
    rw [List.length_cons] at hcount
    have hstep : step (f units (.digits count value)) c =
        some (if count = 3 then f ((16 * value + d) :: units) .plain
          else f units (.digits (count + 1) (16 * value + d))) := by
      rw [hf, stringStep, hc]
      by_cases h3 : count = 3
      · simp only [h3, if_true, Option.map_some]
      · simp only [h3, if_false, Option.map_some]
    rw [run_cons_of_step hstep]
    by_cases h3 : count = 3
    · have htext : text = [] := List.length_eq_zero_iff.mp (by omega)
      subst htext
      cases h
      rw [if_pos h3, run]
    · rw [if_neg h3]
      refine ih (by omega) ?_
      rintro rfl
      rw [List.length_nil] at hcount
      omega

theorem run_unit {u : Nat} {units : List Nat} {text : List Char} (h : SpellsUnit u text) :
    run (f units .plain) text = some (f (u :: units) .plain) := by
  cases h with
  | @plain c hquote hbackslash hcontrol =>
    have hstep : step (f units .plain) c = some (f (c.toNat :: units) .plain) := by
      rw [hf, stringStep, if_neg hquote, if_neg hbackslash, if_neg (Nat.not_lt.mpr hcontrol)]
      rfl
    rw [run_cons_of_step hstep, run]
  | @letter c e he =>
    have hbackslash : step (f units .plain) '\\' = some (f units .backslash) := hf _ _ _
    have hstep : step (f units .backslash) c = some (f (e.toNat :: units) .plain) := by
      have hu : c ≠ 'u' := by
        rintro rfl
        cases he
      rw [hf, stringStep, if_neg hu, he]
      rfl
    rw [run_cons_of_step hbackslash, run_cons_of_step hstep, run]
  | digits hlength htext =>
    have hbackslash : step (f units .plain) '\\' = some (f units .backslash) := hf _ _ _
    have hu : step (f units .backslash) 'u' = some (f units (.digits 0 0)) := hf _ _ _
    rw [run_cons_of_step hbackslash, run_cons_of_step hu]
    refine run_hexDigits hf (by omega) ?_ htext
    exact List.ne_nil_of_length_pos (by omega)

-- A string up to and with its closing quote.
theorem run_units {new : List Nat} {text : List Char} (units : List Nat)
    (h : SpellsUnits new text) (rest : List Char) :
    run (f units .plain) (text ++ '"' :: rest) = run (g (new.reverse ++ units)) rest := by
  induction h generalizing units with
  | nil =>
    have hstep : step (f units .plain) '"' = some (g units) := hf _ _ _
    rw [List.nil_append, run_cons_of_step hstep]
    rfl
  | cons hu h ih =>
    rw [List.append_assoc, run_append_of_run (run_unit hf hu), ih, List.reverse_cons,
      List.append_assoc]
    rfl

end Strings

/-! ## Numbers -/

section Numbers

variable {negative : Bool} {digits text : List Char}

theorem run_number_cons {digits' : List Char} {part part' : NumberPart} {c : Char}
    (h : numberStep negative digits part c = some (.number negative digits' part'))
    (rest : List Char) :
    run ⟨stack, .number negative digits part⟩ (c :: rest) =
      run ⟨stack, .number negative digits' part'⟩ rest := by
  refine run_cons_of_step ?_ rest
  simp only [step, h]

-- Where a digit may follow a digit, a run of them is taken whole.
theorem run_digits {part : NumberPart} {keep : List Char → Char → List Char}
    (hstep : ∀ digits c, c.isDigit = true →
      numberStep negative digits part c = some (.number negative (keep digits c) part))
    (h : IsDigits text) (rest : List Char) :
    run ⟨stack, .number negative digits part⟩ (text ++ rest) =
      run ⟨stack, .number negative (text.foldl keep digits) part⟩ rest := by
  induction text generalizing digits with
  | nil => rfl
  | cons c text ih =>
    rw [isDigits_cons] at h
    rw [List.cons_append, run_number_cons (hstep digits c h.1), ih h.2, List.foldl_cons]

-- Digits after a point or in an exponent are not kept.
theorem run_dropped_digits {before part : NumberPart}
    (hbefore : ∀ c, c.isDigit = true →
      numberStep negative digits before c = some (.number negative digits part))
    (hstep : ∀ digits c, c.isDigit = true →
      numberStep negative digits part c = some (.number negative digits part))
    (hne : text ≠ []) (h : IsDigits text) :
    run ⟨stack, .number negative digits before⟩ text =
      some ⟨stack, .number negative digits part⟩ := by
  cases text with
  | nil => exact absurd rfl hne
  | cons c text =>
    rw [isDigits_cons] at h
    have hrest : run ⟨stack, .number negative digits part⟩ (text ++ []) =
        run ⟨stack, .number negative (text.foldl (fun digits _ => digits) digits) part⟩ [] :=
      run_digits hstep h.2 []
    rw [List.append_nil, List.foldl_fixed] at hrest
    rw [run_number_cons (hbefore c h.1), hrest, run]

theorem beginValue_digit {c : Char} (hc : c.isDigit = true) :
    beginValue stack c = (numberStep false [] .sign c).map fun mode => ⟨stack, mode⟩ := by
  have hne : ∀ d : Char, d.isDigit = false → c ≠ d := by
    rintro d hd rfl
    rw [hc] at hd
    cases hd
  unfold beginValue
  rw [if_neg (hne _ rfl), if_neg (hne _ rfl), if_neg (hne _ rfl), if_neg (hne _ rfl),
    if_neg (hne _ rfl), if_neg (hne _ rfl), if_neg (hne _ rfl)]

theorem isSpace_digit {c : Char} (hc : c.isDigit = true) : isSpace c = false := by
  rw [Bool.eq_false_iff]
  intro hspace
  simp only [isSpace, Bool.or_eq_true, beq_iff_eq] at hspace
  rcases hspace with ((rfl | rfl) | rfl) | rfl <;> exact absurd hc (by decide)

-- The sign and the first digit.
theorem run_first_digit {c : Char} {part : NumberPart} (hc : c.isDigit = true)
    (hpart : numberStep negative [] .sign c = some (.number negative [c] part))
    (rest : List Char) :
    run ⟨stack, .value⟩ (minus negative ++ c :: rest) =
      run ⟨stack, .number negative [c] part⟩ rest := by
  cases negative with
  | false =>
    refine run_cons_of_step ?_ rest
    simp only [step, isSpace_digit hc, Bool.false_eq_true, if_false, beginValue_digit hc, hpart,
      Option.map_some]
  | true =>
    have hsign : step ⟨stack, .value⟩ '-' = some ⟨stack, .number true [] .sign⟩ := rfl
    rw [minus, if_pos rfl, List.singleton_append, run_cons_of_step hsign, run_number_cons hpart]

theorem run_whole (stack : List Frame) (negative : Bool) {digits : List Char} (h : IsWhole digits) :
    ∃ part, (part = .zero ∨ part = .whole) ∧ ∀ rest,
      run ⟨stack, .value⟩ (minus negative ++ (digits ++ rest)) =
        run ⟨stack, .number negative digits.reverse part⟩ rest := by
  obtain rfl | ⟨c, more, rfl, hzero, hc, hmore⟩ := h
  · exact ⟨.zero, .inl rfl, run_first_digit (by decide) rfl⟩
  · refine ⟨.whole, .inr rfl, fun rest => ?_⟩
    have hfirst : numberStep negative [] .sign c = some (.number negative [c] .whole) := by
      simp only [numberStep, if_neg hzero, if_pos hc]
    have hstep : ∀ digits c, c.isDigit = true → numberStep negative digits .whole c =
        some (.number negative (c :: digits) .whole) := fun digits c hc => by
      simp only [numberStep, if_pos hc]
    rw [List.cons_append, run_first_digit hc hfirst, run_digits hstep hmore]
    simp only [List.reverse_cons, List.foldl_flip_cons_eq_append, List.map_id']

theorem run_fraction (stack : List Frame) (negative : Bool) (digits : List Char) {text : List Char}
    {part : NumberPart} (hpart : part = .zero ∨ part = .whole)
    (h : IsFraction text) :
    ∃ part', run ⟨stack, .number negative digits part⟩ text =
        some ⟨stack, .number negative digits part'⟩ ∧
      (text = [] ∧ (part' = .zero ∨ part' = .whole) ∨ text ≠ [] ∧ part' = .fraction) := by
  obtain rfl | ⟨more, rfl, hne, hmore⟩ := h
  · exact ⟨part, rfl, .inl ⟨rfl, hpart⟩⟩
  · refine ⟨.fraction, ?_, .inr ⟨nofun, rfl⟩⟩
    have hpoint : numberStep negative digits part '.' = some (.number negative digits .point) := by
      rcases hpart with rfl | rfl <;> rfl
    rw [run_number_cons hpoint]
    refine run_dropped_digits (fun c hc => ?_) (fun digits c hc => ?_) hne hmore
    · simp only [numberStep, if_pos hc]
    · simp only [numberStep, if_pos hc]

theorem run_exponent (stack : List Frame) (negative : Bool) (digits : List Char) {text : List Char}
    {part : NumberPart} (hpart : (part = .zero ∨ part = .whole) ∨ part = .fraction)
    (h : IsExponent text) :
    ∃ part', run ⟨stack, .number negative digits part⟩ text =
        some ⟨stack, .number negative digits part'⟩ ∧
      (text = [] ∧ part' = part ∨ text ≠ [] ∧ part' = .exponentDigits) := by
  obtain rfl | ⟨mark, sign, more, rfl, hmark, hsign, hne, hmore⟩ := h
  · exact ⟨part, rfl, .inl ⟨rfl, rfl⟩⟩
  · refine ⟨.exponentDigits, ?_, .inr ⟨nofun, rfl⟩⟩
    have hstart :
        numberStep negative digits part mark = some (.number negative digits .exponent) := by
      rcases hmark with rfl | rfl <;> rcases hpart with (rfl | rfl) | rfl <;> rfl
    have hmoreStep : ∀ digits c, c.isDigit = true → numberStep negative digits .exponentDigits c =
        some (.number negative digits .exponentDigits) := fun digits c hc => by
      simp only [numberStep, if_pos hc]
    rw [run_number_cons hstart]
    obtain hunsigned | hsigned : sign = [] ∨ ∃ c, sign = [c] ∧ (c = '+' ∨ c = '-') := by
      rcases hsign with rfl | rfl | rfl
      · exact .inl rfl
      · exact .inr ⟨_, rfl, .inl rfl⟩
      · exact .inr ⟨_, rfl, .inr rfl⟩
    · rw [hunsigned, List.nil_append]
      refine run_dropped_digits (fun c hc => ?_) hmoreStep hne hmore
      have hsignless : ¬(c = '+' ∨ c = '-') := by
        rintro (rfl | rfl) <;> exact absurd hc (by decide)
      simp only [numberStep, if_neg hsignless, if_pos hc]
    · obtain ⟨c, rfl, hc⟩ := hsigned
      have hsignStep : numberStep negative digits .exponent c =
          some (.number negative digits .exponentSign) := if_pos hc
      rw [List.singleton_append, run_number_cons hsignStep]
      refine run_dropped_digits (fun c hc => ?_) hmoreStep hne hmore
      simp only [numberStep, if_pos hc]

theorem run_number {fraction exponent : List Char} (hdigits : IsWhole digits)
    (hfraction : IsFraction fraction) (hexponent : IsExponent exponent) :
    ∃ part, run ⟨stack, .value⟩ (minus negative ++ (digits ++ (fraction ++ exponent))) =
        some ⟨stack, .number negative digits.reverse part⟩ ∧
      number? negative digits.reverse part =
        some (.number negative digits (fraction.isEmpty && exponent.isEmpty)) := by
  obtain ⟨first, hfirst, hrunFirst⟩ := run_whole stack negative hdigits
  obtain ⟨middle, hrunMiddle, hmiddle⟩ :=
    run_fraction stack negative digits.reverse hfirst hfraction
  obtain ⟨part, hrun, hpart⟩ :=
    run_exponent stack negative digits.reverse (hmiddle.imp And.right And.right) hexponent
  refine ⟨part, by rw [hrunFirst, run_append_of_run hrunMiddle, hrun], ?_⟩
  obtain ⟨rfl, rfl⟩ | ⟨hne, rfl⟩ := hpart
  · obtain ⟨rfl, rfl | rfl⟩ | ⟨hne, rfl⟩ := hmiddle
    · simp [number?]
    · simp [number?]
    · simp [number?, hne]
  · simp [number?, hne]

end Numbers

/-! ## The end of a value -/

/-- The machine has come to the end of a value: it has taken it to its place, or it stands inside a
number that may end there. -/
def Settled (j : Json) (stack : List Frame) (s : State) : Prop :=
  s = deliver j stack ∨ ∃ negative digits part,
    s = ⟨stack, .number negative digits part⟩ ∧ number? negative digits part = some j

theorem numberStep_eq_none {negative : Bool} {digits : List Char} {part : NumberPart} {j : Json}
    {c : Char} (hpart : number? negative digits part = some j) (hdigit : c.isDigit = false)
    (hmark : c ≠ '.' ∧ c ≠ 'e' ∧ c ≠ 'E') : numberStep negative digits part c = none := by
  obtain ⟨hpoint, he, hE⟩ := hmark
  cases part <;> simp_all [numberStep, number?]

-- A character that cannot belong to a number takes a value to its place.
theorem Settled.step_eq {j : Json} {s : State} {c : Char} (h : Settled j stack s)
    (hdigit : c.isDigit = false) (hmark : c ≠ '.' ∧ c ≠ 'e' ∧ c ≠ 'E') :
    step s c = step (deliver j stack) c := by
  obtain rfl | ⟨negative, digits, part, rfl, hpart⟩ := h
  · rfl
  · rw [step_deliver]
    simp only [step, numberStep_eq_none hpart hdigit hmark, hpart, Option.bind_some]

theorem Settled.run_spaces {j : Json} {s : State} {a : List Char} (h : Settled j stack s)
    (ha : IsSpaces a) : ∃ s', run s a = some s' ∧ Settled j stack s' := by
  cases a with
  | nil => exact ⟨s, rfl, h⟩
  | cons c a =>
    rw [isSpaces_cons] at ha
    have hc : c.isDigit = false ∧ c ≠ '.' ∧ c ≠ 'e' ∧ c ≠ 'E' := by
      have hspace := ha.1
      simp only [isSpace, Bool.or_eq_true, beq_iff_eq] at hspace
      rcases hspace with ((rfl | rfl) | rfl) | rfl <;> decide
    refine ⟨deliver j stack, ?_, .inl rfl⟩
    have hstep : step s c = some (deliver j stack) := by
      rw [h.step_eq hc.1 hc.2, step_deliver_space j stack c ha.1]
    have hrest := Json.run_spaces (s := deliver j stack) (step_deliver_space j stack) ha.2 []
    rw [List.append_nil] at hrest
    rw [run_cons_of_step hstep, hrest, run]

theorem finish?_eq_some_iff {s : State} {j : Json} : finish? s = some j ↔ Settled j [] s := by
  constructor
  · intro h
    obtain ⟨stack, mode⟩ := s
    unfold finish? at h
    split at h
    · rename_i hstack hmode
      cases h
      exact .inl (congrArg₂ State.mk hstack hmode)
    · rename_i hstack hmode
      exact .inr ⟨_, _, _, congrArg₂ State.mk hstack hmode, h⟩
    · cases h
  · rintro (rfl | ⟨negative, digits, part, rfl, hpart⟩)
    · rfl
    · exact hpart

/-! ## Values -/

-- A state that takes all that another one takes, and passes over white space like it, comes to where
-- the other one comes.
theorem run_of_step {s first last : State} {text : List Char}
    (hspace : ∀ c, isSpace c = true → step s c = some s ∧ step first c = some first)
    (hstep : ∀ c next, isSpace c = false → step s c = some next → step first c = some next)
    (h : run s text = some last) (hlast : last ≠ s) : run first text = some last := by
  induction text with
  | nil =>
    cases h
    exact absurd rfl hlast
  | cons c text ih =>
    obtain ⟨next, hnext, hrest⟩ := Option.bind_eq_some_iff.mp h
    cases hc : isSpace c with
    | true =>
      obtain ⟨hstay, hfirst⟩ := hspace c hc
      cases hstay.symm.trans hnext
      rw [run_cons_of_step hfirst, ih hrest]
    | false => rw [run_cons_of_step (hstep c next hc hnext), hrest]

-- An array that is not empty begins like its first item.
theorem run_firstItem {text : List Char} {last : State}
    (h : run ⟨.item [] :: stack, .value⟩ text = some last) (hlast : last.mode ≠ .value) :
    run ⟨stack, .firstItem⟩ text = some last := by
  refine run_of_step (s := ⟨.item [] :: stack, .value⟩) (fun c hc => ⟨if_pos hc, if_pos hc⟩)
    (fun c next hc hnext => ?_) h fun hsame => hlast (congrArg State.mode hsame)
  have hclose : c ≠ ']' := by
    rintro rfl
    cases hnext
  rw [← hnext]
  simp only [step, hc, hclose, Bool.false_eq_true, if_false]

-- An object that is not empty begins like its first member.
theorem run_firstName {text : List Char} {last : State}
    (h : run ⟨stack, .nextName []⟩ text = some last) (hlast : last.mode ≠ .nextName []) :
    run ⟨stack, .firstName⟩ text = some last := by
  refine run_of_step (s := ⟨stack, .nextName []⟩) (fun c hc => ⟨if_pos hc, if_pos hc⟩)
    (fun c next hc hnext => ?_) h fun hsame => hlast (congrArg State.mode hsame)
  have hclose : c ≠ '}' := by
    rintro rfl
    cases hnext
  rw [← hnext]
  simp only [step, hc, hclose, Bool.false_eq_true, if_false]

theorem deliver_mode_ne_value (j : Json) (stack : List Frame) :
    (deliver j stack).mode ≠ .value := by
  cases stack with
  | nil => exact nofun
  | cons frame stack => cases frame <;> exact nofun

theorem deliver_mode_ne_nextName (j : Json) (stack : List Frame)
    (members : List (List Nat × Json)) : (deliver j stack).mode ≠ .nextName members := by
  cases stack with
  | nil => exact nofun
  | cons frame stack => cases frame <;> exact nofun

/-- What the machine makes of a text that spells a phrase, in whatever container it stands: of a
list of items or members with the bracket that closes it. -/
def Reads : Phrase → List Char → Prop
  | .value j, text | .padded j, text =>
    ∀ stack, ∃ s, run ⟨stack, .value⟩ text = some s ∧ Settled j stack s
  | .items js, text => ∀ stack before,
    run ⟨.item before :: stack, .value⟩ (text ++ [']']) =
      some (deliver (.array (before.reverse ++ js)) stack)
  | .member name j, text => ∀ stack before, ∃ s,
    run ⟨stack, .nextName before⟩ text = some s ∧ Settled j (.member before name :: stack) s
  | .members ms, text => ∀ stack before,
    run ⟨stack, .nextName before⟩ (text ++ ['}']) =
      some (deliver (.object (before.reverse ++ ms)) stack)

theorem reads_of_spells {p : Phrase} {text : List Char} (h : Spells p text) : Reads p text := by
  induction h with
  | null => exact fun stack => ⟨deliver .null stack, rfl, .inl rfl⟩
  | yes => exact fun stack => ⟨deliver (.bool true) stack, rfl, .inl rfl⟩
  | no => exact fun stack => ⟨deliver (.bool false) stack, rfl, .inl rfl⟩
  | number hdigits hfraction hexponent =>
    intro stack
    obtain ⟨part, hrun, hpart⟩ := run_number hdigits hfraction hexponent
    exact ⟨_, hrun, .inr ⟨_, _, part, rfl, hpart⟩⟩
  | @string units text htext =>
    intro stack
    refine ⟨deliver (.string units) stack, ?_, .inl rfl⟩
    have hquote : step ⟨stack, .value⟩ '"' = some ⟨stack, .string [] .plain⟩ := rfl
    have hunits := run_units (f := fun units escape => ⟨stack, .string units escape⟩)
      (g := fun units => deliver (.string units.reverse) stack) (fun _ _ _ => rfl) [] htext []
    rw [run_cons_of_step hquote, hunits, List.append_nil, List.reverse_reverse, run]
  | @emptyArray a ha =>
    intro stack
    refine ⟨deliver (.array []) stack, ?_, .inl rfl⟩
    have hopen : step ⟨stack, .value⟩ '[' = some ⟨stack, .firstItem⟩ := rfl
    rw [run_cons_of_step hopen, run_spaces (s := ⟨stack, .firstItem⟩) (fun c hc => if_pos hc) ha]
    rfl
  | @array js text htext ih =>
    intro stack
    refine ⟨deliver (.array js) stack, ?_, .inl rfl⟩
    have hopen : step ⟨stack, .value⟩ '[' = some ⟨stack, .firstItem⟩ := rfl
    rw [run_cons_of_step hopen]
    exact run_firstItem (ih stack []) (deliver_mode_ne_value _ _)
  | @emptyObject a ha =>
    intro stack
    refine ⟨deliver (.object []) stack, ?_, .inl rfl⟩
    have hopen : step ⟨stack, .value⟩ '{' = some ⟨stack, .firstName⟩ := rfl
    rw [run_cons_of_step hopen, run_spaces (s := ⟨stack, .firstName⟩) (fun c hc => if_pos hc) ha]
    rfl
  | @object ms text htext ih =>
    intro stack
    refine ⟨deliver (.object ms) stack, ?_, .inl rfl⟩
    have hopen : step ⟨stack, .value⟩ '{' = some ⟨stack, .firstName⟩ := rfl
    rw [run_cons_of_step hopen]
    exact run_firstName (ih stack []) (deliver_mode_ne_nextName _ _ _)
  | @padded j a text b ha htext hb ih =>
    intro stack
    obtain ⟨s, hrun, hs⟩ := ih stack
    obtain ⟨s', hspaces, hs'⟩ := hs.run_spaces hb
    refine ⟨s', ?_, hs'⟩
    rw [run_spaces (s := ⟨stack, .value⟩) (fun c hc => if_pos hc) ha, run_append_of_run hrun,
      hspaces]
  | @lastItem j text htext ih =>
    intro stack before
    obtain ⟨s, hrun, hs⟩ := ih (.item before :: stack)
    have hclose : step s ']' = some (deliver (.array (j :: before).reverse) stack) := by
      rw [hs.step_eq (by decide) (by decide)]
      rfl
    rw [run_append_of_run hrun, run_cons_of_step hclose, run, List.reverse_cons]
  | @item j js text rest htext hrest ih ihrest =>
    intro stack before
    obtain ⟨s, hrun, hs⟩ := ih (.item before :: stack)
    have hcomma : step s ',' = some ⟨.item (j :: before) :: stack, .value⟩ := by
      rw [hs.step_eq (by decide) (by decide)]
      rfl
    rw [List.append_assoc, run_append_of_run hrun, List.cons_append, run_cons_of_step hcomma,
      ihrest stack (j :: before), List.reverse_cons, List.append_assoc, List.singleton_append]
  | @member name j a nameText b text ha hname hb htext ih =>
    intro stack before
    obtain ⟨s, hrun, hs⟩ := ih (.member before name :: stack)
    refine ⟨s, ?_, hs⟩
    have hquote : step ⟨stack, .nextName before⟩ '"' = some ⟨stack, .name before [] .plain⟩ := rfl
    have hunits := run_units (f := fun units escape => ⟨stack, .name before units escape⟩)
      (g := fun units => ⟨stack, .afterName before units.reverse⟩) (fun _ _ _ => rfl) [] hname
      (b ++ ':' :: text)
    have hcolon : step ⟨stack, .afterName before name⟩ ':' =
        some ⟨.member before name :: stack, .value⟩ := rfl
    rw [run_spaces (s := ⟨stack, .nextName before⟩) (fun c hc => if_pos hc) ha,
      run_cons_of_step hquote, hunits, List.append_nil, List.reverse_reverse,
      run_spaces (s := ⟨stack, .afterName before name⟩) (fun c hc => if_pos hc) hb,
      run_cons_of_step hcolon, hrun]
  | @lastMember name j text htext ih =>
    intro stack before
    obtain ⟨s, hrun, hs⟩ := ih stack before
    have hclose : step s '}' = some (deliver (.object ((name, j) :: before).reverse) stack) := by
      rw [hs.step_eq (by decide) (by decide)]
      rfl
    rw [run_append_of_run hrun, run_cons_of_step hclose, run, List.reverse_cons]
  | @moreMembers name j ms text rest htext hrest ih ihrest =>
    intro stack before
    obtain ⟨s, hrun, hs⟩ := ih stack before
    have hcomma : step s ',' = some ⟨stack, .nextName ((name, j) :: before)⟩ := by
      rw [hs.step_eq (by decide) (by decide)]
      rfl
    rw [List.append_assoc, run_append_of_run hrun, List.cons_append, run_cons_of_step hcomma,
      ihrest stack ((name, j) :: before), List.reverse_cons, List.append_assoc,
      List.singleton_append]

theorem read?_of_spells {j : Json} {text : List Char} (h : Spells (.padded j) text) :
    read? text = some j := by
  obtain ⟨s, hrun, hs⟩ := reads_of_spells h []
  rw [read?, start, hrun, Option.bind_some, finish?_eq_some_iff.mpr hs]

end ClusterClient.Json
