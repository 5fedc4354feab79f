import ClusterClient.Proofs.Json.Reading
/-!
# Unfinished strings, numbers and lists

What the machine has taken of a string or a number that goes on, and how one character more changes
it; and how a list of items or members grows at its end, where the grammar builds it from its front.
-/

namespace ClusterClient.Json

theorem isSpaces_snoc {a : List Char} {c : Char} (ha : IsSpaces a) (hc : isSpace c = true) :
    IsSpaces (a ++ [c]) :=
  List.forall_mem_append.mpr ⟨ha, List.forall_mem_singleton.mpr hc⟩

theorem isDigits_snoc {a : List Char} {c : Char} (ha : IsDigits a) (hc : c.isDigit = true) :
    IsDigits (a ++ [c]) :=
  List.forall_mem_append.mpr ⟨ha, List.forall_mem_singleton.mpr hc⟩

/-! ## Strings -/

theorem HexDigits.snoc {value result d : Nat} {text : List Char} {c : Char}
    (h : HexDigits value text result) (hc : hexValue? c = some d) :
    HexDigits value (text ++ [c]) (16 * result + d) := by
  induction h with
  | nil => exact .cons hc .nil
  | cons hc' h ih => exact .cons hc' ih

theorem SpellsUnits.snoc {u : Nat} {units : List Nat} {text more : List Char}
    (h : SpellsUnits units text) (hu : SpellsUnit u more) :
    SpellsUnits (units ++ [u]) (text ++ more) := by
  induction h with
  | nil =>
    have hone : SpellsUnits [u] (more ++ []) := .cons hu .nil
    rwa [List.append_nil] at hone
  | cons hu' h ih =>
    rw [List.append_assoc]
    exact .cons hu' ih

/-- A part of a string, from behind its opening quote, and where it leaves the machine. -/
inductive InString : List Nat → Escape → List Char → Prop where
  | plain {units : List Nat} {text : List Char} (h : SpellsUnits units.reverse text) :
      InString units .plain text
  | backslash {units : List Nat} {text : List Char} (h : SpellsUnits units.reverse text) :
      InString units .backslash (text ++ ['\\'])
  | digits {units : List Nat} {text digits : List Char} {count value : Nat}
      (h : SpellsUnits units.reverse text) (hdigits : HexDigits 0 digits value)
      (hlength : digits.length = count) (hcount : count < 4) :
      InString units (.digits count value) (text ++ '\\' :: 'u' :: digits)

/-- What a string has become with one more character. -/
def AfterStringStep (units : List Nat) (text : List Char) (c : Char) : StringStep → Prop
  | .closed => c = '"' ∧ SpellsUnits units.reverse text
  | .more units' escape => InString units' escape (text ++ [c])

theorem InString.step {units : List Nat} {escape : Escape} {text : List Char} {c : Char}
    {r : StringStep} (h : InString units escape text) (hr : stringStep units escape c = some r) :
    AfterStringStep units text c r := by
  cases h with
  | plain h =>
    rw [stringStep] at hr
    split at hr
    · rename_i hquote
      cases hr
      exact ⟨hquote, h⟩
    split at hr
    · rename_i hbackslash
      cases hr
      rw [hbackslash]
      exact .backslash h
    split at hr
    · cases hr
    · rename_i hquote hbackslash hcontrol
      cases hr
      refine .plain ?_
      rw [List.reverse_cons]
      exact h.snoc (.plain hquote hbackslash (Nat.not_lt.mp hcontrol))
  | backslash h =>
    rw [stringStep] at hr
    split at hr
    · rename_i hu
      cases hr
      subst hu
      rw [AfterStringStep, List.append_assoc]
      exact .digits h .nil rfl (by omega)
    · obtain ⟨e, he, rfl⟩ := Option.map_eq_some_iff.mp hr
      refine .plain ?_
      rw [List.reverse_cons, List.append_assoc]
      exact h.snoc (.letter he)
  | @digits text digits count value h hdigits hlength hcount =>
    obtain ⟨d, hd, rfl⟩ := Option.map_eq_some_iff.mp hr
    have hnext := hdigits.snoc hd
    have hlonger : (digits ++ [c]).length = count + 1 := by
      rw [List.length_append, hlength]
      rfl
    by_cases h3 : count = 3
    · rw [if_pos h3]
      refine .plain ?_
      rw [List.reverse_cons, List.append_assoc]
      refine h.snoc (.digits ?_ hnext)
      rw [List.append_eq, hlonger, h3]
    · rw [if_neg h3, AfterStringStep, List.append_assoc]
      exact .digits h hnext hlonger (by omega)

/-! ## Numbers -/

/-- A part of a number, from its first character or from behind its sign, and where it leaves the
machine. -/
inductive InNumber (negative : Bool) : List Char → NumberPart → List Char → Prop where
  | sign : InNumber negative [] .sign (minus negative)
  | zero : InNumber negative ['0'] .zero (minus negative ++ ['0'])
  | whole {digits : List Char} (hwhole : IsWhole digits.reverse) (hzero : digits ≠ ['0']) :
      InNumber negative digits .whole (minus negative ++ digits.reverse)
  | point {digits : List Char} (hwhole : IsWhole digits.reverse) :
      InNumber negative digits .point (minus negative ++ (digits.reverse ++ ['.']))
  | fraction {digits fraction : List Char} (hwhole : IsWhole digits.reverse)
      (hne : fraction ≠ []) (hfraction : IsDigits fraction) :
      InNumber negative digits .fraction
        (minus negative ++ (digits.reverse ++ '.' :: fraction))
  | exponent {digits fraction : List Char} {mark : Char} (hwhole : IsWhole digits.reverse)
      (hfraction : IsFraction fraction) (hmark : mark = 'e' ∨ mark = 'E') :
      InNumber negative digits .exponent
        (minus negative ++ (digits.reverse ++ (fraction ++ [mark])))
  | exponentSign {digits fraction : List Char} {mark sign : Char}
      (hwhole : IsWhole digits.reverse) (hfraction : IsFraction fraction)
      (hmark : mark = 'e' ∨ mark = 'E') (hsign : sign = '+' ∨ sign = '-') :
      InNumber negative digits .exponentSign
        (minus negative ++ (digits.reverse ++ (fraction ++ [mark, sign])))
  | exponentDigits {digits fraction sign exponent : List Char} {mark : Char}
      (hwhole : IsWhole digits.reverse) (hfraction : IsFraction fraction)
      (hmark : mark = 'e' ∨ mark = 'E') (hsign : sign = [] ∨ sign = ['+'] ∨ sign = ['-'])
      (hne : exponent ≠ []) (hexponent : IsDigits exponent) :
      InNumber negative digits .exponentDigits
        (minus negative ++ (digits.reverse ++ (fraction ++ mark :: (sign ++ exponent))))

-- A number may end where the machine says so.
theorem InNumber.spells {negative : Bool} {digits text : List Char} {part : NumberPart} {j : Json}
    (h : InNumber negative digits part text) (hj : number? negative digits part = some j) :
    Spells (.value j) text := by
  cases h with
  | zero =>
    cases hj
    have hspells := @Spells.number negative _ _ _ (.inl rfl) (.inl rfl) (.inl rfl)
    rwa [List.append_nil, List.append_nil] at hspells
  | whole hwhole hzero =>
    cases hj
    have hspells := @Spells.number negative _ _ _ hwhole (.inl rfl) (.inl rfl)
    rwa [List.append_nil, List.append_nil] at hspells
  | fraction hwhole hne hfraction =>
    cases hj
    have hspells := @Spells.number negative _ _ _ hwhole (.inr ⟨_, rfl, hne, hfraction⟩)
      (.inl rfl)
    rwa [List.append_nil] at hspells
  | @exponentDigits _ fraction _ _ _ hwhole hfraction hmark hsign hne hexponent =>
    cases hj
    have hspells := @Spells.number negative _ _ _ hwhole hfraction
      (.inr ⟨_, _, _, rfl, hmark, hsign, hne, hexponent⟩)
    rwa [List.isEmpty_cons, Bool.and_false] at hspells
  | sign => cases hj
  | point => cases hj
  | exponent => cases hj
  | exponentSign => cases hj

theorem IsWhole.ne_nil {digits : List Char} (h : IsWhole digits) : digits ≠ [] := by
  obtain rfl | ⟨first, rest, rfl, -⟩ := h <;> exact List.cons_ne_nil _ _

theorem IsWhole.snoc {digits : List Char} {c : Char} (h : IsWhole digits) (hzero : digits ≠ ['0'])
    (hc : c.isDigit = true) : IsWhole (digits ++ [c]) := by
  obtain rfl | ⟨first, rest, rfl, hfirst, hdigit, hrest⟩ := h
  · exact absurd rfl hzero
  · exact .inr ⟨first, rest ++ [c], rfl, hfirst, hdigit, isDigits_snoc hrest hc⟩

-- The character after the digits before a point or an exponent.
theorem InNumber.afterWhole {negative : Bool} {digits text : List Char} {c : Char} {m : Mode}
    (hwhole : IsWhole digits.reverse) (htext : text = minus negative ++ digits.reverse)
    (hm : (if c = '.' then some (Mode.number negative digits .point)
      else if c = 'e' ∨ c = 'E' then some (.number negative digits .exponent) else none) =
        some m) :
    ∃ part, m = .number negative digits part ∧ InNumber negative digits part (text ++ [c]) := by
  subst htext
  split at hm
  · rename_i hpoint
    cases hm
    subst hpoint
    rw [List.append_assoc]
    exact ⟨_, rfl, .point hwhole⟩
  split at hm
  · rename_i hmark
    cases hm
    rw [List.append_assoc]
    exact ⟨_, rfl, .exponent hwhole (.inl rfl) hmark⟩
  · cases hm

theorem InNumber.step {negative : Bool} {digits text : List Char} {part : NumberPart} {c : Char}
    {m : Mode} (h : InNumber negative digits part text)
    (hm : numberStep negative digits part c = some m) :
    ∃ digits' part', m = .number negative digits' part' ∧
      InNumber negative digits' part' (text ++ [c]) := by
  cases h with
  | sign =>
    rw [numberStep] at hm
    split at hm
    · rename_i hzero
      cases hm
      subst hzero
      exact ⟨_, _, rfl, .zero⟩
    split at hm
    · rename_i hzero hc
      cases hm
      refine ⟨_, _, rfl, .whole (.inr ⟨c, [], rfl, hzero, hc, List.forall_mem_nil _⟩) ?_⟩
      exact fun h => hzero (List.singleton_inj.mp h)
    · cases hm
  | zero =>
    obtain ⟨part, rfl, hpart⟩ := @InNumber.afterWhole negative ['0'] _ _ _ (.inl rfl) rfl hm
    exact ⟨_, _, rfl, hpart⟩
  | @whole digits hwhole hzero =>
    rw [numberStep] at hm
    split at hm
    · rename_i hc
      cases hm
      have hne : digits.reverse ≠ ['0'] := fun h => hzero (List.reverse_eq_iff.mp h)
      have hnext := hwhole.snoc hne hc
      rw [← List.reverse_cons] at hnext
      refine ⟨_, _, rfl, ?_⟩
      rw [List.append_assoc, ← List.reverse_cons]
      refine .whole hnext fun heq => hwhole.ne_nil ?_
      rw [(List.cons.inj heq).2, List.reverse_nil]
    · obtain ⟨part, rfl, hpart⟩ := InNumber.afterWhole hwhole rfl hm
      exact ⟨_, _, rfl, hpart⟩
  | point hwhole =>
    rw [numberStep] at hm
    split at hm
    · rename_i hc
      cases hm
      refine ⟨_, _, rfl, ?_⟩
      rw [List.append_assoc, List.append_assoc]
      exact .fraction hwhole (List.cons_ne_nil c []) (List.forall_mem_singleton.mpr hc)
    · cases hm
  | fraction hwhole hne hfraction =>
    rw [numberStep] at hm
    split at hm
    · rename_i hc
      cases hm
      refine ⟨_, _, rfl, ?_⟩
      rw [List.append_assoc, List.append_assoc, List.cons_append]
      exact .fraction hwhole (List.append_ne_nil_of_left_ne_nil hne _) (isDigits_snoc hfraction hc)
    split at hm
    · rename_i hmark
      cases hm
      refine ⟨_, _, rfl, ?_⟩
      rw [List.append_assoc, List.append_assoc]
      exact .exponent hwhole (.inr ⟨_, rfl, hne, hfraction⟩) hmark
    · cases hm
  | exponent hwhole hfraction hmark =>
    rw [numberStep] at hm
    split at hm
    · rename_i hsign
      cases hm
      refine ⟨_, _, rfl, ?_⟩
      rw [List.append_assoc, List.append_assoc, List.append_assoc]
      exact .exponentSign hwhole hfraction hmark hsign
    split at hm
    · rename_i hc
      cases hm
      refine ⟨_, _, rfl, ?_⟩
      rw [List.append_assoc, List.append_assoc, List.append_assoc]
      exact .exponentDigits hwhole hfraction hmark (.inl rfl) (List.cons_ne_nil c [])
        (List.forall_mem_singleton.mpr hc)
    · cases hm
  | @exponentSign digits fraction mark sign hwhole hfraction hmark hsign =>
    rw [numberStep] at hm
    split at hm
    · rename_i hc
      cases hm
      refine ⟨_, _, rfl, ?_⟩
      have hsigns : [sign] = [] ∨ [sign] = ['+'] ∨ [sign] = ['-'] := by
        rcases hsign with rfl | rfl
        · exact .inr (.inl rfl)
        · exact .inr (.inr rfl)
      have hnext := @InNumber.exponentDigits negative _ _ _ _ _ hwhole hfraction hmark hsigns
        (List.cons_ne_nil c []) (List.forall_mem_singleton.mpr hc)
      rwa [List.append_assoc, List.append_assoc, List.append_assoc]
    · cases hm
  | exponentDigits hwhole hfraction hmark hsign hne hexponent =>
    rw [numberStep] at hm
    split at hm
    · rename_i hc
      cases hm
      refine ⟨_, _, rfl, ?_⟩
      rw [List.append_assoc, List.append_assoc, List.append_assoc, List.cons_append,
        List.append_assoc]
      exact .exponentDigits hwhole hfraction hmark hsign
        (List.append_ne_nil_of_left_ne_nil hne _) (isDigits_snoc hexponent hc)
    · cases hm

/-! ## Lists of items and of members -/

-- White space may follow every phrase but a bare value.
theorem Spells.snoc_space {p : Phrase} {text : List Char} {c : Char} (h : Spells p text)
    (hp : ∀ j, p ≠ .value j) (hc : isSpace c = true) : Spells p (text ++ [c]) := by
  induction h with
  | padded ha htext hb ih =>
    rw [List.append_assoc, List.append_assoc]
    exact .padded ha htext (isSpaces_snoc hb hc)
  | lastItem htext ih => exact .lastItem (ih nofun)
  | item htext hrest ih ihrest =>
    rw [List.append_assoc]
    exact .item htext (ihrest nofun)
  | member ha hname hb htext ih =>
    simp only [List.append_assoc, List.cons_append]
    exact .member ha hname hb (ih nofun)
  | lastMember htext ih => exact .lastMember (ih nofun)
  | moreMembers htext hrest ih ihrest =>
    rw [List.append_assoc]
    exact .moreMembers htext (ihrest nofun)
  | _ => exact absurd rfl (hp _)

theorem Spells.items_append {js js' : List Json} {text more : List Char}
    (h : Spells (.items js) text) (hmore : Spells (.items js') more) :
    Spells (.items (js ++ js')) (text ++ ',' :: more) := by
  induction js generalizing text with
  | nil => cases h
  | cons first js ih =>
    cases h with
    | lastItem htext => exact .item htext hmore
    | item htext hrest =>
      rw [List.append_assoc]
      exact .item htext (ih hrest)

theorem Spells.members_append {ms ms' : List (List Nat × Json)} {text more : List Char}
    (h : Spells (.members ms) text) (hmore : Spells (.members ms') more) :
    Spells (.members (ms ++ ms')) (text ++ ',' :: more) := by
  induction ms generalizing text with
  | nil => cases h
  | cons first ms ih =>
    cases h with
    | lastMember htext => exact .moreMembers htext hmore
    | moreMembers htext hrest =>
      rw [List.append_assoc]
      exact .moreMembers htext (ih hrest)

/-- Items, latest first, each with a comma after it. -/
def ItemsBefore (before : List Json) (text : List Char) : Prop :=
  before = [] ∧ text = [] ∨ ∃ items, text = items ++ [','] ∧ Spells (.items before.reverse) items

/-- Members, latest first, each with a comma after it. -/
def MembersBefore (before : List (List Nat × Json)) (text : List Char) : Prop :=
  before = [] ∧ text = [] ∨ ∃ members, text = members ++ [','] ∧
    Spells (.members before.reverse) members

theorem ItemsBefore.append {before js : List Json} {text more : List Char}
    (h : ItemsBefore before text) (hjs : Spells (.items js) more) :
    Spells (.items (before.reverse ++ js)) (text ++ more) := by
  obtain ⟨rfl, rfl⟩ | ⟨items, rfl, hitems⟩ := h
  · exact hjs
  · rw [List.append_assoc]
    exact hitems.items_append hjs

theorem MembersBefore.append {before ms : List (List Nat × Json)} {text more : List Char}
    (h : MembersBefore before text) (hms : Spells (.members ms) more) :
    Spells (.members (before.reverse ++ ms)) (text ++ more) := by
  obtain ⟨rfl, rfl⟩ | ⟨members, rfl, hmembers⟩ := h
  · exact hms
  · rw [List.append_assoc]
    exact hmembers.members_append hms

theorem ItemsBefore.add {before : List Json} {j : Json} {text more : List Char}
    (h : ItemsBefore before text) (hj : Spells (.padded j) more) :
    Spells (.items (j :: before).reverse) (text ++ more) := by
  rw [List.reverse_cons]
  exact h.append (.lastItem hj)

theorem MembersBefore.add {before : List (List Nat × Json)} {name : List Nat} {j : Json}
    {text more : List Char} (h : MembersBefore before text) (hj : Spells (.member name j) more) :
    Spells (.members ((name, j) :: before).reverse) (text ++ more) := by
  rw [List.reverse_cons]
  exact h.append (.lastMember hj)

end ClusterClient.Json
