import ClusterClient.Proofs.Json.Unfinished
/-!
# Texts that are refused

What the machine has taken so far spells what its state holds: each open container the items or
members before the value that it waits for, the innermost place the part of it that was read. So
the machine reads a text only where the grammar allows it, and with `read?_of_spells` the two agree.
-/

namespace ClusterClient.Json

/-! ## States -/

/-- A text behind which a value comes next in open containers, the innermost first. -/
inductive Opened : List Frame → List Char → Prop where
  | nil {a : List Char} (ha : IsSpaces a) : Opened [] a
  | item {stack : List Frame} {before : List Json} {text items a : List Char}
      (h : Opened stack text) (hitems : ItemsBefore before items) (ha : IsSpaces a) :
      Opened (.item before :: stack) (text ++ '[' :: (items ++ a))
  | member {stack : List Frame} {before : List (List Nat × Json)} {name : List Nat}
      {text members a nameText b c : List Char} (h : Opened stack text)
      (hmembers : MembersBefore before members) (ha : IsSpaces a)
      (hname : SpellsUnits name nameText) (hb : IsSpaces b) (hc : IsSpaces c) :
      Opened (.member before name :: stack)
        (text ++ '{' :: (members ++ (a ++ '"' :: (nameText ++ '"' :: (b ++ ':' :: c)))))

/-- The texts that may lead to a state. -/
inductive Reached : State → List Char → Prop where
  | value {stack : List Frame} {text : List Char} (h : Opened stack text) :
      Reached ⟨stack, .value⟩ text
  | firstItem {stack : List Frame} {text a : List Char} (h : Opened stack text) (ha : IsSpaces a) :
      Reached ⟨stack, .firstItem⟩ (text ++ '[' :: a)
  | afterItem {stack : List Frame} {items : List Json} {text itemsText : List Char}
      (h : Opened stack text) (hitems : Spells (.items items.reverse) itemsText) :
      Reached ⟨stack, .afterItem items⟩ (text ++ '[' :: itemsText)
  | firstName {stack : List Frame} {text a : List Char} (h : Opened stack text) (ha : IsSpaces a) :
      Reached ⟨stack, .firstName⟩ (text ++ '{' :: a)
  | nextName {stack : List Frame} {members : List (List Nat × Json)}
      {text membersText a : List Char} (h : Opened stack text)
      (hmembers : MembersBefore members membersText) (ha : IsSpaces a) :
      Reached ⟨stack, .nextName members⟩ (text ++ '{' :: (membersText ++ a))
  | name {stack : List Frame} {members : List (List Nat × Json)} {units : List Nat}
      {escape : Escape} {text membersText a nameText : List Char} (h : Opened stack text)
      (hmembers : MembersBefore members membersText) (ha : IsSpaces a)
      (hname : InString units escape nameText) :
      Reached ⟨stack, .name members units escape⟩
        (text ++ '{' :: (membersText ++ (a ++ '"' :: nameText)))
  | afterName {stack : List Frame} {members : List (List Nat × Json)} {name : List Nat}
      {text membersText a nameText b : List Char} (h : Opened stack text)
      (hmembers : MembersBefore members membersText) (ha : IsSpaces a)
      (hname : SpellsUnits name nameText) (hb : IsSpaces b) :
      Reached ⟨stack, .afterName members name⟩
        (text ++ '{' :: (membersText ++ (a ++ '"' :: (nameText ++ '"' :: b))))
  | afterMember {stack : List Frame} {members : List (List Nat × Json)}
      {text membersText : List Char} (h : Opened stack text)
      (hmembers : Spells (.members members.reverse) membersText) :
      Reached ⟨stack, .afterMember members⟩ (text ++ '{' :: membersText)
  | string {stack : List Frame} {units : List Nat} {escape : Escape} {text string : List Char}
      (h : Opened stack text) (hstring : InString units escape string) :
      Reached ⟨stack, .string units escape⟩ (text ++ '"' :: string)
  | number {stack : List Frame} {negative : Bool} {digits : List Char} {part : NumberPart}
      {text number : List Char} (h : Opened stack text)
      (hnumber : InNumber negative digits part number) :
      Reached ⟨stack, .number negative digits part⟩ (text ++ number)
  | literal {stack : List Frame} {j : Json} {text taken : List Char} {c : Char} {rest : List Char}
      (h : Opened stack text) (hliteral : Spells (.value j) (taken ++ c :: rest)) :
      Reached ⟨stack, .literal (c :: rest) j⟩ (text ++ taken)
  | done {j : Json} {text : List Char} (h : Spells (.padded j) text) : Reached ⟨[], .done j⟩ text

variable {stack : List Frame}

theorem Opened.snoc_space {text : List Char} {c : Char} (h : Opened stack text)
    (hc : isSpace c = true) : Opened stack (text ++ [c]) := by
  cases h with
  | nil ha => exact .nil (isSpaces_snoc ha hc)
  | item h hitems ha =>
    simp only [List.append_assoc, List.cons_append]
    exact .item h hitems (isSpaces_snoc ha hc)
  | member h hmembers ha hname hb hspaces =>
    simp only [List.append_assoc, List.cons_append]
    exact .member h hmembers ha hname hb (isSpaces_snoc hspaces hc)

-- A whole value takes its place in the innermost container.
theorem Opened.deliver {text more : List Char} {j : Json} (h : Opened stack text)
    (hj : Spells (.value j) more) : Reached (deliver j stack) (text ++ more) := by
  have hpadded : ∀ a, IsSpaces a → Spells (.padded j) (a ++ more) := fun a ha => by
    have hspells := Spells.padded ha hj isSpaces_nil
    rwa [List.append_nil] at hspells
  cases h with
  | nil ha => exact .done (hpadded _ ha)
  | item h hitems ha =>
    simp only [List.append_assoc, List.cons_append]
    exact .afterItem h (hitems.add (hpadded _ ha))
  | member h hmembers ha hname hb hc =>
    simp only [List.append_assoc, List.cons_append]
    exact .afterMember h (hmembers.add (.member ha hname hb (hpadded _ hc)))

/-- The machine stands after a value. -/
def Mode.AfterValue : Mode → Prop
  | .afterItem _ | .afterMember _ | .done _ => True
  | _ => False

theorem deliver_mode_afterValue (j : Json) (stack : List Frame) :
    (deliver j stack).mode.AfterValue := by
  cases stack with
  | nil => trivial
  | cons frame stack => cases frame <;> trivial

theorem Reached.stepAfter {s s' : State} {text : List Char} {c : Char} (h : Reached s text)
    (hafter : s.mode.AfterValue) (hs : stepAfter s.stack s.mode c = some s') :
    Reached s' (text ++ [c]) := by
  unfold Json.stepAfter at hs
  split at hs
  · rename_i hc
    cases hs
    cases h with
    | afterItem h hitems =>
      rw [List.append_assoc, List.cons_append]
      exact .afterItem h (hitems.snoc_space nofun hc)
    | afterMember h hmembers =>
      rw [List.append_assoc, List.cons_append]
      exact .afterMember h (hmembers.snoc_space nofun hc)
    | done h => exact .done (h.snoc_space nofun hc)
    | _ => exact hafter.elim
  cases h with
  | @afterItem stack items text itemsText h hitems =>
    rw [List.append_assoc, List.cons_append]
    dsimp only at hs
    split at hs
    · rename_i hcomma
      cases hs
      subst hcomma
      have hopened := h.item (a := []) (.inr ⟨_, rfl, hitems⟩) isSpaces_nil
      rw [List.append_nil] at hopened
      exact .value hopened
    split at hs
    · rename_i hclose
      cases hs
      subst hclose
      exact h.deliver (.array hitems)
    · cases hs
  | @afterMember stack members text membersText h hmembers =>
    rw [List.append_assoc, List.cons_append]
    dsimp only at hs
    split at hs
    · rename_i hcomma
      cases hs
      subst hcomma
      have hnext := Reached.nextName (a := []) h (.inr ⟨_, rfl, hmembers⟩) isSpaces_nil
      rw [List.append_nil] at hnext
      exact hnext
    split at hs
    · rename_i hclose
      cases hs
      subst hclose
      exact h.deliver (.object hmembers)
    · cases hs
  | done h => cases hs
  | _ => exact hafter.elim

-- The first character of a value.
theorem Opened.beginValue {s : State} {text : List Char} {c : Char} (h : Opened stack text)
    (hs : beginValue stack c = some s) : Reached s (text ++ [c]) := by
  unfold Json.beginValue at hs
  split at hs
  · rename_i hc
    cases hs
    subst hc
    exact .firstName h isSpaces_nil
  split at hs
  · rename_i hc
    cases hs
    subst hc
    exact .firstItem h isSpaces_nil
  split at hs
  · rename_i hc
    cases hs
    subst hc
    exact .string h (.plain .nil)
  split at hs
  · rename_i hc
    cases hs
    subst hc
    exact .number h .sign
  split at hs
  · rename_i hc
    cases hs
    subst hc
    exact .literal h .null
  split at hs
  · rename_i hc
    cases hs
    subst hc
    exact .literal h .yes
  split at hs
  · rename_i hc
    cases hs
    subst hc
    exact .literal h .no
  · obtain ⟨m, hm, rfl⟩ := Option.map_eq_some_iff.mp hs
    obtain ⟨digits, part, rfl, hnumber⟩ := InNumber.sign.step hm
    exact .number h hnumber

theorem Reached.step {s s' : State} {text : List Char} {c : Char} (h : Reached s text)
    (hs : step s c = some s') : Reached s' (text ++ [c]) := by
  cases h with
  | value h =>
    dsimp only [Json.step] at hs
    split at hs
    · rename_i hc
      cases hs
      exact .value (h.snoc_space hc)
    · exact h.beginValue hs
  | firstItem h ha =>
    dsimp only [Json.step] at hs
    split at hs
    · rename_i hc
      cases hs
      rw [List.append_assoc, List.cons_append]
      exact .firstItem h (isSpaces_snoc ha hc)
    split at hs
    · rename_i hclose
      cases hs
      subst hclose
      rw [List.append_assoc, List.cons_append]
      exact h.deliver (.emptyArray ha)
    · exact (h.item (.inl ⟨rfl, rfl⟩) ha).beginValue hs
  | afterItem h hitems => exact (Reached.afterItem h hitems).stepAfter trivial hs
  | firstName h ha =>
    dsimp only [Json.step] at hs
    rw [List.append_assoc, List.cons_append]
    split at hs
    · rename_i hc
      cases hs
      exact .firstName h (isSpaces_snoc ha hc)
    split at hs
    · rename_i hclose
      cases hs
      subst hclose
      exact h.deliver (.emptyObject ha)
    split at hs
    · rename_i hquote
      cases hs
      subst hquote
      exact .name h (.inl ⟨rfl, rfl⟩) ha (.plain .nil)
    · cases hs
  | nextName h hmembers ha =>
    dsimp only [Json.step] at hs
    simp only [List.append_assoc, List.cons_append]
    split at hs
    · rename_i hc
      cases hs
      exact .nextName h hmembers (isSpaces_snoc ha hc)
    split at hs
    · rename_i hquote
      cases hs
      subst hquote
      exact .name h hmembers ha (.plain .nil)
    · cases hs
  | name h hmembers ha hname =>
    obtain ⟨r, hr, rfl⟩ := Option.map_eq_some_iff.mp hs
    have hnext := hname.step hr
    simp only [List.append_assoc, List.cons_append]
    cases r with
    | closed =>
      obtain ⟨rfl, hunits⟩ := hnext
      exact .afterName h hmembers ha hunits isSpaces_nil
    | more units escape => exact .name h hmembers ha hnext
  | afterName h hmembers ha hname hb =>
    dsimp only [Json.step] at hs
    simp only [List.append_assoc, List.cons_append]
    split at hs
    · rename_i hc
      cases hs
      exact .afterName h hmembers ha hname (isSpaces_snoc hb hc)
    split at hs
    · rename_i hcolon
      cases hs
      subst hcolon
      exact .value (.member h hmembers ha hname hb isSpaces_nil)
    · cases hs
  | afterMember h hmembers => exact (Reached.afterMember h hmembers).stepAfter trivial hs
  | string h hstring =>
    obtain ⟨r, hr, rfl⟩ := Option.map_eq_some_iff.mp hs
    have hnext := hstring.step hr
    rw [List.append_assoc, List.cons_append]
    cases r with
    | closed =>
      obtain ⟨rfl, hunits⟩ := hnext
      exact h.deliver (.string hunits)
    | more units escape => exact .string h hnext
  | number h hnumber =>
    dsimp only [Json.step] at hs
    split at hs
    · rename_i m hm
      cases hs
      obtain ⟨digits, part, rfl, hnext⟩ := hnumber.step hm
      rw [List.append_assoc]
      exact .number h hnext
    · obtain ⟨j, hj, hafter⟩ := Option.bind_eq_some_iff.mp hs
      exact (h.deliver (hnumber.spells hj)).stepAfter (deliver_mode_afterValue j _) hafter
  | @literal stack j text taken expected rest h hliteral =>
    dsimp only [Json.step] at hs
    split at hs
    · rename_i hc
      subst hc
      rw [List.append_assoc]
      cases rest with
      | nil =>
        cases hs
        exact h.deliver hliteral
      | cons next rest =>
        cases hs
        refine .literal h ?_
        rw [List.append_assoc]
        exact hliteral
    · cases hs
  | done h => exact (Reached.done h).stepAfter trivial hs

theorem Reached.run {s s' : State} {text more : List Char} (h : Reached s text)
    (hs : run s more = some s') : Reached s' (text ++ more) := by
  induction more generalizing s text with
  | nil =>
    cases hs
    rwa [List.append_nil]
  | cons c more ih =>
    obtain ⟨next, hnext, hrest⟩ := Option.bind_eq_some_iff.mp hs
    have hreached := ih (h.step hnext) hrest
    rwa [List.append_assoc] at hreached

theorem Reached.spells {s : State} {text : List Char} {j : Json} (h : Reached s text)
    (hs : Settled j [] s) : Spells (.padded j) text := by
  obtain rfl | ⟨negative, digits, part, rfl, hj⟩ := hs
  · cases h with
    | done h => exact h
  · cases h with
    | number h hnumber =>
      cases h with
      | nil ha =>
        have hspells := Spells.padded ha (hnumber.spells hj) isSpaces_nil
        rwa [List.append_nil] at hspells

/-- A text is read just where the grammar allows it, as the value that it spells. -/
theorem read?_eq_some_iff (text : List Char) (j : Json) :
    read? text = some j ↔ Spells (.padded j) text := by
  refine ⟨fun h => ?_, read?_of_spells⟩
  obtain ⟨s, hs, hj⟩ := Option.bind_eq_some_iff.mp h
  have hstart : Reached start [] := .value (.nil isSpaces_nil)
  exact (hstart.run hs).spells (finish?_eq_some_iff.mp hj)

end ClusterClient.Json
