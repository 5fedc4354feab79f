import ClusterClient.Proofs.Json.Unfinished
/-!
# Members put into an object

A text around the value of a member or of an item, and a text between the braces of an object into
which more members are put, at any place between or beside those that it has.
-/

namespace ClusterClient.Json

/-! ## Lists put together -/

theorem Spells.append_spaces {p : Phrase} {text b : List Char} (h : Spells p text)
    (hp : ∀ j, p ≠ .value j) (hb : IsSpaces b) : Spells p (text ++ b) := by
  induction b generalizing text with
  | nil => rwa [List.append_nil]
  | cons c b ih =>
    rw [isSpaces_cons] at hb
    rw [← List.singleton_append, ← List.append_assoc]
    exact ih (h.snoc_space hp hb.1) hb.2

theorem Spells.spaces_append_member {name : List Nat} {j : Json} {a text : List Char}
    (ha : IsSpaces a) (h : Spells (.member name j) text) : Spells (.member name j) (a ++ text) := by
  cases h with
  | member hspaces hname hb htext =>
    rw [← List.append_assoc]
    exact .member (List.forall_mem_append.mpr ⟨ha, hspaces⟩) hname hb htext

theorem Spells.spaces_append_members {ms : List (List Nat × Json)} {a text : List Char}
    (ha : IsSpaces a) (h : Spells (.members ms) text) : Spells (.members ms) (a ++ text) := by
  cases h with
  | lastMember htext => exact .lastMember (htext.spaces_append_member ha)
  | moreMembers htext hrest =>
    rw [← List.append_assoc]
    exact .moreMembers (htext.spaces_append_member ha) hrest

theorem Spells.bare {j : Json} {text : List Char} (h : Spells (.value j) text) :
    Spells (.padded j) text := by
  have hpadded := Spells.padded isSpaces_nil h isSpaces_nil
  rwa [List.append_nil, List.nil_append] at hpadded

-- A member without white space, with nothing escaped in its name.
theorem Spells.plainMember {name text : List Char} {j : Json} (hname : IsPlain name)
    (h : Spells (.value j) text) :
    Spells (.member (name.map Char.toNat) j) ('"' :: (name ++ '"' :: ':' :: text)) :=
  .member isSpaces_nil (spellsUnits_of_plain hname) isSpaces_nil h.bare

/-- Members, each with a comma before it. -/
def MembersAfter (after : List (List Nat × Json)) (text : List Char) : Prop :=
  after = [] ∧ text = [] ∨ ∃ members, text = ',' :: members ∧ Spells (.members after) members

/-- Items, each with a comma before it. -/
def ItemsAfter (after : List Json) (text : List Char) : Prop :=
  after = [] ∧ text = [] ∨ ∃ items, text = ',' :: items ∧ Spells (.items after) items

theorem MembersAfter.append {after ms : List (List Nat × Json)} {text more : List Char}
    (h : MembersAfter after more) (hms : Spells (.members ms) text) :
    Spells (.members (ms ++ after)) (text ++ more) := by
  obtain ⟨rfl, rfl⟩ | ⟨members, rfl, hmembers⟩ := h
  · rwa [List.append_nil, List.append_nil]
  · exact hms.members_append hmembers

theorem ItemsAfter.append {after js : List Json} {text more : List Char}
    (h : ItemsAfter after more) (hjs : Spells (.items js) text) :
    Spells (.items (js ++ after)) (text ++ more) := by
  obtain ⟨rfl, rfl⟩ | ⟨items, rfl, hitems⟩ := h
  · rwa [List.append_nil, List.append_nil]
  · exact hjs.items_append hitems

/-! ## Around a value -/

/-- An object around the value of one of its members. -/
inductive InObject (before : List (List Nat × Json)) (name : List Nat)
    (after : List (List Nat × Json)) : (List Char → List Char) → Prop where
  | intro {first a nameText b c d last : List Char} (hbefore : MembersBefore before.reverse first)
      (ha : IsSpaces a) (hname : SpellsUnits name nameText) (hb : IsSpaces b) (hc : IsSpaces c)
      (hd : IsSpaces d) (hafter : MembersAfter after last) :
      InObject before name after fun text => '{' :: (first ++
        (a ++ '"' :: (nameText ++ '"' :: (b ++ ':' :: (c ++ (text ++ d)))) ++ last) ++ ['}'])

/-- An array around one of its items. -/
inductive InArray (before after : List Json) : (List Char → List Char) → Prop where
  | intro {first a b last : List Char} (hbefore : ItemsBefore before.reverse first)
      (ha : IsSpaces a) (hb : IsSpaces b) (hafter : ItemsAfter after last) :
      InArray before after fun text => '[' :: (first ++ (a ++ (text ++ b) ++ last) ++ [']'])

theorem InObject.spells {before after : List (List Nat × Json)} {name : List Nat} {j : Json}
    {around : List Char → List Char} {text : List Char} (h : InObject before name after around)
    (htext : Spells (.value j) text) :
    Spells (.value (.object (before ++ (name, j) :: after))) (around text) := by
  cases h with
  | intro hbefore ha hname hb hc hd hafter =>
    have hmember := Spells.member ha hname hb (.padded hc htext hd)
    have hmembers := hbefore.append (hafter.append (.lastMember hmember))
    rw [List.reverse_reverse, List.singleton_append] at hmembers
    exact .object hmembers

theorem InArray.spells {before after : List Json} {j : Json} {around : List Char → List Char}
    {text : List Char} (h : InArray before after around) (htext : Spells (.value j) text) :
    Spells (.value (.array (before ++ j :: after))) (around text) := by
  cases h with
  | intro hbefore ha hb hafter =>
    have hitems := hbefore.append (hafter.append (.lastItem (.padded ha htext hb)))
    rw [List.reverse_reverse, List.singleton_append] at hitems
    exact .array hitems

/-! ## More members -/

/-- More members in the text between the braces of an object: alone, before a member with a comma
behind them, or behind a member with a comma before them. -/
inductive Inserts (extra : List Char) : List Char → List Char → Prop where
  | only {a b : List Char} (ha : IsSpaces a) (hb : IsSpaces b) :
      Inserts extra (a ++ b) (a ++ (extra ++ b))
  | before {front after : List (List Nat × Json)} {first a last : List Char}
      (hfirst : MembersBefore front first) (ha : IsSpaces a)
      (hlast : Spells (.members after) last) :
      Inserts extra (first ++ (a ++ last)) (first ++ (a ++ (extra ++ ',' :: last)))
  | behind {before after : List (List Nat × Json)} {first a last : List Char}
      (hfirst : Spells (.members before) first) (ha : IsSpaces a)
      (hlast : MembersAfter after last) :
      Inserts extra (first ++ (a ++ last)) (first ++ (',' :: (extra ++ (a ++ last))))

theorem Inserts.spells {ms : List (List Nat × Json)} {extra body body' : List Char}
    (h : Inserts extra body body') (hextra : Spells (.members ms) extra) :
    ∃ before after, Spells (.value (.object (before ++ after))) ('{' :: (body ++ ['}'])) ∧
      Spells (.value (.object (before ++ (ms ++ after)))) ('{' :: (body' ++ ['}'])) := by
  cases h with
  | only ha hb =>
    refine ⟨[], [], .emptyObject (List.forall_mem_append.mpr ⟨ha, hb⟩), ?_⟩
    rw [List.append_nil]
    exact .object ((hextra.append_spaces nofun hb).spaces_append_members ha)
  | @before front after first a last hfirst ha hlast =>
    exact ⟨front.reverse, after, .object (hfirst.append (hlast.spaces_append_members ha)),
      .object (hfirst.append ((hextra.members_append hlast).spaces_append_members ha))⟩
  | @behind before after first a last hfirst ha hlast =>
    refine ⟨before, after, .object ?_, .object ?_⟩
    · rw [← List.append_assoc]
      exact hlast.append (hfirst.append_spaces nofun ha)
    · rw [← List.append_assoc extra]
      exact hfirst.members_append (hlast.append (hextra.append_spaces nofun ha))

end ClusterClient.Json
