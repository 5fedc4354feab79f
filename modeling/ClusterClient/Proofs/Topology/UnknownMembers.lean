import ClusterClient.Proofs.Json.Inserted
import ClusterClient.Proofs.Topology.Texts
import ClusterClient.Proofs.Topology.Written
import Mathlib.Logic.Relation
/-!
# Members of unknown names

An object that is read as a part of a descriptor may have members of other names than those of its
fields. They are passed over whole, whatever they hold and wherever in the object they stand.
-/

namespace ClusterClient

open Json

/-! ## Objects with members of unknown names -/

namespace Json

/-- Members whose names are texts, but none of the names. A name with a surrogate that has no partner
is no text. -/
def Unknown (names : List String) (ms : List (List Nat × Json)) : Prop :=
  ∀ m ∈ ms, ∃ name : String, CharsOf m.1 name.toList ∧ name ∉ names

theorem namedMembers?_append (ms ms' : List (List Nat × Json)) :
    namedMembers? (ms ++ ms') =
      (namedMembers? ms).bind fun named => (namedMembers? ms').map (named ++ ·) := by
  unfold namedMembers?
  rw [List.mapM_append (m := Option)]
  cases ms.mapM (m := Option) _ with
  | none => rfl
  | some named => cases ms'.mapM (m := Option) _ <;> rfl

theorem valuesOf_append (name : String) (named named' : List (String × Json)) :
    valuesOf name (named ++ named') = valuesOf name named ++ valuesOf name named' := by
  unfold valuesOf
  rw [List.filter_append, List.map_append]

theorem Unknown.named {names : List String} {ms : List (List Nat × Json)} (h : Unknown names ms) :
    ∃ named, Named ms named ∧ ∀ name ∈ names, valuesOf name named = [] := by
  induction ms with
  | nil => exact ⟨[], .nil, fun _ _ => rfl⟩
  | cons m ms ih =>
    obtain ⟨⟨first, hfirst, hunknown⟩, hrest⟩ := List.forall_mem_cons.mp h
    obtain ⟨named, hnamed, hvalues⟩ := ih hrest
    refine ⟨(first, m.2) :: named, .cons ⟨hfirst, rfl⟩ hnamed, fun name hname => ?_⟩
    have hne : first ≠ name := fun heq => hunknown (heq ▸ hname)
    rw [valuesOf_cons, if_neg hne, hvalues name hname]

theorem mapM_field?_congr {names : List String} {named named' : List (String × Json)}
    (h : ∀ name ∈ names, valuesOf name named = valuesOf name named') :
    names.mapM (field? named) = names.mapM (field? named') := by
  induction names with
  | nil => rfl
  | cons name names ih =>
    obtain ⟨hname, hnames⟩ := List.forall_mem_cons.mp h
    have hfield : field? named name = field? named' name := by unfold field?; rw [hname]
    rw [List.mapM_cons, List.mapM_cons, hfield, ih hnames]

-- The fields are read as if the members of unknown names were not there.
theorem Unknown.record?_eq {names : List String} {ms : List (List Nat × Json)}
    (h : Unknown names ms) (before after : List (List Nat × Json)) :
    record? names (.object (before ++ (ms ++ after))) =
      record? names (.object (before ++ after)) := by
  obtain ⟨extra, hnamed, hvalues⟩ := h.named
  have hextra : namedMembers? ms = some extra := (recognizes_named ms extra).mpr hnamed
  have hfields : ∀ first last : List (String × Json),
      names.mapM (field? (first ++ (extra ++ last))) = names.mapM (field? (first ++ last)) := by
    refine fun first last => mapM_field?_congr fun name hname => ?_
    rw [valuesOf_append, valuesOf_append, valuesOf_append, hvalues name hname, List.nil_append]
  simp only [record?, namedMembers?_append, hextra]
  cases namedMembers? before with
  | none => rfl
  | some first =>
    cases namedMembers? after with
    | none => rfl
    | some last =>
      change (names.mapM (field? (first ++ (extra ++ last)))).bind _ = _
      rw [hfields first last]
      rfl

end Json

/-! ## Parts of a descriptor -/

namespace Descriptor

/-- What the parts of a descriptor are read as. -/
inductive Part where
  | descriptor
  -- A list of nodes.
  | nodes
  | node
  | ports
  | serverMap

namespace Part

/-- The names of the fields of a part that is a record. -/
def names : Part → List String
  | descriptor => ["name", "rev", "nodeLocator", "nodes", "vBucketServerMap"]
  | nodes => []
  | node => ["hostname", "ports"]
  | ports => ["direct"]
  | serverMap => ["hashAlgorithm", "numReplicas", "serverList", "vBucketMap"]

/-- What the value of a field is read as, if there are records in it. -/
def inner? : Part → String → Option Part
  | descriptor, "nodes" => some nodes
  | descriptor, "vBucketServerMap" => some serverMap
  | node, "ports" => some ports
  | _, _ => none

/-- Two values are read alike, or neither is read. -/
def ReadAlike : Part → Json → Json → Prop
  | descriptor, j, j' => Descriptor.ofJson? j' = Descriptor.ofJson? j
  | nodes, j, j' => list? NodeEntry.ofJson? j' = list? NodeEntry.ofJson? j
  | node, j, j' => NodeEntry.ofJson? j' = NodeEntry.ofJson? j
  | ports, j, j' => NodeEntry.readPorts? j' = NodeEntry.readPorts? j
  | serverMap, j, j' => nullable? ServerMap.ofJson? j' = nullable? ServerMap.ofJson? j

-- An object is read by its fields only.
theorem readAlike_of_record? (part : Part) {ms ms' : List (List Nat × Json)}
    (h : record? part.names (.object ms') = record? part.names (.object ms)) :
    part.ReadAlike (.object ms) (.object ms') := by
  cases part with
  | descriptor => exact congrArg (Option.bind · _) h
  | nodes => rfl
  | node => exact congrArg (Option.bind · _) h
  | ports => exact congrArg (Option.bind · _) h
  | serverMap =>
    have hmap : ServerMap.ofJson? (.object ms') = ServerMap.ofJson? (.object ms) :=
      congrArg (Option.bind · _) h
    exact congrArg (Option.map some) hmap

/-- Two values of a field are the same, or a part that is read alike. -/
def FieldAlike (outer : Part) (name : String) (j j' : Json) : Prop :=
  j' = j ∨ ∃ inner, outer.inner? name = some inner ∧ inner.ReadAlike j j'

theorem carries_same {outer : Part} {name : String} (h : outer.inner? name = none) {α : Type}
    (read : Json → Option α) : Carries (outer.FieldAlike name) id read := by
  rintro j j' (rfl | ⟨inner, hinner, -⟩)
  · rw [Option.map_id, id]
  · cases h.symm.trans hinner

theorem carries_part {outer : Part} {name : String} (inner : Part)
    (h : outer.inner? name = some inner) {α : Type} {read : Json → Option α}
    (hread : ∀ j j', inner.ReadAlike j j' → read j' = read j) :
    Carries (outer.FieldAlike name) id read := by
  rintro j j' (rfl | ⟨part, hpart, hj⟩)
  · rw [Option.map_id, id]
  · cases h.symm.trans hpart
    rw [Option.map_id, id, hread j j' hj]

-- Records whose fields are read alike are read alike.
theorem readAlike_of_recordsRel {outer inner : Part} {name : String} {j j' : Json}
    (hinner : outer.inner? name = some inner) (h : RecordsRel outer.FieldAlike outer.names j j') :
    outer.ReadAlike j j' := by
  cases outer with
  | descriptor =>
    have hnodes : Carries (descriptor.FieldAlike "nodes") (List.map (NodeEntry.mapTexts id))
        (list? NodeEntry.ofJson?) := by
      rw [NodeEntry.mapTexts_id, List.map_id_fun]
      exact carries_part nodes rfl fun _ _ hj => hj
    have hmap : Carries (descriptor.FieldAlike "vBucketServerMap")
        (Option.map (ServerMap.mapTexts id)) (nullable? ServerMap.ofJson?) := by
      rw [ServerMap.mapTexts_id, Option.map_id]
      exact carries_part serverMap rfl fun _ _ hj => hj
    have hread := Descriptor.ofJson?_carried h rfl (carries_same rfl _) (carries_same rfl _)
      (by rw [Option.map_id]; exact carries_same rfl _) hnodes hmap
    rwa [Descriptor.mapTexts_id, Option.map_id, id] at hread
  | node =>
    have hread := NodeEntry.ofJson?_carried h (carries_same rfl _)
      (carries_part ports rfl fun _ _ hj => hj)
    rwa [NodeEntry.mapTexts_id, Option.map_id, id] at hread
  | nodes => cases hinner
  | ports => cases hinner
  | serverMap => cases hinner

theorem readAlike_member {outer inner : Part} {field : String} {name : List Nat} {j j' : Json}
    (hinner : outer.inner? field = some inner) (hname : CharsOf name field.toList)
    (h : inner.ReadAlike j j') (before after : List (List Nat × Json)) :
    outer.ReadAlike (.object (before ++ (name, j) :: after))
      (.object (before ++ (name, j') :: after)) := by
  refine readAlike_of_recordsRel hinner (recordsRel_object ?_)
  have hsame : ∀ ms : List (List Nat × Json), MembersRel outer.FieldAlike ms ms :=
    fun ms => List.forall₂_same.mpr fun _ _ => ⟨rfl, fun _ _ => .inl rfl⟩
  refine List.rel_append (hsame before) (.cons ⟨rfl, fun other hother => .inr ?_⟩ (hsame after))
  rw [← unitsText?_eq_some_iff] at hname hother
  cases hname.symm.trans hother
  exact ⟨inner, hinner, h⟩

theorem readAlike_field {outer inner : Part} {field : String} {before after : List Json}
    {j j' : Json} (hfield : outer.names[before.length]? = some field)
    (hinner : outer.inner? field = some inner) (h : inner.ReadAlike j j') :
    outer.ReadAlike (.array (before ++ j :: after)) (.array (before ++ j' :: after)) := by
  have hset : before ++ j' :: after = (before ++ j :: after).set before.length j' := by
    rw [List.set_append_right _ _ (Nat.le_refl _), Nat.sub_self, List.set_cons_zero]
  rw [hset]
  refine readAlike_of_recordsRel hinner (recordsRel_array ⟨List.length_set.symm, ?_⟩)
  intro i name k k' hname hk hk'
  by_cases hi : before.length = i
  · subst hi
    rw [List.getElem?_append_right (Nat.le_refl _), Nat.sub_self, List.getElem?_cons_zero] at hk
    rw [List.getElem?_set_self (by simp)] at hk'
    cases hfield.symm.trans hname
    cases hk
    cases hk'
    exact .inr ⟨inner, hinner, h⟩
  · rw [List.getElem?_set_ne hi, hk] at hk'
    cases hk'
    exact .inl rfl

theorem readAlike_item {before after : List Json} {j j' : Json} (h : node.ReadAlike j j') :
    nodes.ReadAlike (.array (before ++ j :: after)) (.array (before ++ j' :: after)) := by
  change (before ++ j' :: after).mapM _ = (before ++ j :: after).mapM _
  rw [List.mapM_append, List.mapM_append, List.mapM_cons, List.mapM_cons, h]

end Part

/-! ## Texts -/

/-- A text around a part of a descriptor. -/
inductive Around : Part → (List Char → List Char) → Prop where
  | whole {a b : List Char} (ha : IsSpaces a) (hb : IsSpaces b) :
      Around .descriptor fun text => a ++ (text ++ b)
  -- The value of a field in an object.
  | member {outer inner : Part} {around inObject : List Char → List Char} {field : String}
      {name : List Nat} {before after : List (List Nat × Json)} (h : Around outer around)
      (hinner : outer.inner? field = some inner) (hname : CharsOf name field.toList)
      (hobject : InObject before name after inObject) :
      Around inner fun text => around (inObject text)
  -- The value of a field in an array of the fields in order.
  | field {outer inner : Part} {around inArray : List Char → List Char} {field : String}
      {before after : List Json} (h : Around outer around)
      (hfield : outer.names[before.length]? = some field)
      (hinner : outer.inner? field = some inner) (harray : InArray before after inArray) :
      Around inner fun text => around (inArray text)
  | item {around inArray : List Char → List Char} {before after : List Json}
      (h : Around .nodes around) (harray : InArray before after inArray) :
      Around .node fun text => around (inArray text)

theorem Around.readAlike {part : Part} {around : List Char → List Char} (h : Around part around)
    {j j' : Json} {text text' : List Char} (htext : Spells (.value j) text)
    (htext' : Spells (.value j') text') (hread : part.ReadAlike j j') :
    ∃ k k', Spells (.padded k) (around text) ∧ Spells (.padded k') (around text') ∧
      ofJson? k' = ofJson? k := by
  induction h generalizing j j' text text' with
  | whole ha hb => exact ⟨j, j', .padded ha htext hb, .padded ha htext' hb, hread⟩
  | member h hinner hname hobject ih =>
    exact ih (hobject.spells htext) (hobject.spells htext')
      (Part.readAlike_member hinner hname hread _ _)
  | field h hfield hinner harray ih =>
    exact ih (harray.spells htext) (harray.spells htext')
      (Part.readAlike_field hfield hinner hread)
  | item h harray ih =>
    exact ih (harray.spells htext) (harray.spells htext') (Part.readAlike_item hread)

/-- A text of a descriptor, and that text with more members in one of the objects that are read as
parts of the descriptor: members of whatever values, with names that are none of its fields. -/
inductive Widened : List Char → List Char → Prop where
  | intro {part : Part} {around : List Char → List Char} {ms : List (List Nat × Json)}
      {extra body body' : List Char} (haround : Around part around)
      (hunknown : Unknown part.names ms) (hextra : Spells (.members ms) extra)
      (hinserts : Inserts extra body body') :
      Widened (around ('{' :: (body ++ ['}']))) (around ('{' :: (body' ++ ['}'])))

theorem Widened.read?_eq {text text' : List Char} (h : Widened text text') :
    (Json.read? text').bind ofJson? = (Json.read? text).bind ofJson? := by
  obtain ⟨haround, hunknown, hextra, hinserts⟩ := h
  obtain ⟨before, after, hbody, hbody'⟩ := hinserts.spells hextra
  obtain ⟨k, k', hk, hk', hread⟩ :=
    haround.readAlike hbody hbody' (Part.readAlike_of_record? _ (hunknown.record?_eq before after))
  rw [read?_of_spells hk, read?_of_spells hk', Option.bind_some, Option.bind_some, hread]

theorem read?_eq_of_widened {text text' : List Char}
    (h : Relation.ReflTransGen Widened text text') :
    (Json.read? text').bind ofJson? = (Json.read? text).bind ofJson? := by
  induction h with
  | refl => rfl
  | tail _ hlast ih => rw [hlast.read?_eq, ih]

end Descriptor

namespace Table

/-- Members of unknown names, of any number and with any values, put into the objects of a
descriptor one after another wherever a member may stand, change neither the table nor the
defect. -/
theorem parse_of_widened {text text' : String}
    (h : Relation.ReflTransGen Descriptor.Widened text.toList text'.toList) (maxReplicas : Nat) :
    parse text' maxReplicas = parse text maxReplicas := by
  have hread : Descriptor.read? text' = Descriptor.read? text := Descriptor.read?_eq_of_widened h
  rw [parse, parse, hread]

-- A member with brackets in a string and the name of a field inside is put before the nodes, and
-- another one behind the host name of a node.
theorem parse_of_widened_twice :
    let text := "\x7b\"nodes\":[\x7b\"hostname\":\"a\"\x7d]\x7d"
    let text' := "\x7b\"x\":[\"]\x7d\",\x7b\"nodes\":-1e99\x7d],\"nodes\":" ++
      "[\x7b\"hostname\":\"a\",\"couchApi\":null\x7d]\x7d"
    Relation.ReflTransGen Descriptor.Widened text.toList text'.toList ∧
      parse text' 3 = parse text 3 := by
  intro text text'
  have hplain : ∀ text : List Char, IsPlain text →
      Spells (.value (.string (text.map Char.toNat))) ('"' :: (text ++ ['"'])) :=
    fun _ h => .string (spellsUnits_of_plain h)
  obtain ⟨host, hhost⟩ : ∃ host, Spells (.members [("hostname".toList.map Char.toNat, host)])
      "\"hostname\":\"a\"".toList :=
    ⟨_, .lastMember (.plainMember (by decide) (hplain ['a'] (by decide)))⟩
  obtain ⟨nodes, hnodes⟩ : ∃ nodes, Spells (.members [("nodes".toList.map Char.toNat, nodes)])
      "\"nodes\":[\x7b\"hostname\":\"a\"\x7d]".toList :=
    ⟨_, .lastMember (.plainMember (by decide) (.array (.lastItem (.bare (.object hhost)))))⟩
  have hcouch : Spells (.members [("couchApi".toList.map Char.toNat, .null)])
      "\"couchApi\":null".toList := .lastMember (.plainMember (by decide) .null)
  have hnumber : Spells (.value (.number true ['1'] false)) "-1e99".toList :=
    @Spells.number true ['1'] [] ['e', '9', '9'] (.inr ⟨'1', [], rfl, by decide, rfl, nofun⟩)
      (.inl rfl) (.inr ⟨'e', [], ['9', '9'], rfl, .inl rfl, .inl rfl, nofun, by decide⟩)
  have hobject : Spells (.value (.object [("nodes".toList.map Char.toNat,
      .number true ['1'] false)])) "\x7b\"nodes\":-1e99\x7d".toList :=
    .object (.lastMember (.plainMember (by decide) hnumber))
  obtain ⟨list, hx⟩ : ∃ list, Spells (.members [("x".toList.map Char.toNat, list)])
      "\"x\":[\"]\x7d\",\x7b\"nodes\":-1e99\x7d]".toList :=
    ⟨_, .lastMember (.plainMember (by decide) (.array (.item (.bare (hplain [']', '}'] (by decide)))
      (.lastItem (.bare hobject)))))⟩
  have hwhole : Descriptor.Around .descriptor fun text => [] ++ (text ++ []) :=
    .whole isSpaces_nil isSpaces_nil
  have hfirst := Descriptor.Widened.intro hwhole
    (List.forall_mem_singleton.mpr ⟨"x", charsOf_map_toNat _, by decide⟩) hx
    (.before (.inl ⟨rfl, rfl⟩) isSpaces_nil hnodes)
  have hfield : InObject [("x".toList.map Char.toNat, list)] ("nodes".toList.map Char.toNat) [] _ :=
    .intro (.inr ⟨_, rfl, hx⟩) isSpaces_nil (spellsUnits_of_plain (by decide)) isSpaces_nil
      isSpaces_nil isSpaces_nil (.inl ⟨rfl, rfl⟩)
  have hitem : InArray [] [] _ :=
    .intro (.inl ⟨rfl, rfl⟩) isSpaces_nil isSpaces_nil (.inl ⟨rfl, rfl⟩)
  have hlist : Descriptor.Around .nodes _ :=
    hwhole.member rfl (charsOf_map_toNat "nodes".toList) hfield
  have hsecond := Descriptor.Widened.intro (hlist.item hitem)
    (List.forall_mem_singleton.mpr ⟨"couchApi", charsOf_map_toNat _, by decide⟩) hcouch
    (.behind hhost isSpaces_nil (.inl ⟨rfl, rfl⟩))
  have hwidened : Relation.ReflTransGen Descriptor.Widened
      "\x7b\"nodes\":[\x7b\"hostname\":\"a\"\x7d]\x7d".toList text'.toList := by
    rw [String.toList_append]
    exact (Relation.ReflTransGen.single hfirst).tail hsecond
  exact ⟨hwidened, parse_of_widened hwidened 3⟩

end Table

end ClusterClient
