import ClusterClient.Proofs.Json.Exact
import ClusterClient.Proofs.Provider.Attempts
import ClusterClient.Proofs.Topology.Texts
/-!
# Descriptors with their host filled in

The mark `$HOST` is replaced in the text of a descriptor before that is read. In a text without
backslashes this is the same as reading it and replacing the mark in each of its strings: the mark
has no character that divides the parts of a text.
-/

namespace ClusterClient

open Json

/-! ## Texts filled in piece by piece -/

/-- A text with a host for every mark. -/
def filled (host text : List Char) : List Char := expandHostAfter host [] text

theorem toList_expandHost (host text : String) :
    (expandHost host text).toList = filled host.toList text.toList := String.toList_ofList

section Filled

variable {host text more : List Char} {c : Char}

theorem expandHostAfter_eq (host done text : List Char) :
    expandHostAfter host done text = done.reverse ++ filled host text := by
  obtain ⟨first, rest, hparts, rfl⟩ := exists_parts text
  rw [filled, expandHostAfter_intercalate hparts, expandHostAfter_intercalate hparts]
  rfl

theorem filled_of_not_infix (h : ¬ hostMark <:+: text) : filled host text = text :=
  expandHostAfter_of_not_infix h

theorem filled_of_not_mem (h : '$' ∉ text) : filled host text = text :=
  filled_of_not_infix fun hmark => h (hmark.subset List.mem_cons_self)

theorem filled_append (h : ∀ first ∈ more.head?, first ∉ ['H', 'O', 'S', 'T']) :
    filled host (text ++ more) = filled host text ++ filled host more := by
  rw [filled, expandHostAfter_append h, expandHostAfter_eq, List.reverse_reverse]
  rfl

theorem filled_cons (hc : c ≠ '$') : filled host (c :: text) = c :: filled host text := by
  have hmark : ¬ hostMark <+: c :: text := by
    rintro ⟨after, hafter⟩
    exact hc (List.cons.inj hafter).1.symm
  rw [filled, expandHostAfter_of_not_mark hmark, expandHostAfter_eq]
  rfl

-- A character that is not in the mark divides what is filled in.
theorem filled_append_cons (hc : c ∉ hostMark) :
    filled host (text ++ c :: more) = filled host text ++ c :: filled host more := by
  obtain ⟨hdollar, hrest⟩ : c ≠ '$' ∧ c ∉ ['H', 'O', 'S', 'T'] :=
    not_or.mp (mt List.mem_cons.mpr hc)
  rw [filled_append (by rintro first ⟨⟩; exact hrest), filled_cons hdollar]

theorem filled_enclosed {before behind : Char} (hbefore : before ≠ '$')
    (hbehind : behind ∉ hostMark) :
    filled host (before :: (text ++ [behind])) = before :: (filled host text ++ [behind]) := by
  rw [filled_cons hbefore, filled_append_cons hbehind]
  rfl

theorem not_mem_spaces (h : IsSpaces text) : '$' ∉ text := by
  intro hmem
  cases h '$' hmem

theorem filled_spaces_append (h : IsSpaces text) :
    filled host (text ++ more) = text ++ filled host more := by
  induction text with
  | nil => rfl
  | cons c text ih =>
    have hc : c ≠ '$' := fun heq => not_mem_spaces h (heq ▸ List.mem_cons_self)
    rw [List.cons_append, filled_cons hc, ih (isSpaces_cons.mp h).2, List.cons_append]

theorem filled_append_spaces (h : IsSpaces more) :
    filled host (text ++ more) = filled host text ++ more := by
  cases more with
  | nil => rw [List.append_nil, List.append_nil]
  | cons c more =>
    obtain ⟨hc, hmore⟩ := isSpaces_cons.mp h
    have hspace : hostMark.all (fun c => !isSpace c) = true := by decide
    have hmark : c ∉ hostMark := by
      intro hmem
      have hnot := List.all_eq_true.mp hspace c hmem
      rw [hc] at hnot
      cases hnot
    rw [filled_append_cons hmark, filled_of_not_mem (not_mem_spaces hmore)]

theorem mem_expandHostAfter {done : List Char} (h : c ∈ expandHostAfter host done text) :
    c ∈ done ∨ c ∈ text ∨ c ∈ host := by
  fun_induction expandHostAfter host done text with
  | case1 done text ih =>
    rw [List.mem_append, List.mem_reverse] at ih
    obtain (hhost | hdone) | htext | hhost := ih h
    · exact .inr (.inr hhost)
    · exact .inl hdone
    · exact .inr (.inl (List.mem_append_right hostMark htext))
    · exact .inr (.inr hhost)
  | case2 done first text hmark ih =>
    rw [List.mem_cons] at ih ⊢
    obtain (rfl | hdone) | htext | hhost := ih h
    · exact .inr (.inl (.inl rfl))
    · exact .inl hdone
    · exact .inr (.inl (.inr htext))
    · exact .inr (.inr hhost)
  | case3 done => exact .inl (List.mem_reverse.mp h)

theorem mem_filled (h : c ∈ filled host text) : c ∈ text ∨ c ∈ host :=
  (mem_expandHostAfter h).resolve_left List.not_mem_nil

end Filled

/-! ## Values filled in -/

namespace Json

/-- Every name of a member, at any depth, is one of which something holds. -/
inductive AllNames (P : List Nat → Prop) : Json → Prop where
  | null : AllNames P .null
  | bool (value : Bool) : AllNames P (.bool value)
  | number (negative : Bool) (digits : List Char) (whole : Bool) :
      AllNames P (.number negative digits whole)
  | string (units : List Nat) : AllNames P (.string units)
  | array {items : List Json} (hitems : ∀ j ∈ items, AllNames P j) : AllNames P (.array items)
  | object {members : List (List Nat × Json)} (hnames : ∀ m ∈ members, P m.1)
      (hvalues : ∀ m ∈ members, AllNames P m.2) : AllNames P (.object members)

/-- The same value with a host for every mark in its strings, at any depth; names and numbers are as
they were. -/
inductive Filled (host : String) : Json → Json → Prop where
  | null : Filled host .null .null
  | bool (value : Bool) : Filled host (.bool value) (.bool value)
  | number (negative : Bool) (digits : List Char) (whole : Bool) :
      Filled host (.number negative digits whole) (.number negative digits whole)
  | string (text : String) : Filled host (.string (text.toList.map Char.toNat))
      (.string ((expandHost host text).toList.map Char.toNat))
  | array {items items' : List Json} (hitems : List.Forall₂ (Filled host) items items') :
      Filled host (.array items) (.array items')
  | object {members members' : List (List Nat × Json)}
      (hnames : members.map Prod.fst = members'.map Prod.fst)
      (hvalues : List.Forall₂ (fun m m' => Filled host m.2 m'.2) members members') :
      Filled host (.object members) (.object members')

/-- Every name in a part of a text is one of which something holds. -/
def Phrase.AllNames (P : List Nat → Prop) : Phrase → Prop
  | .value j | .padded j => Json.AllNames P j
  | .items js => ∀ j ∈ js, Json.AllNames P j
  | .member name j => P name ∧ Json.AllNames P j
  | .members ms => ∀ m ∈ ms, P m.1 ∧ Json.AllNames P m.2

/-- Parts of texts whose values are the same but for a host for every mark. -/
inductive Phrase.Filled (host : String) : Phrase → Phrase → Prop where
  | value {j j' : Json} (h : Json.Filled host j j') : Filled host (.value j) (.value j')
  | padded {j j' : Json} (h : Json.Filled host j j') : Filled host (.padded j) (.padded j')
  | items {js js' : List Json} (h : List.Forall₂ (Json.Filled host) js js') :
      Filled host (.items js) (.items js')
  | member {name : List Nat} {j j' : Json} (h : Json.Filled host j j') :
      Filled host (.member name j) (.member name j')
  | members {ms ms' : List (List Nat × Json)} (hnames : ms.map Prod.fst = ms'.map Prod.fst)
      (hvalues : List.Forall₂ (fun m m' => Json.Filled host m.2 m'.2) ms ms') :
      Filled host (.members ms) (.members ms')

theorem not_mem_number {negative : Bool} {digits fraction exponent : List Char}
    (hdigits : IsWhole digits) (hfraction : IsFraction fraction) (hexponent : IsExponent exponent) :
    '$' ∉ minus negative ++ (digits ++ (fraction ++ exponent)) := by
  have hrun : ∀ run : List Char, IsDigits run → '$' ∉ run := by
    intro run hrun hmem
    cases hrun '$' hmem
  simp only [List.mem_append, not_or]
  refine ⟨by cases negative <;> decide, ?_, ?_, ?_⟩
  · obtain rfl | ⟨first, rest, rfl, -, hfirst, hrest⟩ := hdigits
    · decide
    · exact hrun _ (isDigits_cons.mpr ⟨hfirst, hrest⟩)
  · obtain rfl | ⟨run, rfl, -, hdigits⟩ := hfraction
    · decide
    · exact List.not_mem_cons_of_ne_of_not_mem (by decide) (hrun run hdigits)
  · obtain rfl | ⟨mark, sign, run, rfl, hmark, hsign, -, hdigits⟩ := hexponent
    · decide
    · have hsign' : '$' ∉ sign := by obtain rfl | rfl | rfl := hsign <;> decide
      refine List.not_mem_cons_of_ne_of_not_mem ?_ ?_
      · obtain rfl | rfl := hmark <;> decide
      · exact List.not_mem_append hsign' (hrun run hdigits)

-- A string without escapes is filled in as a text, and neither ended nor begun by the host.
theorem filled_units {units : List Nat} {text : List Char} {host : String}
    (h : SpellsUnits units text) (hhost : IsPlain host.toList) (hbackslash : '\\' ∉ text) :
    ∃ units', SpellsUnits units' (filled host.toList text) ∧
      Json.Filled host (.string units) (.string units') := by
  obtain ⟨rfl, hplain⟩ := h.plain hbackslash
  have hfilled : IsPlain (filled host.toList text) := fun c hc =>
    (mem_filled hc).elim (hplain c) (hhost c)
  have hstring : Json.Filled host _ _ := .string (String.ofList text)
  rw [toList_expandHost, String.toList_ofList] at hstring
  exact ⟨_, spellsUnits_of_plain hfilled, hstring⟩

-- A name without escapes and without the mark stays.
theorem filled_name {name : List Nat} {text host : List Char} (h : SpellsUnits name text)
    (hname : ¬ hostMark.map Char.toNat <:+: name) (hbackslash : '\\' ∉ text) :
    filled host text = text := by
  obtain ⟨rfl, -⟩ := h.plain hbackslash
  exact filled_of_not_infix fun hmark => hname (hmark.map Char.toNat)

-- What divides a text is in no mark, and no mark is in what is not a string. So the text is filled
-- in string by string, and no string is ended or begun by it.
theorem spells_filled {p : Phrase} {text : List Char} {host : String} (h : Spells p text)
    (hhost : IsPlain host.toList) (hbackslash : '\\' ∉ text)
    (hnames : p.AllNames fun name => ¬ hostMark.map Char.toNat <:+: name) :
    ∃ p', Spells p' (filled host.toList text) ∧ p.Filled host p' := by
  induction h with
  | null => exact ⟨_, .null, .value .null⟩
  | yes => exact ⟨_, .yes, .value (.bool true)⟩
  | no => exact ⟨_, .no, .value (.bool false)⟩
  | number hdigits hfraction hexponent =>
    rw [filled_of_not_mem (not_mem_number hdigits hfraction hexponent)]
    exact ⟨_, .number hdigits hfraction hexponent, .value (.number _ _ _)⟩
  | string htext =>
    simp only [List.mem_cons, List.mem_append, not_or] at hbackslash
    obtain ⟨_, hspells, hfilled⟩ := filled_units htext hhost hbackslash.2.1
    rw [filled_enclosed (by decide) (by decide)]
    exact ⟨_, .string hspells, .value hfilled⟩
  | emptyArray ha =>
    rw [filled_enclosed (by decide) (by decide), filled_of_not_mem (not_mem_spaces ha)]
    exact ⟨_, .emptyArray ha, .value (.array .nil)⟩
  | array htext ih =>
    simp only [List.mem_cons, List.mem_append, not_or] at hbackslash
    cases hnames with
    | array hitems =>
      obtain ⟨_, hspells, hfilled⟩ := ih hbackslash.2.1 hitems
      cases hfilled with
      | items hfilled =>
        rw [filled_enclosed (by decide) (by decide)]
        exact ⟨_, .array hspells, .value (.array hfilled)⟩
  | emptyObject ha =>
    rw [filled_enclosed (by decide) (by decide), filled_of_not_mem (not_mem_spaces ha)]
    exact ⟨_, .emptyObject ha, .value (.object rfl .nil)⟩
  | object htext ih =>
    simp only [List.mem_cons, List.mem_append, not_or] at hbackslash
    cases hnames with
    | object hnames hvalues =>
      obtain ⟨_, hspells, hfilled⟩ :=
        ih hbackslash.2.1 fun m hm => ⟨hnames m hm, hvalues m hm⟩
      cases hfilled with
      | members hsame hfilled =>
        rw [filled_enclosed (by decide) (by decide)]
        exact ⟨_, .object hspells, .value (.object hsame hfilled)⟩
  | padded ha htext hb ih =>
    simp only [List.mem_append, not_or] at hbackslash
    obtain ⟨_, hspells, hfilled⟩ := ih hbackslash.2.1 hnames
    cases hfilled with
    | value hfilled =>
      rw [filled_spaces_append ha, filled_append_spaces hb]
      exact ⟨_, .padded ha hspells hb, .padded hfilled⟩
  | lastItem htext ih =>
    obtain ⟨_, hspells, hfilled⟩ := ih hbackslash (hnames _ List.mem_cons_self)
    cases hfilled with
    | padded hfilled => exact ⟨_, .lastItem hspells, .items (.cons hfilled .nil)⟩
  | item htext hrest ih ihrest =>
    simp only [List.mem_append, List.mem_cons, not_or] at hbackslash
    obtain ⟨hfirst, hothers⟩ := List.forall_mem_cons.mp hnames
    obtain ⟨_, hspells, hfilled⟩ := ih hbackslash.1 hfirst
    obtain ⟨_, hspellsRest, hfilledRest⟩ := ihrest hbackslash.2.2 hothers
    cases hfilled with
    | padded hfilled =>
      cases hfilledRest with
      | items hfilledRest =>
        rw [filled_append_cons (by decide)]
        exact ⟨_, .item hspells hspellsRest, .items (.cons hfilled hfilledRest)⟩
  | member ha hname hb htext ih =>
    simp only [List.mem_append, List.mem_cons, not_or] at hbackslash
    obtain ⟨_, hspells, hfilled⟩ := ih hbackslash.2.2.2.2.2.2 hnames.2
    cases hfilled with
    | padded hfilled =>
      rw [filled_spaces_append ha, filled_cons (by decide), filled_append_cons (by decide),
        filled_name hname hnames.1 hbackslash.2.2.1, filled_spaces_append hb,
        filled_cons (by decide)]
      exact ⟨_, .member ha hname hb hspells, .member hfilled⟩
  | lastMember htext ih =>
    obtain ⟨_, hspells, hfilled⟩ := ih hbackslash (hnames _ List.mem_cons_self)
    cases hfilled with
    | member hfilled => exact ⟨_, .lastMember hspells, .members rfl (.cons hfilled .nil)⟩
  | moreMembers htext hrest ih ihrest =>
    simp only [List.mem_append, List.mem_cons, not_or] at hbackslash
    obtain ⟨hfirst, hothers⟩ := List.forall_mem_cons.mp hnames
    obtain ⟨_, hspells, hfilled⟩ := ih hbackslash.1 hfirst
    obtain ⟨_, hspellsRest, hfilledRest⟩ := ihrest hbackslash.2.2 hothers
    cases hfilled with
    | member hfilled =>
      cases hfilledRest with
      | members hsame hfilledRest =>
        rw [filled_append_cons (by decide)]
        exact ⟨_, .moreMembers hspells hspellsRest,
          .members (congrArg (_ :: ·) hsame) (.cons hfilled hfilledRest)⟩

/-! ## Reading what is filled in -/

section Reading

variable (host : String)

theorem carries_text : Carries (Filled host) (expandHost host) text? := by
  intro j j' h
  have hread : ∀ text : String, text? (.string (text.toList.map Char.toNat)) = some text :=
    fun text => (unitsText?_eq_some_iff _ _).mpr (charsOf_map_toNat _)
  cases h with
  | string text => rw [hread, hread, Option.map_some]
  | _ => rfl

theorem carries_int (low high : Int) : Carries (Filled host) id (int? low high) := by
  intro j j' h
  rw [Option.map_id, id]
  cases h <;> rfl

theorem carries_nat (high : Nat) : Carries (Filled host) id (nat? high) := by
  intro j j' h
  have hint := carries_int host 0 high j j' h
  rw [Option.map_id, id] at hint ⊢
  rw [nat?, nat?, hint]

variable {host}

theorem Filled.carries_list {β : Type} {change : β → β} {read : Json → Option β}
    (h : Carries (Filled host) change read) :
    Carries (Filled host) (List.map change) (list? read) := by
  intro j j' hj
  cases hj with
  | array hitems => exact h.mapM _ _ hitems
  | _ => rfl

theorem Filled.carries_nullable {β : Type} {change : β → β} {read : Json → Option β}
    (h : Carries (Filled host) change read) :
    Carries (Filled host) (Option.map change) (nullable? read) := by
  refine h.nullable fun j j' hj => ?_
  cases hj with
  | null => exact Iff.rfl
  | _ => exact iff_of_false nofun nofun

theorem Filled.membersRel {members members' : List (List Nat × Json)}
    (hnames : members.map Prod.fst = members'.map Prod.fst)
    (hvalues : List.Forall₂ (fun m m' => Filled host m.2 m'.2) members members') :
    MembersRel (fun _ => Filled host) members members' := by
  induction hvalues with
  | nil => exact .nil
  | cons hvalue hvalues ih =>
    obtain ⟨hname, hnames⟩ := List.cons.inj hnames
    exact .cons ⟨hname, fun _ _ => hvalue⟩ (ih hnames)

theorem Filled.recordsRel {j j' : Json} (h : Filled host j j') (names : List String) :
    RecordsRel (fun _ => Filled host) names j j' := by
  cases h with
  | array hitems =>
    refine recordsRel_array ⟨hitems.length_eq, fun i _ k k' _ hk hk' => ?_⟩
    obtain ⟨hi, rfl⟩ := List.getElem?_eq_some_iff.mp hk
    obtain ⟨hi', rfl⟩ := List.getElem?_eq_some_iff.mp hk'
    exact hitems.get hi hi'
  | object hnames hvalues => exact recordsRel_object (Filled.membersRel hnames hvalues)
  | _ => exact .none

end Reading

end Json

/-! ## Descriptors filled in -/

section Descriptors

variable {host : String}

theorem NodeEntry.carries_ofJson? :
    Carries (Filled host) (mapTexts (expandHost host)) ofJson? := by
  intro j j' h
  refine ofJson?_carried (h.recordsRel _) (carries_text host) fun k k' hk => ?_
  refine readPorts?_carried (hk.recordsRel _) ?_
  have hport := Filled.carries_nullable (carries_nat host 65535)
  rwa [Option.map_id] at hport

theorem ServerMap.carries_ofJson? :
    Carries (Filled host) (mapTexts (expandHost host)) ofJson? := by
  intro j j' h
  have hrows : Carries (Filled host) id (list? (list? int64?)) := by
    have hlist := Filled.carries_list (Filled.carries_list
      (carries_int host (-0x8000000000000000) 0x7fffffffffffffff))
    rwa [List.map_id_fun, List.map_id_fun] at hlist
  exact ofJson?_carried (h.recordsRel _) rfl (carries_text host) (carries_nat host _)
    (Filled.carries_list (carries_text host)) hrows

theorem Descriptor.carries_ofJson? :
    Carries (Filled host) (mapTexts (expandHost host)) ofJson? := by
  intro j j' h
  exact ofJson?_carried (h.recordsRel _) rfl (carries_text host) (carries_int host _ _)
    (Filled.carries_nullable (carries_text host)) (Filled.carries_list NodeEntry.carries_ofJson?)
    (Filled.carries_nullable ServerMap.carries_ofJson?)

end Descriptors

/-- Reading a descriptor from the binary source. Of a text that is a value in JSON, without
backslashes and without the mark in the name of a member, an origin of plain characters makes a text
of the same value but for the origin in place of every mark in its strings: with the same arrays,
objects of the same names, and the same numbers. So the table or the defect is that of the
descriptor as it was written, with the origin in place of every mark in its name, node locator, host
names, hash algorithm and server addresses. -/
theorem RawDescriptor.parse_capture {d : RawDescriptor} {j : Json}
    (hread : Json.read? d.text.toList = some j) (hbackslash : '\\' ∉ d.text.toList)
    (hnames : j.AllNames fun name => ¬ hostMark.map Char.toNat <:+: name)
    (horigin : IsPlain d.origin.toList) (maxReplicas : Nat) :
    (∃ j', Json.read? (d.capture .binary).toList = some j' ∧ j.Filled d.origin j') ∧
      Table.parse (d.capture .binary) maxReplicas =
        match Descriptor.read? d.text with
        | some written => (written.mapTexts (expandHost d.origin)).table maxReplicas
        | none => .error .unreadable := by
  obtain ⟨_, hspells, hfilled⟩ :=
    spells_filled ((read?_eq_some_iff _ _).mp hread) horigin hbackslash hnames
  cases hfilled with
  | @padded _ j' hfilled =>
    have hcapture : Json.read? (d.capture .binary).toList = some j' := by
      rw [capture, toList_expandHost]
      exact read?_of_spells hspells
    refine ⟨⟨j', hcapture, hfilled⟩, ?_⟩
    rw [Table.parse, Descriptor.read?, Descriptor.read?, hread, hcapture, Option.bind_some,
      Option.bind_some, Descriptor.carries_ofJson? j j' hfilled]
    cases Descriptor.ofJson? j <;> rfl

-- Marks side by side, marks that are cut off, and a mark where nothing is read.
theorem RawDescriptor.parse_capture_marks :
    let d : RawDescriptor := ⟨"h", "\x7b\"name\":\"$HOS$HOST$HOST\",\"nodes\":" ++
      "[\x7b\"hostname\":\"$HOST:8091\",\"x\":[\"T$HOST$\",1e9]\x7d]\x7d"⟩
    Table.parse (d.capture .binary) 3 = .ok
      { kind := .simple, name := "$HOShh", rev := 0, replicaCount := 0
        partitions := [⟨some 0, []⟩], registry := ⟨[⟨0, "h:11210", .active⟩]⟩ } := by
  intro d
  have hread : Json.read? d.text.toList = some (.object [
      ("name".toList.map Char.toNat, .string ("$HOS$HOST$HOST".toList.map Char.toNat)),
      ("nodes".toList.map Char.toNat, .array [.object [
        ("hostname".toList.map Char.toNat, .string ("$HOST:8091".toList.map Char.toNat)),
        (['x'.toNat], .array [.string ("T$HOST$".toList.map Char.toNat),
          .number false ['1'] false])]])]) := by
    change Json.read? (_ ++ _ : String).toList = _
    rw [String.toList_append]
    rfl
  have hnames : ∀ name ∈ ["name", "nodes", "hostname", "x"],
      ¬ hostMark.map Char.toNat <:+: name.toList.map Char.toNat := by decide
  have hwritten : Descriptor.read? d.text =
      some ⟨"$HOS$HOST$HOST", 0, none, [⟨"$HOST:8091", none⟩], none⟩ := by decide +kernel
  obtain ⟨-, hparse⟩ := parse_capture hread (by decide +kernel)
    (.object (List.forall_mem_cons.mpr ⟨hnames "name" (by decide), List.forall_mem_singleton.mpr
        (hnames "nodes" (by decide))⟩)
      (List.forall_mem_cons.mpr ⟨.string _, List.forall_mem_singleton.mpr (.array
        (List.forall_mem_singleton.mpr (.object
          (List.forall_mem_cons.mpr ⟨hnames "hostname" (by decide), List.forall_mem_singleton.mpr
            (hnames "x" (by decide))⟩)
          (List.forall_mem_cons.mpr ⟨.string _, List.forall_mem_singleton.mpr (.array
            (List.forall_mem_cons.mpr ⟨.string _, List.forall_mem_singleton.mpr
              (.number _ _ _)⟩))⟩))))⟩))
    (by decide) 3
  rw [hparse, hwritten]
  decide +kernel

end ClusterClient
