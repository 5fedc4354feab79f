import ClusterClient.Proofs.Json.Denotation
/-!
# Values that are read alike

Two values of which one is read as the other is, but for a change to what was read. The change goes
through lists, fields and records, so that for a record it has to be shown of its fields only.
-/

namespace ClusterClient.Json

/-- The second of two related values is read as the first, changed by a function; where the first is
not read, neither is the second. -/
def Carries {α β : Type} (R : α → α → Prop) (change : β → β) (read : α → Option β) : Prop :=
  ∀ a a', R a a' → read a' = (read a).map change

theorem bind_eq_map_bind {α β : Type} {o o' : Option α} {next next' : α → Option β}
    {change : α → α} {last : β → β} (ho : o' = o.map change)
    (hnext : ∀ a, next' (change a) = (next a).map last) :
    o'.bind next' = (o.bind next).map last := by
  subst ho
  cases o with
  | none => rfl
  | some a => exact hnext a

section Combined

variable {α β : Type} {R : α → α → Prop} {change : β → β} {read : α → Option β}

theorem Carries.mapM (h : Carries R change read) :
    Carries (List.Forall₂ R) (List.map change) (List.mapM read) := by
  intro as as' has
  induction has with
  | nil => rfl
  | cons ha has ih =>
    rw [List.mapM_cons, List.mapM_cons]
    refine bind_eq_map_bind (h _ _ ha) fun b => ?_
    exact bind_eq_map_bind ih fun bs => rfl

end Combined

section Fields

variable {β : Type} {R : Json → Json → Prop} {change : β → β} {read : Json → Option β}

-- What stands for nothing has to be related to itself only.
theorem Carries.nullable (h : Carries R change read)
    (hnull : ∀ j j', R j j' → (j' = .null ↔ j = .null)) :
    Carries R (Option.map change) (nullable? read) := by
  have hread : ∀ j, j ≠ .null → nullable? read j = (read j).map some := by
    intro j hj
    cases j with
    | null => exact absurd rfl hj
    | _ => rfl
  intro j j' hj
  by_cases hnone : j = .null
  · rw [hnone, (hnull j j' hj).mpr hnone]
    rfl
  · rw [hread j hnone, hread j' (mt (hnull j j' hj).mp hnone), h j j' hj, Option.map_map,
      Option.map_map]
    rfl

theorem Carries.orDefault {default : β} (h : Carries R change read)
    (hdefault : change default = default) :
    Carries (Option.Rel R) change (orDefault? default read) := by
  intro field field' hfield
  cases hfield with
  | none => exact congrArg some hdefault.symm
  | some hj => exact h _ _ hj

theorem Carries.required (h : Carries R change read) :
    Carries (Option.Rel R) change (required? read) := by
  intro field field' hfield
  cases hfield with
  | none => rfl
  | some hj => exact h _ _ hj

end Fields

/-! ## Records -/

section Records

variable {R : String → Json → Json → Prop} {names : List String}

/-- Fields that are related each by the relation of its name. -/
inductive FieldsRel (R : String → Json → Json → Prop) :
    List String → List (Option Json) → List (Option Json) → Prop where
  | nil : FieldsRel R [] [] []
  | cons {name : String} {names : List String} {field field' : Option Json}
      {fields fields' : List (Option Json)} (head : Option.Rel (R name) field field')
      (tail : FieldsRel R names fields fields') :
      FieldsRel R (name :: names) (field :: fields) (field' :: fields')

/-- Two records of one form, or none, with fields that are related. -/
def RecordsRel (R : String → Json → Json → Prop) (names : List String) (j j' : Json) : Prop :=
  Option.Rel (fun r r' => r.1 = r'.1 ∧ FieldsRel R names r.2 r'.2) (j.record? names)
    (j'.record? names)

theorem RecordsRel.bind_eq {β : Type} {j j' : Json} {last : β → β}
    {next : Form × List (Option Json) → Option β} (h : RecordsRel R names j j')
    (hnext : ∀ form fields fields', FieldsRel R names fields fields' →
      next (form, fields') = (next (form, fields)).map last) :
    (j'.record? names).bind next = ((j.record? names).bind next).map last := by
  unfold RecordsRel at h
  generalize j.record? names = r at h ⊢
  generalize j'.record? names = r' at h ⊢
  cases h with
  | none => rfl
  | @some r r' hr =>
    obtain ⟨form, fields⟩ := r
    obtain ⟨form', fields'⟩ := r'
    obtain ⟨rfl, hfields⟩ : form = form' ∧ FieldsRel R names fields fields' := hr
    exact hnext form fields fields' hfields

/-- Members of the same names in the same order, related each by the relation of its name. -/
def MembersRel (R : String → Json → Json → Prop) : (ms ms' : List (List Nat × Json)) → Prop :=
  List.Forall₂ fun m m' => m.1 = m'.1 ∧ ∀ name : String, CharsOf m.1 name.toList → R name m.2 m'.2

theorem rel_bind {α α' β β' : Type} {S : α → α' → Prop} {T : β → β' → Prop} {o : Option α}
    {o' : Option α'} {next : α → Option β} {next' : α' → Option β'} (ho : Option.Rel S o o')
    (hnext : ∀ a a', S a a' → Option.Rel T (next a) (next' a')) :
    Option.Rel T (o.bind next) (o'.bind next') := by
  cases ho with
  | none => exact .none
  | some ha => exact hnext _ _ ha

/-- Members under the texts of the same names, related each by the relation of its name. -/
def NamedRel (R : String → Json → Json → Prop) : (named named' : List (String × Json)) → Prop :=
  List.Forall₂ fun n n' => n.1 = n'.1 ∧ R n.1 n.2 n'.2

theorem namedMembers?_rel {ms ms' : List (List Nat × Json)} (h : MembersRel R ms ms') :
    Option.Rel (NamedRel R) (namedMembers? ms) (namedMembers? ms') := by
  induction h with
  | nil => exact .some .nil
  | @cons m m' ms ms' hm hms ih =>
    obtain ⟨units, j⟩ := m
    obtain ⟨units', j'⟩ := m'
    obtain ⟨rfl, hvalue⟩ : units = units' ∧ ∀ name : String, CharsOf units name.toList →
      R name j j' := hm
    have hfirst : Option.Rel (fun n n' => n.1 = n'.1 ∧ R n.1 n.2 n'.2)
        ((unitsText? units).map (·, j)) ((unitsText? units).map (·, j')) := by
      cases htext : unitsText? units with
      | none => exact .none
      | some name => exact .some ⟨rfl, hvalue name ((unitsText?_eq_some_iff _ _).mp htext)⟩
    unfold namedMembers? at ih ⊢
    rw [List.mapM_cons, List.mapM_cons]
    refine rel_bind hfirst fun n n' hn => ?_
    exact rel_bind ih fun named named' hnamed => .some (.cons hn hnamed)

theorem valuesOf_cons (name first : String) (j : Json) (named : List (String × Json)) :
    valuesOf name ((first, j) :: named) =
      if first = name then j :: valuesOf name named else valuesOf name named := by
  unfold valuesOf
  rw [List.filter_cons]
  by_cases hfield : first = name
  · rw [if_pos (beq_iff_eq.mpr hfield), if_pos hfield, List.map_cons]
  · rw [if_neg (mt beq_iff_eq.mp hfield), if_neg hfield]

theorem valuesOf_rel {named named' : List (String × Json)} (name : String)
    (h : NamedRel R named named') :
    List.Forall₂ (R name) (valuesOf name named) (valuesOf name named') := by
  induction h with
  | nil => exact .nil
  | @cons n n' named named' hn hnamed ih =>
    obtain ⟨first, j⟩ := n
    obtain ⟨first', j'⟩ := n'
    obtain ⟨rfl, hvalue⟩ : first = first' ∧ R first j j' := hn
    rw [valuesOf_cons, valuesOf_cons]
    split
    · rename_i hfield
      exact .cons (hfield ▸ hvalue) ih
    · exact ih

theorem field?_rel {named named' : List (String × Json)} (name : String)
    (h : NamedRel R named named') :
    Option.Rel (Option.Rel (R name)) (field? named name) (field? named' name) := by
  have hvalues := valuesOf_rel name h
  unfold field?
  generalize valuesOf name named = values at hvalues
  generalize valuesOf name named' = values' at hvalues
  cases hvalues with
  | nil => exact .some .none
  | cons hvalue hvalues =>
    cases hvalues with
    | nil => exact .some (.some hvalue)
    | cons => exact .none

theorem mapM_field?_rel {named named' : List (String × Json)} (h : NamedRel R named named')
    (names : List String) :
    Option.Rel (FieldsRel R names) (names.mapM (field? named)) (names.mapM (field? named')) := by
  induction names with
  | nil => exact .some .nil
  | cons name names ih =>
    rw [List.mapM_cons, List.mapM_cons]
    refine rel_bind (field?_rel name h) fun field field' hfield => ?_
    exact rel_bind ih fun fields fields' hfields => .some (.cons hfield hfields)

theorem recordsRel_object {ms ms' : List (List Nat × Json)} (h : MembersRel R ms ms') :
    RecordsRel R names (.object ms) (.object ms') := by
  refine rel_bind (namedMembers?_rel h) fun named named' hnamed => ?_
  exact rel_bind (mapM_field?_rel hnamed names) fun fields fields' hfields =>
    .some ⟨rfl, hfields⟩

/-- Items that are related each by the relation of the field in whose place it stands. -/
def ItemsRel (R : String → Json → Json → Prop) (names : List String) (js js' : List Json) : Prop :=
  js.length = js'.length ∧ ∀ (i : Nat) (name : String) (j j' : Json), names[i]? = some name →
    js[i]? = some j → js'[i]? = some j' → R name j j'

theorem fieldsRel_of_itemsRel {js js' : List Json} (h : ItemsRel R names js js')
    (hlength : js.length ≤ names.length) :
    FieldsRel R names (js.map some ++ List.replicate (names.length - js.length) none)
      (js'.map some ++ List.replicate (names.length - js'.length) none) := by
  induction names generalizing js js' with
  | nil =>
    obtain rfl := List.eq_nil_of_length_eq_zero (Nat.le_zero.mp hlength)
    obtain rfl := List.eq_nil_of_length_eq_zero h.1.symm
    exact .nil
  | cons name names ih =>
    cases js with
    | nil =>
      obtain rfl := List.eq_nil_of_length_eq_zero h.1.symm
      have hnone : ItemsRel R names [] [] := ⟨rfl, fun _ _ _ _ _ hj => nomatch hj⟩
      exact .cons .none (ih hnone (Nat.zero_le _))
    | cons j js =>
      cases js' with
      | nil => cases h.1
      | cons j' js' =>
        simp only [List.length_cons, Nat.add_sub_add_right]
        exact .cons (.some (h.2 0 name j j' rfl rfl rfl))
          (ih ⟨Nat.succ.inj h.1, fun i => h.2 (i + 1)⟩ (Nat.le_of_succ_le_succ hlength))

theorem recordsRel_array {js js' : List Json} (h : ItemsRel R names js js') :
    RecordsRel R names (.array js) (.array js') := by
  unfold RecordsRel record?
  by_cases hlength : js.length ≤ names.length
  · simp only
    rw [if_pos hlength, if_pos (h.1 ▸ hlength)]
    exact .some ⟨rfl, fieldsRel_of_itemsRel h hlength⟩
  · simp only
    rw [if_neg hlength, if_neg (h.1 ▸ hlength)]
    exact .none

end Records

end ClusterClient.Json
