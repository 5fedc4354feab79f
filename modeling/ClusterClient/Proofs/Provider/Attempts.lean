import ClusterClient.Proofs.Durability.Proving
import ClusterClient.Proofs.Provider.System
/-!
# What an attempt gives

An attempt asks one source and waits for it no longer than its limit. What comes of it is said here
of what the source delivers: the time, the texts, the mark `$HOST` in them, and what they describe.
-/

namespace ClusterClient

/-! ## Hosts in texts -/

/-- The mark that stands for the host that answered. -/
def hostMark : List Char := ['$', 'H', 'O', 'S', 'T']

/-- A host is put for every mark of a text; the parts between the marks stay. -/
def Expands (host text expanded : String) : Prop :=
  ∃ first rest, (∀ part ∈ first :: rest, ¬ hostMark <:+: part) ∧
    text.toList = hostMark.intercalate (first :: rest) ∧
    expanded.toList = host.toList.intercalate (first :: rest)

section Marks

variable {c : Char} {part tail text : List Char} {host done : List Char}

theorem expandHostAfter_of_not_mark (h : ¬ hostMark <+: c :: text) (host done : List Char) :
    expandHostAfter host done (c :: text) = expandHostAfter host (c :: done) text := by
  rw [expandHostAfter]
  rintro rest rfl rfl
  exact h ⟨rest, rfl⟩

-- No mark begins within a part and ends behind it, in a text that no mark goes on in.
theorem not_mark_append (hpart : ¬ hostMark <+: c :: part)
    (htail : ∀ first ∈ tail.head?, first ∉ ['H', 'O', 'S', 'T']) :
    ¬ hostMark <+: c :: (part ++ tail) := by
  rintro ⟨after, hafter⟩
  rw [← List.cons_append] at hafter
  rcases List.append_eq_append_iff.mp hafter with ⟨spill, hspill, -⟩ | ⟨spill, hmark, hspill⟩
  · exact hpart ⟨spill, hspill.symm⟩
  · have hend : ['H', 'O', 'S', 'T'] = part ++ spill := (List.cons.inj hmark).2
    cases spill with
    | nil =>
      rw [List.append_nil] at hmark
      exact hpart (hmark ▸ List.prefix_refl _)
    | cons first spill =>
      have hmem : first ∈ ['H', 'O', 'S', 'T'] := by
        rw [hend]
        exact List.mem_append_right _ List.mem_cons_self
      exact htail first (by rw [hspill]; rfl) hmem

-- A text is expanded piece by piece where no mark is cut.
theorem expandHostAfter_append (htail : ∀ first ∈ tail.head?, first ∉ ['H', 'O', 'S', 'T']) :
    expandHostAfter host done (text ++ tail) =
      expandHostAfter host (expandHostAfter host done text).reverse tail := by
  fun_induction expandHostAfter host done text with
  | case1 done text ih => exact ih
  | case2 done c text hmark ih =>
    have hprefix : ¬ hostMark <+: c :: text := by
      rintro ⟨after, hafter⟩
      obtain ⟨hc, hrest⟩ := List.cons.inj hafter
      exact hmark after hc.symm hrest.symm
    rw [List.cons_append, expandHostAfter_of_not_mark (not_mark_append hprefix htail), ih]
  | case3 done => rw [List.nil_append, List.reverse_reverse]

theorem expandHostAfter_of_not_infix (h : ¬ hostMark <:+: text) :
    expandHostAfter host done text = done.reverse ++ text := by
  induction text generalizing done with
  | nil => rw [expandHostAfter, List.append_nil]
  | cons c text ih =>
    rw [List.infix_cons_iff, not_or] at h
    rw [expandHostAfter_of_not_mark h.1, ih h.2, List.reverse_cons, List.append_assoc,
      List.singleton_append]

theorem expandHostAfter_intercalate {first : List Char} {rest : List (List Char)}
    (h : ∀ part ∈ first :: rest, ¬ hostMark <:+: part) :
    expandHostAfter host done (hostMark.intercalate (first :: rest)) =
      done.reverse ++ host.intercalate (first :: rest) := by
  induction rest generalizing first done with
  | nil =>
    rw [List.intercalate_singleton, List.intercalate_singleton,
      expandHostAfter_of_not_infix (h first List.mem_cons_self)]
  | cons second rest ih =>
    obtain ⟨hfirst, hrest⟩ := List.forall_mem_cons.mp h
    have hmark : ∀ c ∈ (hostMark ++ hostMark.intercalate (second :: rest)).head?,
        c ∉ ['H', 'O', 'S', 'T'] := by
      rintro c ⟨⟩
      decide
    rw [List.intercalate_cons_cons, List.intercalate_cons_cons, List.append_assoc,
      expandHostAfter_append hmark, expandHostAfter_of_not_infix hfirst]
    show expandHostAfter host (host.reverse ++ (done.reverse ++ first).reverse)
      (hostMark.intercalate (second :: rest)) = _
    rw [ih hrest]
    simp only [List.reverse_append, List.reverse_reverse, List.append_assoc]

theorem prefix_intercalate (sep first : List Char) (rest : List (List Char)) :
    first <+: sep.intercalate (first :: rest) := by
  cases rest with
  | nil => rw [List.intercalate_singleton]
  | cons second rest =>
    rw [List.intercalate_cons_cons, List.append_assoc]
    exact List.prefix_append _ _

theorem intercalate_cons (sep : List Char) (c : Char) (first : List Char)
    (rest : List (List Char)) :
    sep.intercalate ((c :: first) :: rest) = c :: sep.intercalate (first :: rest) := by
  cases rest with
  | nil => rw [List.intercalate_singleton, List.intercalate_singleton]
  | cons second rest => rw [List.intercalate_cons_cons, List.intercalate_cons_cons]; rfl

-- Every text is parts without a mark, with marks between them.
theorem exists_parts (text : List Char) : ∃ first rest,
    (∀ part ∈ first :: rest, ¬ hostMark <:+: part) ∧
      text = hostMark.intercalate (first :: rest) := by
  have hnil : ¬ hostMark <:+: [] := by decide
  -- along the scan of the text, which does not depend on the host
  fun_induction expandHostAfter [] [] text with
  | case1 done text ih =>
    obtain ⟨first, rest, hparts, rfl⟩ := ih
    refine ⟨[], first :: rest, List.forall_mem_cons.mpr ⟨hnil, hparts⟩, ?_⟩
    rw [List.intercalate_cons_cons]
    rfl
  | case2 done c text hmark ih =>
    obtain ⟨first, rest, hparts, rfl⟩ := ih
    obtain ⟨hfirst, hrest⟩ := List.forall_mem_cons.mp hparts
    refine ⟨c :: first, rest, List.forall_mem_cons.mpr ⟨?_, hrest⟩, (intercalate_cons _ _ _ _).symm⟩
    rw [List.infix_cons_iff, not_or]
    refine ⟨?_, hfirst⟩
    rintro ⟨after, hafter⟩
    obtain ⟨behind, hbehind⟩ := prefix_intercalate hostMark first rest
    obtain ⟨hc, rfl⟩ := List.cons.inj hafter
    exact hmark (after ++ behind) hc.symm hbehind.symm
  | case3 done => exact ⟨[], [], List.forall_mem_cons.mpr ⟨hnil, fun _ h => by cases h⟩, rfl⟩

end Marks

/-- The text with `$HOST` replaced is the one in which the host stands for every mark. -/
theorem expands_iff {host text expanded : String} :
    Expands host text expanded ↔ expandHost host text = expanded := by
  constructor
  · rintro ⟨first, rest, hparts, htext, hexpanded⟩
    rw [expandHost, htext, expandHostAfter_intercalate hparts, List.reverse_nil, List.nil_append,
      ← hexpanded, String.ofList_toList]
  · rintro rfl
    obtain ⟨first, rest, hparts, htext⟩ := exists_parts text.toList
    refine ⟨first, rest, hparts, htext, ?_⟩
    rw [expandHost, htext, expandHostAfter_intercalate hparts, String.toList_ofList]
    rfl

/-- The text that is read of a descriptor: one from the binary source with the host that answered in
it, any other as it is. -/
inductive RawDescriptor.Captures (x : RawDescriptor) : Source → String → Prop where
  | binary {text : String} (h : Expands x.origin x.text text) : x.Captures .binary text
  | http : x.Captures .http x.text

theorem RawDescriptor.captures_iff {x : RawDescriptor} {source : Source} {text : String} :
    x.Captures source text ↔ x.capture source = text := by
  constructor
  · intro h
    cases h with
    | binary h => exact expands_iff.mp h
    | http => rfl
  · rintro rfl
    cases source with
    | binary => exact .binary (expands_iff.mpr rfl)
    | http => exact .http

/-! ## Answers -/

/-- The descriptor is the first of an answer whose text is not blank. -/
def RawDescriptor.IsFirst (x : RawDescriptor) (found : List RawDescriptor) : Prop :=
  ∃ before after, found = before ++ x :: after ∧
    (∀ y ∈ before, Text.IsBlank y.text) ∧ ¬Text.IsBlank x.text

theorem RawDescriptor.isFirst_iff {x : RawDescriptor} {found : List RawDescriptor} :
    x.IsFirst found ↔ found.find? (!Text.isBlank ·.text) = some x := by
  rw [List.find?_eq_some_iff_append, IsFirst]
  simp only [Bool.not_eq_true', Bool.not_not, Text.isBlank_iff, Text.isBlank_eq_false_iff]
  constructor
  · rintro ⟨before, after, hfound, hbefore, hx⟩
    exact ⟨hx, before, after, hfound, hbefore⟩
  · rintro ⟨hx, before, after, hfound, hbefore⟩
    exact ⟨before, after, hfound, hbefore, hx⟩

/-- What an answer of a source amounts to: that what its first text describes that is not blank. -/
inductive Yields (source : Source) (maxReplicas : Nat) (found : List RawDescriptor) :
    Except AttemptError Table → Prop where
  | blank (h : ∀ x ∈ found, Text.IsBlank x.text) :
      Yields source maxReplicas found (.error (.transport .noResponse))
  | malformed {x : RawDescriptor} {text : String} {e : Malformed} (hx : x.IsFirst found)
      (htext : x.Captures source text) (hparse : Table.parse text maxReplicas = .error e) :
      Yields source maxReplicas found (.error (.malformed e))
  | table {x : RawDescriptor} {text : String} {t : Table} (hx : x.IsFirst found)
      (htext : x.Captures source text) (hparse : Table.parse text maxReplicas = .ok t) :
      Yields source maxReplicas found (.ok t)

theorem tableOf_iff {source : Source} {maxReplicas : Nat} {found : List RawDescriptor}
    {result : Except AttemptError Table} :
    tableOf source maxReplicas found = result ↔ Yields source maxReplicas found result := by
  constructor
  · rintro rfl
    rw [tableOf]
    cases hfind : found.find? (!Text.isBlank ·.text) with
    | none =>
      refine .blank fun x hx => ?_
      have hnot := List.find?_eq_none.mp hfind x hx
      rwa [Bool.not_eq_true', Bool.not_eq_false, Text.isBlank_iff] at hnot
    | some x =>
      have hx := RawDescriptor.isFirst_iff.mpr hfind
      have htext : x.Captures source (x.capture source) := RawDescriptor.captures_iff.mpr rfl
      simp only
      cases hparse : Table.parse (x.capture source) maxReplicas with
      | error e => exact .malformed hx htext hparse
      | ok t => exact .table hx htext hparse
  · intro h
    cases h with
    | blank h =>
      have hnone : found.find? (!Text.isBlank ·.text) = none :=
        List.find?_eq_none.mpr fun x hx => by
          rw [Text.isBlank_iff.mpr (h x hx)]
          exact Bool.false_ne_true
      rw [tableOf, hnone]
    | malformed hx htext hparse =>
      rw [tableOf, RawDescriptor.isFirst_iff.mp hx]
      simp only [RawDescriptor.captures_iff.mp htext, hparse]
    | table hx htext hparse =>
      rw [tableOf, RawDescriptor.isFirst_iff.mp hx]
      simp only [RawDescriptor.captures_iff.mp htext, hparse]

/-! ## Attempts -/

/-- What an attempt gives that asks a source, which delivers something, and waits for a limit. -/
inductive Attempted (source : Source) (maxReplicas : Nat) (limit : Duration)
    (d : Delivery FetchResult) : Except AttemptError Table → Prop where
  -- Nothing is there in time.
  | abandoned (h : ∀ after, d.after = some after → limit.ticks < after) :
      Attempted source maxReplicas limit d (.error (.transport (.timeout limit)))
  | failed {after : Nat} {e : TransportError} (hd : d = ⟨some after, .failed e⟩)
      (htime : after ≤ limit.ticks) :
      Attempted source maxReplicas limit d (.error (.transport e))
  | answered {after : Nat} {found : List RawDescriptor} {result : Except AttemptError Table}
      (hd : d = ⟨some after, .descriptors found⟩) (htime : after ≤ limit.ticks)
      (hyields : Yields source maxReplicas found result) :
      Attempted source maxReplicas limit d result

section Attempts

variable {source : Source} {maxReplicas : Nat} {limit : Duration} {d : Delivery FetchResult}
  {result : Except AttemptError Table}

theorem Delivery.within?_eq_none_iff {α : Type} {window : Nat} {d : Delivery α} :
    d.within? window = none ↔ ∀ after, d.after = some after → window < after := by
  constructor
  · intro hnone after hafter
    apply Nat.lt_of_not_le
    intro hle
    have hsome := within?_eq_some_iff.mpr ⟨after, congrArg (Delivery.mk · d.result) hafter, hle⟩
    cases hnone.symm.trans hsome
  · intro h
    cases hwithin : d.within? window with
    | none => rfl
    | some result =>
      obtain ⟨after, rfl, hle⟩ := within?_eq_some_iff.mp hwithin
      exact absurd hle (Nat.not_le.mpr (h after rfl))

theorem FetchResult.await_of_arrived {after : Nat} {result : FetchResult}
    (htime : after ≤ limit.ticks) : (await limit ⟨some after, result⟩).2 = result := by
  rw [await, Delivery.within?_eq_some_iff.mpr ⟨after, rfl, htime⟩]
  rfl

theorem FetchResult.await_of_late (h : ∀ after, d.after = some after → limit.ticks < after) :
    (await limit d).2 = .failed (.timeout limit) := by
  rw [await, Delivery.within?_eq_none_iff.mpr h]
  rfl

namespace Provider

variable {p : Provider} {a : Acquisition}

/-- What an attempt gives, from what came of waiting for a source that reports itself to be what it
is. -/
theorem attempt_iff (hreports : p.reported a.asked = a.asked) :
    p.attempt a (FetchResult.await limit d).2 = some result ↔
      Attempted a.asked p.maxReplicas limit d result := by
  constructor
  · intro h
    cases hwithin : d.within? limit.ticks with
    | none =>
      have hlate := Delivery.within?_eq_none_iff.mp hwithin
      rw [FetchResult.await_of_late hlate] at h
      cases h
      exact .abandoned hlate
    | some fetched =>
      obtain ⟨after, rfl, htime⟩ := Delivery.within?_eq_some_iff.mp hwithin
      rw [FetchResult.await_of_arrived htime] at h
      cases fetched with
      | descriptors found =>
        rw [attempt, hreports] at h
        exact .answered rfl htime (tableOf_iff.mp (Option.some.inj h))
      | failed e =>
        cases h
        exact .failed rfl htime
      | crashed => cases h
  · intro h
    cases h with
    | abandoned h => rw [FetchResult.await_of_late h]; rfl
    | failed hd htime => rw [hd, FetchResult.await_of_arrived htime]; rfl
    | answered hd htime hyields =>
      rw [hd, FetchResult.await_of_arrived htime, attempt, hreports, tableOf_iff.mpr hyields]

end Provider

-- What is delivered decides what an attempt gives.
theorem Attempted.unique {result' : Except AttemptError Table}
    (h : Attempted source maxReplicas limit d result)
    (h' : Attempted source maxReplicas limit d result') : result = result' := by
  -- some provider makes such an attempt
  let p : Provider := { maxReplicas }
  let a : Acquisition := ⟨source, [], []⟩
  have hreports : p.reported a.asked = a.asked := by cases source <;> rfl
  have hgives := (Provider.attempt_iff (p := p) (a := a) hreports).mpr h
  have hgives' := (Provider.attempt_iff (p := p) (a := a) hreports).mpr h'
  exact Option.some.inj (hgives.symm.trans hgives')

-- An attempt gives something unless its source breaks down in time.
theorem exists_attempted (source : Source) (maxReplicas : Nat)
    (hworks : (FetchResult.await limit d).2 ≠ .crashed) :
    ∃ result, Attempted source maxReplicas limit d result := by
  cases hwithin : d.within? limit.ticks with
  | none => exact ⟨_, .abandoned (Delivery.within?_eq_none_iff.mp hwithin)⟩
  | some fetched =>
    obtain ⟨after, rfl, htime⟩ := Delivery.within?_eq_some_iff.mp hwithin
    cases fetched with
    | descriptors found => exact ⟨_, .answered rfl htime (tableOf_iff.mp rfl)⟩
    | failed e => exact ⟨_, .failed rfl htime⟩
    | crashed => exact absurd (FetchResult.await_of_arrived htime) hworks

end Attempts

end ClusterClient
