import ClusterClient.Proofs.Json.Reading
import ClusterClient.Proofs.Topology.Defects
import ClusterClient.Text.Blank
/-!
# Whole texts

A descriptor ends with the bracket that closes it, and nothing but white space may follow. So a text
that was cut off, or that runs on into other data, is never read as a descriptor, and neither is a
blank one.
-/

namespace ClusterClient

namespace Json

/-! ## Around a value -/

-- After a whole value nothing but white space may follow.
theorem run_done_eq_some_iff (value : Json) (text : List Char) (s : State) :
    run ⟨[], .done value⟩ text = some s ↔ IsSpaces text ∧ s = ⟨[], .done value⟩ := by
  induction text with
  | nil =>
    rw [run, Option.some.injEq, eq_comm]
    exact (and_iff_right isSpaces_nil).symm
  | cons c text ih =>
    by_cases hc : isSpace c = true
    · have hstep : step ⟨[], .done value⟩ c = some ⟨[], .done value⟩ := if_pos hc
      rw [run, hstep, Option.bind_some, ih, isSpaces_cons, and_iff_right hc]
    · have hstep : step ⟨[], .done value⟩ c = none := if_neg hc
      rw [run, hstep, isSpaces_cons]
      simp only [Option.bind_none, reduceCtorEq, hc, false_and]

-- A text that holds a whole value is followed by white space only in a longer text that is read.
theorem isSpaces_of_run_append {a b : List Char} {value : Json} {s : State}
    (ha : run start a = some ⟨[], .done value⟩) (h : run start (a ++ b) = some s) :
    IsSpaces b ∧ s = ⟨[], .done value⟩ := by
  rw [run_append, ha] at h
  exact (run_done_eq_some_iff value b s).mp h

-- An object or an array is over with its last bracket, unlike a number.
theorem eq_done_of_finish? {s : State} {value : Json} (h : finish? s = some value)
    (hvalue : ∀ negative digits whole, value ≠ .number negative digits whole) :
    s = ⟨[], .done value⟩ := by
  obtain rfl | ⟨negative, digits, part, -, hpart⟩ := finish?_eq_some_iff.mp h
  · rfl
  · cases part <;> cases hpart <;> exact absurd rfl (hvalue _ _ _)

theorem ne_number_of_record? {names : List String} {j : Json} {r : Form × List (Option Json)}
    (h : j.record? names = some r) (negative : Bool) (digits : List Char) (whole : Bool) :
    j ≠ .number negative digits whole := by
  rintro rfl
  cases h

/-! ## Blank texts -/

theorem isDigit_of_whiteSpace {c : Char} (h : c.toNat ∈ Text.whiteSpace) : c.isDigit = false := by
  refine Bool.eq_false_iff.mpr fun hdigit => ?_
  simp only [Char.isDigit, Bool.and_eq_true, decide_eq_true_eq, UInt32.le_iff_toNat_le] at hdigit
  have hrange : 48 ≤ c.toNat ∧ c.toNat ≤ 57 := hdigit
  simp only [Text.whiteSpace, List.mem_cons, List.not_mem_nil, or_false] at h
  omega

theorem beginValue_of_whiteSpace {c : Char} (h : c.toNat ∈ Text.whiteSpace) (stack : List Frame) :
    beginValue stack c = none := by
  have hne : ∀ x : Char, x.toNat ∉ Text.whiteSpace → c ≠ x := by
    rintro x hx rfl
    exact hx h
  rw [beginValue, if_neg (hne '{' (by decide)), if_neg (hne '[' (by decide)),
    if_neg (hne '"' (by decide)), if_neg (hne '-' (by decide)), if_neg (hne 'n' (by decide)),
    if_neg (hne 't' (by decide)), if_neg (hne 'f' (by decide)), numberStep,
    if_neg (hne '0' (by decide)), isDigit_of_whiteSpace h]
  rfl

theorem run_start_of_whiteSpace {text : List Char} (h : ∀ c ∈ text, c.toNat ∈ Text.whiteSpace) :
    run start text = some start ∨ run start text = none := by
  induction text with
  | nil => exact .inl rfl
  | cons c text ih =>
    rw [List.forall_mem_cons] at h
    have hstep : step start c = if isSpace c then some start else none := by
      rw [← beginValue_of_whiteSpace h.1 []]
      rfl
    rw [run, hstep]
    by_cases hspace : isSpace c = true
    · rw [if_pos hspace]
      exact ih h.2
    · rw [if_neg hspace]
      exact .inr rfl

end Json

/-! ## Descriptors -/

theorem Descriptor.ne_number_of_ofJson? {j : Json} {d : Descriptor} (h : ofJson? j = some d)
    (negative : Bool) (digits : List Char) (whole : Bool) :
    j ≠ .number negative digits whole := by
  obtain ⟨r, hr, -⟩ := Option.bind_eq_some_iff.mp h
  exact Json.ne_number_of_record? hr negative digits whole

theorem Descriptor.read?_eq_some {text : String} {d : Descriptor} :
    read? text = some d ↔ ∃ value, Json.run Json.start text.toList = some ⟨[], .done value⟩ ∧
      ofJson? value = some d := by
  rw [read?, Option.bind_eq_some_iff]
  constructor
  · rintro ⟨value, hread, hd⟩
    obtain ⟨s, hs, hfinish⟩ := Option.bind_eq_some_iff.mp hread
    rw [Json.eq_done_of_finish? hfinish (ne_number_of_ofJson? hd)] at hs
    exact ⟨value, hs, hd⟩
  · rintro ⟨value, hrun, hd⟩
    exact ⟨value, Option.bind_eq_some_iff.mpr ⟨_, hrun, rfl⟩, hd⟩

namespace Table

theorem partitioned_ne_unreadable (name : String) (rev : Int) (servers : List String)
    (replicaCount : Nat) (map : List (List Int)) (maxReplicas : Nat) :
    partitioned name rev servers replicaCount map maxReplicas ≠ .error .unreadable := by
  intro h
  rcases (Checked.bind_eq_error_iff _ _ _).mp h with hmap | ⟨-, -, h⟩
  · cases (checkMap_eq_error_iff _).mp hmap
  · rcases (Checked.bind_eq_error_iff _ _ _).mp h with hrows | ⟨_, -, h⟩
    · obtain ⟨_, _, _, -, -, hrow⟩ := (readRows_eq_error_iff _).mp hrows
      cases hrow
    · cases h

theorem simple_ne_unreadable (name : String) (rev : Int) (servers : List String) :
    simple name rev servers ≠ .error .unreadable := by
  intro h
  rcases (Checked.bind_eq_error_iff _ _ _).mp h with h | ⟨u, -, h⟩
  · obtain ⟨-, h⟩ | ⟨_, _, _, -, -, -, h⟩ := (checkServers_eq_error_iff servers _).mp h
    · cases h
    · cases h
  · cases h

-- A descriptor that is read may still be refused, but not as unreadable.
theorem table_ne_unreadable (d : Descriptor) (maxReplicas : Nat) :
    d.table maxReplicas ≠ .error .unreadable := by
  unfold Descriptor.table
  split
  · split
    · exact partitioned_ne_unreadable _ _ _ _ _ _
    · exact nofun
  · split
    · exact nofun
    · exact simple_ne_unreadable _ _ _

theorem parse_eq_unreadable_iff (text : String) (maxReplicas : Nat) :
    parse text maxReplicas = .error .unreadable ↔ Descriptor.read? text = none := by
  rw [parse]
  cases Descriptor.read? text with
  | none => exact iff_of_true rfl rfl
  | some d => exact iff_of_false (table_ne_unreadable d maxReplicas) nofun

theorem parse_eq_unreadable {text : String} (maxReplicas : Nat)
    (h : ∀ value, Json.run Json.start text.toList ≠ some ⟨[], .done value⟩) :
    parse text maxReplicas = .error .unreadable := by
  rw [parse_eq_unreadable_iff, Option.eq_none_iff_forall_ne_some]
  intro d hd
  obtain ⟨value, hrun, -⟩ := Descriptor.read?_eq_some.mp hd
  exact h value hrun

-- Whoever passes over blank texts misses no table.
theorem parse_of_isBlank {text : String} (h : Text.IsBlank text) (maxReplicas : Nat) :
    parse text maxReplicas = .error .unreadable := by
  refine parse_eq_unreadable maxReplicas fun value hvalue => ?_
  rcases Json.run_start_of_whiteSpace h with hrun | hrun
  · cases hrun.symm.trans hvalue
  · cases hrun.symm.trans hvalue

/-- Of a text that is read, no part from which more than white space is missing is read, and neither
is the text with more than white space after it; white space around it changes nothing. -/
theorem parse_whole_texts_only {text : String} {maxReplicas : Nat}
    (h : parse text maxReplicas ≠ .error .unreadable) :
    (∀ before after : String, before ++ after = text → ¬Json.IsSpaces after.toList →
        parse before maxReplicas = .error .unreadable) ∧
      (∀ after : String, ¬Json.IsSpaces after.toList →
        parse (text ++ after) maxReplicas = .error .unreadable) ∧
      ∀ before after : String, Json.IsSpaces before.toList → Json.IsSpaces after.toList →
        parse (before ++ text ++ after) maxReplicas = parse text maxReplicas := by
  rw [ne_eq, parse_eq_unreadable_iff, ← ne_eq, Option.ne_none_iff_exists'] at h
  obtain ⟨d, hd⟩ := h
  obtain ⟨value, hrun, hvalue⟩ := Descriptor.read?_eq_some.mp hd
  refine ⟨fun before after htext hafter => ?_, fun after hafter => ?_,
    fun before after hbefore hafter => ?_⟩
  · refine parse_eq_unreadable _ fun value' hbefore => hafter ?_
    rw [← htext, String.toList_append] at hrun
    exact (Json.isSpaces_of_run_append hbefore hrun).1
  · refine parse_eq_unreadable _ fun value' hlonger => hafter ?_
    rw [String.toList_append] at hlonger
    exact (Json.isSpaces_of_run_append hrun hlonger).1
  · have hlonger : Descriptor.read? (before ++ text ++ after) = some d := by
      refine Descriptor.read?_eq_some.mpr ⟨value, ?_, hvalue⟩
      have hstart : Json.run Json.start (before.toList ++ (text.toList ++ after.toList)) =
          Json.run Json.start (text.toList ++ after.toList) :=
        Json.run_spaces (s := Json.start) (fun c hc => if_pos hc) hbefore _
      rw [String.toList_append, String.toList_append, List.append_assoc, hstart, Json.run_append,
        hrun]
      exact (Json.run_done_eq_some_iff value _ _).mpr ⟨hafter, rfl⟩
    rw [parse, parse, hlonger, hd]

-- A descriptor of one node, without its last bracket, run together with another value, and with
-- white space on both sides.
theorem parse_whole_texts_only_solo :
    let cut := "\x7b\"x\":[[\"]\",1.5e3]],\"nodes\":[\x7b\"hostname\":\"a\"\x7d]"
    parse (cut ++ "\x7d") 3 = .ok
        { kind := .simple, name := "", rev := 0, replicaCount := 0, partitions := [⟨some 0, []⟩]
          registry := ⟨[⟨0, "a:11210", .active⟩]⟩ } ∧
      parse cut 3 = .error .unreadable ∧ parse (cut ++ "\x7d" ++ ",1") 3 = .error .unreadable ∧
      parse ("\n" ++ (cut ++ "\x7d") ++ " \t") 3 = parse (cut ++ "\x7d") 3 := by
  intro cut
  have hparse : parse (cut ++ "\x7d") 3 = .ok
      { kind := .simple, name := "", rev := 0, replicaCount := 0, partitions := [⟨some 0, []⟩]
        registry := ⟨[⟨0, "a:11210", .active⟩]⟩ } := by decide +kernel
  obtain ⟨hcut, hlonger, hspaces⟩ := parse_whole_texts_only (by rw [hparse]; exact nofun)
  exact ⟨hparse, hcut cut "\x7d" rfl (by decide +kernel), hlonger ",1" (by decide +kernel),
    hspaces "\n" " \t" (by decide +kernel) (by decide +kernel)⟩

end Table

end ClusterClient
