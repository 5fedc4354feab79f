import ClusterClient.Address
import Mathlib.Data.List.TakeWhile
/-!
# What a valid address spells

The check of an address looks for its last colon. Here it is said without that search: an address is
valid exactly when it spells a host and a port. What is written of a host and a port spells them, so
the host is read back from it, whatever colons it holds.
-/

namespace ClusterClient.Address

/-- A text is a host, a colon and a decimal number, before which one plus sign may stand. -/
def Spells (s : String) (host : List Char) (port : Nat) : Prop :=
  ∃ sign digits, s.toList = host ++ ':' :: (sign ++ digits) ∧ (sign = [] ∨ sign = ['+']) ∧
    digits ≠ [] ∧ (∀ c ∈ digits, c.isDigit) ∧ decimalValue digits = port

/-- The host of a host name is what stands before its last colon, and all of it if it has none. -/
inductive HasHost (s : String) : String → Prop where
  | before {host : String} {after : List Char} (hs : s.toList = host.toList ++ ':' :: after)
      (hafter : ':' ∉ after) : HasHost s host
  | whole (hnone : ':' ∉ s.toList) : HasHost s s

/-! ## The last colon -/

theorem splitLast_append (before after : List Char) (h : ':' ∉ after) :
    splitLast (before ++ ':' :: after) = some (before, after) := by
  have hp : ∀ c ∈ after.reverse, (c != ':') = true := by
    intro c hc
    rw [bne_iff_ne]
    rintro rfl
    exact h (List.mem_reverse.mp hc)
  have hr : (before ++ ':' :: after).reverse = after.reverse ++ ':' :: before.reverse := by
    rw [List.reverse_append, List.reverse_cons, List.append_assoc, List.singleton_append]
  have hd : (after.reverse ++ ':' :: before.reverse).dropWhile (· != ':') =
      ':' :: before.reverse := by
    rw [List.dropWhile_append_of_pos hp, List.dropWhile_cons_of_neg (by decide)]
  have ht : (after.reverse ++ ':' :: before.reverse).takeWhile (· != ':') = after.reverse := by
    rw [List.takeWhile_append_of_pos hp, List.takeWhile_cons_of_neg (by decide), List.append_nil]
  unfold splitLast
  rw [hr, hd, ht]
  simp only [List.reverse_reverse]

theorem eq_append_of_splitLast {s before after : List Char}
    (h : splitLast s = some (before, after)) : s = before ++ ':' :: after ∧ ':' ∉ after := by
  have hs := List.takeWhile_append_dropWhile (p := (· != ':')) (l := s.reverse)
  unfold splitLast at h
  split at h
  · cases h
  · rename_i c rest hd
    cases h
    have hc : c = ':' := by
      have hn : s.reverse.dropWhile (· != ':') ≠ [] := by rw [hd]; exact List.cons_ne_nil _ _
      have hh := List.head_dropWhile_not (· != ':') hn
      simpa [hd] using hh
    constructor
    · rw [hd, hc] at hs
      have hr := congrArg List.reverse hs
      rw [List.reverse_reverse, List.reverse_append, List.reverse_cons, List.append_assoc,
        List.singleton_append] at hr
      exact hr.symm
    · intro hm
      have hp := List.mem_takeWhile_imp (List.mem_reverse.mp hm)
      simp at hp

theorem splitLast_eq_none_iff (s : List Char) : splitLast s = none ↔ ':' ∉ s := by
  have hnil : s.reverse.dropWhile (· != ':') = [] ↔ ':' ∉ s := by
    rw [List.dropWhile_eq_nil_iff]
    constructor
    · intro h hmem
      have hcolon := h ':' (List.mem_reverse.mpr hmem)
      cases hcolon
    · intro h c hc
      rw [bne_iff_ne]
      rintro rfl
      exact h (List.mem_reverse.mp hc)
  rw [← hnil]
  unfold splitLast
  split
  · rename_i hd
    simp only [hd]
  · rename_i hd
    simp only [hd, reduceCtorEq]

theorem host_eq_iff (s host : String) : Address.host s = host ↔ HasHost s host := by
  unfold Address.host
  constructor
  · rintro rfl
    split
    · rename_i before after hsplit
      obtain ⟨hs, hafter⟩ := eq_append_of_splitLast hsplit
      rw [← String.toList_ofList (l := before)] at hs
      exact .before hs hafter
    · rename_i hsplit
      exact .whole ((splitLast_eq_none_iff _).mp hsplit)
  · intro h
    cases h with
    | before hs hafter =>
      rw [hs, splitLast_append _ _ hafter]
      exact String.ofList_toList
    | whole hnone => rw [(splitLast_eq_none_iff _).mpr hnone]

/-! ## Ports -/

theorem colon_not_mem_of_digits {digits : List Char} (h : ∀ c ∈ digits, c.isDigit) :
    ':' ∉ digits := fun hc => absurd (h ':' hc) (by decide)

-- A port is a run of digits, after one plus sign perhaps, whose value fits into 16 bits.
theorem isPort_iff (s : List Char) :
    isPort s = true ↔ ∃ sign digits, s = sign ++ digits ∧ (sign = [] ∨ sign = ['+']) ∧
      digits ≠ [] ∧ (∀ c ∈ digits, c.isDigit) ∧ decimalValue digits < UInt16.size := by
  constructor
  · intro h
    unfold isPort at h
    simp only [Bool.and_eq_true, Bool.not_eq_true', List.isEmpty_eq_false_iff, List.all_eq_true,
      decide_eq_true_eq] at h
    split at h
    · rename_i rest
      exact ⟨['+'], rest, rfl, .inr rfl, h.1.1, h.1.2, h.2⟩
    · exact ⟨[], s, rfl, .inl rfl, h.1.1, h.1.2, h.2⟩
  · rintro ⟨sign, digits, rfl, hsign, hne, hdigits, hvalue⟩
    have hcheck : (!digits.isEmpty && digits.all Char.isDigit && decimalValue digits < 65536) =
        true := by
      simp only [Bool.and_eq_true, Bool.not_eq_true', List.isEmpty_eq_false_iff, List.all_eq_true,
        decide_eq_true_eq]
      exact ⟨⟨hne, hdigits⟩, hvalue⟩
    rcases hsign with rfl | rfl
    · unfold isPort
      split
      · rename_i rest heq
        -- a run of digits does not begin with a plus sign
        have hplus : '+' ∈ digits := by rw [List.nil_append] at heq; rw [heq]; simp
        exact absurd (hdigits '+' hplus) (by decide)
      · exact hcheck
    · exact hcheck

/-! ## Addresses -/

-- The last colon of an address is the one between its host and its port.
theorem Spells.splitLast_eq {s : String} {host : List Char} {port : Nat} (h : Spells s host port) :
    ∃ sign digits, Address.splitLast s.toList = some (host, sign ++ digits) ∧
      (sign = [] ∨ sign = ['+']) ∧ digits ≠ [] ∧ (∀ c ∈ digits, c.isDigit) ∧
      decimalValue digits = port := by
  obtain ⟨sign, digits, htext, hsign, hne, hdigits, hvalue⟩ := h
  have hcolon : ':' ∉ sign ++ digits := by
    rw [List.mem_append]
    rintro (hc | hc)
    · rcases hsign with rfl | rfl <;> simp at hc
    · exact colon_not_mem_of_digits hdigits hc
  refine ⟨sign, digits, ?_, hsign, hne, hdigits, hvalue⟩
  rw [htext, splitLast_append host _ hcolon]

theorem Spells.host_eq {s : String} {host : List Char} {port : Nat} (h : Spells s host port) :
    Address.host s = String.ofList host := by
  obtain ⟨sign, digits, hsplit, -⟩ := h.splitLast_eq
  unfold Address.host
  rw [hsplit]

-- An address is valid exactly when it spells a host that is not empty and a port of 16 bits.
theorem isValid_iff (s : String) :
    isValid s = true ↔ ∃ host port, Spells s host port ∧ host ≠ [] ∧ port < UInt16.size := by
  constructor
  · intro h
    unfold isValid at h
    split at h
    · rename_i before after hsplit
      rw [Bool.and_eq_true, Bool.not_eq_true', List.isEmpty_eq_false_iff, isPort_iff] at h
      obtain ⟨hbefore, sign, digits, rfl, hsign, hne, hdigits, hvalue⟩ := h
      have htext := (eq_append_of_splitLast hsplit).1
      exact ⟨before, _, ⟨sign, digits, htext, hsign, hne, hdigits, rfl⟩, hbefore, hvalue⟩
    · cases h
  · rintro ⟨host, port, hspells, hhost, hport⟩
    obtain ⟨sign, digits, hsplit, hsign, hne, hdigits, rfl⟩ := hspells.splitLast_eq
    have hp : isPort (sign ++ digits) = true :=
      (isPort_iff _).mpr ⟨sign, digits, rfl, hsign, hne, hdigits, hport⟩
    unfold isValid
    rw [hsplit]
    simp only [hp, Bool.and_true, Bool.not_eq_true', List.isEmpty_eq_false_iff]
    exact hhost

/-! ## What is written of a host and a port -/

theorem spells_ofHostPort (host : String) (port : Nat) :
    Spells (ofHostPort host port) host.toList port := by
  refine ⟨[], Nat.toDigits 10 port, ?_, .inl rfl, Nat.toDigits_ne_nil, fun c hc => ?_, ?_⟩
  · rw [ofHostPort, String.toList_append, String.toList_append, Nat.toString_eq_repr,
      Nat.toList_repr, List.append_assoc]
    rfl
  · exact Nat.isDigit_of_mem_toDigits (by decide) (by decide) hc
  · rw [decimalValue, ← Nat.ofDigitChars_eq_foldl]
    exact Nat.ofDigitChars_ten_toDigits

theorem host_ofHostPort (host : String) (port : Nat) :
    Address.host (ofHostPort host port) = host :=
  (spells_ofHostPort host port).host_eq.trans String.ofList_toList

-- A port that fits is always written well, so only an empty host makes an address invalid.
theorem isValid_ofHostPort {port : Nat} (hport : port < UInt16.size) (host : String) :
    isValid (ofHostPort host port) = true ↔ host ≠ "" := by
  rw [isValid_iff]
  constructor
  · rintro ⟨before, _, hspells, hne, -⟩ rfl
    have hempty := hspells.host_eq.symm.trans (host_ofHostPort "" port)
    exact hne (String.ofList_eq_empty_iff.mp hempty)
  · intro hne
    have hhost : host.toList ≠ [] := mt String.toList_eq_nil_iff.mp hne
    exact ⟨host.toList, port, spells_ofHostPort host port, hhost, hport⟩

end ClusterClient.Address
