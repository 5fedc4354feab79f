import Mathlib.Data.List.Forall2
/-!
# Computations that may fail

A chain of computations gives a result exactly when each of them gives one.
-/

namespace ClusterClient.Checked

variable {ε α β : Type}

theorem bind_eq_ok_iff (x : Except ε α) (f : α → Except ε β) (b : β) :
    x >>= f = .ok b ↔ ∃ a, x = .ok a ∧ f a = .ok b := by
  cases x with
  | error e => simp only [bind, Except.bind, reduceCtorEq, false_and, exists_false]
  | ok a => simp only [bind, Except.bind, Except.ok.injEq, exists_eq_left']

theorem bind_eq_error_iff (x : Except ε α) (f : α → Except ε β) (e : ε) :
    x >>= f = .error e ↔ x = .error e ∨ ∃ a, x = .ok a ∧ f a = .error e := by
  cases x with
  | error e' => simp only [bind, Except.bind, Except.error.injEq, reduceCtorEq, false_and,
      exists_false, or_false]
  | ok a => simp only [bind, Except.bind, reduceCtorEq, Except.ok.injEq, exists_eq_left', false_or]

theorem isOk_iff {x : Except ε α} : x.isOk = true ↔ ∃ a, x = .ok a := by
  cases x with
  | error e => exact ⟨nofun, fun ⟨_, h⟩ => by cases h⟩
  | ok a => exact ⟨fun _ => ⟨a, rfl⟩, fun _ => rfl⟩

-- A list of computations gives the list of their results.
theorem mapM_eq_ok_iff (f : α → Except ε β) (xs : List α) (ys : List β) :
    xs.mapM f = .ok ys ↔ List.Forall₂ (fun x y => f x = .ok y) xs ys := by
  induction xs generalizing ys with
  | nil =>
    rw [List.mapM_nil, List.forall₂_nil_left_iff]
    change Except.ok [] = Except.ok ys ↔ ys = []
    rw [Except.ok.injEq, eq_comm]
  | cons x xs ih =>
    rw [List.mapM_cons, bind_eq_ok_iff, List.forall₂_cons_left_iff]
    constructor
    · rintro ⟨y, hy, h⟩
      obtain ⟨rest, hrest, h⟩ := (bind_eq_ok_iff _ _ _).mp h
      cases h
      exact ⟨y, rest, hy, (ih rest).mp hrest, rfl⟩
    · rintro ⟨y, rest, hy, hrest, rfl⟩
      exact ⟨y, hy, (bind_eq_ok_iff _ _ _).mpr ⟨rest, (ih rest).mpr hrest, rfl⟩⟩

-- Each result is that of some entry.
theorem exists_of_mem_mapM {f : α → Except ε β} {xs : List α} {ys : List β}
    (h : xs.mapM f = .ok ys) {y : β} (hy : y ∈ ys) : ∃ x ∈ xs, f x = .ok y := by
  induction (mapM_eq_ok_iff f xs ys).mp h with
  | nil => cases hy
  | @cons x y' xs ys hx hrest ih =>
    rcases List.mem_cons.mp hy with rfl | hy
    · exact ⟨x, List.mem_cons_self, hx⟩
    · obtain ⟨x', hx', hfx⟩ := ih ((mapM_eq_ok_iff f xs ys).mpr hrest) hy
      exact ⟨x', List.mem_cons_of_mem x hx', hfx⟩

theorem length_of_mapM {f : α → Except ε β} {xs : List α} {ys : List β}
    (h : xs.mapM f = .ok ys) : ys.length = xs.length :=
  ((mapM_eq_ok_iff f xs ys).mp h).length_eq.symm

-- A list of computations fails as the first of them that fails.
theorem mapM_eq_error_iff (f : α → Except ε β) (xs : List α) (e : ε) :
    xs.mapM f = .error e ↔ ∃ before x after, xs = before ++ x :: after ∧
      (∃ ys, before.mapM f = .ok ys) ∧ f x = .error e := by
  induction xs with
  | nil =>
    rw [List.mapM_nil]
    constructor
    · intro h
      cases h
    · rintro ⟨before, x, after, h, -⟩
      simp only [List.nil_eq, List.append_eq_nil_iff, reduceCtorEq, and_false] at h
  | cons x xs ih =>
    rw [List.mapM_cons, bind_eq_error_iff]
    constructor
    · rintro (h | ⟨y, hy, h⟩)
      · exact ⟨[], x, xs, rfl, ⟨[], rfl⟩, h⟩
      · rcases (bind_eq_error_iff _ _ _).mp h with h | ⟨ys, -, h⟩
        · obtain ⟨before, x', after, rfl, ⟨ys, hys⟩, hx'⟩ := ih.mp h
          refine ⟨x :: before, x', after, rfl, ⟨y :: ys, ?_⟩, hx'⟩
          rw [mapM_eq_ok_iff] at hys ⊢
          exact .cons hy hys
        · cases h
    · rintro ⟨before, x', after, hsplit, ⟨ys, hys⟩, hx'⟩
      cases before with
      | nil =>
        cases hsplit
        exact .inl hx'
      | cons b before =>
        cases hsplit
        rw [mapM_eq_ok_iff, List.forall₂_cons_left_iff] at hys
        obtain ⟨y, ys, hy, hys, rfl⟩ := hys
        refine .inr ⟨y, hy, (bind_eq_error_iff _ _ _).mpr (.inl (ih.mpr ?_))⟩
        exact ⟨before, x', after, rfl, ⟨ys, (mapM_eq_ok_iff _ _ _).mpr hys⟩, hx'⟩

-- Where every computation either fails or gives what another function gives.
theorem mapM_eq_ok_iff_of {f : α → Except ε β} {P : α → Prop} {g : α → β}
    (h : ∀ x y, f x = .ok y ↔ P x ∧ y = g x) (xs : List α) (ys : List β) :
    xs.mapM f = .ok ys ↔ (∀ x ∈ xs, P x) ∧ ys = xs.map g := by
  rw [mapM_eq_ok_iff]
  induction xs generalizing ys with
  | nil => simp only [List.forall₂_nil_left_iff, List.not_mem_nil, false_implies, implies_true,
      List.map_nil, true_and]
  | cons x xs ih =>
    rw [List.forall₂_cons_left_iff, List.forall_mem_cons, List.map_cons]
    constructor
    · rintro ⟨y, rest, hy, hrest, rfl⟩
      obtain ⟨hx, rfl⟩ := (h x y).mp hy
      obtain ⟨hall, rfl⟩ := (ih rest).mp hrest
      exact ⟨⟨hx, hall⟩, rfl⟩
    · rintro ⟨⟨hx, hall⟩, rfl⟩
      exact ⟨g x, xs.map g, (h x _).mpr ⟨hx, rfl⟩, (ih _).mpr ⟨hall, rfl⟩, rfl⟩

end ClusterClient.Checked
