/-!
# What a node says about a key

A node that is asked about a key reports whether it holds the key and whether it has persisted what
it holds, with the version of what it saw. Against the version that the caller waits for, the report
becomes an outcome.
-/

namespace ClusterClient

inductive KeyState where
  | foundNotPersisted
  | foundPersisted
  | notFoundNotPersisted
  | notFoundPersisted
  deriving DecidableEq, Repr

inductive Outcome where
  | foundNotPersisted
  | foundPersisted
  | notFoundNotPersisted
  | notFoundPersisted
  -- The node holds another version than the one waited for.
  | modified
  -- The node did not answer within the round.
  | error
  deriving DecidableEq, Repr

/-- The outcome of a report whose version is the one waited for. -/
def KeyState.outcome : KeyState → Outcome
  | foundNotPersisted => .foundNotPersisted
  | foundPersisted => .foundPersisted
  | notFoundNotPersisted => .notFoundNotPersisted
  | notFoundPersisted => .notFoundPersisted

/-- The outcome of a report. Another version means that the key was modified, except where its
absence has been persisted: the key is gone and its version no longer matters. -/
def Outcome.classify (expected seen : UInt64) (state : KeyState) : Outcome :=
  if seen ≠ expected ∧ state ≠ .notFoundPersisted then .modified else state.outcome

/-- The outcomes that reports stand for. A report of the version waited for stands for its state,
and so does a persisted absence of any version. Any other report stands for a modified key. -/
inductive Outcome.OfReport (expected seen : UInt64) : KeyState → Outcome → Prop where
  | foundNotPersisted (h : seen = expected) :
      OfReport expected seen .foundNotPersisted .foundNotPersisted
  | foundPersisted (h : seen = expected) : OfReport expected seen .foundPersisted .foundPersisted
  | notFoundNotPersisted (h : seen = expected) :
      OfReport expected seen .notFoundNotPersisted .notFoundNotPersisted
  | notFoundPersisted : OfReport expected seen .notFoundPersisted .notFoundPersisted
  | modified {state : KeyState} (h : seen ≠ expected) (hstate : state ≠ .notFoundPersisted) :
      OfReport expected seen state .modified

-- Each report stands for one outcome.
theorem Outcome.classify_eq_iff {expected seen : UInt64} {state : KeyState} {o : Outcome} :
    classify expected seen state = o ↔ OfReport expected seen state o := by
  constructor
  · rintro rfl
    unfold classify
    split
    case isTrue h => exact .modified h.1 h.2
    case isFalse h =>
      have hseen : state ≠ .notFoundPersisted → seen = expected := fun hstate =>
        Decidable.byContradiction fun hne => h ⟨hne, hstate⟩
      cases state with
      | notFoundPersisted => exact .notFoundPersisted
      | foundNotPersisted => exact .foundNotPersisted (hseen nofun)
      | foundPersisted => exact .foundPersisted (hseen nofun)
      | notFoundNotPersisted => exact .notFoundNotPersisted (hseen nofun)
  · intro h
    cases h with
    | foundNotPersisted h => exact if_neg fun hne => hne.1 h
    | foundPersisted h => exact if_neg fun hne => hne.1 h
    | notFoundNotPersisted h => exact if_neg fun hne => hne.1 h
    | notFoundPersisted => exact if_neg fun hne => hne.2 rfl
    | modified h hstate => exact if_pos ⟨h, hstate⟩

end ClusterClient
