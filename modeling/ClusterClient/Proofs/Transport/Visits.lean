import ClusterClient.Proofs.Provider.Attempts
import ClusterClient.Transport.SeedSequence
/-!
# Asking seeds in order

A fetch asks the seeds in order, each when the one before it is done, until one serves a body that
is not blank. Without such a seed it asks all of them, once each, and leaves the last failure.
-/

namespace ClusterClient.SeedSequence

variable {limit : Duration} {seeds before rest : List Seed} {s : Seed} {e : TransportError}

/-! ## What comes of a seed -/

/-- What a seed gives that is asked for its descriptor and waited for to a limit. -/
inductive Seed.Gives (s : Seed) (limit : Duration) : Except TransportError String → Prop where
  | body {tick : Nat} {status : HttpStatus} {body : String}
      (hresponse : s.response = ⟨some tick, .served status body⟩) (htick : tick ≤ limit.ticks)
      (hstatus : 200 ≤ status.code ∧ status.code < 300) : Gives s limit (.ok body)
  | refused {tick : Nat} {status : HttpStatus} {body : String}
      (hresponse : s.response = ⟨some tick, .served status body⟩) (htick : tick ≤ limit.ticks)
      (hstatus : ¬(200 ≤ status.code ∧ status.code < 300)) :
      Gives s limit (.error (.http s!"{s.url} returned {status.text}"))
  | broken {tick : Nat} {detail : String} (hresponse : s.response = ⟨some tick, .broken detail⟩)
      (htick : tick ≤ limit.ticks) : Gives s limit (.error (.http detail))
  -- No response is there in time.
  | late (h : ∀ tick, s.response.after = some tick → limit.ticks < tick) :
      Gives s limit (.error (.http "operation timed out"))

theorem Seed.body_eq_iff {result : Except TransportError String} :
    s.body limit = result ↔ s.Gives limit result := by
  constructor
  · rintro rfl
    cases hwithin : s.response.within? limit.ticks with
    | none =>
      rw [Seed.body, hwithin]
      exact .late (Delivery.within?_eq_none_iff.mp hwithin)
    | some response =>
      rw [Seed.body, hwithin]
      obtain ⟨tick, hresponse, htick⟩ := Delivery.within?_eq_some_iff.mp hwithin
      cases response with
      | broken detail => exact .broken hresponse htick
      | served status body =>
        show s.Gives limit (if status.isSuccess then _ else _)
        split
        case isTrue hstatus =>
          exact .body hresponse htick (HttpStatus.isSuccess_iff.mp hstatus)
        case isFalse hstatus =>
          exact .refused hresponse htick (mt HttpStatus.isSuccess_iff.mpr hstatus)
  · intro h
    rw [Seed.body]
    cases h with
    | body hresponse htick hstatus =>
      rw [Delivery.within?_eq_some_iff.mpr ⟨_, hresponse, htick⟩]
      exact if_pos (HttpStatus.isSuccess_iff.mpr hstatus)
    | refused hresponse htick hstatus =>
      rw [Delivery.within?_eq_some_iff.mpr ⟨_, hresponse, htick⟩]
      exact if_neg (mt HttpStatus.isSuccess_iff.mp hstatus)
    | broken hresponse htick => rw [Delivery.within?_eq_some_iff.mpr ⟨_, hresponse, htick⟩]
    | late h => rw [Delivery.within?_eq_none_iff.mpr h]

/-- A seed serves a body that is not blank. -/
def Seed.Serves (s : Seed) (limit : Duration) (body : String) : Prop :=
  s.Gives limit (.ok body) ∧ ¬Text.IsBlank body

/-- A seed serves a blank body. -/
def Seed.ServesBlank (s : Seed) (limit : Duration) : Prop :=
  ∃ body, s.Gives limit (.ok body) ∧ Text.IsBlank body

/-- No seed serves a body that is not blank. -/
def NoneServes (limit : Duration) (seeds : List Seed) : Prop :=
  ∀ s ∈ seeds, ∀ body, ¬ s.Serves limit body

theorem Seed.ServesBlank.not_serves (h : s.ServesBlank limit) (body : String) :
    ¬ s.Serves limit body := by
  obtain ⟨blank, hgives, hblank⟩ := h
  rintro ⟨hgives', hbody⟩
  cases (body_eq_iff.mpr hgives).symm.trans (body_eq_iff.mpr hgives')
  exact hbody hblank

-- Each failure of a seed is one over HTTP, and so none says that no seed has answered.
theorem Seed.Gives.ne_noResponse (h : s.Gives limit (.error e)) : e ≠ .noResponse := by
  cases h <;> nofun

-- A seed that serves nothing fails or serves a blank body.
theorem Seed.blank_or_error (h : ∀ body, ¬ s.Serves limit body) :
    s.ServesBlank limit ∨ ∃ e, s.Gives limit (.error e) := by
  cases hbody : s.body limit with
  | error e => exact .inr ⟨e, body_eq_iff.mp hbody⟩
  | ok body =>
    have hgives := body_eq_iff.mp hbody
    by_cases hblank : Text.IsBlank body
    · exact .inl ⟨body, hgives, hblank⟩
    · exact absurd ⟨hgives, hblank⟩ (h body)

/-! ## Visits -/

/-- A seed that is asked, and the tick at which it is. -/
structure Visit where
  tick : Nat
  seed : Seed

/-- The fetch, which also keeps its visits. -/
def traceFrom (limit : Duration) (tick : Nat) (last : TransportError) :
    List Seed → List Visit × Delivery FetchResult
  | [] => ([], ⟨some tick, .failed last⟩)
  | s :: rest =>
    let next := tick + s.response.waited limit.ticks
    match s.body limit with
    | .ok body =>
      if Text.isBlank body then
        let (visits, d) := traceFrom limit next last rest
        (⟨tick, s⟩ :: visits, d)
      else ([⟨tick, s⟩], ⟨some next, .descriptors [⟨s.host, body⟩]⟩)
    | .error e =>
      let (visits, d) := traceFrom limit next e rest
      (⟨tick, s⟩ :: visits, d)

def trace (limit : Duration) (seeds : List Seed) : List Visit × Delivery FetchResult :=
  traceFrom limit 0 .noResponse seeds

-- Keeping the visits changes nothing.
theorem traceFrom_snd (limit : Duration) (tick : Nat) (last : TransportError) (seeds : List Seed) :
    (traceFrom limit tick last seeds).2 = fetchFrom limit tick last seeds := by
  induction seeds generalizing tick last with
  | nil => rfl
  | cons s rest ih =>
    rw [traceFrom, fetchFrom]
    cases s.body limit with
    | error e => exact ih _ _
    | ok body =>
      cases hblank : Text.isBlank body with
      | true =>
        simp only [hblank, if_true]
        exact ih _ _
      | false => simp only [hblank, Bool.false_eq_true, if_false]

theorem trace_snd (limit : Duration) (seeds : List Seed) :
    (trace limit seeds).2 = fetch limit seeds :=
  traceFrom_snd limit 0 .noResponse seeds

/-- Seeds that are asked one after the other, the first one at a tick. -/
def schedule (limit : Duration) (tick : Nat) : List Seed → List Visit
  | [] => []
  | s :: rest => ⟨tick, s⟩ :: schedule limit (tick + s.response.waited limit.ticks) rest

/-- The ticks that it takes to ask seeds one after the other. -/
def waits (limit : Duration) : List Seed → Nat
  | [] => 0
  | s :: rest => s.response.waited limit.ticks + waits limit rest

theorem waits_append (limit : Duration) (before rest : List Seed) :
    waits limit (before ++ rest) = waits limit before + waits limit rest := by
  induction before with
  | nil => exact (Nat.zero_add _).symm
  | cons s before ih => rw [List.cons_append, waits, waits, ih, Nat.add_assoc]

theorem waits_singleton (limit : Duration) (s : Seed) :
    waits limit [s] = s.response.waited limit.ticks :=
  Nat.add_zero _

theorem schedule_append (limit : Duration) (tick : Nat) (before rest : List Seed) :
    schedule limit tick (before ++ rest) =
      schedule limit tick before ++ schedule limit (tick + waits limit before) rest := by
  induction before generalizing tick with
  | nil => rfl
  | cons s before ih =>
    rw [List.cons_append, schedule, schedule, ih, List.cons_append, waits, Nat.add_assoc]

/-- The last failure of some seeds after an earlier one; a blank body does not replace it. -/
def lastFailure (limit : Duration) (last : TransportError) (seeds : List Seed) : TransportError :=
  seeds.foldl (fun last s => match s.body limit with | .ok _ => last | .error e => e) last

/-- Seeds that serve nothing are passed over, and leave their last failure. -/
theorem traceFrom_append (h : NoneServes limit before) (tick : Nat) (last : TransportError) :
    traceFrom limit tick last (before ++ rest) =
      let t := traceFrom limit (tick + waits limit before) (lastFailure limit last before) rest
      (schedule limit tick before ++ t.1, t.2) := by
  induction before generalizing tick last with
  | nil => rfl
  | cons s before ih =>
    rw [NoneServes, List.forall_mem_cons] at h
    have hwaits : tick + waits limit (s :: before) =
        tick + s.response.waited limit.ticks + waits limit before := by
      rw [waits, Nat.add_assoc]
    rw [List.cons_append, traceFrom, hwaits, schedule]
    cases hbody : s.body limit with
    | error e =>
      have hlast : lastFailure limit last (s :: before) = lastFailure limit e before := by
        rw [lastFailure, List.foldl_cons, hbody]
        rfl
      rw [hlast]
      simp only [ih h.2]
      rfl
    | ok body =>
      have hblank : Text.isBlank body = true := by
        refine Bool.of_not_eq_false fun hbody' => ?_
        exact h.1 body ⟨Seed.body_eq_iff.mp hbody, Text.isBlank_eq_false_iff.mp hbody'⟩
      have hlast : lastFailure limit last (s :: before) = lastFailure limit last before := by
        rw [lastFailure, List.foldl_cons, hbody]
        rfl
      rw [hlast]
      simp only [hblank, if_true, ih h.2]
      rfl

-- The first seed that serves a body ends the fetch.
theorem trace_of_serves {after : List Seed} {body : String} (hbefore : NoneServes limit before)
    (hs : s.Serves limit body) :
    trace limit (before ++ s :: after) =
      (schedule limit 0 (before ++ [s]),
        ⟨some (waits limit (before ++ [s])), .descriptors [⟨s.host, body⟩]⟩) := by
  rw [trace, traceFrom_append hbefore, traceFrom, Seed.body_eq_iff.mpr hs.1, waits_append,
    waits_singleton, schedule_append, Nat.zero_add]
  simp only [Text.isBlank_eq_false_iff.mpr hs.2, Bool.false_eq_true, if_false]
  rfl

theorem fetch_of_serves {after : List Seed} {body : String} (hbefore : NoneServes limit before)
    (hs : s.Serves limit body) :
    fetch limit (before ++ s :: after) =
      ⟨some (waits limit (before ++ [s])), .descriptors [⟨s.host, body⟩]⟩ := by
  rw [← trace_snd, trace_of_serves hbefore hs]

-- Without such a seed the fetch ends with the last one.
theorem trace_of_noneServes (h : NoneServes limit seeds) :
    trace limit seeds =
      (schedule limit 0 seeds,
        ⟨some (waits limit seeds), .failed (lastFailure limit .noResponse seeds)⟩) := by
  have htrace : traceFrom limit 0 .noResponse (seeds ++ []) = _ := traceFrom_append h 0 .noResponse
  simp only [List.append_nil, Nat.zero_add, traceFrom] at htrace
  exact htrace

theorem lastFailure_append (last : TransportError) (before rest : List Seed) :
    lastFailure limit last (before ++ rest) =
      lastFailure limit (lastFailure limit last before) rest :=
  List.foldl_append

theorem lastFailure_of_blank {last : TransportError} (h : ∀ s ∈ seeds, s.ServesBlank limit) :
    lastFailure limit last seeds = last := by
  induction seeds with
  | nil => rfl
  | cons s rest ih =>
    rw [List.forall_mem_cons] at h
    obtain ⟨⟨body, hgives, -⟩, hrest⟩ := h
    rw [lastFailure, List.foldl_cons, Seed.body_eq_iff.mpr hgives]
    exact ih hrest

theorem lastFailure_of_error {last : TransportError} {after : List Seed}
    (hs : s.Gives limit (.error e)) (hafter : ∀ x ∈ after, x.ServesBlank limit) :
    lastFailure limit last (before ++ s :: after) = e := by
  rw [lastFailure_append, lastFailure, List.foldl_cons, Seed.body_eq_iff.mpr hs]
  exact lastFailure_of_blank hafter

/-! ## How a fetch goes -/

/-- The ways in which a fetch goes: the seeds that it asks, in order, and what comes of it. -/
inductive Fetches (limit : Duration) (seeds : List Seed) : List Seed → FetchResult → Prop where
  | served {before after : List Seed} {s : Seed} {body : String}
      (hseeds : seeds = before ++ s :: after) (hbefore : NoneServes limit before)
      (hs : s.Serves limit body) :
      Fetches limit seeds (before ++ [s]) (.descriptors [⟨s.host, body⟩])
  -- The last failure counts, whatever blank bodies come after it.
  | failed {before after : List Seed} {s : Seed} {e : TransportError}
      (hseeds : seeds = before ++ s :: after) (hnone : NoneServes limit seeds)
      (hs : s.Gives limit (.error e)) (hafter : ∀ x ∈ after, x.ServesBlank limit) :
      Fetches limit seeds seeds (.failed e)
  | blank (h : ∀ s ∈ seeds, s.ServesBlank limit) :
      Fetches limit seeds seeds (.failed .noResponse)

variable {asked : List Seed} {result : FetchResult}

theorem Fetches.trace_eq (h : Fetches limit seeds asked result) :
    trace limit seeds = (schedule limit 0 asked, ⟨some (waits limit asked), result⟩) := by
  cases h with
  | served hseeds hbefore hs => rw [hseeds, trace_of_serves hbefore hs]
  | failed hseeds hnone hs hafter =>
    rw [trace_of_noneServes hnone]
    conv in lastFailure _ _ _ => rw [hseeds, lastFailure_of_error hs hafter]
  | blank h =>
    have hnone : NoneServes limit seeds := fun s hs => (h s hs).not_serves
    rw [trace_of_noneServes hnone, lastFailure_of_blank h]

theorem noneServes_or_first (limit : Duration) (seeds : List Seed) :
    NoneServes limit seeds ∨ ∃ before s after body, seeds = before ++ s :: after ∧
      NoneServes limit before ∧ s.Serves limit body := by
  induction seeds with
  | nil => exact .inl nofun
  | cons s rest ih =>
    by_cases hs : ∃ body, s.Serves limit body
    · obtain ⟨body, hs⟩ := hs
      exact .inr ⟨[], s, rest, body, rfl, nofun, hs⟩
    · rw [not_exists] at hs
      rcases ih with hnone | ⟨before, x, after, body, rfl, hbefore, hx⟩
      · exact .inl (List.forall_mem_cons.mpr ⟨hs, hnone⟩)
      · exact .inr ⟨s :: before, x, after, body, rfl, List.forall_mem_cons.mpr ⟨hs, hbefore⟩, hx⟩

theorem blank_or_last (h : NoneServes limit seeds) :
    (∀ s ∈ seeds, s.ServesBlank limit) ∨ ∃ before s after e, seeds = before ++ s :: after ∧
      s.Gives limit (.error e) ∧ ∀ x ∈ after, x.ServesBlank limit := by
  induction seeds with
  | nil => exact .inl nofun
  | cons s rest ih =>
    rw [NoneServes, List.forall_mem_cons] at h
    rcases ih h.2 with hblank | ⟨before, x, after, e, rfl, hx, hafter⟩
    · rcases Seed.blank_or_error h.1 with hs | ⟨e, hs⟩
      · exact .inl (List.forall_mem_cons.mpr ⟨hs, hblank⟩)
      · exact .inr ⟨[], s, rest, e, rfl, hs, hblank⟩
    · exact .inr ⟨s :: before, x, after, e, rfl, hx, hafter⟩

theorem exists_fetches (limit : Duration) (seeds : List Seed) :
    ∃ asked result, Fetches limit seeds asked result := by
  rcases noneServes_or_first limit seeds with hnone | ⟨before, s, after, body, hseeds, hbefore, hs⟩
  · rcases blank_or_last hnone with hblank | ⟨before, s, after, e, hseeds, hs, hafter⟩
    · exact ⟨_, _, .blank hblank⟩
    · exact ⟨_, _, .failed hseeds hnone hs hafter⟩
  · exact ⟨_, _, .served hseeds hbefore hs⟩

theorem map_seed_schedule (limit : Duration) (tick : Nat) (seeds : List Seed) :
    (schedule limit tick seeds).map (·.seed) = seeds := by
  induction seeds generalizing tick with
  | nil => rfl
  | cons s rest ih => rw [schedule, List.map_cons, ih]

-- A fetch goes in one way only.
theorem Fetches.unique {asked' : List Seed} {result' : FetchResult}
    (h : Fetches limit seeds asked result) (h' : Fetches limit seeds asked' result') :
    asked' = asked ∧ result' = result := by
  obtain ⟨hvisits, hdelivery⟩ := Prod.mk.inj (h'.trace_eq.symm.trans h.trace_eq)
  refine ⟨?_, (Delivery.mk.inj hdelivery).2⟩
  rw [← map_seed_schedule limit 0 asked', hvisits, map_seed_schedule]

theorem Fetches.noResponse_iff (h : Fetches limit seeds asked result) :
    result = .failed .noResponse ↔ ∀ s ∈ seeds, s.ServesBlank limit := by
  constructor
  · rintro rfl
    cases h with
    | failed _ _ hs => exact absurd rfl hs.ne_noResponse
    | blank h => exact h
  · intro hblank
    exact (h.unique (.blank hblank)).2.symm

/-- A fetch asks the seeds in order, each at the tick at which the one before is done, and it stops
at the first that serves a body which is not blank: that body is all that it delivers. If none does,
it asks every seed once and leaves the last failure, and that no seed has answered exactly if none
has failed. -/
theorem fetch_asks_in_order (limit : Duration) (seeds : List Seed) :
    ∃ asked result, Fetches limit seeds asked result ∧
      (∀ asked' result', Fetches limit seeds asked' result' →
        asked' = asked ∧ result' = result) ∧
      trace limit seeds = (schedule limit 0 asked, fetch limit seeds) ∧
      fetch limit seeds = ⟨some (waits limit asked), result⟩ ∧
      (result = .failed .noResponse ↔ ∀ s ∈ seeds, s.ServesBlank limit) := by
  obtain ⟨asked, result, h⟩ := exists_fetches limit seeds
  have hfetch : fetch limit seeds = ⟨some (waits limit asked), result⟩ := by
    rw [← trace_snd, h.trace_eq]
  refine ⟨asked, result, h, fun _ _ => h.unique, ?_, hfetch, h.noResponse_iff⟩
  rw [h.trace_eq, hfetch]

-- A blank body does not hide the failure before it.
example :
    fetch (.ofMillis 20) [⟨"http://a", "a", ⟨some 2, .served ⟨401⟩ ""⟩⟩,
      ⟨"http://b", "b", ⟨some 3, .served ⟨200⟩ " "⟩⟩] =
        ⟨some 5, .failed (.http "http://a returned 401 Unauthorized")⟩ := by
  decide +kernel

end ClusterClient.SeedSequence
