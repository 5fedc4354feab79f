import ClusterClient.Proofs.Provider.Revisions
import ClusterClient.Proofs.Topology.WholeTexts
import ClusterClient.Proofs.Transport.Visits
import ClusterClient.Settings
/-!
# The time of an attempt over HTTP

A client waits for each HTTP seed as long as for the attempt as a whole. So an attempt obtains the
descriptor of the first seed that has one exactly if the seeds before it have left enough of that
time, and one seed that never answers leaves nothing of it.
-/

namespace ClusterClient

/-! ## Waiting for seeds -/

theorem Delivery.waited_of_arrived {α : Type} {window tick : Nat} {result : α}
    (h : tick ≤ window) : (⟨some tick, result⟩ : Delivery α).waited window = tick := by
  rw [waited, arrival?, Option.filter_some, if_pos (decide_eq_true h), Option.getD_some]

namespace SeedSequence

variable {limit : Duration} {before : List Seed}

-- One seed that never answers takes all the time of an attempt.
theorem limit_le_waits (h : ∃ b ∈ before, b.response.after = none) :
    limit.ticks ≤ waits limit before := by
  obtain ⟨b, hb, hnever⟩ := h
  have hwaited : b.response.waited limit.ticks = limit.ticks := by
    rw [Delivery.waited, Delivery.arrival?, hnever, Option.filter_none, Option.getD_none]
  obtain ⟨xs, ys, rfl⟩ := List.append_of_mem hb
  rw [waits_append, waits, hwaited]
  omega

end SeedSequence

/-! ## Attempts -/

open SeedSequence

/-- What the attempt of a client at its HTTP seeds gives. One of its settings limits the request to
each seed and the attempt as a whole. -/
def Settings.AttemptsHttp (st : Settings) (seeds : List Seed) (result : Except AttemptError Table) :
    Prop :=
  Attempted .http st.maxReplicas st.configTimeout (fetch st.configTimeout seeds) result

namespace Settings

variable {st : Settings} {before : List Seed} {s : Seed} {body : String} {t : Table}

theorem attemptsHttp_of_le (after : List Seed) (hbefore : NoneServes st.configTimeout before)
    (hs : s.Serves st.configTimeout body) (hparse : Table.parse body st.maxReplicas = .ok t)
    (htime : waits st.configTimeout (before ++ [s]) ≤ st.configTimeout.ticks) :
    st.AttemptsHttp (before ++ s :: after) (.ok t) := by
  have hyields : Yields .http st.maxReplicas [⟨s.host, body⟩] (.ok t) :=
    .table ⟨[], [], rfl, nofun, hs.2⟩ .http hparse
  rw [AttemptsHttp, fetch_of_serves hbefore hs]
  exact .answered rfl htime hyields

theorem attemptsHttp_of_lt (after : List Seed) (hbefore : NoneServes st.configTimeout before)
    (hs : s.Serves st.configTimeout body)
    (htime : st.configTimeout.ticks < waits st.configTimeout (before ++ [s])) :
    st.AttemptsHttp (before ++ s :: after)
      (.error (.transport (.timeout st.configTimeout))) := by
  rw [AttemptsHttp, fetch_of_serves hbefore hs]
  refine .abandoned fun tick htick => ?_
  cases htick
  exact htime

/-- The attempt of a client obtains the descriptor of the first seed that serves one exactly if it
is there before the time is over that the attempt has for this seed and for all before it; otherwise
the attempt is given up. Seeds that never answer are waited for all that time, so that behind one of
them only a seed could be in time that needs no time itself. -/
theorem attempt_obtains_iff_in_time {tick : Nat} {status : HttpStatus} (after : List Seed)
    (hbefore : NoneServes st.configTimeout before)
    (hresponse : s.response = ⟨some tick, .served status body⟩)
    (htick : tick ≤ st.configTimeout.ticks) (hstatus : status.isSuccess = true)
    (hparse : Table.parse body st.maxReplicas = .ok t) :
    let spent := waits st.configTimeout before + tick
    (st.AttemptsHttp (before ++ s :: after) (.ok t) ↔ spent ≤ st.configTimeout.ticks) ∧
      (st.AttemptsHttp (before ++ s :: after) (.error (.transport (.timeout st.configTimeout))) ↔
        st.configTimeout.ticks < spent) ∧
      ((∃ b ∈ before, b.response.after = none) → 0 < tick → st.configTimeout.ticks < spent) := by
  intro spent
  have hblank : ¬Text.IsBlank body := fun hblank => by
    cases hparse.symm.trans (Table.parse_of_isBlank hblank st.maxReplicas)
  have hs : s.Serves st.configTimeout body :=
    ⟨.body hresponse htick (HttpStatus.isSuccess_iff.mp hstatus), hblank⟩
  have hspent : waits st.configTimeout (before ++ [s]) = spent := by
    rw [waits_append, waits_singleton, hresponse, Delivery.waited_of_arrived htick]
  have hobtains := attemptsHttp_of_le after hbefore hs hparse
  have hgivesUp := attemptsHttp_of_lt after hbefore hs
  rw [hspent] at hobtains hgivesUp
  refine ⟨⟨fun h => ?_, hobtains⟩, ⟨fun h => ?_, hgivesUp⟩, fun hnever hpos => ?_⟩
  · exact Nat.le_of_not_lt fun hlate => by cases h.unique (hgivesUp hlate)
  · exact Nat.lt_of_not_le fun hintime => by cases h.unique (hobtains hintime)
  · have hle : st.configTimeout.ticks ≤ waits st.configTimeout before := limit_le_waits hnever
    exact Nat.lt_of_le_of_lt hle (Nat.lt_add_of_pos_right hpos)

/-! ## Seeds that leave time and seeds that do not -/

/-- A client of two seeds that gives each attempt twenty ticks. -/
def hurried : Settings := { seedHosts := ["a", "b"], configTimeout := .ofMillis 20 }

def hurriedSeed (host : String) (response : Delivery Response) : Seed :=
  ⟨s!"http://{host}:8091/pools/default/buckets/default", host, response⟩

def soloServed (tick : Nat) : Delivery Response := ⟨some tick, .served ⟨200⟩ (System.soloText "1")⟩

theorem soloText_parses :
    Table.parse (System.soloText "1") hurried.maxReplicas = .ok (System.soloTable 1) := by
  decide +kernel

theorem attempt_obtains_after_refusal :
    let refusing := hurriedSeed "a" ⟨some 5, .served ⟨401⟩ ""⟩
    let serving := hurriedSeed "b" (soloServed 10)
    NoneServes hurried.configTimeout [refusing] ∧
      10 ≤ hurried.configTimeout.ticks ∧ (⟨200⟩ : HttpStatus).isSuccess = true ∧
      waits hurried.configTimeout [refusing] + 10 = 15 ∧
      hurried.AttemptsHttp [refusing, serving] (.ok (System.soloTable 1)) := by
  intro refusing serving
  have hnone : NoneServes hurried.configTimeout [refusing] := by
    intro x hx body hserves
    rw [List.mem_singleton.mp hx] at hserves
    cases hserves.1 with
    | body hresponse _ hstatus =>
      cases hresponse
      exact absurd hstatus (by decide)
  have hlimit : 10 ≤ hurried.configTimeout.ticks := by decide +kernel
  have hspent : waits hurried.configTimeout [refusing] + 10 = 15 := by decide +kernel
  have hresponse : serving.response = ⟨some 10, .served ⟨200⟩ (System.soloText "1")⟩ := rfl
  have hobtains := attempt_obtains_iff_in_time [] hnone hresponse hlimit (by decide) soloText_parses
  exact ⟨hnone, hlimit, by decide, hspent, hobtains.1.mpr (by decide +kernel)⟩

/-- Behind a seed that never answers, a seed with a descriptor is asked when no time is left: the
fetch would bring the descriptor, and the attempt is given up. -/
theorem attempt_lost_behind_silent_seed :
    let silent := hurriedSeed "a" ⟨none, .broken ""⟩
    let serving := hurriedSeed "b" (soloServed 3)
    [silent, serving].map (·.url) = hurried.httpSeeds ∧
      NoneServes hurried.configTimeout [silent] ∧
      fetch hurried.configTimeout [silent, serving] =
        ⟨some 23, .descriptors [⟨"b", System.soloText "1"⟩]⟩ ∧
      Table.parse (System.soloText "1") hurried.maxReplicas = .ok (System.soloTable 1) ∧
      hurried.AttemptsHttp [silent, serving]
        (.error (.transport (.timeout hurried.configTimeout))) ∧
      ¬ hurried.AttemptsHttp [silent, serving] (.ok (System.soloTable 1)) := by
  intro silent serving
  have hnone : NoneServes hurried.configTimeout [silent] := by
    intro x hx body hserves
    rw [List.mem_singleton.mp hx] at hserves
    cases hserves.1 with
    | body hresponse _ _ => cases hresponse
  have hserves : serving.Serves hurried.configTimeout (System.soloText "1") :=
    ⟨.body rfl (by decide +kernel) (by decide), by decide +kernel⟩
  have hfetch : fetch hurried.configTimeout [silent, serving] =
      ⟨some 23, .descriptors [⟨"b", System.soloText "1"⟩]⟩ := by
    decide +kernel
  have hgivesUp : hurried.AttemptsHttp [silent, serving]
      (.error (.transport (.timeout hurried.configTimeout))) :=
    attemptsHttp_of_lt [] hnone hserves (by decide +kernel)
  exact ⟨by decide +kernel, hnone, hfetch, soloText_parses, hgivesUp,
    fun hobtains => nomatch hgivesUp.unique hobtains⟩

end Settings

end ClusterClient
