import ClusterClient.Proofs.ReplicaRead.Arrivals
import ClusterClient.Transport.Exchange
import ClusterClient.Transport.SeedRace
import Mathlib.Data.List.Induction
/-!
# Looking at replies as they come

A fetch that asks all seeds at once looks at their replies as they come, and those of one tick may
come in any order. In every order the first descriptor wins, at the tick at which it is there, and
nothing depends on what the other seeds do.
-/

namespace ClusterClient

-- A request is given up when its limit is over.
theorem Peer.exchange_ends (p : Peer) (limit : Duration) (request : Envelope) :
    ∃ tick, (p.exchange limit request).after = some tick ∧ tick ≤ limit.ticks := by
  have harrival : ∀ tick, (p.answer request).arrival? limit.ticks = some tick →
      tick ≤ limit.ticks := fun tick h => (Delivery.arrival?_eq_some_iff.mp h).2
  simp only [exchange]
  split
  · rename_i tick _ h
    exact ⟨tick, rfl, harrival tick h⟩
  · exact ⟨0, rfl, Nat.zero_le _⟩
  · rename_i tick _ _ h
    exact ⟨tick, rfl, harrival tick h⟩
  · exact ⟨limit.ticks, rfl, Nat.le_refl _⟩

namespace SeedRace

variable {now tick : Nat} {text : String} {s : Seed} {before after seeds : List Seed}
  {d : Delivery FetchResult}

/-! ## Descriptors in replies -/

/-- A seed replies with a descriptor that is not blank, so many ticks after it was asked. -/
def Seed.Offers (s : Seed) (tick : Nat) (text : String) : Prop :=
  s.reply = ⟨some tick, .ok (.config (some text))⟩ ∧ ¬Text.IsBlank text

/-- A seed has replied with such a descriptor by a tick. -/
def Seed.OffersBy (s : Seed) (tick : Nat) : Prop :=
  ∃ tick' text, s.Offers tick' text ∧ tick' ≤ tick

/-- A seed fails, has no descriptor, or never replies. -/
def Seed.OffersNothing (s : Seed) : Prop := ∀ tick text, ¬ s.Offers tick text

theorem Seed.Offers.after_eq (h : s.Offers tick text) : s.reply.after = some tick := by
  rw [h.1]

theorem Seed.Offers.unique {tick' : Nat} {text' : String} (h : s.Offers tick text)
    (h' : s.Offers tick' text') : tick = tick' ∧ text = text' := by
  cases h.1.symm.trans h'.1
  exact ⟨rfl, rfl⟩

theorem Seed.offersNothing_of_never (h : s.reply.after = none) : s.OffersNothing := by
  intro tick text hs
  cases h.symm.trans hs.after_eq

theorem usable?_eq_some_iff {result : Except TransportError Message} :
    usable? result = some text ↔
      result = .ok (.config (some text)) ∧ ¬Text.IsBlank text := by
  rw [← Text.isBlank_eq_false_iff]
  constructor
  · intro h
    unfold usable? at h
    split at h
    · rename_i found
      cases hblank : Text.isBlank found with
      | true => rw [hblank] at h; cases h
      | false =>
        rw [hblank] at h
        cases h
        exact ⟨rfl, hblank⟩
    · cases h
  · rintro ⟨rfl, hblank⟩
    rw [usable?, hblank]
    rfl

theorem Seed.finish?_eq_some_iff {x : RawDescriptor} :
    s.finish? = some (tick, x) ↔
      ∃ text, s.Offers tick text ∧ x = ⟨Address.host s.address, text⟩ := by
  obtain ⟨address, after, result⟩ := s
  constructor
  · intro h
    unfold finish? at h
    split at h
    · rename_i tick' text hafter husable
      obtain ⟨hresult, hblank⟩ := usable?_eq_some_iff.mp husable
      cases h
      exact ⟨text, ⟨congrArg₂ Delivery.mk hafter hresult, hblank⟩, rfl⟩
    · cases h
  · rintro ⟨text, ⟨hreply, hblank⟩, rfl⟩
    cases hreply
    rw [finish?, usable?_eq_some_iff.mpr ⟨rfl, hblank⟩]

theorem Seed.finish?_eq_none_iff : s.finish? = none ↔ s.OffersNothing := by
  constructor
  · intro hnone tick text hs
    cases hnone.symm.trans (finish?_eq_some_iff.mpr ⟨text, hs, rfl⟩)
  · intro h
    cases hfinish : s.finish? with
    | none => rfl
    | some y =>
      obtain ⟨text, hs, -⟩ := finish?_eq_some_iff.mp hfinish
      exact absurd hs (h _ _)

/-! ## The earliest of some results -/

theorem earliest?_eq_none_iff {α : Type} {l : List (Nat × α)} : earliest? l = none ↔ l = [] := by
  cases l with
  | nil => exact iff_of_true rfl rfl
  | cons x rest =>
    refine iff_of_false (fun h => ?_) (List.cons_ne_nil x rest)
    rw [earliest?] at h
    split at h
    · split at h <;> cases h
    · cases h

theorem earliest?_spec {α : Type} {l : List (Nat × α)} {y : Nat × α} (h : earliest? l = some y) :
    y ∈ l ∧ ∀ x ∈ l, y.1 ≤ x.1 := by
  induction l generalizing y with
  | nil => cases h
  | cons x rest ih =>
    rw [earliest?] at h
    cases hrest : earliest? rest with
    | none =>
      rw [hrest] at h
      cases h
      rw [earliest?_eq_none_iff.mp hrest]
      exact ⟨List.mem_singleton_self x, List.forall_mem_singleton.mpr (Nat.le_refl _)⟩
    | some z =>
      rw [hrest] at h
      obtain ⟨hz, hmin⟩ := ih hrest
      by_cases hlt : z.1 < x.1
      · simp only [if_pos hlt, Option.some.injEq] at h
        rw [← h]
        exact ⟨List.mem_cons_of_mem x hz, List.forall_mem_cons.mpr ⟨Nat.le_of_lt hlt, hmin⟩⟩
      · simp only [if_neg hlt, Option.some.injEq] at h
        rw [← h]
        have hle : x.1 ≤ z.1 := Nat.le_of_not_lt hlt
        exact ⟨List.mem_cons_self, List.forall_mem_cons.mpr
          ⟨Nat.le_refl _, fun w hw => Nat.le_trans hle (hmin w hw)⟩⟩

/-! ## Replies in the order in which they come -/

/-- The reply of a seed is there at a tick, and that of no other seed is there before. -/
structure Seed.IsNext (s : Seed) (tick : Nat) (others : List Seed) : Prop where
  after_eq : s.reply.after = some tick
  first : ∀ x ∈ others, ∀ tick', x.reply.after = some tick' → tick ≤ tick'

/-- What comes of a fetch that has come to a tick and still waits for some seeds: again and again it
takes a reply of which none is ahead. -/
inductive Gathers : Nat → List Seed → Delivery FetchResult → Prop where
  | exhausted {now : Nat} : Gathers now [] ⟨some now, .failed .noResponse⟩
  | wins {now tick : Nat} {before after : List Seed} {s : Seed} {text : String}
      (hnext : s.IsNext tick (before ++ after)) (hs : s.Offers tick text) :
      Gathers now (before ++ s :: after)
        ⟨some tick, .descriptors [⟨Address.host s.address, text⟩]⟩
  | passesOver {now tick : Nat} {before after : List Seed} {s : Seed} {d : Delivery FetchResult}
      (hnext : s.IsNext tick (before ++ after)) (hs : s.OffersNothing)
      (hrest : Gathers tick (before ++ after) d) : Gathers now (before ++ s :: after) d
  -- No reply comes any more.
  | waits {now : Nat} {seeds : List Seed} (hseeds : seeds ≠ [])
      (hnever : ∀ s ∈ seeds, s.reply.after = none) :
      Gathers now seeds ⟨none, .failed .noResponse⟩

/-- All seeds have replied by a tick, and it is that of a reply or the one from which they were
awaited. -/
structure IsLast (now last : Nat) (seeds : List Seed) : Prop where
  le : now ≤ last
  done : ∀ s ∈ seeds, ∃ tick, s.reply.after = some tick ∧ tick ≤ last
  reached : last = now ∨ ∃ s ∈ seeds, s.reply.after = some last

/-- What comes of such a fetch, said of the seeds and not of an order in which they reply. -/
inductive Races (now : Nat) (seeds : List Seed) : Delivery FetchResult → Prop where
  | won {tick : Nat} {s : Seed} {text : String} (hmem : s ∈ seeds) (hs : s.Offers tick text)
      (hfirst : ∀ x ∈ seeds, ∀ tick' text', x.Offers tick' text' → tick ≤ tick') :
      Races now seeds ⟨some tick, .descriptors [⟨Address.host s.address, text⟩]⟩
  | exhausted {last : Nat} (hnone : ∀ s ∈ seeds, s.OffersNothing) (hlast : IsLast now last seeds) :
      Races now seeds ⟨some last, .failed .noResponse⟩
  | endless {s : Seed} (hnone : ∀ s ∈ seeds, s.OffersNothing) (hmem : s ∈ seeds)
      (hnever : s.reply.after = none) : Races now seeds ⟨none, .failed .noResponse⟩

/-- No two seeds have their descriptors at one tick. -/
def Untied (seeds : List Seed) : Prop :=
  ∀ s ∈ seeds, ∀ s' ∈ seeds, ∀ tick text text', s.Offers tick text → s'.Offers tick text' → s = s'

/-- No reply of some seeds was there before a tick. -/
def Awaited (now : Nat) (seeds : List Seed) : Prop :=
  ∀ s ∈ seeds, ∀ tick, s.reply.after = some tick → now ≤ tick

theorem mem_middle_iff {x : Seed} :
    x ∈ before ++ s :: after ↔ x = s ∨ x ∈ before ++ after :=
  List.perm_middle.mem_iff.trans List.mem_cons

theorem forall_mem_middle_iff {p : Seed → Prop} :
    (∀ x ∈ before ++ s :: after, p x) ↔ p s ∧ ∀ x ∈ before ++ after, p x := by
  simp only [mem_middle_iff, forall_eq_or_imp]

theorem IsLast.not_never {last : Nat} (h : IsLast now last seeds) (hs : s ∈ seeds) :
    s.reply.after ≠ none := by
  obtain ⟨tick, hafter, -⟩ := h.done s hs
  rw [hafter]
  exact Option.some_ne_none tick

theorem IsLast.unique {last last' : Nat} (h : IsLast now last seeds)
    (h' : IsLast now last' seeds) : last = last' := by
  have hle : ∀ {a b}, IsLast now a seeds → IsLast now b seeds → a ≤ b := by
    intro a b ha hb
    rcases ha.reached with rfl | ⟨s, hs, hafter⟩
    · exact hb.le
    · obtain ⟨tick, hafter', hle⟩ := hb.done s hs
      cases hafter.symm.trans hafter'
      exact hle
  exact Nat.le_antisymm (hle h h') (hle h' h)

theorem isLast_passOver_iff {last : Nat} (hnow : now ≤ tick)
    (hafter : s.reply.after = some tick) :
    IsLast now last (before ++ s :: after) ↔ IsLast tick last (before ++ after) := by
  constructor
  · rintro ⟨-, hdone, hreached⟩
    obtain ⟨⟨tick', hafter', hle⟩, hrest⟩ := forall_mem_middle_iff.mp hdone
    cases hafter.symm.trans hafter'
    refine ⟨hle, hrest, ?_⟩
    rcases hreached with rfl | ⟨x, hx, hlast⟩
    · exact .inl (Nat.le_antisymm hnow hle)
    · rcases mem_middle_iff.mp hx with rfl | hx
      · exact .inl (Option.some.inj (hlast.symm.trans hafter))
      · exact .inr ⟨x, hx, hlast⟩
  · rintro ⟨hle, hdone, hreached⟩
    refine ⟨Nat.le_trans hnow hle, forall_mem_middle_iff.mpr ⟨⟨tick, hafter, hle⟩, hdone⟩, .inr ?_⟩
    rcases hreached with rfl | ⟨x, hx, hlast⟩
    · exact ⟨s, mem_middle_iff.mpr (.inl rfl), hafter⟩
    · exact ⟨x, mem_middle_iff.mpr (.inr hx), hlast⟩

theorem races_nil_iff : Races now [] d ↔ d = ⟨some now, .failed .noResponse⟩ := by
  have hlast : IsLast now now [] := ⟨Nat.le_refl _, nofun, .inl rfl⟩
  constructor
  · intro h
    cases h with
    | won hmem => cases hmem
    | exhausted _ hlast' => rw [hlast.unique hlast']
    | endless _ hmem => cases hmem
  · rintro rfl
    exact .exhausted nofun hlast

/-- To pass over a reply without a descriptor leaves open what it left open before. -/
theorem races_passOver_iff (hawaited : Awaited now (before ++ s :: after))
    (hnext : s.IsNext tick (before ++ after)) (hs : s.OffersNothing) :
    Races now (before ++ s :: after) d ↔ Races tick (before ++ after) d := by
  have hnow : now ≤ tick :=
    hawaited s (mem_middle_iff.mpr (.inl rfl)) tick hnext.after_eq
  constructor
  · intro h
    cases h with
    | won hmem hx hfirst =>
      refine .won ?_ hx (forall_mem_middle_iff.mp hfirst).2
      exact (mem_middle_iff.mp hmem).resolve_left fun heq => hs _ _ (heq ▸ hx)
    | exhausted hnone hlast =>
      exact .exhausted (forall_mem_middle_iff.mp hnone).2
        ((isLast_passOver_iff hnow hnext.after_eq).mp hlast)
    | endless hnone hmem hnever =>
      refine .endless (forall_mem_middle_iff.mp hnone).2 ?_ hnever
      refine (mem_middle_iff.mp hmem).resolve_left fun heq => ?_
      rw [heq, hnext.after_eq] at hnever
      cases hnever
  · intro h
    cases h with
    | won hmem hx hfirst =>
      refine .won (mem_middle_iff.mpr (.inr hmem)) hx (forall_mem_middle_iff.mpr ⟨?_, hfirst⟩)
      exact fun tick' text' hs' => absurd hs' (hs tick' text')
    | exhausted hnone hlast =>
      exact .exhausted (forall_mem_middle_iff.mpr ⟨hs, hnone⟩)
        ((isLast_passOver_iff hnow hnext.after_eq).mpr hlast)
    | endless hnone hmem hnever =>
      exact .endless (forall_mem_middle_iff.mpr ⟨hs, hnone⟩) (mem_middle_iff.mpr (.inr hmem)) hnever

-- Every race of the seeds ends at one tick, and in one way unless there is a tie.
theorem Races.unique {d' : Delivery FetchResult} (h : Races now seeds d)
    (h' : Races now seeds d') : d.after = d'.after ∧ (Untied seeds → d = d') := by
  cases h with
  | won hmem hs hfirst =>
    cases h' with
    | won hmem' hs' hfirst' =>
      obtain rfl := Nat.le_antisymm (hfirst _ hmem' _ _ hs') (hfirst' _ hmem _ _ hs)
      refine ⟨rfl, fun huntied => ?_⟩
      obtain rfl := huntied _ hmem _ hmem' _ _ _ hs hs'
      rw [(hs.unique hs').2]
    | exhausted hnone => exact absurd hs (hnone _ hmem _ _)
    | endless hnone => exact absurd hs (hnone _ hmem _ _)
  | exhausted hnone hlast =>
    cases h' with
    | won hmem hs => exact absurd hs (hnone _ hmem _ _)
    | exhausted _ hlast' =>
      obtain rfl := hlast.unique hlast'
      exact ⟨rfl, fun _ => rfl⟩
    | endless _ hmem hnever => exact absurd hnever (hlast.not_never hmem)
  | endless hnone hmem hnever =>
    cases h' with
    | won hmem hs => exact absurd hs (hnone _ hmem _ _)
    | exhausted _ hlast => exact absurd hnever (hlast.not_never hmem)
    | endless => exact ⟨rfl, fun _ => rfl⟩

-- Whatever is still awaited then is not there before.
theorem Seed.IsNext.awaited (h : s.IsNext tick seeds) : Awaited tick seeds := h.first

theorem Gathers.races (h : Gathers now seeds d) (hawaited : Awaited now seeds) :
    Races now seeds d := by
  induction h with
  | exhausted => exact races_nil_iff.mpr rfl
  | @wins _ tick _ _ s text hnext hs =>
    refine .won (mem_middle_iff.mpr (.inl rfl)) hs (forall_mem_middle_iff.mpr ⟨?_, ?_⟩)
    · exact fun tick' text' hs' => Nat.le_of_eq (hs.unique hs').1
    · exact fun x hx tick' text' hx' => hnext.first x hx tick' hx'.after_eq
  | passesOver hnext hs _ ih =>
    exact (races_passOver_iff hawaited hnext hs).mpr (ih hnext.awaited)
  | waits hseeds hnever =>
    obtain ⟨s, hs⟩ := List.exists_mem_of_ne_nil _ hseeds
    exact .endless (fun x hx => Seed.offersNothing_of_never (hnever x hx)) hs (hnever s hs)

-- If any reply comes, there is one that no other is ahead of.
theorem never_or_first (seeds : List Seed) :
    (∀ s ∈ seeds, s.reply.after = none) ∨ ∃ s ∈ seeds, ∃ tick, s.reply.after = some tick ∧
      Awaited tick seeds := by
  have hmem : ∀ s ∈ seeds, ∀ tick, s.reply.after = some tick →
      (tick, s) ∈ seeds.filterMap fun s => s.reply.after.map (·, s) := by
    intro s hs tick hafter
    exact List.mem_filterMap.mpr ⟨s, hs, Option.map_eq_some_iff.mpr ⟨tick, hafter, rfl⟩⟩
  cases hfirst : earliest? (seeds.filterMap fun s => s.reply.after.map (·, s)) with
  | none =>
    refine .inl fun s hs => Option.eq_none_iff_forall_ne_some.mpr fun tick hafter => ?_
    have hnil := earliest?_eq_none_iff.mp hfirst
    exact List.not_mem_nil (hnil ▸ hmem s hs tick hafter)
  | some y =>
    obtain ⟨hy, hmin⟩ := earliest?_spec hfirst
    obtain ⟨s, hs, htick⟩ := List.mem_filterMap.mp hy
    obtain ⟨tick, hafter, rfl⟩ := Option.map_eq_some_iff.mp htick
    exact .inr ⟨s, hs, tick, hafter, fun x hx tick' hx' => hmin _ (hmem x hx tick' hx')⟩

theorem Races.gathers (h : Races now seeds d) (hawaited : Awaited now seeds) :
    Gathers now seeds d := by
  -- by the number of the seeds, as a reply may come from any of them
  induction hlength : seeds.length generalizing now seeds with
  | zero =>
    obtain rfl := List.length_eq_zero_iff.mp hlength
    obtain rfl := races_nil_iff.mp h
    exact .exhausted
  | succ n ih =>
    rcases never_or_first seeds with hnever | ⟨s, hs, tick, hafter, hfirst⟩
    · have hseeds : seeds ≠ [] := List.ne_nil_of_length_eq_add_one hlength
      cases h with
      | won hmem hx => cases (hnever _ hmem).symm.trans hx.after_eq
      | exhausted _ hlast =>
        obtain ⟨s, hs⟩ := List.exists_mem_of_ne_nil _ hseeds
        exact absurd (hnever s hs) (hlast.not_never hs)
      | endless => exact .waits hseeds hnever
    · by_cases hoffers : ∃ text, s.Offers tick text
      · obtain ⟨text, hoffers⟩ := hoffers
        cases h with
        | @won tick' x text' hx hxoffers hmin =>
          -- the winner may be another seed of the same tick
          have hle := hfirst x hx tick' hxoffers.after_eq
          obtain rfl := Nat.le_antisymm hle (hmin s hs tick text hoffers)
          obtain ⟨before, after, rfl⟩ := List.append_of_mem hx
          exact .wins ⟨hxoffers.after_eq, (forall_mem_middle_iff.mp hfirst).2⟩ hxoffers
        | exhausted hnone => exact absurd hoffers (hnone s hs tick text)
        | endless hnone => exact absurd hoffers (hnone s hs tick text)
      · have hnothing : s.OffersNothing := by
          intro tick' text' hs'
          cases hafter.symm.trans hs'.after_eq
          exact hoffers ⟨text', hs'⟩
        obtain ⟨before, after, rfl⟩ := List.append_of_mem hs
        have hnext : s.IsNext tick (before ++ after) :=
          ⟨hafter, (forall_mem_middle_iff.mp hfirst).2⟩
        refine .passesOver hnext hnothing (ih ?_ hnext.awaited ?_)
        · exact (races_passOver_iff hawaited hnext hnothing).mp h
        · simp only [List.length_append, List.length_cons] at hlength ⊢
          omega

theorem gathers_iff_races : Gathers 0 seeds d ↔ Races 0 seeds d := by
  have hawaited : Awaited 0 seeds := fun _ _ _ _ => Nat.zero_le _
  exact ⟨fun h => h.races hawaited, fun h => h.gathers hawaited⟩

/-! ## The fetch -/

theorem lastReply?_append_singleton (seeds : List Seed) (s : Seed) :
    lastReply? (seeds ++ [s]) = (lastReply? seeds).bind fun a => s.reply.after.map (max a ·) := by
  rw [lastReply?, List.foldl_append]
  rfl

theorem isLast_of_lastReply? {last : Nat} (h : lastReply? seeds = some last) :
    IsLast 0 last seeds := by
  induction seeds using List.reverseRecOn generalizing last with
  | nil =>
    cases h
    exact ⟨Nat.le_refl _, nofun, .inl rfl⟩
  | append_singleton seeds s ih =>
    rw [lastReply?_append_singleton, Option.bind_eq_some_iff] at h
    obtain ⟨a, ha, hmax⟩ := h
    obtain ⟨tick, hafter, rfl⟩ := Option.map_eq_some_iff.mp hmax
    obtain ⟨-, hdone, hreached⟩ := ih ha
    refine ⟨Nat.zero_le _, fun x hx => ?_, ?_⟩
    · rcases List.mem_append.mp hx with hx | hx
      · obtain ⟨tick', hx', hle⟩ := hdone x hx
        exact ⟨tick', hx', Nat.le_trans hle (Nat.le_max_left a tick)⟩
      · rw [List.mem_singleton.mp hx]
        exact ⟨tick, hafter, Nat.le_max_right a tick⟩
    · rcases Nat.le_total a tick with hle | hle
      · rw [Nat.max_eq_right hle]
        exact .inr ⟨s, List.mem_append_right seeds (List.mem_singleton_self s), hafter⟩
      · rw [Nat.max_eq_left hle]
        exact hreached.imp_right fun ⟨x, hx, hx'⟩ => ⟨x, List.mem_append_left [s] hx, hx'⟩

theorem exists_never_of_lastReply? (h : lastReply? seeds = none) :
    ∃ s ∈ seeds, s.reply.after = none := by
  induction seeds using List.reverseRecOn with
  | nil => cases h
  | append_singleton seeds s ih =>
    rw [lastReply?_append_singleton] at h
    cases hseeds : lastReply? seeds with
    | none =>
      obtain ⟨x, hx, hnever⟩ := ih hseeds
      exact ⟨x, List.mem_append_left [s] hx, hnever⟩
    | some a =>
      rw [hseeds, Option.bind_some, Option.map_eq_none_iff] at h
      exact ⟨s, List.mem_append_right seeds (List.mem_singleton_self s), h⟩

theorem fetch_races (seeds : List Seed) : Races 0 seeds (fetch seeds) := by
  rw [fetch]
  cases hfirst : earliest? (seeds.filterMap Seed.finish?) with
  | some y =>
    obtain ⟨hy, hmin⟩ := earliest?_spec hfirst
    obtain ⟨s, hs, hfinish⟩ := List.mem_filterMap.mp hy
    obtain ⟨tick, x⟩ := y
    obtain ⟨text, hoffers, rfl⟩ := Seed.finish?_eq_some_iff.mp hfinish
    refine .won hs hoffers fun x hx tick' text' hx' => ?_
    exact hmin _ (List.mem_filterMap.mpr ⟨x, hx, Seed.finish?_eq_some_iff.mpr ⟨text', hx', rfl⟩⟩)
  | none =>
    have hnone : ∀ s ∈ seeds, s.OffersNothing := by
      intro s hs
      have hnil := List.filterMap_eq_nil_iff.mp (earliest?_eq_none_iff.mp hfirst)
      exact Seed.finish?_eq_none_iff.mp (hnil s hs)
    cases hlast : lastReply? seeds with
    | some last => exact .exhausted hnone (isLast_of_lastReply? hlast)
    | none =>
      obtain ⟨s, hs, hnever⟩ := exists_never_of_lastReply? hlast
      exact .endless hnone hs hnever

theorem Races.noResponse_iff (h : Races 0 seeds d) :
    (∃ last, d = ⟨some last, .failed .noResponse⟩) ↔
      ∀ s ∈ seeds, (∃ tick, s.reply.after = some tick) ∧ s.OffersNothing := by
  cases h with
  | won hmem hs => exact iff_of_false nofun fun hall => (hall _ hmem).2 _ _ hs
  | exhausted hnone hlast =>
    exact iff_of_true ⟨_, rfl⟩ fun s hs => ⟨(hlast.done s hs).imp fun _ h => h.1, hnone s hs⟩
  | endless _ hmem hnever =>
    refine iff_of_false nofun fun hall => ?_
    obtain ⟨tick, hafter⟩ := (hall _ hmem).1
    cases hnever.symm.trans hafter

-- Only the seeds count that have a descriptor by then.
theorem Races.of_same_offers {found : List RawDescriptor} {seeds' : List Seed}
    (h : Races 0 seeds ⟨some tick, .descriptors found⟩)
    (hsame : ∀ s, s.OffersBy tick → (s ∈ seeds ↔ s ∈ seeds')) :
    Races 0 seeds' ⟨some tick, .descriptors found⟩ := by
  cases h with
  | won hmem hs hfirst =>
    have hmem' := (hsame _ ⟨tick, _, hs, Nat.le_refl _⟩).mp hmem
    refine .won hmem' hs fun x hx tick' text' hx' => Nat.le_of_not_lt fun hlt => ?_
    have hmem := (hsame x ⟨tick', text', hx', Nat.le_of_lt hlt⟩).mpr hx
    exact Nat.not_le_of_lt hlt (hfirst x hmem tick' text' hx')

/-- In every order of the replies, a fetch ends as `Races` says: the first descriptor that is not
blank is all that it delivers, at the tick at which it is there and with the host of its seed. The
order decides ties only. That no seed has answered is left exactly if all have replied and none has
such a descriptor, at once if there is no seed. Seeds without a descriptor by the tick at which
another has one may do what they like. -/
theorem fetch_takes_first_descriptor (seeds : List Seed) :
    Gathers 0 seeds (fetch seeds) ∧
      (∀ d, Gathers 0 seeds d ↔ Races 0 seeds d) ∧
      (∀ d, Gathers 0 seeds d → d.after = (fetch seeds).after ∧
        (Untied seeds → d = fetch seeds) ∧
        ((∃ last, d = ⟨some last, .failed .noResponse⟩) ↔
          ∀ s ∈ seeds, (∃ tick, s.reply.after = some tick) ∧ s.OffersNothing) ∧
        (seeds = [] → d = .now (.failed .noResponse))) ∧
      ∀ tick found seeds', Gathers 0 seeds ⟨some tick, .descriptors found⟩ →
        (∀ s : Seed, s.OffersBy tick → (s ∈ seeds ↔ s ∈ seeds')) →
          Gathers 0 seeds' ⟨some tick, .descriptors found⟩ := by
  refine ⟨gathers_iff_races.mpr (fetch_races seeds), fun _ => gathers_iff_races, fun d h => ?_, ?_⟩
  · have hraces := gathers_iff_races.mp h
    obtain ⟨hafter, hresult⟩ := hraces.unique (fetch_races seeds)
    refine ⟨hafter, hresult, hraces.noResponse_iff, ?_⟩
    rintro rfl
    exact races_nil_iff.mp hraces
  · intro tick found seeds' h hsame
    exact gathers_iff_races.mpr ((gathers_iff_races.mp h).of_same_offers hsame)

example :
    fetch [⟨"a:1", ⟨none, .error .noResponse⟩⟩, ⟨"b:1", ⟨some 9, .ok (.config (some "late"))⟩⟩,
      ⟨"c:1", ⟨some 4, .ok (.config (some "first"))⟩⟩,
      ⟨"d:1", ⟨some 2, .ok (.config (some " "))⟩⟩] = ⟨some 4, .descriptors [⟨"c", "first"⟩]⟩ := by
  decide +kernel

/-! ## Requests with a limit -/

/-- The reply of a seed comes of a request that is given up at a limit. -/
def Seed.IsAsked (s : Seed) (limit : Duration) : Prop :=
  ∃ (p : Peer) (request : Envelope), s.reply = p.exchange limit request

theorem fetch_ends_in_time {limit : Duration} (hasked : ∀ s ∈ seeds, s.IsAsked limit)
    (h : Gathers 0 seeds d) : ∃ tick, d.after = some tick ∧ tick ≤ limit.ticks := by
  have hends : ∀ s ∈ seeds, ∃ tick, s.reply.after = some tick ∧ tick ≤ limit.ticks := by
    intro s hs
    obtain ⟨p, request, hreply⟩ := hasked s hs
    rw [hreply]
    exact p.exchange_ends limit request
  cases gathers_iff_races.mp h with
  | won hmem hs =>
    obtain ⟨tick, hafter, hle⟩ := hends _ hmem
    cases hs.after_eq.symm.trans hafter
    exact ⟨_, rfl, hle⟩
  | exhausted _ hlast =>
    rcases hlast.reached with rfl | ⟨s, hs, hafter⟩
    · exact ⟨0, rfl, Nat.zero_le _⟩
    · obtain ⟨tick, hafter', hle⟩ := hends s hs
      cases hafter.symm.trans hafter'
      exact ⟨_, rfl, hle⟩
  | endless _ hmem hnever =>
    obtain ⟨tick, hafter, -⟩ := hends _ hmem
    cases hnever.symm.trans hafter

end SeedRace

end ClusterClient
