import Drip.Support.Timeline
import Drip.Oracle.Book

/-!
# Oracle — Sound

Roster, submissions and observations are separate entries of the storage.  `Book.Sound` says how they
fit together, and `Book.Change.sound` that every change keeps it.
-/

namespace Drip.Oracle
open Chain

variable {b b' : Book} {feeds : Feeds} {env : Env} {i : Invocation}
variable {now maxStaleness price : U64} {caller account f : Address}

/-! ### Observations -/

def PriceObservation.at (o : PriceObservation) : Int := o.timestamp.val

/-- The new observation comes last; of the others some are kept, all of them earlier. -/
theorem observe_eq {obs : List PriceObservation} {o : PriceObservation}
    (hobs : Timeline PriceObservation.at obs) (hlen : obs.length ≤ 32)
    (hlast : ∀ latest ∈ obs.getLast?, latest.timestamp.val ≤ o.timestamp.val) :
    ∃ kept, observe obs o = kept ++ [o] ∧ kept.Sublist obs ∧ kept.length < 32 ∧
      ∀ y ∈ kept, y.at < o.at := by
  obtain rfl | ⟨ys, latest, rfl⟩ := List.eq_nil_or_concat obs
  · exact ⟨[], rfl, .refl _, by decide, fun y hy => absurd hy List.not_mem_nil⟩
  · rw [List.concat_eq_append] at hobs hlen hlast ⊢
    have hget : (ys ++ [latest]).getLast? = some latest := List.getLast?_concat
    have hle : latest.at ≤ o.at := hlast latest hget
    rw [List.length_append, List.length_singleton] at hlen
    unfold observe
    rw [hget]
    dsimp only
    split
    · rename_i heq
      rw [List.dropLast_concat]
      refine ⟨ys, rfl, List.sublist_append_left .., by omega, fun y hy => ?_⟩
      have := hobs.lt_last hy
      exact lt_of_lt_of_le this hle
    · rename_i hne
      have hlt : latest.at < o.at := by
        refine lt_of_le_of_ne hle fun h => hne ?_
        exact Ranged.ext h
      have hall : ∀ y ∈ ys ++ [latest], y.at < o.at := by
        intro y hy
        rcases List.mem_append.mp hy with hy | hy
        · exact (hobs.lt_last hy).trans hlt
        · rwa [List.mem_singleton.mp hy]
      split
      · refine ⟨_, rfl, List.drop_sublist .., ?_, fun y hy => hall y (List.mem_of_mem_drop hy)⟩
        rw [List.length_drop, List.length_append, List.length_singleton]
        omega
      · rename_i hfull
        refine ⟨_, rfl, .refl _, ?_, hall⟩
        rw [List.length_append, List.length_singleton] at hfull ⊢
        have : (maxTwapObservations.val : Int) = 32 := rfl
        omega

/-! ### What holds of a book -/

structure Book.Sound (b : Book) : Prop where
  roster : Roster (fun f => (b.submission f).isSome = true) b.roster
  capped : b.roster.length ≤ 32
  priced : ∀ f data, b.submission f = some data → data.price.val ≠ 0
  timeline : Timeline PriceObservation.at b.observations
  bounded : b.observations.length ≤ 32
  observed : ∀ o ∈ b.observations, o.price.val ≠ 0
  config : ∀ c, b.config = some c → c.Sane

theorem Book.Sound.empty : ({} : Book).Sound where
  roster := .nil fun _ h => absurd h Bool.false_ne_true
  capped := by decide
  priced _ _ h := by cases h
  timeline := .nil
  bounded := by decide
  observed _ h := absurd h List.not_mem_nil
  config _ h := by cases h

theorem Book.Sound.record {o : PriceObservation} (hb : b.Sound) (hadmits : b.Admits o.timestamp)
    (hprice : o.price.val ≠ 0) : (b.record o).Sound := by
  obtain ⟨kept, heq, hsub, hlen, hlt⟩ := observe_eq hb.timeline hb.bounded hadmits
  have hobs : (b.record o).observations = kept ++ [o] := heq
  refine ⟨hb.roster, hb.capped, hb.priced, ?_, ?_, ?_, hb.config⟩
  · rw [hobs]
    exact Timeline.concat (hb.timeline.sublist hsub) hlt
  · rw [hobs, List.length_append, List.length_singleton]
    omega
  · rw [hobs]
    intro x hx
    rcases List.mem_append.mp hx with hx | hx
    · exact hb.observed x (hsub.subset hx)
    · rwa [List.mem_singleton.mp hx]

theorem Book.Sound.posted (hb : b.Sound) (hprice : price.val ≠ 0)
    (hcap : caller ∉ b.roster → b.roster.length < maxSubmitters) :
    ((b.post now caller price).enroll caller).Sound := by
  have hsome : ∀ g, (((b.post now caller price).enroll caller).submission g).isSome = true ↔
      (b.submission g).isSome = true ∨ g = caller := by
    intro g
    rw [posted_submission]
    by_cases hg : g = caller
    · rw [hg, Function.update_self]
      exact ⟨fun _ => .inr rfl, fun _ => rfl⟩
    · rw [Function.update_of_ne hg]
      exact (or_iff_left hg).symm
  refine ⟨?_, ?_, fun g data h => ?_, ?_, ?_, ?_, ?_⟩
  · rw [posted_roster]
    split
    · rename_i hin
      refine hb.roster.congr fun g => ?_
      rw [hsome]
      refine ⟨.inl, fun h => h.elim id ?_⟩
      rintro rfl
      exact (hb.roster.mem g).mp hin
    · rename_i hno
      refine (hb.roster.push fun h => hno ((hb.roster.mem caller).mpr h)).congr fun g => ?_
      exact (hsome g).symm
  · rw [posted_roster]
    split
    · exact hb.capped
    · rename_i hno
      rw [List.length_append, List.length_singleton]
      exact hcap hno
  · rw [posted_submission] at h
    by_cases hg : g = caller
    · rw [hg, Function.update_self] at h
      cases h
      exact hprice
    · rw [Function.update_of_ne hg] at h
      exact hb.priced g data h
  · rw [enroll_observations]
    exact hb.timeline
  · rw [enroll_observations]
    exact hb.bounded
  · rw [enroll_observations]
    exact hb.observed
  · rw [(enroll_rest _ _).2.1]
    exact hb.config

theorem Book.Sound.submit (hb : b.Sound) (hprice : price.val ≠ 0)
    (hcap : caller ∉ b.roster → b.roster.length < maxSubmitters) (hadmits : b.Admits now) :
    (b.submit now caller price).Sound := by
  refine (hb.posted hprice hcap).record ?_ (currentSubmissionMedian_ne_zero hprice)
  unfold Book.Admits
  rw [enroll_observations]
  exact hadmits

theorem Book.Sound.drop (hb : b.Sound) : (b.drop account).Sound := by
  obtain ⟨hobs, hconfig, -, -⟩ := drop_rest b account
  refine ⟨?_, ?_, fun g data h => ?_, ?_, ?_, ?_, ?_⟩
  · rw [drop_roster]
    refine hb.roster.drop.congr fun g => ?_
    rw [drop_submission]
    by_cases hg : g = account
    · rw [hg, Function.update_self]
      exact ⟨fun h => absurd rfl h.2, fun h => absurd h Bool.false_ne_true⟩
    · rw [Function.update_of_ne hg]
      exact and_iff_left hg
  · rw [drop_roster]
    exact (List.length_filter_le ..).trans hb.capped
  · rw [drop_submission] at h
    by_cases hg : g = account
    · rw [hg, Function.update_self] at h
      cases h
    · rw [Function.update_of_ne hg] at h
      exact hb.priced g data h
  · rw [hobs]
    exact hb.timeline
  · rw [hobs]
    exact hb.bounded
  · rw [hobs]
    exact hb.observed
  · rw [hconfig]
    exact hb.config

/-- Off the roster there is no submission, so a new scale leaves none. -/
theorem cleared_submission (hb : b.Sound) :
    b.roster.foldl (fun sub feeder => Function.update sub feeder none) b.submission =
      fun _ => none := by
  have hloop : ∀ (feeders : List Address) (sub : Address → Option PriceData),
      (∀ g, g ∉ feeders → sub g = none) →
      feeders.foldl (fun sub feeder => Function.update sub feeder none) sub = fun _ => none := by
    intro feeders
    induction feeders with
    | nil => exact fun sub hsub => funext fun g => hsub g List.not_mem_nil
    | cons feeder feeders ih =>
        intro sub hsub
        refine ih (Function.update sub feeder none) fun g hg => ?_
        by_cases heq : g = feeder
        · rw [heq, Function.update_self]
        · rw [Function.update_of_ne heq]
          exact hsub g fun hin => (List.mem_cons.mp hin).elim heq hg
  refine hloop b.roster b.submission fun g hg => ?_
  exact Option.not_isSome_iff_eq_none.mp fun h => hg ((hb.roster.mem g).mpr h)

theorem Book.Sound.reconfigure {config : OracleConfig} (hb : b.Sound) (hconfig : config.Sane) :
    (b.reconfigure config).Sound := by
  have hsane : ∀ c, some config = some c → c.Sane := fun c h => Option.some.inj h ▸ hconfig
  unfold Book.reconfigure
  split
  · rw [cleared_submission hb]
    exact ⟨.nil fun _ h => absurd h Bool.false_ne_true, Nat.zero_le _, fun _ _ h => (by cases h),
      .nil, Nat.zero_le _, fun _ h => absurd h List.not_mem_nil, hsane⟩
  · exact ⟨hb.roster, hb.capped, hb.priced, hb.timeline, hb.bounded, hb.observed, hsane⟩

theorem Book.Sound.read (hb : b.Sound) (h : ∀ data ∈ b.reading feeds env, b.Admits data.updatedAt) :
    (b.read feeds env).Sound := by
  unfold Book.read
  cases hdata : b.reading feeds env with
  | none => exact hb
  | some data => exact hb.record (h data hdata) (reading_ne_zero hdata)

/-- What the invocations keep of a book. -/
theorem Book.Change.sound (h : b.Change i b') (hb : b.Sound) : b'.Sound := by
  cases h with
  | same => exact hb
  | dropped => exact hb.drop
  | submitted _ hprice hcap hadmits => exact hb.submit hprice hcap hadmits
  | configured _ hsane => exact hb.reconfigure hsane
  | limited _ hpos =>
      refine ⟨hb.roster, hb.capped, hb.priced, hb.timeline, hb.bounded, hb.observed, fun c hc => ?_⟩
      obtain ⟨config, hconfig, rfl⟩ := Option.map_eq_some_iff.mp hc
      obtain ⟨hdecimals, -, hpos', hle⟩ := hb.config config hconfig
      exact ⟨hdecimals, hpos, hpos', hle⟩
  | connected =>
      exact ⟨hb.roster, hb.capped, hb.priced, hb.timeline, hb.bounded, hb.observed, hb.config⟩
  | read _ hadmits => exact hb.read hadmits

theorem reconfigure_submission (config : OracleConfig) (hb : b.Sound) :
    (b.reconfigure config).submission = b.submission ∨
      (b.reconfigure config).submission = fun _ => none := by
  unfold Book.reconfigure
  split
  · exact .inr (cleared_submission hb)
  · exact .inl rfl

/-- A submission in the book is new, or was there and has not been dropped. -/
theorem Book.Change.submission {data : PriceData} (hc : b.Change i b') (hb : b.Sound)
    (h : b'.submission f = some data) :
    (∃ price, i.entry = .submitPrice f price ∧ data = ⟨price, i.env.timestamp⟩) ∨
      b.submission f = some data ∧ i.dropped ≠ some f := by
  cases hc with
  | same hdropped => exact .inr ⟨h, by rw [hdropped]; exact (Option.some_ne_none f).symm⟩
  | @dropped account hdropped =>
      rw [drop_submission] at h
      by_cases hf : f = account
      · rw [hf, Function.update_self] at h
        cases h
      · rw [Function.update_of_ne hf] at h
        exact .inr ⟨h, fun hd => hf (Option.some.inj (hd.symm.trans hdropped))⟩
  | @submitted caller price hentry =>
      have h : ((b.post i.env.timestamp caller price).enroll caller).submission f = some data := h
      rw [posted_submission] at h
      by_cases hf : f = caller
      · subst hf
        rw [Function.update_self] at h
        cases h
        exact .inl ⟨price, hentry, rfl⟩
      · rw [Function.update_of_ne hf] at h
        refine .inr ⟨h, ?_⟩
        unfold Invocation.dropped
        rw [hentry]
        exact (Option.some_ne_none f).symm
  | @configured config hentry =>
      refine .inr ⟨?_, by rw [dropped_of_entry (.inl hentry)]; exact (Option.some_ne_none f).symm⟩
      rcases reconfigure_submission config hb with heq | heq
      · rwa [heq] at h
      · rw [heq] at h
        cases h
  | limited hentry =>
      refine .inr ⟨h, ?_⟩
      unfold Invocation.dropped
      rw [hentry]
      exact (Option.some_ne_none f).symm
  | connected hentry =>
      refine .inr ⟨h, ?_⟩
      rw [dropped_of_entry (.inr (.inl hentry))]
      exact (Option.some_ne_none f).symm
  | read hentry =>
      rw [read_rest.1] at h
      exact .inr ⟨h, by rw [dropped_of_entry (.inr (.inr hentry))]; exact (Option.some_ne_none f).symm⟩

end Drip.Oracle
