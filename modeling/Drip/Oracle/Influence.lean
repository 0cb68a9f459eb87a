import Drip.Oracle.Quorum
import Drip.Oracle.Peers

/-!
# Oracle — Influence

What is left of a feeder's prices when its role or its submission is gone.  Two runs with the same
invocations up to the prices of `f` are followed side by side (`twin_of_runs`): they agree on everything
but the submission of `f`, the last price and the medians that were taken while the submission counted,
as long as each submission passes its checks in both or in neither (`Moment.Level`).  The last price is
what the next one, of whichever feeder, is compared with.

* `Swayed`: the last median of a ledger time was taken while the submission of `f` counted.
* `Book.Twin.after`: an invocation made in both runs keeps the books alike, and `enter_twin` that both
  make it.
* `Book.Twin.read_eq`: with the submission gone, reads differ by the medians at most.
-/

namespace Drip.Oracle
open Chain

variable {here : Address} {b b' : Book} {i i' : Invocation} {m m' m₁ m₂ : Moment} {v v' w : Visit}
variable {vs ws later : List Visit} {f g caller : Address} {t now maxStaleness price price' : U64}
variable {swayed swayed' : U64 → Prop} {feeds : Feeds} {env : Env} {count : U32}

/-! ### Runs that differ in prices -/

/-- The same entry point and arguments, up to a price that `f` submits. -/
def Entry.Alike (f : Address) (e e' : Entry) : Prop :=
  e = e' ∨ ∃ price price', e = .submitPrice f price ∧ e' = .submitPrice f price'

def Invocation.Alike (f : Address) (i i' : Invocation) : Prop :=
  i.feeds = i'.feeds ∧ i.env = i'.env ∧ i.entry.Alike f i'.entry

def Visit.Alike (f : Address) (v w : Visit) : Prop := v.invocation.Alike f w.invocation

/-- At each submission the price passes in both runs, or in neither. -/
def Moment.Level : Moment → Moment → List Invocation → List Invocation → Prop
  | _, _, [], [] => True
  | m, m', i :: is, j :: js =>
      m.passes i = m'.passes j ∧ Level (m.visit i).2 (m'.visit j).2 is js
  | _, _, _, _ => False

instance Moment.Level.decide : (m m' : Moment) → (is js : List Invocation) → Decidable (m.Level m' is js)
  | _, _, [], [] => isTrue trivial
  | m, m', i :: is, j :: js =>
      have : Decidable ((m.visit i).2.Level (m'.visit j).2 is js) := Level.decide _ _ is js
      inferInstanceAs (Decidable (_ ∧ _))
  | _, _, [], _ :: _ => isFalse id
  | _, _, _ :: _, [] => isFalse id

theorem Entry.Alike.reads {e e' : Entry} (h : e.Alike f e') : e'.reads = e.reads := by
  obtain rfl | ⟨price, price', rfl, rfl⟩ := h
  · rfl
  · rfl

/-- Up to the last visit, and at it. -/
theorem Moment.Level.concat {is js : List Invocation} (h : m.Level m' (is ++ [i]) (js ++ [i'])) :
    m.Level m' is js ∧ (m.tour is).2.passes i = (m'.tour js).2.passes i' := by
  induction is generalizing m m' js with
  | nil =>
      cases js with
      | nil => exact ⟨trivial, h.1⟩
      | cons j js =>
          obtain ⟨-, hrest⟩ := h
          cases js <;> exact hrest.elim
  | cons x is ih =>
      cases js with
      | nil =>
          obtain ⟨-, hrest⟩ := h
          cases is <;> exact hrest.elim
      | cons j js =>
          obtain ⟨hfirst, hrest⟩ := h
          obtain ⟨hearlier, hlast⟩ := ih hrest
          exact ⟨⟨hfirst, hearlier⟩, hlast⟩

def Visit.SubmitsBy (f : Address) : Visit → Prop
  | .made i _ => ∃ price, i.entry = .submitPrice f price
  | .refused _ _ => False

def Visit.SubmitsAt (t : U64) : Visit → Prop
  | .made i _ => i.env.timestamp = t ∧ ∃ caller price, i.entry = .submitPrice caller price
  | .refused _ _ => False

/-- The last submission accepted at `t` was made by `f`, or while the submission of `f` counted. -/
def Swayed (here f : Address) (vs : List Visit) (m : Moment) (t : U64) : Prop :=
  ∃ before v later m₁ m₂, vs = before ++ v :: later ∧ Run (Visits here) Moment.fresh before m₁ ∧
    Visits here m₁ v m₂ ∧ Run (Visits here) m₂ later m ∧ v.SubmitsAt t ∧
    (∀ w ∈ later, ¬ w.SubmitsAt t) ∧ (v.SubmitsBy f ∨ f ∈ m₂.state.store.toBook.countedFeeders t)

theorem Swayed.new (h : Run (Visits here) Moment.fresh vs m) (hv : Visits here m v m')
    (hat : v.SubmitsAt t)
    (hf : v.SubmitsBy f ∨ f ∈ m'.state.store.toBook.countedFeeders t) :
    Swayed here f (vs ++ [v]) m' t :=
  ⟨vs, v, [], m, m', rfl, h, hv, .nil m', hat, fun _ hw => absurd hw List.not_mem_nil, hf⟩

theorem Swayed.still (h : Swayed here f vs m t) (hv : Visits here m v m') (hat : ¬ v.SubmitsAt t) :
    Swayed here f (vs ++ [v]) m' t := by
  obtain ⟨before, w, later, m₁, m₂, rfl, hbefore, hw, hlater, hwat, hno, hf⟩ := h
  refine ⟨before, w, later ++ [v], m₁, m₂, ?_, hbefore, hw, hlater.snoc hv, hwat, ?_, hf⟩
  · rw [List.append_assoc, List.cons_append]
  · exact List.forall_mem_append.mpr ⟨hno, List.forall_mem_singleton.mpr hat⟩

/-! ### Books that differ in prices -/

/-- The books of two runs that differ in the prices of `f`: the submission of `f` has the same date, and
an observation that has not been swayed is the same. -/
structure Book.Twin (f : Address) (swayed : U64 → Prop) (b b' : Book) : Prop where
  config : b'.config = b.config
  roster : b'.roster = b.roster
  submission : ∀ g, g ≠ f → b'.submission g = b.submission g
  dated : (b'.submission f).map PriceData.updatedAt = (b.submission f).map PriceData.updatedAt
  observations : List.Forall₂ (fun o o' => o'.timestamp = o.timestamp ∧ (o' = o ∨ swayed o.timestamp))
    b.observations b'.observations
  primary : b'.primaryOracle = b.primaryOracle
  fallback : b'.fallbackOracle = b.fallbackOracle

theorem Book.Twin.empty : Book.Twin f swayed {} {} :=
  ⟨rfl, rfl, fun _ _ => rfl, rfl, .nil, rfl, rfl⟩

theorem Book.Twin.mono (h : b.Twin f swayed b') (hle : ∀ t, swayed t → swayed' t) :
    b.Twin f swayed' b' :=
  { h with observations := h.observations.imp fun _ _ ho => ⟨ho.1, ho.2.imp_right (hle _)⟩ }

theorem Book.Twin.hasFeeds (h : b.Twin f swayed b') (hno : ¬ b.HasFeeds) : ¬ b'.HasFeeds := by
  unfold Book.HasFeeds
  rwa [h.primary, h.fallback]

/-- The same feeders count. -/
theorem Book.Twin.countedFeeders (h : b.Twin f swayed b') (hb : b.Sound) (hb' : b'.Sound) :
    b'.countedFeeders t = b.countedFeeders t := by
  unfold Book.countedFeeders
  rw [h.roster]
  refine List.filter_congr fun g _ => ?_
  unfold Book.counts
  rw [h.config]
  cases b.config with
  | none => rfl
  | some config =>
      by_cases hg : g = f
      · subst hg
        have hdated := h.dated
        cases hdata : b.submission g with
        | none =>
            rw [hdata] at hdated
            rw [Option.map_eq_none_iff.mp hdated]
        | some data =>
            rw [hdata] at hdated
            obtain ⟨data', hdata', hat⟩ := Option.map_eq_some_iff.mp hdated
            rw [hdata']
            have hfresh : data'.Fresh t config.maxStaleness ↔ data.Fresh t config.maxStaleness := by
              rw [fresh_iff (hb'.priced g data' hdata'), fresh_iff (hb.priced g data hdata), hat]
            exact decide_eq_decide.mpr hfresh
      · rw [h.submission g hg]

/-- Where `f` does not count, the submissions that do are the same. -/
theorem Book.Twin.counted {config : OracleConfig} (h : b.Twin f swayed b') (hb : b.Sound)
    (hb' : b'.Sound) (hconfig : b.config = some config) (hf : f ∉ b.countedFeeders t) :
    b'.counted t config.maxStaleness = b.counted t config.maxStaleness := by
  rw [counted_feeders hconfig, counted_feeders (h.config.trans hconfig), h.countedFeeders hb hb']
  refine List.filterMap_congr fun g hg => h.submission g ?_
  rintro rfl
  exact hf hg

/-! ### Observations -/

/-- What a new observation at `t` leaves of the others. -/
def retained (t : U64) (obs : List PriceObservation) : List PriceObservation :=
  if (obs.map PriceObservation.timestamp).getLast? = some t then obs.dropLast
  else if obs.length = maxTwapObservations.val then obs.drop 1
  else obs

theorem observe_retained (obs : List PriceObservation) (o : PriceObservation) :
    observe obs o = retained o.timestamp obs ++ [o] := by
  unfold observe retained
  rw [List.getLast?_map]
  cases hlast : obs.getLast? with
  | none =>
      obtain rfl := List.getLast?_eq_none_iff.mp hlast
      rfl
  | some latest =>
      dsimp only [Option.map_some]
      by_cases heq : latest.timestamp = o.timestamp
      · rw [if_pos heq, if_pos (congrArg some heq)]
      · rw [if_neg heq, if_neg fun h => heq (Option.some.inj h)]
        split <;> rfl

/-- What is left is earlier. -/
theorem lt_of_mem_retained {obs : List PriceObservation} {o y : PriceObservation}
    (hobs : Timeline PriceObservation.at obs) (hlen : obs.length ≤ 32)
    (hlast : ∀ latest ∈ obs.getLast?, latest.timestamp.val ≤ o.timestamp.val)
    (hy : y ∈ retained o.timestamp obs) : y.timestamp ≠ o.timestamp := by
  obtain ⟨kept, heq, -, -, hlt⟩ := observe_eq hobs hlen hlast
  rw [observe_retained] at heq
  rw [List.append_cancel_right heq] at hy
  exact fun h => absurd (hlt y hy) (not_lt.mpr (congrArg Ranged.val h).ge)

variable {R : PriceObservation → PriceObservation → Prop}

theorem dates_eq {obs obs' : List PriceObservation} (hR : ∀ o o', R o o' → o'.timestamp = o.timestamp)
    (h : List.Forall₂ R obs obs') :
    obs'.map PriceObservation.timestamp = obs.map PriceObservation.timestamp := by
  induction h with
  | nil => rfl
  | cons ho _ ih => rw [List.map_cons, List.map_cons, hR _ _ ho, ih]

theorem retained_forall₂ {obs obs' : List PriceObservation}
    (hR : ∀ o o', R o o' → o'.timestamp = o.timestamp) (h : List.Forall₂ R obs obs') :
    List.Forall₂ R (retained t obs) (retained t obs') := by
  have hdates := dates_eq hR h
  unfold retained
  rw [hdates, ← h.length_eq]
  split
  · rw [List.dropLast_eq_take, List.dropLast_eq_take, ← h.length_eq]
    exact List.forall₂_take _ h
  · split
    · exact List.forall₂_drop _ h
    · exact h

/-- Both books record at the same time. -/
theorem Book.Twin.record {o o' : PriceObservation} (h : b.Twin f swayed b') (hb : b.Sound)
    (hadmits : b.Admits o.timestamp) (hat : o'.timestamp = o.timestamp)
    (hnew : o' = o ∨ swayed' o.timestamp) (hold : ∀ t, t ≠ o.timestamp → swayed t → swayed' t) :
    (b.record o).Twin f swayed' (b'.record o') := by
  have hkept := retained_forall₂ (fun _ _ ho => ho.1) h.observations (t := o.timestamp)
  have hkept' := (List.forall₂_and_left _ _).mpr
    ⟨fun y hy => lt_of_mem_retained hb.timeline hb.bounded hadmits hy, hkept⟩
  refine { h with observations := ?_ }
  show List.Forall₂ _ (observe b.observations o) (observe b'.observations o')
  rw [observe_retained, observe_retained, hat]
  refine List.rel_append (hkept'.imp fun y y' hy => ⟨hy.2.1, hy.2.2.imp_right (hold _ hy.1)⟩) ?_
  exact .cons ⟨hat, hnew⟩ .nil

/-! ### Invocations made in both runs -/

/-- Both books write an entry of the same date. -/
theorem Book.Twin.update {data data' : Option PriceData} (h : b.Twin f swayed b') (g : Address)
    (hdata : g ≠ f → data' = data)
    (hat : data'.map PriceData.updatedAt = data.map PriceData.updatedAt) :
    (∀ a, a ≠ f → Function.update b'.submission g data' a = Function.update b.submission g data a) ∧
      (Function.update b'.submission g data' f).map PriceData.updatedAt =
        (Function.update b.submission g data f).map PriceData.updatedAt := by
  constructor
  · intro a ha
    by_cases hg : a = g
    · subst hg
      rw [Function.update_self, Function.update_self, hdata ha]
    · rw [Function.update_of_ne hg, Function.update_of_ne hg]
      exact h.submission a ha
  · by_cases hg : f = g
    · rw [hg, Function.update_self, Function.update_self]
      exact hat
    · rw [Function.update_of_ne hg, Function.update_of_ne hg]
      exact h.dated

theorem Book.Twin.posted (h : b.Twin f swayed b') (now : U64) (hprice : caller ≠ f → price' = price) :
    ((b.post now caller price).enroll caller).Twin f swayed
      ((b'.post now caller price').enroll caller) := by
  obtain ⟨-, hconfig, hprimary, hfallback⟩ := enroll_rest (b.post now caller price) caller
  obtain ⟨-, hconfig', hprimary', hfallback'⟩ := enroll_rest (b'.post now caller price') caller
  have hdata : caller ≠ f → (some ⟨price', now⟩ : Option PriceData) = some ⟨price, now⟩ :=
    fun hc => hprice hc ▸ rfl
  have hupdate := h.update caller hdata rfl
  refine ⟨?_, ?_, ?_, ?_, ?_, ?_, ?_⟩
  · rw [hconfig, hconfig']
    exact h.config
  · rw [posted_roster, posted_roster, h.roster]
  · rw [posted_submission, posted_submission]
    exact hupdate.1
  · rw [posted_submission, posted_submission]
    exact hupdate.2
  · rw [enroll_observations, enroll_observations]
    exact h.observations
  · rw [hprimary, hprimary']
    exact h.primary
  · rw [hfallback, hfallback']
    exact h.fallback

/-- The medians are the same where `f` has not submitted and does not count. -/
theorem Book.Twin.submit (h : b.Twin f swayed b') (hb : b.Sound) (hb' : b'.Sound)
    (hne : price.val ≠ 0) (hne' : price'.val ≠ 0)
    (hcap : caller ∉ b.roster → b.roster.length < maxSubmitters) (hadmits : b.Admits now)
    (hprice : caller ≠ f → price' = price)
    (hnew : caller = f ∨ f ∈ (b.submit now caller price).countedFeeders now → swayed' now)
    (hold : ∀ t, t ≠ now → swayed t → swayed' t) :
    (b.submit now caller price).Twin f swayed' (b'.submit now caller price') := by
  have hposted := h.posted now hprice
  have hsound : ((b.post now caller price).enroll caller).Sound := hb.posted hne hcap
  have hsound' : ((b'.post now caller price').enroll caller).Sound := hb'.posted hne' (h.roster ▸ hcap)
  refine hposted.record (o := ⟨_, now⟩) hsound ?_ rfl ?_ hold
  · unfold Book.Admits
    rw [enroll_observations]
    exact hadmits
  · by_cases hsways : caller = f ∨ f ∈ (b.submit now caller price).countedFeeders now
    · exact .inr (hnew hsways)
    -- the medians are taken of the same submissions
    · obtain ⟨hcaller, hcounted⟩ := not_or.mp hsways
      refine .inl (congrArg (PriceObservation.mk · now) ?_)
      rw [currentSubmissionMedian_eq, currentSubmissionMedian_eq, hposted.config, hprice hcaller]
      cases hconfig : ((b.post now caller price).enroll caller).config with
      | none => rfl
      | some config =>
          have hposted : ((b.post now caller price).enroll caller).Twin f swayed
            ((b'.post now caller price).enroll caller) := hprice hcaller ▸ hposted
          dsimp only
          rw [hposted.counted hsound (hprice hcaller ▸ hsound') hconfig hcounted]

theorem Book.Twin.drop (h : b.Twin f swayed b') : (b.drop g).Twin f swayed (b'.drop g) := by
  obtain ⟨hobs, hconfig, hprimary, hfallback⟩ := drop_rest b g
  obtain ⟨hobs', hconfig', hprimary', hfallback'⟩ := drop_rest b' g
  have hupdate := h.update g (fun _ => rfl) (Eq.refl ((none : Option PriceData).map _))
  refine ⟨?_, ?_, ?_, ?_, ?_, ?_, ?_⟩
  · rw [hconfig, hconfig']
    exact h.config
  · rw [drop_roster, drop_roster, h.roster]
  · rw [drop_submission, drop_submission]
    exact hupdate.1
  · rw [drop_submission, drop_submission]
    exact hupdate.2
  · rw [hobs, hobs']
    exact h.observations
  · rw [hprimary, hprimary']
    exact h.primary
  · rw [hfallback, hfallback']
    exact h.fallback

theorem Book.Twin.reconfigure {config : OracleConfig} (h : b.Twin f swayed b') (hb : b.Sound)
    (hb' : b'.Sound) : (b.reconfigure config).Twin f swayed (b'.reconfigure config) := by
  unfold Book.reconfigure
  rw [h.config]
  split
  · rw [cleared_submission hb, cleared_submission hb']
    exact ⟨rfl, rfl, fun _ _ => rfl, rfl, .nil, h.primary, h.fallback⟩
  · exact ⟨rfl, h.roster, h.submission, h.dated, h.observations, h.primary, h.fallback⟩

/-- **The books of two runs stay alike.** -/
theorem Book.Twin.after (h : b.Twin f swayed b') (hb : b.Sound) (hb' : b'.Sound)
    (hno : ¬ b.HasFeeds) (hi : i.Alike f i') (haccepts : b.Accepts i) (haccepts' : b'.Accepts i')
    (hnew : ∀ caller price, i.entry = .submitPrice caller price →
      caller = f ∨ f ∈ (b.after i).countedFeeders i.env.timestamp → swayed' i.env.timestamp)
    (hold : ∀ t, ((∃ caller price, i.entry = .submitPrice caller price) → t ≠ i.env.timestamp) →
      swayed t → swayed' t) : (b.after i).Twin f swayed' (b'.after i') := by
  obtain ⟨feeds, env, entry⟩ := i
  obtain ⟨feeds', env', entry'⟩ := i'
  obtain ⟨hfeeds, henv, hentry⟩ := hi
  obtain rfl : feeds = feeds' := hfeeds
  obtain rfl : env = env' := henv
  -- without a submission no ledger time is swayed anew
  have hkept : (∀ caller price, entry ≠ .submitPrice caller price) → b.Twin f swayed' b' :=
    fun hno => h.mono fun t => hold t fun ⟨caller, price, he⟩ => absurd he (hno caller price)
  rcases hentry with hentry | ⟨price, price', hentry, hentry'⟩
  · obtain rfl : entry = entry' := hentry
    cases entry with
    | administer c =>
        have htwin := hkept fun _ _ he => (by cases he)
        cases c with
        | revokeRole caller role account =>
            cases role with
            | priceFeeder => exact htwin.drop
            | _ => exact htwin
        | purgeSubmitter caller feeder => exact htwin.drop
        | _ => exact htwin
    | configureOracle caller config => exact (hkept fun _ _ he => (by cases he)).reconfigure hb hb'
    | updateOracleConfig caller update =>
        have htwin := hkept fun _ _ he => (by cases he)
        unfold Book.after
        dsimp only
        rw [h.config]
        split
        · exact htwin.reconfigure hb hb'
        · exact htwin
    | submitPrice caller price =>
        exact h.submit hb hb' haccepts.1 haccepts.1 haccepts.2.1 haccepts.2.2 (fun _ => rfl)
          (hnew caller price rfl) fun t ht => hold t fun _ => ht
    | getTwapPrice | getTwapPriceForObservations | calculateFiatStreamPayout =>
        show (b.read feeds env).Twin f swayed' (b'.read feeds env)
        rw [read_of_no_feeds hno, read_of_no_feeds (h.hasFeeds hno)]
        exact hkept fun _ _ he => (by cases he)
    | setOracleFeeds caller primaryOracle fallbackOracle =>
        exact { hkept (fun _ _ he => (by cases he)) with primary := rfl, fallback := rfl }
    | setPrimaryOracle caller primaryOracle =>
        exact { hkept (fun _ _ he => (by cases he)) with primary := rfl }
    | setFallbackOracle caller fallbackOracle =>
        exact { hkept (fun _ _ he => (by cases he)) with fallback := rfl }
    | setMaxStalenessSeconds caller seconds =>
        refine { hkept (fun _ _ he => (by cases he)) with config := ?_ }
        show b'.config.map _ = b.config.map _
        rw [h.config]
    | _ => exact hkept fun _ _ he => (by cases he)
  · obtain rfl : entry = .submitPrice f price := hentry
    obtain rfl : entry' = .submitPrice f price' := hentry'
    exact h.submit hb hb' haccepts.1 haccepts'.1 haccepts.2.1 haccepts.2.2
      (fun hne => absurd rfl hne) (hnew f price rfl) fun t ht => hold t fun _ => ht

/-- The last observations are of the same time. -/
theorem Book.Twin.admits (h : b.Twin f swayed b') : b'.Admits t ↔ b.Admits t := by
  have hdates : b'.observations.map PriceObservation.timestamp =
      b.observations.map PriceObservation.timestamp := dates_eq (fun _ _ ho => ho.1) h.observations
  have hlast : ∀ {b : Book}, b.Admits t ↔
      ∀ at' ∈ (b.observations.map PriceObservation.timestamp).getLast?, at'.val ≤ t.val := by
    intro b
    rw [List.getLast?_map]
    simp only [Book.Admits, Option.mem_map, forall_exists_index, and_imp, forall_apply_eq_imp_iff₂]
  rw [hlast, hlast, hdates]

/-- **Both runs accept an invocation, or neither does**, unless it is a read. -/
theorem enter_twin {s s' : State} (hpeer : s.Peer s') (htwin : s.store.toBook.Twin f swayed s'.store.toBook)
    (hi : i.Alike f i') (hpasses : (Moment.mk s now).passes i = (Moment.mk s' now).passes i')
    (hreads : i.entry.reads = false) : Matched Left (enter i s) (enter i' s') := by
  obtain ⟨feeds, env, entry⟩ := i
  obtain ⟨feeds', env', entry'⟩ := i'
  obtain ⟨hfeeds, henv, hentry⟩ := hi
  obtain rfl : feeds = feeds' := hfeeds
  obtain rfl : env = env' := henv
  have hsubmit : ∀ {caller price price'},
      (checkPrice env.timestamp caller price s).isOk = (checkPrice env.timestamp caller price' s').isOk →
      Matched Left (done (submitPrice env caller price s)) (done (submitPrice env caller price' s')) :=
    fun hp => matched_bind (submitPrice_peer hpeer hp htwin.roster htwin.admits) fun _ _ _ _ h => .ok h
  rcases hentry with hentry | ⟨price, price', hentry, hentry'⟩
  · obtain rfl : entry = entry' := hentry
    cases hsubmits : entry.submits with
    | false => exact (enter_peer hpeer hreads hsubmits).matched
    | true =>
        cases entry with
        | submitPrice caller price => exact hsubmit hpasses
        | _ => cases hsubmits
  · obtain rfl : entry = .submitPrice f price := hentry
    obtain rfl : entry' = .submitPrice f price' := hentry'
    exact hsubmit hpasses

/-- Feeds are never taken back. -/
theorem Visits.hasFeeds (h : Visits here m v m') (hs : Sound m.state)
    (hfeeds : m.state.store.toBook.HasFeeds) : m'.state.store.toBook.HasFeeds := by
  cases h with
  | made _ _ h => exact (enters_of_enter hs h).change.hasFeeds hfeeds
  | refused => exact hfeeds

theorem eq_tour_of_run (h : Run (Visits here) m vs m') :
    m' = (m.tour (vs.map Visit.invocation)).2 := by
  induction h with
  | nil => rfl
  | snoc _ hv ih =>
      rw [List.map_append, (tour_append _ _).2, ← ih]
      exact hv.eq_visit

/-- A read submits nothing. -/
theorem Visit.not_submitsAt (hreads : v.invocation.entry.reads = true) : ¬ v.SubmitsAt t := by
  intro hat
  cases v with
  | made i reply =>
      obtain ⟨-, caller, price, hentry⟩ := hat
      have hreads : i.entry.reads = true := hreads
      rw [hentry] at hreads
      cases hreads
  | refused i failure => exact hat

/-- An invocation that both runs accept. -/
theorem twin_of_made {reply reply' : Reply} {s₁ s₁' : State} (hrun : Run (Visits here) Moment.fresh vs m)
    (hv : Visits here m (.made i reply) ⟨s₁, i.env.timestamp⟩) (h : enter i m.state = .ok (reply, s₁))
    (h' : enter i' m'.state = .ok (reply', s₁')) (hs' : Sound m'.state)
    (htwin : m.state.store.toBook.Twin f (Swayed here f vs m) m'.state.store.toBook)
    (hno : ¬ m.state.store.toBook.HasFeeds) (hi : i.Alike f i') :
    s₁.store.toBook.Twin f (Swayed here f (vs ++ [.made i reply]) ⟨s₁, i.env.timestamp⟩)
      s₁'.store.toBook := by
  have hs := sound_of_run hrun
  have henters := enters_of_enter hs h
  have henters' := enters_of_enter hs' h'
  rw [henters.book, henters'.book]
  refine htwin.after hs.book hs'.book hno hi henters.accepts henters'.accepts ?_ ?_
  · intro caller price hentry hsways
    refine .new hrun hv ⟨rfl, caller, price, hentry⟩ ?_
    rw [← henters.book] at hsways
    exact hsways.imp_left fun hc : caller = f => ⟨price, hc ▸ hentry⟩
  · intro t ht hsways
    refine hsways.still hv ?_
    rintro ⟨hat, hsubmits⟩
    exact ht hsubmits hat.symm

theorem twin_of_runs (h : Run (Visits here) Moment.fresh vs m)
    (h' : Run (Visits here) Moment.fresh ws m') (halike : List.Forall₂ (Visit.Alike f) vs ws)
    (hlevel : Moment.fresh.Level Moment.fresh (vs.map Visit.invocation) (ws.map Visit.invocation))
    (hno : ¬ m.state.store.toBook.HasFeeds) :
    m.state.Peer m'.state ∧ m.state.store.toBook.Twin f (Swayed here f vs m) m'.state.store.toBook := by
  refine Run.side_by_side (P := fun vs m ws m' =>
    Moment.fresh.Level Moment.fresh (vs.map Visit.invocation) (ws.map Visit.invocation) →
    ¬ m.state.store.toBook.HasFeeds → m.state.Peer m'.state ∧
      m.state.store.toBook.Twin f (Swayed here f vs m) m'.state.store.toBook)
    (fun _ _ => ⟨⟨{}, [], rfl, rfl⟩, .empty⟩) ?_ h h' halike hlevel hno
  intro vs m v u ws m' w u' hrun hv hrun' hw hvw ih hlevel hno
  have hs := sound_of_run hrun
  have hs' := sound_of_run hrun'
  rw [List.map_append, List.map_append] at hlevel
  obtain ⟨hearlier, hpasses⟩ := hlevel.concat
  rw [← eq_tour_of_run hrun, ← eq_tour_of_run hrun'] at hpasses
  have hnone : ¬ m.state.store.toBook.HasFeeds := fun hfeeds => hno (hv.hasFeeds hs hfeeds)
  obtain ⟨hpeer, htwin⟩ := ih hearlier hnone
  by_cases hreads : v.invocation.entry.reads = true
  · -- whatever it answers
    have hreads' : w.invocation.entry.reads = true := hvw.2.2.reads.trans hreads
    have hstay : u.state = m.state := hv.eq_visit ▸ visit_of_reads hs hnone hreads
    have hstay' : u'.state = m'.state :=
      hw.eq_visit ▸ visit_of_reads hs' (htwin.hasFeeds hnone) hreads'
    rw [hstay, hstay']
    exact ⟨hpeer, htwin.mono fun t ht => ht.still hv (Visit.not_submitsAt hreads)⟩
  · have hboth := enter_twin hpeer htwin hvw hpasses (Bool.eq_false_iff.mpr hreads)
    cases hv with
    | refused henv htime hv =>
        cases hw with
        | made _ _ hw =>
            rw [Visit.invocation, Visit.invocation, hv, hw] at hboth
            cases hboth
        | refused => exact ⟨hpeer, htwin.mono fun t ht => ht.still (.refused henv htime hv) id⟩
    | made henv htime hv =>
        cases hw with
        | refused _ _ hw =>
            rw [Visit.invocation, Visit.invocation, hv, hw] at hboth
            cases hboth
        | made _ _ hw =>
            rw [Visit.invocation, Visit.invocation, hv, hw] at hboth
            cases hboth with
            | ok hpeer' => exact ⟨hpeer', twin_of_made hrun (.made henv htime hv) hv hw hs' htwin hnone hvw⟩

/-! ### Reads without the submission -/

theorem Book.Twin.submission_eq (h : b.Twin f swayed b') (hgone : b.submission f = none) :
    b'.submission = b.submission := by
  funext g
  by_cases hg : g = f
  · subst hg
    have hdated := h.dated
    rw [hgone] at hdated ⊢
    exact Option.map_eq_none_iff.mp hdated
  · exact h.submission g hg

theorem Book.Twin.status_eq (h : b.Twin f swayed b') (hgone : b.submission f = none) :
    loadPriceStatus env b' = loadPriceStatus env b := by
  have hcounts : ∀ maxStaleness, statusCounts env.timestamp maxStaleness b' =
      statusCounts env.timestamp maxStaleness b := by
    intro maxStaleness
    unfold statusCounts
    rw [h.roster]
    refine congrArg (fun turn => b.roster.foldl turn ({} : Counts)) ?_
    funext x g
    unfold statusTurn
    rw [h.submission_eq hgone]
  unfold loadPriceStatus
  simp only [h.config, hcounts]

/-- Observations of the same dates, whose prices differ only where nothing has been held at them. -/
theorem weigh_congr {obs obs' : List PriceObservation} {weight : U128} {total : U64}
    (h : List.Forall₂ (fun o o' => o'.timestamp = o.timestamp ∧ (o' = o ∨ now ≤ o.timestamp)) obs obs') :
    weigh now maxStaleness obs' weight total = weigh now maxStaleness obs weight total := by
  induction h generalizing weight total with
  | nil => rfl
  | cons ho hrest ih =>
      rename_i o o' rest rest'
      have hnext : rest'.head?.map PriceObservation.timestamp =
          rest.head?.map PriceObservation.timestamp := by
        cases hrest with
        | nil => rfl
        | cons hnext => exact congrArg some hnext.1
      have hduration : duration now maxStaleness o' rest' = duration now maxStaleness o rest := by
        unfold duration
        rw [ho.1, hnext]
      have hproduct : Ranged.checkedMul (o'.price.widen : U128)
            (duration now maxStaleness o rest).widen =
          Ranged.checkedMul (o.price.widen : U128) (duration now maxStaleness o rest).widen := by
        rcases ho.2 with rfl | hle
        · rfl
        -- the prices may differ, but nothing has been held at either
        · have hzero : (duration now maxStaleness o rest).val = 0 := by
            have := (duration_le now maxStaleness o rest).1
            have hge := (duration now maxStaleness o rest).ge
            have hle : now.val ≤ o.at := hle
            omega
          unfold Ranged.checkedMul
          rw [Ranged.val_widen, Ranged.val_widen, Ranged.val_widen, hzero, Int.mul_zero, Int.mul_zero]
      unfold weigh
      dsimp only
      rw [hduration, hproduct]
      refine congrArg _ (funext fun product => congrArg _ (funext fun weight => ?_))
      exact congrArg _ (funext fun total => ih)

/-- A read over `count` observations weighs none that is `swayed`; without a quorum it weighs none. -/
def Book.Clear (swayed : U64 → Prop) (env : Env) (count : U32) (b : Book) : Prop :=
  ∀ st, loadPriceStatus env b = .ok st → st.minSubmitters.val ≤ st.freshSubmitterCount →
    ∀ o ∈ b.window count, o.timestamp < env.timestamp → ¬ swayed o.timestamp

theorem Book.Twin.calculateTwap_eq (h : b.Twin f swayed b')
    (hclear : ∀ o ∈ b.window count, o.timestamp < now → ¬ swayed o.timestamp) :
    calculateTwap now count maxStaleness b' = calculateTwap now count maxStaleness b := by
  have hwindow := List.forall₂_drop (b.observations.length - count.val.toNat) h.observations
  have hclear' := (List.forall₂_and_left _ _).mpr ⟨hclear, hwindow⟩
  have hweigh : weigh now maxStaleness (b'.window count) (.lit 0) (.lit 0) =
      weigh now maxStaleness (b.window count) (.lit 0) (.lit 0) := by
    unfold Book.window
    rw [← h.observations.length_eq]
    refine weigh_congr (hclear'.imp fun o o' ho => ⟨ho.2.1, ho.2.2.imp_right fun hsways => ?_⟩)
    have hlt : ¬ o.timestamp.val < now.val := fun hlt => ho.1 hlt hsways
    exact not_lt.mp hlt
  have hnil : b'.observations = [] ↔ b.observations = [] := by
    rw [← List.length_eq_zero_iff, ← List.length_eq_zero_iff, h.observations.length_eq]
  unfold calculateTwap
  rw [hweigh]
  simp only [hnil]

theorem Book.Twin.backed_eq {config : OracleConfig} (h : b.Twin f swayed b')
    (hgone : b.submission f = none) (hconfig : b.config = some config)
    (hclear : b.Clear swayed env count) :
    b'.backed env.timestamp count config = b.backed env.timestamp count config := by
  have hsubmissions : b'.submissions = b.submissions := by
    unfold Book.submissions
    rw [h.roster, h.submission_eq hgone]
  have hcounted : b'.counted env.timestamp config.maxStaleness =
      b.counted env.timestamp config.maxStaleness := by
    unfold Book.counted
    rw [hsubmissions]
  unfold Book.backed
  rw [hcounted, hsubmissions]
  dsimp only
  by_cases hnil : b.counted env.timestamp config.maxStaleness = []
  · rw [if_pos hnil, if_pos hnil]
  · by_cases hfew : (b.counted env.timestamp config.maxStaleness).length < config.minSubmitters.val
    · rw [if_neg hnil, if_neg hnil, if_pos hfew, if_pos hfew]
    · have hsome : b.submissions ≠ [] := fun hno => hnil (by unfold Book.counted; rw [hno]; rfl)
      have hstatus : loadPriceStatus env b = _ := loadPriceStatus_eq hconfig
      rw [if_neg hsome] at hstatus
      rw [h.calculateTwap_eq (hclear _ hstatus (not_lt.mp hfew))]

/-- The read takes the same price from both books, and leaves them as they are. -/
theorem Book.Twin.read_eq (h : b.Twin f swayed b') (feeds : Feeds) (hno : ¬ b.HasFeeds)
    (hgone : b.submission f = none) (hclear : b.Clear swayed env count) :
    ∃ r : Result U64, getTwapPriceInner feeds env count b = (fun price => (price, b)) <$> r ∧
      getTwapPriceInner feeds env count b' = (fun price => (price, b')) <$> r := by
  by_cases hcount : count.val ≠ 0 ∧ count.val ≤ 32
  · cases hconfig : b.config with
    | none =>
        have hvalid : ¬ (count.val = 0 ∨ maxTwapObservations < count) := by
          rintro (hzero | hlt)
          · exact hcount.1 hzero
          · exact absurd (lt_of_lt_of_le hlt hcount.2) (lt_irrefl _)
        have hmissing : ∀ {b : Book}, b.config = none →
            getTwapPriceInner feeds env count b = .error (err .oracleNotConfigured) := by
          intro b hnone
          unfold getTwapPriceInner
          rw [bind_of_ok (reject_eq_ok (u := ()).mpr hvalid), hnone]
          rfl
        exact ⟨.error _, hmissing hconfig, hmissing (h.config.trans hconfig)⟩
    | some config =>
        refine ⟨b.backed env.timestamp count config, ?_, ?_⟩
        · rw [getTwapPriceInner_eq hcount hconfig, reading_of_no_feeds hno]
        · rw [getTwapPriceInner_eq hcount (h.config.trans hconfig),
            reading_of_no_feeds (h.hasFeeds hno)]
          dsimp only
          rw [h.backed_eq hgone hconfig hclear]
  · have hinvalid : count.val = 0 ∨ maxTwapObservations < count := by
      by_cases hzero : count.val = 0
      · exact .inl hzero
      · exact .inr (not_le.mp fun hle => hcount ⟨hzero, hle⟩)
    have hrejected : ∀ {b : Book}, getTwapPriceInner feeds env count b =
        .error (err .invalidObservationCount) := by
      intro b
      unfold getTwapPriceInner
      rw [bind_of_error (reject_of _ hinvalid)]
    exact ⟨.error _, hrejected, hrejected⟩

/-- What `calculate_fiat_stream_payout` makes of a price. -/
def fiatValue (tokenAmount : U64) (config : Option OracleConfig) (price : U64) : Result U64 := do
  let config ← okOr config (err .oracleNotConfigured)
  let precision : U128 ← okOr (Ranged.ofInt? (10 ^ config.decimals.val.toNat)) (err .invalidDecimals)
  let product ← okOr (Ranged.checkedMul (tokenAmount.widen : U128) price.widen)
    (err .arithmeticOverflow)
  let value ← okOr (U128.checkedDiv product precision) (err .arithmeticOverflow)
  okOr (Ranged.ofInt? value.val) (err .arithmeticOverflow)

theorem calculateFiatStreamPayoutInner_eq {r : Result U64} (tokenAmount : U64)
    (h : getTwapPriceInner feeds env maxTwapObservations b = (fun price => (price, b)) <$> r) :
    calculateFiatStreamPayoutInner feeds env tokenAmount b =
      (fun value => (value, b)) <$> (r >>= fiatValue tokenAmount b.config) := by
  unfold calculateFiatStreamPayoutInner fiatValue
  rw [h]
  simp only [map_eq_pure_bind, bind_assoc, pure_bind]

theorem withGuard_fst {s : State} {f : Book → Result (U64 × Book)} (hlock : s.store.lock = .lit 0) :
    (withGuard (onBook f) s).map Prod.fst = (f s.store.toBook).map Prod.fst := by
  rw [withGuard_onBook hlock]
  cases f s.store.toBook <;> rfl

/-! ### After the revocation -/

/-- `revoke_role(PriceFeeder, f)` or `purge_submitter(f)`. -/
def Visit.Drops (f : Address) : Visit → Prop
  | .made i _ => i.dropped = some f
  | .refused _ _ => False

def Visit.Revokes (f : Address) : Visit → Prop
  | .made i _ => ∃ caller, i.entry = .administer (.revokeRole caller .priceFeeder f)
  | .refused _ _ => False

def Visit.Grants (f : Address) : Visit → Prop
  | .made i _ => ∃ caller, i.entry = .administer (.grantRole caller .priceFeeder f) ∨
      ∃ expiresAt, i.entry = .administer (.grantRoleWithExpiration caller .priceFeeder f expiresAt)
  | .refused _ _ => False

/-- The submission goes. -/
theorem Visits.dropped (h : Visits here m v m') (hs : Sound m.state) (hdrops : v.Drops f) :
    m'.state.store.submission f = none := by
  cases h with
  | refused => exact absurd hdrops id
  | made henv htime h =>
      rename_i i reply s'
      cases hdata : s'.store.submission f with
      | none => rfl
      | some data =>
          obtain ⟨price, hentry, -⟩ | ⟨-, hne⟩ :=
            (enters_of_enter hs h).change.submission hs.book hdata
          · have hdropped : i.dropped = some f := hdrops
            unfold Invocation.dropped at hdropped
            rw [hentry] at hdropped
            cases hdropped
          · exact absurd hdrops hne

/-- It comes back only with a submission. -/
theorem Visits.stays_gone (h : Visits here m v m') (hs : Sound m.state) (hno : ¬ v.SubmitsBy f)
    (hgone : m.state.store.submission f = none) : m'.state.store.submission f = none := by
  cases h with
  | refused => exact hgone
  | made henv htime h =>
      rename_i i reply s'
      cases hdata : s'.store.submission f with
      | none => rfl
      | some data =>
          obtain ⟨price, hentry, -⟩ | ⟨hold, -⟩ :=
            (enters_of_enter hs h).change.submission hs.book hdata
          · exact absurd ⟨price, hentry⟩ hno
          · exact absurd (hgone.symm.trans hold) (Option.some_ne_none data).symm

theorem gone_of_run (h : Run (Visits here) m vs m') (hs : Sound m.state)
    (hno : ∀ w ∈ vs, ¬ w.SubmitsBy f) (hgone : m.state.store.submission f = none) :
    m'.state.store.submission f = none := by
  refine (h.invariant (P := fun m => Sound m.state ∧ m.state.store.submission f = none) ?_
    ⟨hs, hgone⟩).2
  exact fun hin hv hm => ⟨hv.sound hm.1, hv.stays_gone hm.1 (hno _ hin) hm.2⟩

/-- Without a grant there is no role, and without a role no submission. -/
theorem Visits.unassigned (h : Visits here m v m') (hs : Sound m.state) (hno : ¬ v.Grants f)
    (hrole : m.state.store.roles.role .priceFeeder f = none) :
    m'.state.store.roles.role .priceFeeder f = none ∧ ¬ v.SubmitsBy f := by
  cases h with
  | refused => exact ⟨hrole, id⟩
  | made henv htime h =>
      rename_i i reply s'
      have henters := enters_of_enter hs h
      constructor
      · show s'.store.roles.role .priceFeeder f = none
        rw [henters.feeders]
        obtain ⟨feeds, env, entry⟩ := i
        have hother : ∀ {account v}, f ≠ account →
            Function.update (m.state.store.roles.role .priceFeeder) account v f = none := by
          intro account v hne
          rw [Function.update_of_ne hne]
          exact hrole
        cases entry with
        | administer c =>
            cases c with
            | grantRole caller role account =>
                cases role with
                | priceFeeder => exact hother fun hf => hno ⟨caller, .inl (hf ▸ rfl)⟩
                | _ => exact hrole
            | grantRoleWithExpiration caller role account expiresAt =>
                cases role with
                | priceFeeder => exact hother fun hf => hno ⟨caller, .inr ⟨expiresAt, hf ▸ rfl⟩⟩
                | _ => exact hrole
            | revokeRole caller role account =>
                cases role with
                | priceFeeder =>
                    show Function.update (m.state.store.roles.role .priceFeeder) account none f = none
                    by_cases hf : f = account
                    · rw [hf, Function.update_self]
                    · exact hother hf
                | _ => exact hrole
            | _ => exact hrole
        | _ => exact hrole
      · rintro ⟨price, hentry⟩
        have hsome := Rbac.isSome_of_hasRole (henters.signed f price hentry)
        rw [hrole] at hsome
        cases hsome

theorem not_submits_of_run (h : Run (Visits here) m vs m') (hs : Sound m.state)
    (hrole : m.state.store.roles.role .priceFeeder f = none) (hno : ∀ w ∈ vs, ¬ w.Grants f) :
    Sound m'.state ∧ m'.state.store.roles.role .priceFeeder f = none ∧ ∀ w ∈ vs, ¬ w.SubmitsBy f := by
  induction h with
  | nil => exact ⟨hs, hrole, fun _ hw => absurd hw List.not_mem_nil⟩
  | snoc _ hv ih =>
      obtain ⟨hs, hrole, hsubmits⟩ := ih fun w hw => hno w (List.mem_append_left _ hw)
      obtain ⟨hrole', hnot⟩ :=
        hv.unassigned hs (hno _ (List.mem_append_right _ List.mem_cons_self)) hrole
      refine ⟨hv.sound hs, hrole', ?_⟩
      exact List.forall_mem_append.mpr ⟨hsubmits, List.forall_mem_singleton.mpr hnot⟩

theorem Visits.revoked (h : Visits here m v m') (hs : Sound m.state) (hrevokes : v.Revokes f) :
    m'.state.store.roles.role .priceFeeder f = none := by
  cases h with
  | refused => exact absurd hrevokes id
  | made henv htime h =>
      rename_i i reply s'
      obtain ⟨caller, hentry⟩ := hrevokes
      show s'.store.roles.role .priceFeeder f = none
      rw [(enters_of_enter hs h).feeders]
      unfold Invocation.feeders
      rw [hentry]
      exact Function.update_self ..

theorem le_of_mem_run (h : Run (Visits here) m vs m') :
    m.now ≤ m'.now ∧ ∀ w ∈ vs, m.now ≤ w.invocation.env.timestamp := by
  induction h with
  | nil => exact ⟨le_refl m.now.val, fun _ hw => absurd hw List.not_mem_nil⟩
  | snoc _ hv ih =>
      obtain ⟨hle, hall⟩ := ih
      obtain ⟨htime, heq, -⟩ := hv.time
      have hlast := le_trans (a := m.now.val) hle htime
      refine ⟨hlast, List.forall_mem_append.mpr ⟨hall, List.forall_mem_singleton.mpr ?_⟩⟩
      rw [← heq]
      exact hlast

/-- The medians taken after the submission has gone are not swayed. -/
theorem not_swayed_of_gone (hv : Visits here m₁ v m₂) (hdrops : v.Drops f)
    (hsubmits : ∀ w ∈ later, ¬ w.SubmitsBy f) (ht : m₂.now < t) :
    ¬ Swayed here f (vs ++ v :: later) m t := by
  rintro ⟨before, w, rest, u₁, u₂, heq, hbefore, hw, hrest, hat, -, hf⟩
  have hwt : w.invocation.env.timestamp = t := by
    cases w with
    | made i reply => exact hat.1
    | refused i failure => exact absurd hat id
  obtain ⟨-, hvt, -⟩ := hv.time
  have hne : w ≠ v := by
    rintro rfl
    have ht : m₂.now.val < t.val := ht
    rw [hvt, hwt] at ht
    exact lt_irrefl t.val ht
  rcases List.append_eq_append_iff.mp heq with ⟨c, rfl, hc⟩ | ⟨c, rfl, hc⟩
  · -- `w` is `v`, or later
    cases c with
    | nil =>
        rw [List.nil_append, List.cons.injEq] at hc
        exact hne hc.1.symm
    | cons x c =>
        rw [List.cons_append, List.cons.injEq] at hc
        obtain ⟨rfl, rfl⟩ := hc
        have hnot : ¬ w.SubmitsBy f :=
          hsubmits w (List.mem_append_right c List.mem_cons_self)
        obtain ⟨u₀, hfirst, hc⟩ := (List.append_cons .. ▸ hbefore).of_append
        obtain ⟨u, hu, hdropped⟩ := hfirst.of_snoc
        have hs := sound_of_run hu
        have hgone := gone_of_run hc (hdropped.sound hs)
          (fun x hx => hsubmits x (List.mem_append_left _ hx)) (hdropped.dropped hs hdrops)
        have hgone := hw.stays_gone (sound_of_run hbefore) hnot hgone
        rcases hf with hf | hf
        · exact hnot hf
        · obtain ⟨-, data, -, hdata, -⟩ := counts_iff.mp (List.mem_filter.mp hf).2
          exact absurd (hgone.symm.trans hdata) (Option.some_ne_none data).symm
  · -- `w` is `v`, or earlier
    cases c with
    | nil =>
        rw [List.nil_append, List.cons.injEq] at hc
        exact hne hc.1
    | cons x c =>
        rw [List.cons_append, List.cons.injEq] at hc
        obtain ⟨rfl, rfl⟩ := hc
        have hle := (le_of_mem_run hrest).2 v (List.mem_append_right c List.mem_cons_self)
        rw [← hvt, hw.time.2.1, hwt] at hle
        exact absurd (lt_of_lt_of_le (a := m₂.now.val) ht hle) (lt_irrefl _)

/-- **Influence.**  Two runs without feeds whose invocations differ in the prices of `f` alone, in which
each submission passes its checks alike, and in which `f` has lost its submission and not made another:
the statuses are the same, and so is every read that weighs no median taken while the submission of `f`
counted, such as those taken since.  After a revocation, and until a new grant, `f` makes no other
submission. -/
theorem influence_of_runs (hbefore : Run (Visits here) Moment.fresh vs m₁) (hv : Visits here m₁ v m₂)
    (hlater : Run (Visits here) m₂ later m) (h' : Run (Visits here) Moment.fresh ws m')
    (halike : List.Forall₂ (Visit.Alike f) (vs ++ v :: later) ws)
    (hlevel : Moment.fresh.Level Moment.fresh ((vs ++ v :: later).map Visit.invocation)
      (ws.map Visit.invocation))
    (hno : ¬ m.state.store.toBook.HasFeeds) (hdrops : v.Drops f) :
    (v.Revokes f → (∀ w ∈ later, ¬ w.Grants f) → ∀ w ∈ later, ¬ w.SubmitsBy f) ∧
    ((∀ w ∈ later, ¬ w.SubmitsBy f) → (∀ t, m₂.now < t → ¬ Swayed here f (vs ++ v :: later) m t) ∧
      ∀ feeds env,
      loadPriceStatus env m'.state.store.toBook = loadPriceStatus env m.state.store.toBook ∧
      (∀ count, m.state.store.toBook.Clear (Swayed here f (vs ++ v :: later) m) env count →
        (getTwapPriceForObservations feeds env count m'.state).map Prod.fst =
          (getTwapPriceForObservations feeds env count m.state).map Prod.fst) ∧
      (m.state.store.toBook.Clear (Swayed here f (vs ++ v :: later) m) env maxTwapObservations →
        (getTwapPrice feeds env m'.state).map Prod.fst =
          (getTwapPrice feeds env m.state).map Prod.fst ∧
        ∀ tokenAmount, (calculateFiatStreamPayout feeds env tokenAmount m'.state).map Prod.fst =
          (calculateFiatStreamPayout feeds env tokenAmount m.state).map Prod.fst)) := by
  have hs₁ := sound_of_run hbefore
  have hs₂ := hv.sound hs₁
  have hrun : Run (Visits here) Moment.fresh (vs ++ v :: later) m := by
    have hlast := (hbefore.snoc hv).trans hlater
    rwa [List.append_assoc, List.singleton_append] at hlast
  have hs := sound_of_run hrun
  have hs' := sound_of_run h'
  obtain ⟨-, htwin⟩ := twin_of_runs hrun h' halike hlevel hno
  refine ⟨fun hrevokes hgrants => ?_, fun hsubmits =>
    ⟨fun t ht => not_swayed_of_gone hv hdrops hsubmits ht, fun feeds env => ?_⟩⟩
  · exact (not_submits_of_run hlater hs₂ (hv.revoked hs₁ hrevokes) hgrants).2.2
  · have hgone := gone_of_run hlater hs₂ hsubmits (hv.dropped hs₁ hdrops)
    have hread : ∀ {count}, m.state.store.toBook.Clear (Swayed here f (vs ++ v :: later) m) env count →
        (getTwapPriceForObservations feeds env count m'.state).map Prod.fst =
          (getTwapPriceForObservations feeds env count m.state).map Prod.fst := by
      intro count hclear
      obtain ⟨r, hr, hr'⟩ := htwin.read_eq feeds hno hgone hclear
      unfold getTwapPriceForObservations
      rw [withGuard_fst hs.lock, withGuard_fst hs'.lock, hr, hr']
      cases r <;> rfl
    refine ⟨htwin.status_eq hgone, fun count hclear => hread hclear, fun hclear => ⟨hread hclear, ?_⟩⟩
    intro tokenAmount
    obtain ⟨r, hr, hr'⟩ := htwin.read_eq feeds hno hgone hclear
    unfold calculateFiatStreamPayout
    rw [withGuard_fst hs.lock, withGuard_fst hs'.lock, calculateFiatStreamPayoutInner_eq _ hr,
      calculateFiatStreamPayoutInner_eq _ hr', htwin.config]
    cases r >>= fiatValue tokenAmount m.state.store.toBook.config <;> rfl

/-! ### A sample -/

namespace Sample

/-- Two feeders submit. -/
def offered (price other : U64) : List Invocation := invocations silent [
  (.lit 100, .configureOracle (.account 1) ⟨.lit 8, .lit 1, .lit 300, .lit 0, .lit 0, .lit 1⟩),
  (.lit 100, .administer (.grantRole (.account 1) .priceFeeder (.account 2))),
  (.lit 100, .administer (.grantRole (.account 1) .priceFeeder (.account 3))),
  (.lit 110, .submitPrice (.account 2) price),
  (.lit 120, .submitPrice (.account 3) other)]

/-- The first of them loses its role. -/
def revoking : Invocation :=
  ⟨silent, envAt (.lit 130), .administer (.revokeRole (.account 1) .priceFeeder (.account 2))⟩

/-- The other one submits again. -/
def renewing : Invocation := ⟨silent, envAt (.lit 140), .submitPrice (.account 3) (.lit 104)⟩

def revoked (other price : U64) : List Invocation := offered price other ++ [revoking]

def renewed (price : U64) : List Invocation := offered price (.lit 110) ++ [revoking, renewing]

theorem alike_offered (price price' other : U64) (is : List Invocation) :
    List.Forall₂ (Invocation.Alike (.account 2)) (offered price other ++ is)
      (offered price' other ++ is) :=
  .cons ⟨rfl, rfl, .inl rfl⟩ <| .cons ⟨rfl, rfl, .inl rfl⟩ <| .cons ⟨rfl, rfl, .inl rfl⟩ <|
    .cons ⟨rfl, rfl, .inl rfl⟩ <| .cons ⟨rfl, rfl, .inr ⟨_, _, rfl, rfl⟩⟩ <|
    .cons ⟨rfl, rfl, .inl rfl⟩ <| List.forall₂_same.mpr fun _ _ => ⟨rfl, rfl, .inl rfl⟩

theorem run_revoked (other price : U64) :
    Run (Visits address) Moment.fresh (Moment.fresh.tour (revoked other price)).1
      (Moment.fresh.tour (revoked other price)).2 := by
  have hle : ∀ {x y : Int}, decide (x ≤ y) = true → x ≤ y := of_decide_eq_true
  exact run_tour _ ⟨rfl, hle rfl, rfl, hle rfl, rfl, hle rfl, rfl, hle rfl, rfl, hle rfl, rfl, hle rfl,
    rfl, hle rfl, trivial⟩

end Sample

/-- A read of the last observation alone, which was taken after the revocation. -/
theorem influence_of_runs_renewed :
    let m (price : U64) := (Moment.fresh.tour (Sample.renewed price)).2
    (getTwapPriceForObservations Sample.silent (Sample.envAt (.lit 150)) (.lit 1)
        (m (.lit 120)).state).map Prod.fst =
      (getTwapPriceForObservations Sample.silent (Sample.envAt (.lit 150)) (.lit 1)
        (m (.lit 100)).state).map Prod.fst := by
  intro m
  let m₁ := (Moment.fresh.tour (Sample.offered (.lit 100) (.lit 110))).2
  let m₂ := (m₁.visit Sample.revoking).2
  have hbefore : Run (Visits Sample.address) Moment.fresh _ m₁ := run_tour _ (by decide)
  have hv : Visits Sample.address m₁ _ m₂ := visits_visit rfl (by decide)
  have hlater : Run (Visits Sample.address) m₂ (m₂.tour [Sample.renewing]).1 _ := run_tour _ (by decide)
  have h' : Run (Visits Sample.address) Moment.fresh _ (m (.lit 120)) := run_tour _ (by decide)
  have hsplit := tour_append (m := Moment.fresh) (Sample.offered (.lit 100) (.lit 110))
    [Sample.revoking, Sample.renewing]
  rw [tour_cons] at hsplit
  dsimp only at hsplit
  have hend : m (.lit 100) = (m₂.tour [Sample.renewing]).2 := hsplit.2
  have halike : List.Forall₂ (Visit.Alike (.account 2))
      (Moment.fresh.tour (Sample.renewed (.lit 100))).1 (Moment.fresh.tour (Sample.renewed (.lit 120))).1 :=
    forall₂_tour (Sample.alike_offered (.lit 100) (.lit 120) (.lit 110) _)
  have hlevel : Moment.fresh.Level Moment.fresh
      ((Moment.fresh.tour (Sample.renewed (.lit 100))).1.map Visit.invocation)
      ((Moment.fresh.tour (Sample.renewed (.lit 120))).1.map Visit.invocation) := by
    rw [tour_invocations, tour_invocations]
    decide
  have hsubmits : ∀ w ∈ (m₂.tour [Sample.renewing]).1, ¬ w.SubmitsBy (.account 2) := by
    intro w hw hby
    have hi := List.mem_singleton.mp (mem_tour hw)
    cases w with
    | refused i failure => exact hby
    | made i reply =>
        obtain rfl : i = Sample.renewing := hi
        obtain ⟨price, hentry⟩ := hby
        cases hentry
  obtain ⟨hclean, hanswers⟩ := (influence_of_runs hbefore hv hlater h' (hsplit.1 ▸ halike)
    (hsplit.1 ▸ hlevel) (by decide) rfl).2 hsubmits
  have hwindow : (m₂.tour [Sample.renewing]).2.state.store.toBook.window (.lit 1) =
      [⟨.lit 104, .lit 140⟩] := by decide
  rw [hend]
  refine (hanswers Sample.silent (Sample.envAt (.lit 150))).2.1 (.lit 1) fun st _ _ o ho _ => ?_
  rw [hwindow, List.mem_singleton] at ho
  have hlate : m₂.now < (.lit 140 : U64) := by decide
  exact ho ▸ hclean (.lit 140) hlate

/-- At 140 the price weighs the medians of 110 and 120.  Where the other feeder offers 151, that is too far
from a last price of 100, and not from one of 120: one of the runs has a submission, and the other has
none. -/
theorem revoked_feeder_weighs :
    (∀ other price price',
      Run (Visits Sample.address) Moment.fresh (Moment.fresh.tour (Sample.revoked other price)).1
          (Moment.fresh.tour (Sample.revoked other price)).2 ∧
        List.Forall₂ (Visit.Alike (.account 2)) (Moment.fresh.tour (Sample.revoked other price)).1
          (Moment.fresh.tour (Sample.revoked other price')).1) ∧
    (let m (price : U64) := (Moment.fresh.tour (Sample.revoked (.lit 110) price)).2
     (∀ price ∈ [(.lit 100 : U64), .lit 120],
        (m price).state.store.roles.role .priceFeeder (.account 2) = none) ∧
      (getTwapPrice Sample.silent (Sample.envAt (.lit 140)) (m (.lit 100)).state).map Prod.fst =
        .ok (.lit 103) ∧
      (getTwapPrice Sample.silent (Sample.envAt (.lit 140)) (m (.lit 120)).state).map Prod.fst =
        .ok (.lit 116)) ∧
    (let m (price : U64) := (Moment.fresh.tour (Sample.revoked (.lit 151) price)).2
     (∀ price ∈ [(.lit 100 : U64), .lit 120],
        (m price).state.store.roles.role .priceFeeder (.account 2) = none) ∧
      loadPriceStatus (Sample.envAt (.lit 140)) (m (.lit 100)).state.store.toBook =
        .error (err .noPriceAvailable) ∧
      loadPriceStatus (Sample.envAt (.lit 140)) (m (.lit 120)).state.store.toBook =
        .ok ⟨1, .lit 1, .lit 20, .lit 20, false⟩) := by
  refine ⟨fun other price price' => ⟨?_, ?_⟩, ?_, ?_⟩
  · exact Sample.run_revoked other price
  · exact forall₂_tour (Sample.alike_offered _ _ _ _)
  · exact ⟨by decide, by rfl, by rfl⟩
  · exact ⟨by decide, by rfl, by rfl⟩

end Drip.Oracle
