import Drip.Oracle.Consistency
import Drip.Oracle.Status

/-!
# Oracle — Quorum

Whose submissions count.  A revocation takes the submission along, but a temporary role ends by itself,
and nothing then clears the roster.

* `countedFeeders`: the feeders that the loops over the roster count (`freshPrices_feeders`).
* `authorized_iff`: they all hold their role, at every later time, exactly where each submission goes
  stale before its feeder's role ends.
-/

namespace Drip.Oracle
open Chain

variable {here : Address} {b : Book} {s : State} {m : Moment} {vs : List Visit} {f : Address}
variable {t now maxStaleness : U64}

/-! ### Who counts -/

/-- The submission of `f` is fresh under the configuration. -/
def Book.counts (now : U64) (b : Book) (f : Address) : Bool :=
  match b.config, b.submission f with
  | some config, some data => decide (data.Fresh now config.maxStaleness)
  | _, _ => false

def Book.countedFeeders (now : U64) (b : Book) : List Address := b.roster.filter (b.counts now)

theorem counts_iff : b.counts now f = true ↔
    ∃ config data, b.config = some config ∧ b.submission f = some data ∧
      data.Fresh now config.maxStaleness := by
  unfold Book.counts
  cases b.config with
  | none => simp
  | some config =>
      cases b.submission f with
      | none => simp
      | some data => simp

/-- The loops over the roster count these feeders. -/
theorem counted_feeders {config : OracleConfig} (hconfig : b.config = some config) :
    b.counted now config.maxStaleness = (b.countedFeeders now).filterMap b.submission := by
  unfold Book.counted Book.submissions Book.countedFeeders
  induction b.roster with
  | nil => rfl
  | cons g rest ih =>
      cases hg : b.submission g with
      | none =>
          have hno : ¬ b.counts now g = true := by rw [counts_iff, hg]; simp
          rw [List.filterMap_cons_none hg, List.filter_cons_of_neg hno]
          exact ih
      | some data =>
          rw [List.filterMap_cons_some hg]
          by_cases hfresh : data.Fresh now config.maxStaleness
          · have hyes : b.counts now g = true := counts_iff.mpr ⟨config, data, hconfig, hg, hfresh⟩
            rw [List.filter_cons_of_pos (by rwa [decide_eq_true_iff]), List.filter_cons_of_pos hyes,
              List.filterMap_cons_some hg, ih]
          · have hno : ¬ b.counts now g = true := by
              rw [counts_iff, hconfig, hg]
              rintro ⟨c, d, hc, hd, h⟩
              cases hc
              cases hd
              exact hfresh h
            rw [List.filter_cons_of_neg (by rwa [decide_eq_true_iff]), List.filter_cons_of_neg hno]
            exact ih

theorem freshPrices_feeders {config : OracleConfig} (hconfig : b.config = some config) :
    (freshPrices now config.maxStaleness b).1 =
      ((b.countedFeeders now).filterMap b.submission).map PriceData.price := by
  rw [freshPrices_eq, counted_feeders hconfig]

theorem statusCounts_feeders {config : OracleConfig} (hconfig : b.config = some config) :
    (statusCounts now config.maxStaleness b).count = (b.countedFeeders now).length := by
  have hsome : ∀ f ∈ b.countedFeeders now, ∃ data, b.submission f = some data := by
    intro f hf
    obtain ⟨_, data, -, hdata, -⟩ := counts_iff.mp (List.mem_filter.mp hf).2
    exact ⟨data, hdata⟩
  rw [(statusCounts_eq _ _ _).1, counted_feeders hconfig]
  clear hconfig
  revert hsome
  generalize b.countedFeeders now = feeders
  intro hsome
  induction feeders with
  | nil => rfl
  | cons f rest ih =>
      obtain ⟨data, hdata⟩ := hsome f List.mem_cons_self
      rw [List.filterMap_cons_some hdata, List.length_cons, List.length_cons,
        ih fun g hg => hsome g (List.mem_cons_of_mem f hg)]

/-- From now on the loops count no one without the role. -/
def Moment.Authorized (m : Moment) : Prop :=
  ∀ t, m.now ≤ t → ∀ f ∈ m.state.store.toBook.countedFeeders t,
    Rbac.Holds m.state.store.roles t .priceFeeder f

/-! ### Roles that end -/

/-- It is stale before the role ends, or before `now`. -/
def PriceData.StaleBefore (data : PriceData) (maxStaleness now expiry : U64) : Prop :=
  data.updatedAt.val + maxStaleness.val < max now.val expiry.val

/-- So is every submission of a feeder whose role ends. -/
def InTerm (now : U64) (b : Book) (feeder : Address → Option Rbac.Stored) : Prop :=
  ∀ f data config expiry, b.config = some config → b.submission f = some data →
    feeder f = some (.assignment ⟨some expiry⟩) → data.StaleBefore config.maxStaleness now expiry

def Moment.InTerm (m : Moment) : Prop :=
  Oracle.InTerm m.now m.state.store.toBook (m.state.store.roles.role .priceFeeder)

theorem holds_assignment {st : Rbac.Records Role} {x : Rbac.RoleAssignment}
    (h : st.role .priceFeeder f = some (.assignment x)) :
    Rbac.Holds st t .priceFeeder f ↔ ∀ expiry, x.expiresAt = some expiry → t < expiry := by
  have hactive : Rbac.Holds st t .priceFeeder f ↔ x.active t = true := by
    unfold Rbac.Holds
    rw [h]
    show Except.ok (x.active t) = .ok true ↔ _
    rw [Except.ok.injEq]
  rw [hactive]
  unfold Rbac.RoleAssignment.active
  cases x.expiresAt with
  | none => simp
  | some expiry => simp

theorem fresh_iff {data : PriceData} (hprice : data.price.val ≠ 0) :
    data.Fresh t maxStaleness ↔ t.val ≤ data.updatedAt.val + maxStaleness.val := by
  unfold PriceData.Fresh
  rw [and_iff_left hprice]
  show (age t data.updatedAt).val ≤ maxStaleness.val ↔ _
  rw [val_saturatingSub]
  have := maxStaleness.ge
  omega

theorem authorized_iff (hs : Sound m.state) : m.Authorized ↔ m.InTerm := by
  constructor
  · intro h f data config expiry hconfig hdata hrole
    by_contra hlate
    -- it still counts when the role has ended
    have hmax := Ranged.val_max m.now expiry
    have hle : (max m.now expiry).val ≤ data.updatedAt.val + config.maxStaleness.val :=
      hmax ▸ not_lt.mp hlate
    have hcounted : f ∈ m.state.store.toBook.countedFeeders (max m.now expiry) :=
      List.mem_filter.mpr ⟨(hs.book.roster.mem f).mpr (by rw [hdata]; rfl), counts_iff.mpr
        ⟨config, data, hconfig, hdata, (fresh_iff (hs.book.priced f data hdata)).mpr hle⟩⟩
    have hholds := h _ (Ranged.le_def.mpr (by omega)) f hcounted
    have hlt : (max m.now expiry).val < expiry.val := (holds_assignment hrole).mp hholds expiry rfl
    omega
  · intro h t ht f hf
    obtain ⟨hin, hcounts⟩ := List.mem_filter.mp hf
    obtain ⟨config, data, hconfig, hdata, hfresh⟩ := counts_iff.mp hcounts
    obtain ⟨v, hv⟩ := Option.isSome_iff_exists.mp (hs.feeders f ((hs.book.roster.mem f).mp hin))
    obtain ⟨⟨expiresAt⟩, rfl⟩ := hs.roles.assigned hv
    refine (holds_assignment hv).mpr ?_
    rintro expiry rfl
    have hstale := h f data config expiry hconfig hdata hv
    have hle := (fresh_iff (hs.book.priced f data hdata)).mp hfresh
    have ht : m.now.val ≤ t.val := ht
    show t.val < expiry.val
    unfold PriceData.StaleBefore at hstale
    omega

/-! ### What an invocation adds -/

/-- The age limit that an entry point configures, where it leaves submissions to be limited. -/
def Book.limitOf (config : OracleConfig) (b : Book) : Option U64 :=
  if ∃ old ∈ b.config, old.decimals ≠ config.decimals ∨ old.assetPeg ≠ config.assetPeg then none
  else some config.maxStaleness

def Entry.limit (b : Book) : Entry → Option U64
  | .configureOracle _ config => b.limitOf config
  | .updateOracleConfig _ update => b.config.bind fun config => b.limitOf (update.apply config)
  | .setMaxStalenessSeconds _ seconds => b.config.map fun _ => seconds
  | _ => none

/-- A new submission, a new end of a role or a new age limit goes well with what is there. -/
def Invocation.InTerm (i : Invocation) (b : Book) (feeder : Address → Option Rbac.Stored) : Prop :=
  let now := i.env.timestamp
  match i.entry with
  | .submitPrice caller price => ∀ config expiry, b.config = some config →
      feeder caller = some (.assignment ⟨some expiry⟩) →
      PriceData.StaleBefore ⟨price, now⟩ config.maxStaleness now expiry
  | .administer (.grantRoleWithExpiration _ .priceFeeder account (some expiry)) => ∀ config data,
      b.config = some config → b.submission account = some data →
      data.StaleBefore config.maxStaleness now expiry
  | entry => ∀ limit ∈ entry.limit b, ∀ f data expiry, b.submission f = some data →
      feeder f = some (.assignment ⟨some expiry⟩) → data.StaleBefore limit now expiry

theorem PriceData.StaleBefore.later {data : PriceData} {now now' expiry : U64}
    (h : data.StaleBefore maxStaleness now expiry) (hle : now ≤ now') :
    data.StaleBefore maxStaleness now' expiry := by
  have hle : now.val ≤ now'.val := hle
  unfold PriceData.StaleBefore at *
  omega

section

variable {b' : Book} {feeder feeder' : Address → Option Rbac.Stored} {now' : U64} {i : Invocation}

/-- Less to be limited. -/
theorem InTerm.mono (h : InTerm now b feeder) (hle : now ≤ now') (hconfig : b'.config = b.config)
    (hless : ∀ f data expiry, b'.submission f = some data →
      feeder' f = some (.assignment ⟨some expiry⟩) →
      b.submission f = some data ∧ feeder f = some (.assignment ⟨some expiry⟩)) :
    InTerm now' b' feeder' := by
  intro f data config expiry hc hdata hrole
  obtain ⟨hdata, hrole⟩ := hless f data expiry hdata hrole
  exact (h f data config expiry (hconfig ▸ hc) hdata hrole).later hle

/-- One account has a submission or a role that it did not have. -/
theorem InTerm.iff_of_new (account : Address) (h : InTerm now b feeder) (hle : now ≤ now')
    (hconfig : b'.config = b.config)
    (hother : ∀ f, f ≠ account → b'.submission f = b.submission f ∧ feeder' f = feeder f) :
    InTerm now' b' feeder' ↔ ∀ config data expiry, b.config = some config →
      b'.submission account = some data → feeder' account = some (.assignment ⟨some expiry⟩) →
      data.StaleBefore config.maxStaleness now' expiry := by
  constructor
  · intro h' config data expiry hc hdata hrole
    exact h' account data config expiry (hconfig.trans hc) hdata hrole
  · intro h' f data config expiry hc hdata hrole
    by_cases hf : f = account
    · subst hf
      exact h' config data expiry (hconfig ▸ hc) hdata hrole
    · obtain ⟨hsub, hfeeder⟩ := hother f hf
      exact (h f data config expiry (hconfig ▸ hc) (hsub ▸ hdata) (hfeeder ▸ hrole)).later hle

/-- A new age limit. -/
theorem inTerm_iff_of_limit (config : OracleConfig) (hconfig : b'.config = some config)
    (hsub : b'.submission = b.submission) :
    InTerm now' b' feeder ↔ ∀ f data expiry, b.submission f = some data →
      feeder f = some (.assignment ⟨some expiry⟩) →
      data.StaleBefore config.maxStaleness now' expiry := by
  unfold InTerm
  rw [hconfig, hsub]
  constructor
  · exact fun h f data expiry => h f data config expiry rfl
  · rintro h f data _ expiry ⟨⟩
    exact h f data expiry

theorem inTerm_reconfigure {config : OracleConfig} (hb : b.Sound) :
    InTerm now' (b.reconfigure config) feeder ↔ ∀ limit ∈ b.limitOf config, ∀ f data expiry,
      b.submission f = some data → feeder f = some (.assignment ⟨some expiry⟩) →
      data.StaleBefore limit now' expiry := by
  unfold Book.limitOf
  by_cases hscale : ∃ old ∈ b.config, old.decimals ≠ config.decimals ∨ old.assetPeg ≠ config.assetPeg
  · rw [if_pos hscale]
    refine iff_of_true (fun f data c expiry _ hdata => ?_) fun _ hlimit => (by cases hlimit)
    unfold Book.reconfigure at hdata
    rw [if_pos hscale] at hdata
    dsimp only at hdata
    rw [cleared_submission hb] at hdata
    cases hdata
  · rw [if_neg hscale, inTerm_iff_of_limit _ reconfigure_config]
    · exact ⟨fun h limit hlimit => Option.some.inj hlimit ▸ h, fun h => h _ rfl⟩
    · unfold Book.reconfigure
      rw [if_neg hscale]

theorem submission_of_drop {account : Address} {data : PriceData}
    (h : (b.drop account).submission f = some data) : b.submission f = some data := by
  rw [drop_submission] at h
  by_cases hf : f = account
  · rw [hf, Function.update_self] at h
    cases h
  · rwa [Function.update_of_ne hf] at h

/-- A role that ends is an old one where the new one does not. -/
theorem ends_of_update {account : Address} {v : Option Rbac.Stored} {expiry : U64}
    (hv : v ≠ some (.assignment ⟨some expiry⟩))
    (h : Function.update feeder account v f = some (.assignment ⟨some expiry⟩)) :
    feeder f = some (.assignment ⟨some expiry⟩) := by
  by_cases hf : f = account
  · rw [hf, Function.update_self] at h
    exact absurd h hv
  · rwa [Function.update_of_ne hf] at h

/-- The submissions stay in term exactly where what is new is. -/
theorem inTerm_after (hb : b.Sound) (h : InTerm now b feeder) (hle : now ≤ i.env.timestamp) :
    InTerm i.env.timestamp (b.after i) (i.feeders feeder) ↔ i.InTerm b feeder := by
  obtain ⟨feeds, env, entry⟩ := i
  have hkept : ∀ {b' : Book} {feeder' : Address → Option Rbac.Stored} {P : Prop},
      b'.config = b.config → (∀ f data expiry, b'.submission f = some data →
        feeder' f = some (.assignment ⟨some expiry⟩) →
        b.submission f = some data ∧ feeder f = some (.assignment ⟨some expiry⟩)) →
      P → (InTerm env.timestamp b' feeder' ↔ P) :=
    fun hconfig hless hP => iff_of_true (h.mono hle hconfig hless) hP
  have hnone : ∀ limit ∈ (none : Option U64), ∀ f data expiry, b.submission f = some data →
      feeder f = some (.assignment ⟨some expiry⟩) → data.StaleBefore limit env.timestamp expiry :=
    fun _ hlimit => (by cases hlimit)
  have hsame : ∀ f data expiry, b.submission f = some data →
      feeder f = some (.assignment ⟨some expiry⟩) →
      b.submission f = some data ∧ feeder f = some (.assignment ⟨some expiry⟩) :=
    fun _ _ _ hdata hrole => ⟨hdata, hrole⟩
  cases entry with
  | administer c =>
      cases c with
      | grantRole caller role account =>
          cases role with
          | priceFeeder =>
              exact hkept rfl (fun f data expiry hdata hrole => ⟨hdata,
                ends_of_update (fun hv => (by cases hv)) hrole⟩) hnone
          | _ => exact hkept rfl hsame hnone
      | grantRoleWithExpiration caller role account expiresAt =>
          cases role with
          | priceFeeder =>
              cases expiresAt with
              | none =>
                  exact hkept rfl (fun f data expiry hdata hrole => ⟨hdata,
                    ends_of_update (fun hv => (by cases hv)) hrole⟩) hnone
              | some expiry =>
                  refine (h.iff_of_new account hle rfl fun f hf =>
                    ⟨rfl, Function.update_of_ne hf ..⟩).trans ?_
                  show (∀ config data expiry', _ → _ → Function.update feeder account _ account = _ →
                    _) ↔ _
                  rw [Function.update_self]
                  constructor
                  · exact fun h' config data hc hdata => h' config data expiry hc hdata rfl
                  · rintro h' config data _ hc hdata ⟨⟩
                    exact h' config data hc hdata
          | _ => exact hkept rfl hsame hnone
      | revokeRole caller role account =>
          cases role with
          | priceFeeder =>
              exact hkept (drop_rest b account).2.1 (fun f data expiry hdata hrole =>
                ⟨submission_of_drop hdata, ends_of_update (fun hv => (by cases hv)) hrole⟩) hnone
          | _ => exact hkept rfl hsame hnone
      | purgeSubmitter caller feeder' =>
          exact hkept (drop_rest b feeder').2.1 (fun f data expiry hdata hrole =>
            ⟨submission_of_drop hdata, hrole⟩) hnone
      | _ => exact hkept rfl hsame hnone
  | submitPrice caller price =>
      have hnew : ((b.submit env.timestamp caller price).submission caller) =
          some ⟨price, env.timestamp⟩ := by
        show ((b.post env.timestamp caller price).enroll caller).submission caller = _
        rw [posted_submission, Function.update_self]
      refine (h.iff_of_new caller hle (submit_config : (b.submit env.timestamp caller price).config = _)
        fun f hf => ⟨?_, rfl⟩).trans ?_
      · show ((b.post env.timestamp caller price).enroll caller).submission f = _
        rw [posted_submission, Function.update_of_ne hf]
      · rw [hnew]
        constructor
        · exact fun h' config expiry hc hrole => h' config _ expiry hc rfl hrole
        · rintro h' config _ expiry hc ⟨⟩ hrole
          exact h' config expiry hc hrole
  | configureOracle caller config => exact inTerm_reconfigure hb
  | updateOracleConfig caller update =>
      cases hconfig : b.config with
      | none =>
          have hafter : b.after ⟨feeds, env, .updateOracleConfig caller update⟩ = b := by
            unfold Book.after
            rw [hconfig]
          rw [hafter]
          refine hkept rfl hsame fun limit hlimit => ?_
          obtain ⟨config, hc, -⟩ := Option.bind_eq_some_iff.mp hlimit
          rw [hconfig] at hc
          cases hc
      | some config =>
          have hafter : b.after ⟨feeds, env, .updateOracleConfig caller update⟩ =
              b.reconfigure (update.apply config) := by
            unfold Book.after
            rw [hconfig]
          rw [hafter]
          refine (inTerm_reconfigure hb).trans ?_
          show _ ↔ ∀ limit ∈ b.config.bind _, _
          rw [hconfig]
          exact Iff.rfl
  | setMaxStalenessSeconds caller seconds =>
      show InTerm env.timestamp { b with config := b.config.map _ } feeder ↔
        ∀ limit ∈ b.config.map _, _
      cases hconfig : b.config with
      | none =>
          refine iff_of_true (fun f data config expiry hc => ?_) fun _ hlimit => (by cases hlimit)
          cases hc
      | some config =>
          refine (inTerm_iff_of_limit { config with maxStaleness := seconds } rfl
            rfl).trans ?_
          exact ⟨fun h' limit hlimit => Option.some.inj hlimit ▸ h', fun h' => h' _ rfl⟩
  | getTwapPrice | getTwapPriceForObservations | calculateFiatStreamPayout =>
      refine hkept read_rest.2.2.1 (fun f data expiry hdata hrole => ⟨?_, hrole⟩) hnone
      rwa [← read_rest.1]
  | _ => exact hkept rfl hsame hnone

end

/-! ### Runs -/

def Visit.InTerm (v : Visit) (s : State) : Prop :=
  match v with
  | .made i _ => i.InTerm s.store.toBook (s.store.roles.role .priceFeeder)
  | .refused _ _ => True

theorem visit_inTerm {i : Invocation}
    (h : i.InTerm m.state.store.toBook (m.state.store.roles.role .priceFeeder)) :
    (m.visit i).1.InTerm m.state := by
  unfold Moment.visit
  split
  · exact h
  · trivial

theorem run_inTerm {m₁ : Moment} {i : Invocation}
    (h : Run (fun m v m' => Visits here m v m' ∧ v.InTerm m.state) m₁ vs m)
    (henv : i.env.contract = here) (htime : m.now ≤ i.env.timestamp)
    (hi : i.InTerm m.state.store.toBook (m.state.store.roles.role .priceFeeder)) :
    Run (fun m v m' => Visits here m v m' ∧ v.InTerm m.state) m₁ (vs ++ [(m.visit i).1])
      (m.visit i).2 :=
  h.snoc ⟨visits_visit henv htime, visit_inTerm hi⟩

theorem Visits.inTerm_iff {m' : Moment} {v : Visit} (h : Visits here m v m') (hs : Sound m.state)
    (hm : m.InTerm) : m'.InTerm ↔ v.InTerm m.state := by
  cases h with
  | made henv htime h =>
      rename_i i reply s'
      have henters := enters_of_enter hs h
      show InTerm i.env.timestamp s'.store.toBook (s'.store.roles.role .priceFeeder) ↔ _
      rw [henters.book, henters.feeders]
      exact inTerm_after hs.book hm htime
  | refused henv htime h =>
      exact iff_of_true (hm.mono htime rfl fun _ _ _ hdata hrole => ⟨hdata, hrole⟩) trivial

theorem Visits.authorized_iff {m' : Moment} {v : Visit} (h : Visits here m v m') (hs : Sound m.state)
    (hm : m.Authorized) : m'.Authorized ↔ v.InTerm m.state :=
  (Oracle.authorized_iff (h.sound hs)).trans (h.inTerm_iff hs ((Oracle.authorized_iff hs).mp hm))

theorem authorized_fresh : Moment.fresh.Authorized := fun _ _ _ h => absurd h List.not_mem_nil

/-- **Who counts.**  The loops of the reads and of the median count the submissions of `countedFeeders`.
In every state reached, all of these hold their role, now and at every later time, exactly where each
submission is stale before its feeder's role ends; and in the runs whose visits are in term, and in no
other, they do so throughout. -/
theorem authorized_of_run :
    (Run (Visits here) Moment.fresh vs m →
      (∀ t config, m.state.store.config = some config →
        (freshPrices t config.maxStaleness m.state.store.toBook).1 =
          ((m.state.store.toBook.countedFeeders t).filterMap m.state.store.submission).map
            PriceData.price ∧
        (statusCounts t config.maxStaleness m.state.store.toBook).count =
          (m.state.store.toBook.countedFeeders t).length) ∧
      (m.Authorized ↔ m.InTerm)) ∧
    (Run (fun m v m' => Visits here m v m' ∧ v.InTerm m.state) Moment.fresh vs m → m.Authorized) ∧
    (Run (fun m v m' => Visits here m v m' ∧ m'.Authorized) Moment.fresh vs m ↔
      Run (fun m v m' => Visits here m v m' ∧ v.InTerm m.state) Moment.fresh vs m) := by
  have hsound : ∀ m v m', Visits here m v m' → Sound m.state → Sound m'.state :=
    fun _ _ _ h => h.sound
  have hstep : ∀ m v m', Visits here m v m' → Sound m.state → m.Authorized →
      (m'.Authorized ↔ v.InTerm m.state) := fun _ _ _ h => h.authorized_iff
  refine ⟨fun h => ⟨fun t config hconfig => ?_, authorized_iff (sound_of_run h)⟩, ?_⟩
  · exact ⟨freshPrices_feeders hconfig, statusCounts_feeders hconfig⟩
  · exact (Run.keeps_spec hsound hstep Sound.fresh authorized_fresh).symm

namespace Sample

/-- A feeder whose role ends at `expiry`, under an age limit of 300 seconds. -/
def temporary (expiry : U64) : List (U64 × Entry) := [
  (.lit 100, .configureOracle (.account 1) ⟨.lit 8, .lit 1, .lit 300, .lit 0, .lit 0, .lit 1⟩),
  (.lit 100, .administer (.grantRoleWithExpiration (.account 1) .priceFeeder (.account 2) (some expiry))),
  (.lit 110, .submitPrice (.account 2) (.lit 100))]

end Sample

/-- The role ends at 500, after the submission has gone stale. -/
theorem authorized_of_run_temporary :
    (Sample.visited Sample.silent (Sample.temporary (.lit 500))).Authorized := by
  have hrun : Run (fun m v m' => Visits Sample.address m v m' ∧ v.InTerm m.state) Moment.fresh []
      Moment.fresh := .nil _
  have hadmin := run_inTerm hrun (i := ⟨Sample.silent, Sample.envAt (.lit 100),
    .administer (.initializeOracle Sample.admin)⟩) rfl (by decide) fun _ hlimit => (by cases hlimit)
  have hconfig := run_inTerm hadmin (i := ⟨Sample.silent, Sample.envAt (.lit 100),
    .configureOracle (.account 1) ⟨.lit 8, .lit 1, .lit 300, .lit 0, .lit 0, .lit 1⟩⟩) rfl (by decide)
    fun _ _ _ data _ hdata _ => by
      have hdata : (none : Option PriceData) = some data := hdata
      cases hdata
  have hgrant := run_inTerm hconfig (i := ⟨Sample.silent, Sample.envAt (.lit 100), .administer
    (.grantRoleWithExpiration (.account 1) .priceFeeder (.account 2) (some (.lit 500)))⟩) rfl
    (by decide) fun _ data _ hdata => by
      have hdata : (none : Option PriceData) = some data := hdata
      cases hdata
  have hsubmit := run_inTerm hgrant (i := ⟨Sample.silent, Sample.envAt (.lit 110),
    .submitPrice (.account 2) (.lit 100)⟩) rfl (by decide) fun config expiry hc hrole => by
      have hc : some (⟨.lit 8, .lit 1, .lit 300, .lit 0, .lit 0, .lit 1⟩ : OracleConfig) =
        some config := hc
      have hrole : some (Rbac.Stored.assignment ⟨some (.lit 500)⟩) =
        some (.assignment ⟨some expiry⟩) := hrole
      cases hc
      cases hrole
      show (110 : Int) + 300 < max 110 500
      decide
  exact authorized_of_run.2.1 hsubmit

/-- The role ends at 200; at 250 its submission makes the quorum. -/
theorem lapsed_counts :
    let m := Sample.visited Sample.silent (Sample.temporary (.lit 200))
    Run (Visits Sample.address) Moment.fresh
        (Moment.fresh.tour (Sample.invocations Sample.silent (Sample.temporary (.lit 200)))).1 m ∧
      m.now ≤ (.lit 250 : U64) ∧
      loadPriceStatus (Sample.envAt (.lit 250)) m.state.store.toBook =
        .ok ⟨1, .lit 1, .lit 140, .lit 140, false⟩ ∧
      (getTwapPrice Sample.silent (Sample.envAt (.lit 250)) m.state).map Prod.fst = .ok (.lit 100) ∧
      m.state.store.toBook.countedFeeders (.lit 250) = [.account 2] ∧
      ¬ Rbac.Holds m.state.store.roles (.lit 250) .priceFeeder (.account 2) := by
  intro m
  exact ⟨Sample.run_visited _ _ (by decide), by decide, by rfl, by rfl, by rfl, by decide⟩

end Drip.Oracle
