import Drip.Protocol.Administration
import Drip.Oracle.Sound

/-!
# Oracle — Effects

What an accepted invocation does: `Enters` says it once for all entry points, and `enters_of_enter` that
it is so.  From it comes what holds of the oracle in every run (`sound_of_run`), and that every run is
one of its administration (`reachable_of_run`).
-/

namespace Drip.Oracle
open Chain

variable {here : Address} {env : Env} {s s' : State} {i : Invocation} {reply : Reply} {c : Call}
variable {m m' : Moment} {v : Visit} {vs : List Visit}

/-! ### Guards -/

theorem requireNotPaused_spec (h : requireNotPaused env s = .ok s') :
    ∃ stored, s' = { s with store := { s.store with paused := stored } } := by
  simp only [requireNotPaused, bind_eq_ok, pure_eq_ok] at h
  obtain ⟨-, -, rfl⟩ := h
  exact ⟨_, rfl⟩

theorem setPaused_spec {paused : Bool} (h : setPaused env paused s = .ok s') :
    ∃ stored, s' = { s with store := { s.store with paused := stored } } := by
  unfold setPaused at h
  split at h
  · cases h
    exact ⟨_, rfl⟩
  · cases h
    exact ⟨s.store.paused, rfl⟩
  · cases h

/-- Where the guard is open, a read is what it is on the book. -/
theorem withGuard_onBook {α : Type} {f : Book → Result (α × Book)} (hlock : s.store.lock = .lit 0) :
    withGuard (onBook f) s = (fun x => (x.1, s.withBook x.2)) <$> f s.store.toBook := by
  obtain ⟨⟨book, admin, roles, paused, quoteCurrency, maxStaleness, maxDeviation, assets, pairs,
    symbolPairs, lock⟩, events⟩ := s
  dsimp only at hlock
  subst hlock
  unfold withGuard
  dsimp only
  have hopen : ¬ 1 ≤ (Ranged.lit 0 : U32).val := by decide
  rw [bind_of_ok (reject_eq_ok (u := ()).mpr hopen)]
  unfold onBook State.withLock
  dsimp only
  cases f book with
  | error e => rfl
  | ok x => rfl

/-! ### The administration -/

/-- The feeders' assignments after a call. -/
def Call.feeders (c : Call) (feeder : Address → Option Rbac.Stored) : Address → Option Rbac.Stored :=
  match c with
  | .grantRole _ .priceFeeder account => Function.update feeder account (some (.assignment ⟨none⟩))
  | .grantRoleWithExpiration _ .priceFeeder account expiresAt =>
      Function.update feeder account (some (.assignment ⟨expiresAt⟩))
  | .revokeRole _ .priceFeeder account => Function.update feeder account none
  | _ => feeder

def Invocation.feeders (i : Invocation) (feeder : Address → Option Rbac.Stored) :
    Address → Option Rbac.Stored :=
  match i.entry with
  | .administer c => c.feeders feeder
  | _ => feeder

/-- What holds of an oracle in every run. -/
structure Sound (s : State) : Prop where
  staffed : Staffed s
  book : s.store.toBook.Sound
  lock : s.store.lock = .lit 0
  feeders : ∀ f, (s.store.submission f).isSome = true →
    (s.store.roles.role .priceFeeder f).isSome = true

theorem Sound.fresh : Sound State.fresh :=
  ⟨staffed_fresh, .empty, rfl, fun _ h => absurd h Bool.false_ne_true⟩

theorem Sound.roles (hs : Sound s) : Rbac.Coherent .admin s.store.roles := hs.staffed.1

/-- What an accepted invocation does. -/
structure Enters (i : Invocation) (s s' : State) : Prop where
  step : ∃ a, Step i.env.contract s a s'
  book : s'.store.toBook = s.store.toBook.after i
  accepts : s.store.toBook.Accepts i
  lock : s'.store.lock = s.store.lock
  feeders : s'.store.roles.role .priceFeeder = i.feeders (s.store.roles.role .priceFeeder)
  /-- a submission is signed by a feeder -/
  signed : ∀ caller price, i.entry = .submitPrice caller price →
    Rbac.Holds s.store.roles i.env.timestamp .priceFeeder caller

section

variable {role : Role} {account : Address} {expiresAt : Option U64} {b : Bool}

/-- A grant writes the roles. -/
theorem grantInner_spec (hc : Rbac.Coherent .admin s.store.roles) (hperm : role = .admin → expiresAt = none)
    (h : grantRoleWithExpirationInner env role account expiresAt s = .ok (b, s')) :
    ∃ roles, s' = s.withRoles roles ∧ Rbac.Coherent .admin roles ∧ ∀ r a, roles.role r a =
      if r = role ∧ a = account then some (.assignment ⟨expiresAt⟩) else s.store.roles.role r a := by
  simp only [grantRoleWithExpirationInner, bind_eq_ok, mapError_eq_ok, pure_eq_ok] at h
  obtain ⟨⟨b', roles⟩, hgrant, h⟩ := h
  cases h
  obtain ⟨hc', hrole, -⟩ := Rbac.grant_spec hc hperm hgrant
  exact ⟨roles, rfl, hc', hrole⟩

/-- A revocation writes the roles, and drops the submission of a feeder. -/
theorem revokeInner_spec (hc : Rbac.Coherent .admin s.store.roles)
    (h : revokeRoleInner env role account s = .ok (b, s')) :
    ∃ roles, Rbac.Coherent .admin roles ∧
      (∀ r a, roles.role r a = if r = role ∧ a = account then none else s.store.roles.role r a) ∧
      s'.store = { s.store with
        roles := roles
        toBook := if role = .priceFeeder ∧ (s.store.roles.role .priceFeeder account).isSome = true
          then s.store.toBook.drop account else s.store.toBook } := by
  simp only [revokeRoleInner, bind_eq_ok, mapError_eq_ok] at h
  obtain ⟨⟨ev, roles⟩, hrevoke, h⟩ := h
  obtain ⟨hc', hrole, -, -⟩ := Rbac.revoke_spec hc hrevoke
  refine ⟨roles, hc', hrole, ?_⟩
  obtain ⟨hnone, rfl, -⟩ | ⟨x, e, st₁, hsome, rfl, -, -⟩ := Rbac.revoke_cases hc hrevoke
  · cases h
    rw [if_neg]
    · rfl
    · rintro ⟨rfl, hsome⟩
      rw [hnone] at hsome
      cases hsome
  · dsimp only at h
    split at h
    · rename_i hfeeder
      cases h
      subst hfeeder
      rw [if_pos ⟨rfl, by rw [hsome]; rfl⟩]
      exact removeSubmitter_eq _
    · rename_i hother
      cases h
      rw [if_neg fun h => hother h.1]
      rfl

/-- The feeders' assignments after one assignment has been written. -/
theorem feeders_of_write {st st' : Rbac.Records Role} {v : Option Rbac.Stored}
    (h : ∀ r a, st'.role r a = if r = role ∧ a = account then v else st.role r a) :
    st'.role .priceFeeder = if role = .priceFeeder
      then Function.update (st.role .priceFeeder) account v else st.role .priceFeeder := by
  funext a
  rw [h]
  by_cases hrole : role = .priceFeeder
  · rw [if_pos hrole]
    by_cases ha : a = account
    · rw [if_pos ⟨hrole.symm, ha⟩, ha, Function.update_self]
    · rw [if_neg fun hf => ha hf.2, Function.update_of_ne ha]
  · rw [if_neg hrole, if_neg fun hf => hrole hf.1.symm]

end

theorem Sound.drop_of_unassigned {f : Address} (hs : Sound s)
    (h : (s.store.roles.role .priceFeeder f).isSome = false) : s.store.toBook.drop f = s.store.toBook := by
  have hno : ¬ (s.store.submission f).isSome = true := fun hsome => by
    rw [hs.feeders f hsome] at h
    cases h
  exact drop_of_none (Option.not_isSome_iff_eq_none.mp hno) fun hin => hno ((hs.book.roster.mem f).mp hin)

/-- What a call of the administration does to the book and to the feeders. -/
theorem exec_spec (feeds : Feeds) (hs : Sound s) (h : exec env s c = .ok s') :
    s'.store.toBook = s.store.toBook.after ⟨feeds, env, .administer c⟩ ∧
      s'.store.lock = s.store.lock ∧
      s'.store.roles.role .priceFeeder = c.feeders (s.store.roles.role .priceFeeder) := by
  cases c with
  | initializeOracle admin =>
      simp only [exec, initializeOracle, grantRoleInner, bind_eq_ok, pure_eq_ok] at h
      obtain ⟨-, -, ⟨b, s₁⟩, hgrant, rfl⟩ := h
      obtain ⟨roles, rfl, -, hrole⟩ := grantInner_spec (s := { s with
        store := { s.store with admin := some admin } }) hs.roles (fun _ => rfl) hgrant
      exact ⟨rfl, rfl, feeders_of_write hrole⟩
  | grantRoleWithExpiration caller role account expiresAt =>
      simp only [exec, grantRoleWithExpiration, bind_eq_ok, reject_eq_ok, pure_eq_ok] at h
      obtain ⟨-, -, -, hexp, ⟨b, s₁⟩, hgrant, rfl⟩ := h
      obtain ⟨roles, rfl, -, hrole⟩ := grantInner_spec hs.roles (Rbac.permanent_of_check hexp) hgrant
      have hfeeders := feeders_of_write hrole
      cases b <;> cases role <;> exact ⟨rfl, rfl, hfeeders⟩
  | grantRole caller role account =>
      simp only [exec, grantRole, grantRoleInner, bind_eq_ok, pure_eq_ok] at h
      obtain ⟨-, -, ⟨b, s₁⟩, hgrant, rfl⟩ := h
      obtain ⟨roles, rfl, -, hrole⟩ := grantInner_spec hs.roles (fun _ => rfl) hgrant
      have hfeeders := feeders_of_write hrole
      cases b <;> cases role <;> exact ⟨rfl, rfl, hfeeders⟩
  | revokeRole caller role account =>
      simp only [exec, revokeRole, bind_eq_ok, pure_eq_ok] at h
      obtain ⟨-, -, ⟨b, s₁⟩, hrevoke, rfl⟩ := h
      obtain ⟨roles, -, hrole, hstore⟩ := revokeInner_spec hs.roles hrevoke
      have hpublish : (if b = true then s₁.publish (.revokeRole caller role account) else s₁).store =
          s₁.store := by split <;> rfl
      rw [hpublish, hstore]
      have hfeeders := feeders_of_write hrole
      cases role with
      | priceFeeder =>
          refine ⟨?_, rfl, hfeeders⟩
          show (if _ then _ else _) = s.store.toBook.drop account
          cases hassigned : (s.store.roles.role .priceFeeder account).isSome with
          | true => exact if_pos ⟨rfl, rfl⟩
          | false =>
              rw [if_neg fun h => Bool.false_ne_true h.2]
              exact (hs.drop_of_unassigned hassigned).symm
      | admin => exact ⟨rfl, rfl, hfeeders⟩
      | pauser => exact ⟨rfl, rfl, hfeeders⟩
  | purgeSubmitter caller feeder =>
      simp only [exec, purgeSubmitter, bind_eq_ok, pure_eq_ok] at h
      obtain ⟨-, -, rfl⟩ := h
      rw [removeSubmitter_eq]
      exact ⟨rfl, rfl, rfl⟩
  | transferAdmin caller newAdmin =>
      simp only [exec, transferAdmin, grantRoleInner, bind_eq_ok, pure_eq_ok] at h
      obtain ⟨-, -, ⟨b, s₁⟩, h₁, ⟨b', s₂⟩, h₂, rfl⟩ := h
      obtain ⟨roles, rfl, hc, hrole⟩ := grantInner_spec hs.roles (fun _ => rfl) h₁
      obtain ⟨roles', -, hrole', hstore⟩ := revokeInner_spec hc h₂
      have hfeeders := feeders_of_write hrole
      have hfeeders' := feeders_of_write hrole'
      rw [if_neg (by decide)] at hfeeders hfeeders'
      show s₂.store.toBook = _ ∧ s₂.store.lock = _ ∧ s₂.store.roles.role .priceFeeder = _
      rw [hstore]
      exact ⟨rfl, rfl, hfeeders'.trans hfeeders⟩


/-! ### The other entry points -/

/-- The entry points that take no price and leave the roles alone. -/
def Entry.keepsRoles : Entry → Bool
  | .administer _ | .submitPrice _ _ => false
  | _ => true

/-- An entry point that leaves roles, guard and first admin alone. -/
theorem Enters.of_kept (hentry : i.entry.keepsRoles = true)
    (hadmin : s'.store.admin = s.store.admin) (hroles : s'.store.roles = s.store.roles)
    (hlock : s'.store.lock = s.store.lock) (hbook : s'.store.toBook = s.store.toBook.after i)
    (haccepts : s.store.toBook.Accepts i) : Enters i s s' where
  step := ⟨.prices s', .prices hadmin hroles⟩
  book := hbook
  accepts := haccepts
  lock := hlock
  feeders := by
    rw [hroles]
    unfold Invocation.feeders
    split
    · rename_i c hc
      rw [hc] at hentry
      cases hentry
    · rfl
  signed := fun caller price h => by
    rw [h] at hentry
    cases hentry

theorem done_eq_ok {r : Result State} : done r = .ok (reply, s') ↔ reply = .done ∧ r = .ok s' := by
  simp only [done, bind_eq_ok, pure_eq_ok, Prod.mk.injEq]
  constructor
  · rintro ⟨s₁, hr, rfl, rfl⟩
    exact ⟨rfl, hr⟩
  · rintro ⟨rfl, hr⟩
    exact ⟨s', hr, rfl, rfl⟩

theorem viewed_eq_ok {α : Type} {f : α → Reply} {r : Result α} :
    viewed f r s = .ok (reply, s') ↔ s' = s ∧ ∃ a, r = .ok a ∧ reply = f a := by
  simp only [viewed, bind_eq_ok, pure_eq_ok, Prod.mk.injEq]
  constructor
  · rintro ⟨a, hr, rfl, rfl⟩
    exact ⟨rfl, a, hr, rfl⟩
  · rintro ⟨rfl, a, hr, rfl⟩
    exact ⟨a, hr, rfl, rfl⟩

/-- A guarded read. -/
theorem priced_eq_ok {f : Book → Result (U64 × Book)} (hlock : s.store.lock = .lit 0) :
    priced (withGuard (onBook f) s) = .ok (reply, s') ↔
      ∃ price b', f s.store.toBook = .ok (price, b') ∧ reply = .price price ∧ s' = s.withBook b' := by
  rw [withGuard_onBook hlock]
  simp only [priced, bind_eq_ok, map_eq_ok, pure_eq_ok, Prod.mk.injEq]
  constructor
  · rintro ⟨x, ⟨⟨p, b'⟩, hf, rfl⟩, rfl, rfl⟩
    exact ⟨p, b', hf, rfl, rfl⟩
  · rintro ⟨p, b', hf, rfl, rfl⟩
    exact ⟨_, ⟨(p, b'), hf, rfl⟩, rfl, rfl⟩

theorem storeOracleConfig_eq_ok {caller : Address} {config : OracleConfig} :
    storeOracleConfig caller config s = .ok s' ↔ config.Sane ∧
      s' = (s.withBook (s.store.toBook.reconfigure config)).publish
        (.oracleConfigured caller config) := by
  simp only [storeOracleConfig, bind_eq_ok, reject_eq_ok, pure_eq_ok, not_lt, not_or]
  constructor
  · rintro ⟨-, hdecimals, -, hstaleness, -, ⟨hpos, hle⟩, rfl⟩
    exact ⟨⟨hdecimals, hstaleness, hpos, hle⟩, rfl⟩
  · rintro ⟨hsane, rfl⟩
    exact ⟨(), hsane.decimals_le, (), hsane.staleness_pos, (), ⟨hsane.quorum_pos, hsane.quorum_le⟩, rfl⟩

theorem requireRole_holds {caller : Address} {role : Role} {u : Unit}
    (h : requireRole env caller role s = .ok u) :
    Rbac.Holds s.store.roles env.timestamp role caller := by
  simp only [requireRole, hasRole, bind_eq_ok, reject_eq_ok, mapError_eq_ok, Bool.not_eq_false] at h
  obtain ⟨-, -, held, hheld, rfl⟩ := h
  exact hheld

/-- **The effect of an accepted invocation**, for every entry point. -/
theorem enters_of_enter (hs : Sound s) (h : enter i s = .ok (reply, s')) : Enters i s s' := by
  obtain ⟨feeds, env, entry⟩ := i
  cases entry with
  | administer c =>
      obtain ⟨-, h⟩ := done_eq_ok.mp h
      obtain ⟨hbook, hlock, hfeeders⟩ := exec_spec feeds hs h
      exact ⟨⟨.call env c, .call rfl h⟩, hbook, trivial, hlock, hfeeders, fun _ _ h => (by cases h)⟩
  | submitPrice caller price =>
      obtain ⟨-, h⟩ := done_eq_ok.mp h
      simp only [submitPrice, bind_eq_ok, pure_eq_ok, writePrice_eq_ok] at h
      obtain ⟨s₁, hpause, u, hrole, u', hcheck, b', ⟨hcap, hadmits, rfl⟩, rfl⟩ := h
      obtain ⟨stored, rfl⟩ := requireNotPaused_spec hpause
      have hprice : price.val ≠ 0 := by
        simp only [checkPrice, bind_eq_ok, reject_eq_ok] at hcheck
        obtain ⟨-, hprice, -⟩ := hcheck
        exact hprice
      have hholds := requireRole_holds hrole
      refine ⟨⟨.prices _, .prices rfl rfl⟩, rfl, ⟨hprice, hcap, hadmits⟩, rfl, rfl, ?_⟩
      rintro caller' price' h
      cases h
      exact hholds
  | configureOracle caller config =>
      obtain ⟨-, h⟩ := done_eq_ok.mp h
      simp only [configureOracle, bind_eq_ok, storeOracleConfig_eq_ok] at h
      obtain ⟨-, -, hsane, rfl⟩ := h
      exact .of_kept rfl rfl rfl rfl rfl hsane
  | updateOracleConfig caller update =>
      obtain ⟨-, h⟩ := done_eq_ok.mp h
      simp only [updateOracleConfig, bind_eq_ok, okOr_eq_ok, storeOracleConfig_eq_ok, pure_eq_ok] at h
      obtain ⟨-, -, config, hconfig, s₁, ⟨hsane, rfl⟩, rfl⟩ := h
      have hbook : s.store.toBook.after ⟨feeds, env, .updateOracleConfig caller update⟩ =
          s.store.toBook.reconfigure (update.apply config) := by
        unfold Book.after
        rw [hconfig]
      refine .of_kept rfl ?_ ?_ ?_ ?_ ⟨config, hconfig, hsane⟩
      · split <;> split <;> rfl
      · split <;> split <;> rfl
      · split <;> split <;> rfl
      · rw [hbook]
        split <;> split <;> rfl
  | getTwapPrice | getTwapPriceForObservations count =>
      obtain ⟨price, b', hread, -, rfl⟩ := (priced_eq_ok hs.lock).mp h
      obtain ⟨rfl, hadmits⟩ := getTwapPriceInner_book hread
      exact .of_kept rfl rfl rfl rfl rfl hadmits
  | calculateFiatStreamPayout tokenAmount =>
      obtain ⟨price, b', hread, -, rfl⟩ := (priced_eq_ok hs.lock).mp h
      simp only [calculateFiatStreamPayoutInner, bind_eq_ok, pure_eq_ok, Prod.mk.injEq] at hread
      obtain ⟨⟨p, b₁⟩, hread, config, -, precision, -, product, -, value, -, v, -, rfl, rfl⟩ := hread
      obtain ⟨rfl, hadmits⟩ := getTwapPriceInner_book hread
      exact .of_kept rfl rfl rfl rfl rfl hadmits
  | getPriceWithFallback =>
      obtain ⟨price, b', hread, -, rfl⟩ := (priced_eq_ok hs.lock).mp h
      have hb' : b' = s.store.toBook := by
        dsimp only at hread
        split at hread
        · simp only [bind_eq_ok, pure_eq_ok, Prod.mk.injEq] at hread
          obtain ⟨data, -, -, rfl⟩ := hread
          rfl
        · rename_i hno
          obtain ⟨rfl, -⟩ := getTwapPriceInner_book hread
          unfold Book.read
          rw [reading_of_no_feeds hno]
      subst hb'
      exact .of_kept rfl rfl rfl rfl rfl trivial
  | priceStatus | priceAge | isPriceStale | latestPrice | getPrice | getPriceInverted | getPriceSymbol
  | getPriceInvertedSymbol =>
      obtain ⟨rfl, -⟩ := viewed_eq_ok.mp h
      exact .of_kept rfl rfl rfl rfl rfl trivial
  | setOracleFeeds caller primaryOracle fallbackOracle =>
      obtain ⟨-, h⟩ := done_eq_ok.mp h
      simp only [setOracleFeeds, bind_eq_ok, pure_eq_ok] at h
      obtain ⟨s₁, hpause, -, -, rfl⟩ := h
      obtain ⟨stored, rfl⟩ := requireNotPaused_spec hpause
      exact .of_kept rfl rfl rfl rfl rfl trivial
  | setPrimaryOracle caller primaryOracle =>
      obtain ⟨-, h⟩ := done_eq_ok.mp h
      simp only [setPrimaryOracle, bind_eq_ok, pure_eq_ok] at h
      obtain ⟨s₁, hpause, -, -, rfl⟩ := h
      obtain ⟨stored, rfl⟩ := requireNotPaused_spec hpause
      exact .of_kept rfl rfl rfl rfl rfl trivial
  | setFallbackOracle caller fallbackOracle =>
      obtain ⟨-, h⟩ := done_eq_ok.mp h
      simp only [setFallbackOracle, bind_eq_ok, pure_eq_ok] at h
      obtain ⟨s₁, hpause, -, -, rfl⟩ := h
      obtain ⟨stored, rfl⟩ := requireNotPaused_spec hpause
      exact .of_kept rfl rfl rfl rfl rfl trivial
  | setMaxStalenessSeconds caller seconds =>
      obtain ⟨-, h⟩ := done_eq_ok.mp h
      simp only [setMaxStalenessSeconds, bind_eq_ok, reject_eq_ok, pure_eq_ok] at h
      obtain ⟨s₁, hpause, -, -, -, hpos, rfl⟩ := h
      obtain ⟨stored, rfl⟩ := requireNotPaused_spec hpause
      exact .of_kept rfl rfl rfl rfl rfl hpos
  | setAssetOracleConfig caller token config =>
      obtain ⟨-, h⟩ := done_eq_ok.mp h
      simp only [setAssetOracleConfig, bind_eq_ok, pure_eq_ok] at h
      obtain ⟨s₁, hpause, -, -, -, -, rfl⟩ := h
      obtain ⟨stored, rfl⟩ := requireNotPaused_spec hpause
      exact .of_kept rfl rfl rfl rfl rfl trivial
  | setMaxDeviationBps caller maxDeviationBps =>
      obtain ⟨-, h⟩ := done_eq_ok.mp h
      simp only [setMaxDeviationBps, bind_eq_ok, pure_eq_ok] at h
      obtain ⟨s₁, hpause, -, -, rfl⟩ := h
      obtain ⟨stored, rfl⟩ := requireNotPaused_spec hpause
      exact .of_kept rfl rfl rfl rfl rfl trivial
  | setPrice caller base quote price =>
      obtain ⟨-, h⟩ := done_eq_ok.mp h
      simp only [setPrice, checkReport, bind_eq_ok, pure_eq_ok] at h
      obtain ⟨s₁, ⟨s₂, hpause, -, -, -, -, rfl⟩, pairs, -, rfl⟩ := h
      obtain ⟨stored, rfl⟩ := requireNotPaused_spec hpause
      exact .of_kept rfl rfl rfl rfl rfl trivial
  | setPriceSymbol caller base quote price =>
      obtain ⟨-, h⟩ := done_eq_ok.mp h
      simp only [setPriceSymbol, checkReport, bind_eq_ok, pure_eq_ok] at h
      obtain ⟨s₁, ⟨s₂, hpause, -, -, -, -, rfl⟩, pairs, -, rfl⟩ := h
      obtain ⟨stored, rfl⟩ := requireNotPaused_spec hpause
      exact .of_kept rfl rfl rfl rfl rfl trivial
  | pause caller =>
      obtain ⟨-, h⟩ := done_eq_ok.mp h
      simp only [pause, bind_eq_ok, pure_eq_ok] at h
      obtain ⟨-, -, -, -, s₁, hset, rfl⟩ := h
      obtain ⟨stored, rfl⟩ := setPaused_spec hset
      exact .of_kept rfl rfl rfl rfl rfl trivial
  | unpause caller =>
      obtain ⟨-, h⟩ := done_eq_ok.mp h
      simp only [unpause, bind_eq_ok, pure_eq_ok] at h
      obtain ⟨-, -, -, -, s₁, hset, rfl⟩ := h
      obtain ⟨stored, rfl⟩ := setPaused_spec hset
      exact .of_kept rfl rfl rfl rfl rfl trivial
  | isPaused =>
      cases h
      exact .of_kept rfl rfl rfl rfl rfl trivial
  | upgrade caller newWasmHash =>
      obtain ⟨-, h⟩ := done_eq_ok.mp h
      simp only [upgrade, bind_eq_ok, pure_eq_ok] at h
      obtain ⟨-, -, s₁, hpause, -, -, rfl⟩ := h
      obtain ⟨stored, rfl⟩ := requireNotPaused_spec hpause
      exact .of_kept rfl rfl rfl rfl rfl trivial

/-! ### Runs -/

/-- An assignment goes only when the submission goes. -/
theorem feeders_isSome {feeder : Address → Option Rbac.Stored} {f : Address}
    (h : (feeder f).isSome = true) (hdropped : i.dropped ≠ some f) :
    (i.feeders feeder f).isSome = true := by
  have hupdate : ∀ {account v}, (f = account → v.isSome = true) →
      (Function.update feeder account v f).isSome = true := by
    intro account v hv
    by_cases hf : f = account
    · subst hf
      rw [Function.update_self]
      exact hv rfl
    · rw [Function.update_of_ne hf]
      exact h
  obtain ⟨feeds, env, entry⟩ := i
  cases entry with
  | administer c =>
      cases c with
      | grantRole caller role account =>
          cases role with
          | priceFeeder => exact hupdate fun _ => rfl
          | _ => exact h
      | grantRoleWithExpiration caller role account expiresAt =>
          cases role with
          | priceFeeder => exact hupdate fun _ => rfl
          | _ => exact h
      | revokeRole caller role account =>
          cases role with
          | priceFeeder => exact hupdate fun hf => absurd (congrArg some hf.symm) hdropped
          | _ => exact h
      | _ => exact h
  | _ => exact h

theorem Enters.change (h : Enters i s s') : s.store.toBook.Change i s'.store.toBook := by
  rw [h.book]
  exact h.accepts.change

theorem Enters.sound (h : Enters i s s') (hs : Sound s) : Sound s' where
  staffed := by
    obtain ⟨a, ha⟩ := h.step
    exact ha.staffed hs.staffed
  book := h.change.sound hs.book
  lock := h.lock.trans hs.lock
  feeders := fun f hf => by
    obtain ⟨data, hdata⟩ := Option.isSome_iff_exists.mp hf
    rw [h.feeders]
    obtain ⟨price, hentry, -⟩ | ⟨hold, hdropped⟩ := h.change.submission hs.book hdata
    · refine feeders_isSome (Rbac.isSome_of_hasRole (h.signed f price hentry)) ?_
      unfold Invocation.dropped
      rw [hentry]
      exact (Option.some_ne_none f).symm
    · exact feeders_isSome (hs.feeders f (by rw [hold]; rfl)) hdropped

theorem Visits.sound (h : Visits here m v m') (hs : Sound m.state) : Sound m'.state := by
  cases h with
  | made _ _ h => exact (enters_of_enter hs h).sound hs
  | refused _ _ _ => exact hs

theorem sound_of_run (h : Run (Visits here) Moment.fresh vs m) : Sound m.state :=
  h.invariant (P := fun m => Sound m.state) (fun _ => Visits.sound) .fresh

/-- A visit is a step of the administration, with its call, or with the rest of the storage. -/
theorem Visits.step (h : Visits here m v m') (hs : Sound m.state) :
    ∃ a, Step here m.state a m'.state := by
  cases h with
  | made henv _ h => exact henv ▸ (enters_of_enter hs h).step
  | refused _ _ _ => exact ⟨.prices m.state, .prices rfl rfl⟩

/-- What holds of every run of the administration holds of every run. -/
theorem reachable_of_run {vs : List Visit} (h : Run (Visits here) Moment.fresh vs m) :
    Reachable here m.state := by
  have hinv : Sound m.state ∧ Reachable here m.state := by
    refine h.invariant (P := fun m => Sound m.state ∧ Reachable here m.state) ?_
      ⟨Sound.fresh, [], .nil _⟩
    rintro m v m' - hvisit ⟨hs, as, hrun⟩
    obtain ⟨a, ha⟩ := hvisit.step hs
    exact ⟨hvisit.sound hs, as ++ [a], hrun.snoc ha⟩
  exact hinv.2

end Drip.Oracle
