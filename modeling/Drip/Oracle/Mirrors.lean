import Mathlib.Data.Set.Function
import Drip.Oracle.Reads

/-!
# Oracle — Mirrors

The prices of pairs under a renaming.  A run that reports on pairs of addresses and the run that makes
the same reports on pairs of symbols lead to states that differ in the pairs alone, and there only in
the names (`mirror_of_runs`): the other entry points do not touch the pairs (`enter_withPairs`), and
the two copies of the bookkeeping do the same (`Pairs.Mirror.report`).  What differs is how long a
report is fresh: the limit for the age of a price counts for addresses, and not for symbols.
-/

namespace Drip.Oracle
open Chain

variable {here : Address} {env : Env} {s s' : State} {i i' : Invocation} {m m' : Moment}
variable {v w : Visit} {vs ws : List Visit} {roles : Rbac.Records Role}

/-! ### Entry points that do not touch the pairs -/

def State.withPairs (pairs : Pairs Address) (symbolPairs : Pairs Symbol) (s : State) : State :=
  { s with store := { s.store with pairs := pairs, symbolPairs := symbolPairs } }

def Entry.pairs : Entry → Bool
  | .setPrice _ _ _ _ | .getPrice _ _ | .getPriceInverted _ _ | .setPriceSymbol _ _ _ _
  | .getPriceSymbol _ _ | .getPriceInvertedSymbol _ _ => true
  | _ => false

section

variable (p : Pairs Address) (q : Pairs Symbol)

theorem requireNotPaused_withPairs :
    requireNotPaused env (s.withPairs p q) = State.withPairs p q <$> requireNotPaused env s := by
  unfold requireNotPaused isPaused State.withPairs
  dsimp only
  rcases Pause.isPaused env.timestamp s.store.paused with ⟨paused, stored⟩
  cases paused <;> rfl

theorem setPaused_withPairs {paused : Bool} :
    setPaused env paused (s.withPairs p q) = State.withPairs p q <$> setPaused env paused s := by
  unfold setPaused State.withPairs
  dsimp only
  cases Pause.setPaused env.timestamp s.store.paused paused with
  | ok stored => rfl
  | error e => cases e <;> rfl

theorem publish_withPairs {b : Bool} {e : Event} :
    (if b = true then (s.withPairs p q).publish e else s.withPairs p q) =
      (if b = true then s.publish e else s).withPairs p q := by
  cases b <;> rfl

theorem unlock_withPairs {depth lock : U32} :
    (if 0 < depth.val then (s.withPairs p q).withLock lock else s.withPairs p q) =
      (if 0 < depth.val then s.withLock lock else s).withPairs p q := by
  split <;> rfl

theorem removeSubmitter_withPairs {account : Address} :
    (⟨removeSubmitter account (s.withPairs p q).store, s.events⟩ : State) =
      State.withPairs p q ⟨removeSubmitter account s.store, s.events⟩ := by
  rw [removeSubmitter_eq, removeSubmitter_eq]
  rfl

variable {role : Role} {account : Address} {expiresAt : Option U64}

theorem grantInner_withPairs :
    grantRoleWithExpirationInner env role account expiresAt (s.withPairs p q) =
      (fun x => (x.1, x.2.withPairs p q)) <$>
        grantRoleWithExpirationInner env role account expiresAt s :=
  bind_of_same fun _ => rfl

theorem revokeInner_withPairs :
    revokeRoleInner env role account (s.withPairs p q) =
      (fun x => (x.1, x.2.withPairs p q)) <$> revokeRoleInner env role account s := by
  refine bind_of_same fun x => ?_
  obtain ⟨event, st⟩ := x
  cases event with
  | none => rfl
  | some e =>
      dsimp only
      by_cases hrole : role = .priceFeeder
      · rw [if_pos hrole, if_pos hrole]
        exact congrArg (fun s => (Except.ok (true, s) : Result (Bool × State)))
          (removeSubmitter_withPairs p q (s := (s.withRoles st).publish (.roleRevoked e)))
      · rw [if_neg hrole, if_neg hrole]
        rfl

theorem exec_withPairs (c : Call) :
    exec env (s.withPairs p q) c = State.withPairs p q <$> exec env s c := by
  cases c with
  | initializeOracle admin =>
      -- the first admin is written before the role is granted
      let named : State := { s with store := { s.store with admin := some admin } }
      exact bind_of_same fun _ =>
        bind_of_map (grantInner_withPairs p q (s := named)) fun _ => rfl
  | grantRoleWithExpiration caller role account expiresAt =>
      refine bind_of_same fun _ => bind_of_same fun _ =>
        bind_of_map (grantInner_withPairs p q) fun x => ?_
      exact congrArg Except.ok (publish_withPairs p q)
  | grantRole caller role account =>
      refine bind_of_same fun _ => bind_of_map (grantInner_withPairs p q) fun x => ?_
      exact congrArg Except.ok (publish_withPairs p q)
  | revokeRole caller role account =>
      refine bind_of_same fun _ => bind_of_map (revokeInner_withPairs p q) fun x => ?_
      exact congrArg Except.ok (publish_withPairs p q)
  | purgeSubmitter caller feeder =>
      refine bind_of_same fun _ => ?_
      exact congrArg Except.ok (removeSubmitter_withPairs p q)
  | transferAdmin caller newAdmin =>
      refine bind_of_same fun _ => bind_of_map (grantInner_withPairs p q) fun x =>
        bind_of_map (revokeInner_withPairs p q) fun y => ?_
      rfl

theorem done_withPairs {r r' : Result State} (h : r' = State.withPairs p q <$> r) :
    done r' = (fun x => (x.1, x.2.withPairs p q)) <$> done r := bind_of_map h fun _ => rfl

theorem guarded_withPairs {f : Book → Result (U64 × Book)} :
    priced (withGuard (onBook f) (s.withPairs p q)) =
      (fun x => (x.1, x.2.withPairs p q)) <$> priced (withGuard (onBook f) s) := by
  let locked := s.withLock (s.store.lock.saturatingAdd (.lit 1))
  have hbook : onBook f (locked.withPairs p q) =
      (fun x => (x.1, x.2.withPairs p q)) <$> onBook f locked := bind_of_same fun _ => rfl
  refine bind_of_map (g := fun x => (x.1, x.2.withPairs p q)) ?_ fun _ => rfl
  refine bind_of_same fun _ => bind_of_map hbook fun x => congrArg Except.ok ?_
  exact Prod.ext rfl (unlock_withPairs p q)

theorem storeOracleConfig_withPairs {caller : Address} {config : OracleConfig} :
    storeOracleConfig caller config (s.withPairs p q) =
      State.withPairs p q <$> storeOracleConfig caller config s :=
  bind_of_same fun _ => bind_of_same fun _ => bind_of_same fun _ => rfl

/-- An entry point that is not about pairs neither reads them nor writes them. -/
theorem enter_withPairs (hpairs : i.entry.pairs = false) :
    enter i (s.withPairs p q) = (fun x => (x.1, x.2.withPairs p q)) <$> enter i s := by
  obtain ⟨feeds, env, entry⟩ := i
  cases entry with
  | administer c => exact done_withPairs p q (exec_withPairs p q c)
  | configureOracle caller config =>
      exact done_withPairs p q (bind_of_same fun _ => storeOracleConfig_withPairs p q)
  | updateOracleConfig caller update =>
      refine done_withPairs p q (bind_of_same fun _ => bind_of_same fun _ =>
        bind_of_map (storeOracleConfig_withPairs p q) fun x => ?_)
      obtain ⟨-, -, -, -, -, -, quoteCurrency, maxDeviationBps⟩ := update
      cases quoteCurrency <;> cases maxDeviationBps <;> rfl
  | submitPrice caller price =>
      exact done_withPairs p q (bind_of_map (requireNotPaused_withPairs p q) fun _ =>
        bind_of_same fun _ => bind_of_same fun _ => bind_of_same fun _ => rfl)
  | getTwapPrice | getTwapPriceForObservations count | calculateFiatStreamPayout tokenAmount
  | getPriceWithFallback => exact guarded_withPairs p q
  | setOracleFeeds caller primaryOracle fallbackOracle | setPrimaryOracle caller primaryOracle
  | setFallbackOracle caller fallbackOracle | setMaxDeviationBps caller maxDeviationBps =>
      exact done_withPairs p q (bind_of_map (requireNotPaused_withPairs p q) fun _ =>
        bind_of_same fun _ => rfl)
  | setMaxStalenessSeconds caller seconds | setAssetOracleConfig caller token config =>
      exact done_withPairs p q (bind_of_map (requireNotPaused_withPairs p q) fun _ =>
        bind_of_same fun _ => bind_of_same fun _ => rfl)
  | priceStatus | priceAge | isPriceStale | latestPrice => exact bind_of_same fun _ => rfl
  | pause caller | unpause caller =>
      exact done_withPairs p q (bind_of_same fun _ => bind_of_same fun _ =>
        bind_of_map (setPaused_withPairs p q (s := (isPaused env s).2)) fun _ => rfl)
  | isPaused => rfl
  | upgrade caller newWasmHash =>
      exact done_withPairs p q (bind_of_same fun _ =>
        bind_of_map (requireNotPaused_withPairs p q) fun _ => bind_of_same fun _ => rfl)
  | _ => cases hpairs

end

theorem own_of_enter {reply : Reply} (hpairs : i.entry.pairs = false)
    (h : enter i s = .ok (reply, s')) : s' = s'.withPairs s.store.pairs s.store.symbolPairs := by
  have hown : enter i s = (fun x => (x.1, x.2.withPairs s.store.pairs s.store.symbolPairs)) <$>
      enter i s := enter_withPairs s.store.pairs s.store.symbolPairs hpairs
  rw [h] at hown
  exact congrArg Prod.snd (Except.ok.inj hown)

theorem pairs_of_enter {reply : Reply} (hpairs : i.entry.pairs = false)
    (h : enter i s = .ok (reply, s')) :
    s'.store.pairs = s.store.pairs := congrArg (fun s => s.store.pairs) (own_of_enter hpairs h)

theorem symbolPairs_of_enter {reply : Reply} (hpairs : i.entry.pairs = false)
    (h : enter i s = .ok (reply, s')) : s'.store.symbolPairs = s.store.symbolPairs :=
  congrArg (fun s => s.store.symbolPairs) (own_of_enter hpairs h)

/-! ### One kind of pair and its mirror -/

section

variable {K L : Type} {ρ : K → L} {A : Set K} {ps : Pairs K} {qs : Pairs L} {base quote : K}

/-- On pairs from `A`, `qs` holds what `ps` holds, under the names that `ρ` gives. -/
structure Pairs.Mirror (ρ : K → L) (A : Set K) (ps : Pairs K) (qs : Pairs L) : Prop where
  pairPrice : ∀ base ∈ A, ∀ quote ∈ A, qs.pairPrice (ρ base) (ρ quote) = ps.pairPrice base quote
  pairSubmission : ∀ base ∈ A, ∀ quote ∈ A,
    qs.pairSubmission (ρ base) (ρ quote) = ps.pairSubmission base quote
  pairReporters : ∀ base ∈ A, ∀ quote ∈ A,
    qs.pairReporters (ρ base) (ρ quote) = ps.pairReporters base quote

theorem Pairs.Mirror.aggregate (h : ps.Mirror ρ A qs) (window : U64) (hbase : base ∈ A)
    (hquote : quote ∈ A) : qs.aggregate env roles window (ρ base) (ρ quote) =
      ps.aggregate env roles window base quote := by
  unfold Pairs.aggregate Pairs.freshReports Pairs.reporters
  rw [h.pairPrice base hbase quote hquote, h.pairSubmission base hbase quote hquote,
    h.pairReporters base hbase quote hquote]

variable [DecidableEq K] [DecidableEq L]

@[simp]
theorem Pairs.put_self {α : Type} (f : K → K → α) (v : α) : Pairs.put f base quote v base quote = v := by
  unfold Pairs.put
  rw [Function.update_self, Function.update_self]

theorem Pairs.put_apply {α : Type} (f : K → K → α) (v : α) (base' quote' : K) :
    Pairs.put f base quote v base' quote' =
      if base' = base ∧ quote' = quote then v else f base' quote' := by
  unfold Pairs.put
  by_cases hb : base' = base
  · subst hb
    rw [Function.update_self, Function.update_apply]
    simp only [true_and]
  · rw [Function.update_of_ne hb, if_neg fun h => hb h.1]

/-- A write for a pair and a write for its mirror. -/
theorem Pairs.put_mirror {α : Type} {f : K → K → α} {g : L → L → α} (hρ : Set.InjOn ρ A)
    (hbase : base ∈ A) (hquote : quote ∈ A) (v : α)
    (h : ∀ base ∈ A, ∀ quote ∈ A, g (ρ base) (ρ quote) = f base quote) :
    ∀ base' ∈ A, ∀ quote' ∈ A, Pairs.put g (ρ base) (ρ quote) v (ρ base') (ρ quote') =
      Pairs.put f base quote v base' quote' := by
  intro base' hbase' quote' hquote'
  -- another pair from `A` has another mirror, so neither write reaches it
  simp only [Pairs.put_apply, hρ.eq_iff hbase' hbase, hρ.eq_iff hquote' hquote,
    h base' hbase' quote' hquote']

/-- A report on a pair does the same as the report on its mirror. -/
theorem Pairs.Mirror.report (h : ps.Mirror ρ A qs) (hρ : Set.InjOn ρ A) (caller : Address)
    (hbase : base ∈ A) (hquote : quote ∈ A) (price : U128) :
    Alike (Pairs.Mirror ρ A) (ps.report env roles caller base quote price)
      (qs.report env roles caller (ρ base) (ρ quote) price) := by
  have hadd : Alike (Pairs.Mirror ρ A) (ps.addReporter env roles base quote caller)
      (qs.addReporter env roles (ρ base) (ρ quote) caller) := by
    unfold Pairs.addReporter Pairs.reporters
    rw [h.pairReporters base hbase quote hquote]
    refine alike_bind (alike_refl fun _ => rfl) fun active _ heq => heq ▸ ?_
    refine alike_bind (alike_refl fun _ => rfl) fun _ _ _ => .ok ?_
    exact ⟨h.pairPrice, h.pairSubmission, Pairs.put_mirror hρ hbase hquote _ h.pairReporters⟩
  refine alike_bind hadd fun ps' qs' h' => .ok ?_
  rw [h'.pairSubmission base hbase quote hquote]
  exact ⟨Pairs.put_mirror hρ hbase hquote _ h'.pairPrice,
    Pairs.put_mirror hρ hbase hquote _ h'.pairSubmission, h'.pairReporters⟩

end

/-! ### Runs side by side -/

variable {ρ : Address → Symbol} {A : Set Address} {j : Invocation}

/-- A call about a pair of addresses from `A`, and the one about the symbols; or the same call, about
no pair. -/
inductive Entry.Mirrored (ρ : Address → Symbol) (A : Set Address) : Entry → Entry → Prop where
  | report {caller base quote : Address} {price : U128} (hbase : base ∈ A) (hquote : quote ∈ A) :
      Mirrored ρ A (.setPrice caller base quote price)
        (.setPriceSymbol caller (ρ base) (ρ quote) price)
  | read {base quote : Address} (hbase : base ∈ A) (hquote : quote ∈ A) :
      Mirrored ρ A (.getPrice base quote) (.getPriceSymbol (ρ base) (ρ quote))
  | readInverted {base quote : Address} (hbase : base ∈ A) (hquote : quote ∈ A) :
      Mirrored ρ A (.getPriceInverted base quote) (.getPriceInvertedSymbol (ρ base) (ρ quote))
  | other {e : Entry} (h : e.pairs = false) : Mirrored ρ A e e

structure Invocation.Mirrored (ρ : Address → Symbol) (A : Set Address) (i j : Invocation) : Prop where
  feeds : j.feeds = i.feeds
  env : j.env = i.env
  entry : i.entry.Mirrored ρ A j.entry

/-- The invocations mirror each other; whether they succeed is another matter. -/
def Visit.Mirrored (ρ : Address → Symbol) (A : Set Address) (v w : Visit) : Prop :=
  v.invocation.Mirrored ρ A w.invocation

/-- The states differ in the pairs, and the pairs of symbols in `s'` mirror the pairs of addresses
in `s`. -/
def State.Mirror (ρ : Address → Symbol) (A : Set Address) (s s' : State) : Prop :=
  ∃ p q, s' = s.withPairs p q ∧ s.store.pairs.Mirror ρ A q

theorem checkReport_withPairs {caller : Address} {price : U128} (p : Pairs Address) (q : Pairs Symbol) :
    checkReport env caller price (s.withPairs p q) =
      State.withPairs p q <$> checkReport env caller price s :=
  bind_of_map (requireNotPaused_withPairs p q) fun _ =>
    bind_of_same fun _ => bind_of_same fun _ => rfl

theorem own_of_checkReport {caller : Address} {price : U128}
    (h : checkReport env caller price s = .ok s') :
    s' = s'.withPairs s.store.pairs s.store.symbolPairs := by
  have hown : checkReport env caller price s =
      State.withPairs s.store.pairs s.store.symbolPairs <$> checkReport env caller price s :=
    checkReport_withPairs s.store.pairs s.store.symbolPairs
  rw [h] at hown
  exact Except.ok.inj hown

theorem pairs_of_checkReport {caller : Address} {price : U128}
    (h : checkReport env caller price s = .ok s') : s'.store.pairs = s.store.pairs :=
  congrArg (fun s => s.store.pairs) (own_of_checkReport h)

theorem report_mirror (hρ : Set.InjOn ρ A) (h : s.Mirror ρ A s') (caller : Address) (price : U128)
    {base quote : Address} (hbase : base ∈ A) (hquote : quote ∈ A) :
    Alike (State.Mirror ρ A) (setPrice env caller base quote price s)
      (setPriceSymbol env caller (ρ base) (ρ quote) price s') := by
  obtain ⟨p, q, rfl, hq⟩ := h
  -- the checks are about the caller and the pause flag, which the states share
  have hcheck : Alike (fun s s' => s' = s.withPairs p q ∧ s.store.pairs.Mirror ρ A q)
      (checkReport env caller price s) (checkReport env caller price (s.withPairs p q)) := by
    rw [checkReport_withPairs]
    exact alike_of_map fun s₁ hs₁ => ⟨rfl, pairs_of_checkReport hs₁ ▸ hq⟩
  refine alike_bind hcheck fun s₁ s₁' h₁ => ?_
  obtain ⟨rfl, hq₁⟩ := h₁
  exact alike_bind (hq₁.report hρ caller hbase hquote price) fun ps qs h => .ok ⟨p, qs, rfl, h⟩

theorem visit_of_alike {R : State → State → Prop}
    (h : Alike (fun x y => R x.2 y.2) (enter i m.state) (enter j m'.state))
    (hR : R m.state m'.state) : R (m.visit i).2.state (m'.visit j).2.state := by
  unfold Moment.visit
  generalize enter i m.state = x at h
  generalize enter j m'.state = y at h
  cases h with
  | error e => exact hR
  | ok h => exact h

theorem visit_of_viewed {α : Type} {reply : α → Reply} {r : Result α}
    (h : enter i m.state = viewed reply r m.state) : (m.visit i).2.state = m.state := by
  unfold Moment.visit
  rw [h]
  cases r <;> rfl

theorem visit_mirror (hρ : Set.InjOn ρ A) (h : m.state.Mirror ρ A m'.state) (hij : i.Mirrored ρ A j) :
    (m.visit i).2.state.Mirror ρ A (m'.visit j).2.state := by
  obtain ⟨feeds, env, entry⟩ := i
  obtain ⟨feeds', env', entry'⟩ := j
  obtain ⟨rfl, rfl, hentry⟩ := hij
  cases hentry with
  | report hbase hquote =>
      exact visit_of_alike
        (alike_bind (report_mirror hρ h _ _ hbase hquote) fun _ _ h => .ok h) h
  | read | readInverted =>
      -- the answers may differ; either state stays as it is
      rw [visit_of_viewed rfl, visit_of_viewed rfl]
      exact h
  | other hpairs =>
      refine visit_of_alike ?_ h
      obtain ⟨p, q, hm', hq⟩ := h
      rw [hm', enter_withPairs p q hpairs]
      refine alike_of_map fun x hx => ⟨p, q, rfl, ?_⟩
      rw [pairs_of_enter hpairs hx]
      exact hq

/-- Mirrored runs lead to mirrored states. -/
theorem mirror_of_runs (hρ : Set.InjOn ρ A) (h : Run (Visits here) Moment.fresh vs m)
    (h' : Run (Visits here) Moment.fresh ws m') (hvw : List.Forall₂ (Visit.Mirrored ρ A) vs ws) :
    m.state.Mirror ρ A m'.state := by
  refine Run.side_by_side (P := fun _ m _ m' => m.state.Mirror ρ A m'.state) ?_ ?_ h h' hvw
  · exact ⟨{}, {}, rfl, ⟨fun _ _ _ _ => rfl, fun _ _ _ _ => rfl, fun _ _ _ _ => rfl⟩⟩
  · intro _ m v u _ m' w u' _ hvisit _ hvisit' hvw h
    rw [hvisit.eq_visit, hvisit'.eq_visit]
    exact visit_mirror hρ h hvw

/-! ### Prices -/

/-- `s` answers for the pairs from `A` what `s'` answers for their mirrors. -/
def State.Agree (ρ : Address → Symbol) (A : Set Address) (env : Env) (s s' : State) : Prop :=
  ∀ base ∈ A, ∀ quote ∈ A,
    getPrice env base quote s = getPriceSymbol env (ρ base) (ρ quote) s' ∧
    getPriceInverted env base quote s = getPriceInvertedSymbol env (ρ base) (ρ quote) s'

theorem assetHeartbeatSecs_of_global {st : Storage} {asset : Address}
    (hnone : st.assetOracleConfig asset = none) (h : (maxStalenessSeconds st).val = 0 ∨
      (maxStalenessSeconds st).val = 900) : assetHeartbeatSecs st asset = pairReportFreshnessSecs := by
  unfold assetHeartbeatSecs
  rw [hnone]
  dsimp only
  rcases h with h | h
  · rw [if_neg (by omega)]
  · rw [if_pos (by omega)]
    exact Ranged.ext h

theorem agree_of_mirror (h : s.Mirror ρ A s')
    (hwindow : ∀ a ∈ A, assetHeartbeatSecs s.store a = pairReportFreshnessSecs) :
    s.Agree ρ A env s' := by
  obtain ⟨p, q, rfl, hq⟩ := h
  have hread : ∀ base ∈ A, ∀ quote ∈ A, getPrice env base quote s =
      getPriceSymbol env (ρ base) (ρ quote) (s.withPairs p q) := by
    intro base hbase quote hquote
    unfold getPrice getPriceSymbol
    rw [hwindow base hbase]
    exact (hq.aggregate _ hbase hquote).symm
  intro base hbase quote hquote
  refine ⟨hread base hbase quote hquote, ?_⟩
  unfold getPriceInverted getPriceInvertedSymbol
  rw [hread base hbase quote hquote, hread quote hquote base hbase]

/-! ### One report -/

section

variable {K : Type} [DecidableEq K] {base quote : K} {ps : Pairs K}

/-- The first report on a pair. -/
theorem Pairs.report_first (hnone : ps.reporters base quote = []) (caller : Address) (price : U128) :
    ps.report env roles caller base quote price = .ok
      { pairPrice := Pairs.put ps.pairPrice base quote (some price)
        pairSubmission := Pairs.put ps.pairSubmission base quote
          (Function.update (ps.pairSubmission base quote) caller (some ⟨price, env.timestamp⟩))
        pairReporters := Pairs.put ps.pairReporters base quote (some [caller]) } := by
  unfold Pairs.report Pairs.addReporter
  rw [hnone]
  rfl

/-- Its pair answers with it as long as it is fresh. -/
theorem Pairs.aggregate_first {env' : Env} {ps' : Pairs K} {caller : Address} {price : U128}
    (hnone : ps.reporters base quote = []) (h : ps.report env roles caller base quote price = .ok ps')
    (hauth : isAuthorizedPairReporter env' roles caller = .ok true) (window : U64) :
    ps'.aggregate env' roles window base quote =
      if age env'.timestamp env.timestamp ≤ window then .ok price
      else .error (err .oracleStalePrice) := by
  rw [Pairs.report_first hnone] at h
  obtain rfl := Except.ok.inj h
  have hactive : activeReporters env' roles [caller] = .ok [caller] := by
    unfold activeReporters
    rw [bind_of_ok hauth]
    rfl
  unfold Pairs.aggregate Pairs.reporters
  simp only [Pairs.put_self, Option.getD_some]
  rw [if_neg (List.cons_ne_nil _ _), bind_of_ok hactive]
  unfold Pairs.freshReports
  simp only [Pairs.put_self, List.foldl_cons, List.foldl_nil, Function.update_self]
  split
  · rw [List.nil_append, if_neg (List.cons_ne_nil _ _), medianU128_singleton]
    rfl
  · rfl

end

namespace Sample

theorem mirrored_visits {es es' : List (U64 × Entry)}
    (h : List.Forall₂ (fun x y => y.1 = x.1 ∧ x.2.Mirrored ρ A y.2) es es') :
    List.Forall₂ (Visit.Mirrored ρ A) (Moment.fresh.tour (invocations silent es)).1
      (Moment.fresh.tour (invocations silent es')).1 := by
  refine forall₂_tour ?_
  have hopen : (Entry.administer (.initializeOracle admin)).Mirrored ρ A _ := .other rfl
  rw [invocations, invocations, List.forall₂_map_left_iff, List.forall₂_map_right_iff]
  refine .cons ⟨rfl, rfl, hopen⟩ (h.imp fun x y hxy => ?_)
  exact ⟨rfl, congrArg envAt hxy.1, hxy.2⟩

/-- The admin sets the limit for the age of a price, and reports. -/
def reported (seconds : U64) (entry : Entry) : List (U64 × Entry) :=
  [(.lit 100, .setMaxStalenessSeconds admin seconds), (.lit 100, entry)]

/-- The state in between. -/
def limited (seconds : U64) : State :=
  let s := (visited silent []).state
  { s with store := { s.store with maxStalenessSeconds := some seconds } }

variable {seconds : U64}

theorem visited_reported (hseconds : seconds.val ≠ 0) {entry : Entry}
    (h : enter ⟨silent, envAt (.lit 100), entry⟩ (limited seconds) = .ok (.done, s')) :
    visited silent (reported seconds entry) = ⟨s', .lit 100⟩ := by
  have hpause : requireNotPaused (envAt (.lit 100)) (visited silent []).state =
      .ok (visited silent []).state := by rfl
  have hrole : requireRoleOrAdmin (envAt (.lit 100)) admin .admin (visited silent []).state =
      .ok () := by rfl
  have hset : setMaxStalenessSeconds (envAt (.lit 100)) admin seconds (visited silent []).state =
      .ok (limited seconds) := by
    unfold setMaxStalenessSeconds
    rw [bind_of_ok hpause, bind_of_ok hrole, bind_of_ok (reject_eq_ok (u := ()).mpr hseconds)]
    rfl
  have hlimit : ((visited silent []).visit
      ⟨silent, envAt (.lit 100), .setMaxStalenessSeconds admin seconds⟩).2 =
      ⟨limited seconds, .lit 100⟩ := by
    unfold Moment.visit enter
    dsimp only
    rw [hset]
    rfl
  have htwo : visited silent (reported seconds entry) = (((visited silent []).visit
      ⟨silent, envAt (.lit 100), .setMaxStalenessSeconds admin seconds⟩).2.visit
        ⟨silent, envAt (.lit 100), entry⟩).2 := rfl
  rw [htwo, hlimit]
  unfold Moment.visit
  rw [h]
  rfl

theorem mirrored_reported (seconds : U64) {e e' : Entry} (h : e.Mirrored ρ A e') :
    List.Forall₂ (Visit.Mirrored ρ A)
      (Moment.fresh.tour (invocations silent (reported seconds e))).1
      (Moment.fresh.tour (invocations silent (reported seconds e'))).1 :=
  mirrored_visits (.cons ⟨rfl, .other rfl⟩ (.cons ⟨rfl, h⟩ .nil))

theorem run_reported (seconds : U64) (entry : Entry) :
    Run (Visits address) Moment.fresh
      (Moment.fresh.tour (invocations silent (reported seconds entry))).1
      (visited silent (reported seconds entry)) := by
  have hfirst : (0 : Int) ≤ 100 := by decide
  exact run_visited _ _ ⟨rfl, hfirst, rfl, Int.le_refl 100, rfl, Int.le_refl 100, trivial⟩

theorem checkReport_limited :
    checkReport (envAt (.lit 100)) admin (.lit 1) (limited seconds) = .ok (limited seconds) := by
  rfl

theorem authorized_limited (now : U64) :
    isAuthorizedPairReporter (envAt now) (limited seconds).store.roles admin = .ok true := by
  rfl

/-- The report on a pair of addresses, read at `now`. -/
theorem getPrice_reported (hseconds : seconds.val ≠ 0) (base quote : Address) :
    ∃ s', visited silent (reported seconds (.setPrice admin base quote (.lit 1))) = ⟨s', .lit 100⟩ ∧
      s'.store.assetOracleConfig = (fun _ => none) ∧ maxStalenessSeconds s'.store = seconds ∧
      ∀ now, getPrice (envAt now) base quote s' =
        if age now (.lit 100) ≤ seconds then .ok (.lit 1) else .error (err .oracleStalePrice) := by
  obtain ⟨ps, hps⟩ : ∃ ps, (limited seconds).store.pairs.report (envAt (.lit 100))
      (limited seconds).store.roles admin base quote (.lit 1) = .ok ps :=
    ⟨_, Pairs.report_first rfl admin (.lit 1)⟩
  refine ⟨(limited seconds).withPairs ps (limited seconds).store.symbolPairs,
    visited_reported hseconds ?_, rfl, rfl, fun now => ?_⟩
  · show done (setPrice _ admin base quote (.lit 1) (limited seconds)) = _
    unfold setPrice
    rw [bind_of_ok checkReport_limited, bind_of_ok hps]
    rfl
  · have hwindow : assetHeartbeatSecs (limited seconds).store base = seconds :=
      if_pos (lt_of_le_of_ne seconds.ge hseconds.symm)
    have hread := Pairs.aggregate_first rfl hps (authorized_limited now) seconds
    show Pairs.aggregate _ _ (assetHeartbeatSecs (limited seconds).store base) _ _ _ = _
    rw [hwindow]
    exact hread

/-- The report on a pair of symbols. -/
theorem getPriceSymbol_reported (hseconds : seconds.val ≠ 0) (base quote : Symbol) :
    ∃ s', visited silent (reported seconds (.setPriceSymbol admin base quote (.lit 1))) =
        ⟨s', .lit 100⟩ ∧
      ∀ now, getPriceSymbol (envAt now) base quote s' =
        if age now (.lit 100) ≤ pairReportFreshnessSecs then .ok (.lit 1)
        else .error (err .oracleStalePrice) := by
  obtain ⟨qs, hqs⟩ : ∃ qs, (limited seconds).store.symbolPairs.report (envAt (.lit 100))
      (limited seconds).store.roles admin base quote (.lit 1) = .ok qs :=
    ⟨_, Pairs.report_first rfl admin (.lit 1)⟩
  refine ⟨(limited seconds).withPairs (limited seconds).store.pairs qs,
    visited_reported hseconds ?_, fun now => ?_⟩
  · show done (setPriceSymbol _ admin base quote (.lit 1) (limited seconds)) = _
    unfold setPriceSymbol
    rw [bind_of_ok checkReport_limited, bind_of_ok hqs]
    rfl
  · exact Pairs.aggregate_first rfl hqs (authorized_limited now) _

end Sample

/-- The limit decides whether mirrored runs always lead to the same prices. -/
theorem agree_of_runs (hρ : Set.InjOn ρ A) (hA : A.Nonempty) (seconds : U64) :
    (∀ here vs ws m m', Run (Visits here) Moment.fresh vs m → Run (Visits here) Moment.fresh ws m' →
      List.Forall₂ (Visit.Mirrored ρ A) vs ws →
      (∀ a ∈ A, m.state.store.assetOracleConfig a = none) →
      maxStalenessSeconds m.state.store = seconds →
      ∀ env, m.now ≤ env.timestamp → m.state.Agree ρ A env m'.state) ↔
    seconds.val = 0 ∨ seconds.val = 900 := by
  constructor
  · intro h
    by_contra hne
    obtain ⟨hzero, hquarter⟩ := not_or.mp hne
    -- one report in each run, on a name and itself
    obtain ⟨a, ha⟩ := hA
    obtain ⟨s, hs, hnone, hmax, hread⟩ := Sample.getPrice_reported hzero a a
    obtain ⟨s', hs', hread'⟩ := Sample.getPriceSymbol_reported hzero (ρ a) (ρ a)
    have hrun := Sample.run_reported seconds (.setPrice Sample.admin a a (.lit 1))
    have hrun' := Sample.run_reported seconds (.setPriceSymbol Sample.admin (ρ a) (ρ a) (.lit 1))
    rw [hs] at hrun
    rw [hs'] at hrun'
    have hreport : (Entry.setPrice Sample.admin a a (.lit 1)).Mirrored ρ A _ := .report ha ha
    have hvisits := Sample.mirrored_reported seconds hreport
    -- just after the shorter of the two windows
    have := seconds.ge
    let now : U64 := ⟨101 + min seconds.val 900, by omega, by omega⟩
    have hage : (age now (.lit 100)).val = 1 + min seconds.val 900 := by
      show max 0 (min (101 + min seconds.val 900 - 100) _) = _
      omega
    have hprice := (h Sample.address _ _ _ _ hrun hrun' hvisits (fun a _ => congrFun hnone a) hmax
      (Sample.envAt now) (by show (100 : Int) ≤ 101 + min seconds.val 900; omega) a ha a ha).1
    rw [hread, hread'] at hprice
    rcases lt_or_gt_of_ne hquarter with hlt | hgt
    · rw [if_neg (by rw [Ranged.le_def, hage]; omega), if_pos (by
        rw [Ranged.le_def, hage]; show _ ≤ (900 : Int); omega)] at hprice
      cases hprice
    · rw [if_pos (by rw [Ranged.le_def, hage]; omega), if_neg (by
        rw [Ranged.le_def, hage]; show ¬ _ ≤ (900 : Int); omega)] at hprice
      cases hprice
  · intro hseconds here vs ws m m' hrun hrun' hvw hnone hmax env _
    subst hmax
    exact agree_of_mirror (mirror_of_runs hρ hrun hrun' hvw) fun a ha =>
      assetHeartbeatSecs_of_global (hnone a ha) hseconds

namespace Sample

/-- `XLM` and `USDC`. -/
def name (a : Address) : Symbol := if a = .contract 11 then [88, 76, 77] else [85, 83, 68, 67]

def named : Set Address := {.contract 11, .contract 12}

theorem name_injOn : Set.InjOn name named := by
  rintro a (rfl | rfl) b (rfl | rfl) h
  · rfl
  · exact absurd h (by decide)
  · exact absurd h (by decide)
  · rfl

/-- A limit, and the reports of two feeders. -/
def fed (seconds : U64) (report : Address → U128 → Entry) : List (U64 × Entry) := [
  (.lit 100, .setMaxStalenessSeconds (.account 1) seconds),
  (.lit 100, .administer (.grantRole (.account 1) .priceFeeder (.account 2))),
  (.lit 100, .administer (.grantRole (.account 1) .priceFeeder (.account 3))),
  (.lit 110, report (.account 2) (.lit 200000000)),
  (.lit 120, report (.account 3) (.lit 400000000))]

def byAddress (caller : Address) (price : U128) : Entry :=
  .setPrice caller (.contract 11) (.contract 12) price

def bySymbol (caller : Address) (price : U128) : Entry :=
  .setPriceSymbol caller [88, 76, 77] [85, 83, 68, 67] price

theorem mirrored_fed (seconds : U64) :
    List.Forall₂ (Visit.Mirrored name named)
      (Moment.fresh.tour (invocations silent (fed seconds byAddress))).1
      (Moment.fresh.tour (invocations silent (fed seconds bySymbol))).1 := by
  have hreport : ∀ caller price, (byAddress caller price).Mirrored name named
      (bySymbol caller price) := fun _ _ => .report (.inl rfl) (.inr rfl)
  exact mirrored_visits (.cons ⟨rfl, .other rfl⟩ (.cons ⟨rfl, .other rfl⟩ (.cons ⟨rfl, .other rfl⟩
    (.cons ⟨rfl, hreport _ _⟩ (.cons ⟨rfl, hreport _ _⟩ .nil)))))

end Sample

theorem agree_of_runs_quarter :
    let m := Sample.visited Sample.silent (Sample.fed (.lit 900) Sample.byAddress)
    let m' := Sample.visited Sample.silent (Sample.fed (.lit 900) Sample.bySymbol)
    m.state.Agree Sample.name Sample.named (Sample.envAt (.lit 1010)) m'.state ∧
      getPrice (Sample.envAt (.lit 1010)) (.contract 11) (.contract 12) m.state =
        .ok (.lit 300000000) := by
  intro m m'
  refine ⟨?_, by decide⟩
  have hrun := Sample.run_visited Sample.silent (Sample.fed (.lit 900) Sample.byAddress) (by decide)
  have hrun' := Sample.run_visited Sample.silent (Sample.fed (.lit 900) Sample.bySymbol) (by decide)
  exact (agree_of_runs Sample.name_injOn ⟨_, .inl rfl⟩ (.lit 900)).mpr (.inr rfl) _ _ _ m m' hrun
    hrun' (Sample.mirrored_fed _) (fun _ _ => rfl) (by rfl) _ (by decide)

/-- With a limit of five minutes the reports on the addresses are stale after six, and those on the
symbols are not. -/
theorem limit_splits_prices :
    Set.InjOn Sample.name Sample.named ∧
    let m := Sample.visited Sample.silent (Sample.fed (.lit 300) Sample.byAddress)
    let m' := Sample.visited Sample.silent (Sample.fed (.lit 300) Sample.bySymbol)
    Run (Visits Sample.address) Moment.fresh (Moment.fresh.tour (Sample.invocations Sample.silent
        (Sample.fed (.lit 300) Sample.byAddress))).1 m ∧
      Run (Visits Sample.address) Moment.fresh (Moment.fresh.tour (Sample.invocations Sample.silent
        (Sample.fed (.lit 300) Sample.bySymbol))).1 m' ∧
      List.Forall₂ (Visit.Mirrored Sample.name Sample.named)
        (Moment.fresh.tour (Sample.invocations Sample.silent
          (Sample.fed (.lit 300) Sample.byAddress))).1
        (Moment.fresh.tour (Sample.invocations Sample.silent
          (Sample.fed (.lit 300) Sample.bySymbol))).1 ∧
      (∀ a, m.state.store.assetOracleConfig a = none) ∧
      getPrice (Sample.envAt (.lit 480)) (.contract 11) (.contract 12) m.state =
        .error (err .oracleStalePrice) ∧
      getPriceSymbol (Sample.envAt (.lit 480)) (Sample.name (.contract 11))
        (Sample.name (.contract 12)) m'.state = .ok (.lit 300000000) := by
  refine ⟨Sample.name_injOn, ?_⟩
  intro m m'
  exact ⟨Sample.run_visited _ _ (by decide), Sample.run_visited _ _ (by decide),
    Sample.mirrored_fed _, fun _ => rfl, by rfl, by rfl⟩

end Drip.Oracle
