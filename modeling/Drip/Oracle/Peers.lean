import Drip.Oracle.Consistency
import Drip.Oracle.Reads

/-!
# Oracle — Peers

Two oracles that may differ in prices and in what they have published, and in nothing else
(`State.Peer`).  What an entry point decides by the pause, the roles or the configuration, it decides
alike in both, so that they stay peers (`enter_peer`).  A submission is the exception: its price is
compared with the last one (`submitPrice_peer`).

Without feeds a read of the price changes nothing, whatever it answers (`visit_of_reads`).
-/

namespace Drip.Oracle
open Chain

variable {env : Env} {s s' : State} {m m' : Moment} {i : Invocation} {caller account : Address}
variable {role : Role} {expiresAt : Option U64} {config : OracleConfig} {price price' : U64}

/-- The same storage but for the prices, under the same configuration. -/
def State.Peer (s s' : State) : Prop :=
  ∃ b events, s' = ⟨{ s.store with toBook := b }, events⟩ ∧ b.config = s.store.config

/-! ### Guards -/

theorem requireNotPaused_peer (h : s.Peer s') :
    Alike State.Peer (requireNotPaused env s) (requireNotPaused env s') := by
  obtain ⟨b, events, rfl, hconfig⟩ := h
  exact alike_reject fun _ => .ok ⟨b, events, rfl, hconfig⟩

theorem requireRoleOrAdmin_peer (h : s.Peer s') :
    requireRoleOrAdmin env caller role s' = requireRoleOrAdmin env caller role s := by
  obtain ⟨b, events, rfl, -⟩ := h
  rfl

theorem requireRole_peer (h : s.Peer s') :
    requireRole env caller role s' = requireRole env caller role s := by
  obtain ⟨b, events, rfl, -⟩ := h
  rfl

theorem setPaused_peer {paused : Bool} (h : s.Peer s') :
    Alike State.Peer (setPaused env paused s) (setPaused env paused s') := by
  obtain ⟨b, events, rfl, hconfig⟩ := h
  unfold setPaused
  dsimp only
  cases Pause.setPaused env.timestamp s.store.paused paused with
  | ok stored => exact .ok ⟨b, events, rfl, hconfig⟩
  | error e =>
      cases e with
      | contract e => exact .ok ⟨b, events, rfl, hconfig⟩
      | trap => exact .error _

theorem State.Peer.publish (h : s.Peer s') (e e' : Event) : (s.publish e).Peer (s'.publish e') := by
  obtain ⟨b, events, rfl, hconfig⟩ := h
  exact ⟨b, events ++ [e'], rfl, hconfig⟩

theorem State.Peer.withBook {b b' : Book} (h : s.Peer s') (hconfig : b'.config = b.config) :
    (s.withBook b).Peer (s'.withBook b') := by
  obtain ⟨_, events, rfl, -⟩ := h
  exact ⟨b', events, rfl, hconfig⟩

theorem State.Peer.publish_if (h : s.Peer s') (b : Bool) (e : Event) :
    (if b = true then s.publish e else s).Peer (if b = true then s'.publish e else s') := by
  cases b with
  | true => exact h.publish e e
  | false => exact h

/-- The entry points that begin with the pause and a role. -/
theorem guarded_peer {f g : State → Result State} (h : s.Peer s')
    (hfg : ∀ s s', s.Peer s' → Alike State.Peer (f s) (g s')) :
    Alike State.Peer
      (requireNotPaused env s >>= fun s => requireRoleOrAdmin env caller role s >>= fun _ => f s)
      (requireNotPaused env s' >>= fun s => requireRoleOrAdmin env caller role s >>= fun _ => g s) := by
  refine alike_bind (requireNotPaused_peer h) fun s₁ s₁' h₁ => ?_
  rw [requireRoleOrAdmin_peer h₁]
  exact alike_bind (alike_refl (R := fun _ _ => True) fun _ => trivial) fun _ _ _ => hfg s₁ s₁' h₁

/-! ### The administration -/

/-- Both with the same value, and states that are peers. -/
def Returned (x y : Bool × State) : Prop := x.1 = y.1 ∧ x.2.Peer y.2

theorem grantInner_peer (h : s.Peer s') :
    Alike Returned (grantRoleWithExpirationInner env role account expiresAt s)
      (grantRoleWithExpirationInner env role account expiresAt s') := by
  obtain ⟨b, events, rfl, hconfig⟩ := h
  refine alike_bind (alike_refl (R := Eq) fun _ => rfl) fun x y hxy => ?_
  subst hxy
  exact .ok ⟨rfl, b, events, rfl, hconfig⟩

/-- The configuration stays when a submission goes. -/
theorem removeSubmitter_peer (h : s.Peer s') :
    State.Peer { s with store := removeSubmitter account s.store }
      { s' with store := removeSubmitter account s'.store } := by
  obtain ⟨b, events, rfl, hconfig⟩ := h
  rw [removeSubmitter_eq, removeSubmitter_eq]
  refine ⟨b.drop account, events, rfl, ?_⟩
  rw [(drop_rest b account).2.1]
  exact hconfig.trans (drop_rest s.store.toBook account).2.1.symm

theorem revokeInner_peer (h : s.Peer s') :
    Alike Returned (revokeRoleInner env role account s) (revokeRoleInner env role account s') := by
  obtain ⟨b, events, rfl, hconfig⟩ := h
  refine alike_bind (alike_refl (R := Eq) fun _ => rfl) fun x y hxy => ?_
  subst hxy
  obtain ⟨event, roles⟩ := x
  have hroles : (s.withRoles roles).Peer ⟨{ s.store with toBook := b, roles := roles }, events⟩ :=
    ⟨b, events, rfl, hconfig⟩
  cases event with
  | none => exact .ok ⟨rfl, hroles⟩
  | some e =>
      have hpublished := hroles.publish (.roleRevoked e) (.roleRevoked e)
      dsimp only
      by_cases hrole : role = .priceFeeder
      · rw [if_pos hrole, if_pos hrole]
        exact .ok ⟨rfl, removeSubmitter_peer hpublished⟩
      · rw [if_neg hrole, if_neg hrole]
        exact .ok ⟨rfl, hpublished⟩

theorem exec_peer (h : s.Peer s') (c : Call) : Alike State.Peer (exec env s c) (exec env s' c) := by
  have hrole : ∀ {f g : Unit → Result State}, Alike State.Peer (f ()) (g ()) →
      ∀ caller, Alike State.Peer (requireRoleOrAdmin env caller .admin s >>= f)
        (requireRoleOrAdmin env caller .admin s' >>= g) := by
    intro f g hfg caller
    rw [requireRoleOrAdmin_peer h]
    exact alike_bind (alike_refl (R := fun _ _ => True) fun _ => trivial) fun _ _ _ => hfg
  cases c with
  | initializeOracle admin =>
      obtain ⟨b, events, rfl, hconfig⟩ := h
      refine alike_reject fun _ => alike_bind (grantInner_peer ⟨b, events, rfl, hconfig⟩) ?_
      exact fun x y hxy => .ok hxy.2
  | grantRoleWithExpiration caller role account expiresAt =>
      refine hrole (alike_reject fun _ => alike_bind (grantInner_peer h) fun x y hxy => .ok ?_) caller
      rw [hxy.1]
      exact hxy.2.publish_if _ _
  | grantRole caller role account =>
      refine hrole (alike_bind (grantInner_peer h) fun x y hxy => .ok ?_) caller
      rw [hxy.1]
      exact hxy.2.publish_if _ _
  | revokeRole caller role account =>
      refine hrole (alike_bind (revokeInner_peer h) fun x y hxy => .ok ?_) caller
      rw [hxy.1]
      exact hxy.2.publish_if _ _
  | purgeSubmitter caller feeder => exact hrole (.ok (removeSubmitter_peer h)) caller
  | transferAdmin caller newAdmin =>
      refine hrole (alike_bind (grantInner_peer h) fun x y hxy => ?_) caller
      refine alike_bind (revokeInner_peer hxy.2) fun x' y' hxy' => .ok ?_
      exact hxy'.2.publish _ _

/-! ### The other entry points -/

/-- Both books take the same configuration. -/
theorem storeOracleConfig_peer (h : s.Peer s') :
    Alike State.Peer (storeOracleConfig caller config s) (storeOracleConfig caller config s') := by
  refine alike_reject fun _ => alike_reject fun _ => alike_reject fun _ => .ok ?_
  obtain ⟨b, events, rfl, -⟩ := h
  refine ⟨b.reconfigure config, _, rfl, ?_⟩
  exact reconfigure_config.trans (reconfigure_config (b := s.store.toBook)).symm

/-- The reads of the price, which may answer differently. -/
def Entry.reads : Entry → Bool
  | .getTwapPrice | .getTwapPriceForObservations _ | .getPriceWithFallback | .priceStatus | .priceAge
  | .isPriceStale | .latestPrice | .calculateFiatStreamPayout _ | .getPrice _ _ | .getPriceInverted _ _
  | .getPriceSymbol _ _ | .getPriceInvertedSymbol _ _ => true
  | _ => false

def Entry.submits : Entry → Bool
  | .submitPrice _ _ => true
  | _ => false

/-- Both returned, and the states are peers. -/
def Left (x y : Reply × State) : Prop := x.2.Peer y.2

theorem done_peer {r r' : Result State} (h : Alike State.Peer r r') : Alike Left (done r) (done r') :=
  alike_bind h fun _ _ h => .ok h

/-- **Peers decide alike.** -/
theorem enter_peer (h : s.Peer s') (hreads : i.entry.reads = false) (hsubmits : i.entry.submits = false) :
    Alike Left (enter i s) (enter i s') := by
  obtain ⟨feeds, env, entry⟩ := i
  cases entry with
  | administer c => exact done_peer (exec_peer h c)
  | configureOracle caller config =>
      refine done_peer ?_
      unfold configureOracle
      rw [requireRoleOrAdmin_peer h]
      exact alike_bind (alike_refl (R := Eq) fun _ => rfl) fun _ _ _ => storeOracleConfig_peer h
  | updateOracleConfig caller update =>
      refine done_peer ?_
      unfold updateOracleConfig
      obtain ⟨b, events, hs', hconfig⟩ := id h
      have hsame : s'.store.config = s.store.config := hs' ▸ hconfig
      rw [requireRoleOrAdmin_peer h, hsame]
      refine alike_bind (alike_refl (R := Eq) fun _ => rfl) fun _ _ _ => ?_
      refine alike_bind (alike_refl (R := Eq) fun _ => rfl) fun config _ heq => heq ▸ ?_
      refine alike_bind (storeOracleConfig_peer h) fun s₁ s₁' h₁ => .ok ?_
      obtain ⟨b₁, events₁, rfl, hconfig₁⟩ := h₁
      cases update.quoteCurrency <;> cases update.maxDeviationBps <;> exact ⟨b₁, _, rfl, hconfig₁⟩
  | setOracleFeeds caller primaryOracle fallbackOracle =>
      refine done_peer (guarded_peer h fun s s' h => .ok ?_)
      obtain ⟨b, events, rfl, hconfig⟩ := h
      exact ⟨{ b with primaryOracle := _, fallbackOracle := _ }, events, rfl, hconfig⟩
  | setPrimaryOracle caller primaryOracle =>
      refine done_peer (guarded_peer h fun s s' h => .ok ?_)
      obtain ⟨b, events, rfl, hconfig⟩ := h
      exact ⟨{ b with primaryOracle := _ }, events, rfl, hconfig⟩
  | setFallbackOracle caller fallbackOracle =>
      refine done_peer (guarded_peer h fun s s' h => .ok ?_)
      obtain ⟨b, events, rfl, hconfig⟩ := h
      exact ⟨{ b with fallbackOracle := _ }, events, rfl, hconfig⟩
  | setMaxStalenessSeconds caller seconds =>
      refine done_peer (guarded_peer h fun s s' h => alike_reject fun _ => .ok ?_)
      obtain ⟨b, events, rfl, hconfig⟩ := h
      refine ⟨{ b with config := b.config.map _ }, events, rfl, ?_⟩
      exact congrArg (Option.map _) hconfig
  | setAssetOracleConfig caller token config =>
      refine done_peer (guarded_peer h fun s s' h => alike_reject fun _ => .ok ?_)
      obtain ⟨b, events, rfl, hconfig⟩ := h
      exact ⟨b, events, rfl, hconfig⟩
  | setMaxDeviationBps caller maxDeviationBps =>
      refine done_peer (guarded_peer h fun s s' h => .ok ?_)
      obtain ⟨b, events, rfl, hconfig⟩ := h
      exact ⟨b, events, rfl, hconfig⟩
  | setPrice caller base quote price | setPriceSymbol caller base quote price =>
      refine done_peer (alike_bind (guarded_peer h fun s s' h => alike_reject fun _ => .ok h) ?_)
      rintro s₁ s₁' ⟨b, events, rfl, hconfig⟩
      refine alike_bind (alike_refl (R := Eq) fun _ => rfl) fun ps _ heq => heq ▸ .ok ?_
      exact ⟨b, events, rfl, hconfig⟩
  | pause caller =>
      refine done_peer ?_
      unfold pause
      rw [requireRoleOrAdmin_peer h]
      refine alike_bind (alike_refl (R := Eq) fun _ => rfl) fun _ _ _ => ?_
      obtain ⟨b, events, rfl, hconfig⟩ := h
      refine alike_reject fun _ => alike_bind (setPaused_peer ⟨b, events, rfl, hconfig⟩) ?_
      exact fun _ _ h => .ok (h.publish _ _)
  | unpause caller =>
      refine done_peer ?_
      unfold unpause
      rw [requireRoleOrAdmin_peer h]
      refine alike_bind (alike_refl (R := Eq) fun _ => rfl) fun _ _ _ => ?_
      obtain ⟨b, events, rfl, hconfig⟩ := h
      refine alike_reject fun _ => alike_bind (setPaused_peer ⟨b, events, rfl, hconfig⟩) ?_
      exact fun _ _ h => .ok (h.publish _ _)
  | isPaused =>
      obtain ⟨b, events, rfl, hconfig⟩ := h
      exact .ok ⟨b, events, rfl, hconfig⟩
  | upgrade caller newWasmHash =>
      refine done_peer ?_
      unfold upgrade
      rw [requireRole_peer h]
      refine alike_bind (alike_refl (R := Eq) fun _ => rfl) fun _ _ _ => ?_
      refine alike_bind (requireNotPaused_peer h) fun _ _ h => alike_reject fun _ => .ok ?_
      exact h.publish _ _
  | submitPrice => cases hsubmits
  | _ => cases hreads

theorem read_of_no_feeds {feeds : Feeds} {b : Book} (hno : ¬ b.HasFeeds) : b.read feeds env = b := by
  unfold Book.read
  rw [reading_of_no_feeds hno]

/-- A read answers or fails, and leaves the oracle as it is. -/
theorem visit_of_reads (hs : Sound m.state) (hno : ¬ m.state.store.toBook.HasFeeds)
    (hreads : i.entry.reads = true) : (m.visit i).2.state = m.state := by
  unfold Moment.visit
  cases h : enter i m.state with
  | error failure => rfl
  | ok x =>
      obtain ⟨reply, s'⟩ := x
      show s' = m.state
      by_cases hasks : i.entry.asks = true
      · rw [enter_of_asks hs hasks h, read_of_no_feeds hno, ite_self]
        rfl
      · obtain ⟨feeds, env, entry⟩ := i
        cases entry with
        | priceStatus | priceAge | isPriceStale | getPrice | getPriceInverted | getPriceSymbol
        | getPriceInvertedSymbol => exact (viewed_eq_ok.mp h).1
        | getTwapPrice | getTwapPriceForObservations | getPriceWithFallback | latestPrice
        | calculateFiatStreamPayout => exact absurd rfl hasks
        | _ => cases hreads

/-! ### Submissions -/

/-- Whether a submission passes the checks on its price: not zero, within the maximum, near enough to the
last price, and not too soon. -/
def Moment.passes (m : Moment) (i : Invocation) : Bool :=
  match i.entry with
  | .submitPrice caller price => (checkPrice i.env.timestamp caller price m.state).isOk
  | _ => true

/-- Peers accept a submission alike where its price passes in both or in neither, and the books agree on
the submitters and on the time of the last observation. -/
theorem submitPrice_peer (h : s.Peer s')
    (hpasses : (checkPrice env.timestamp caller price s).isOk =
      (checkPrice env.timestamp caller price' s').isOk)
    (hroster : s'.store.toBook.roster = s.store.toBook.roster)
    (hadmits : s'.store.toBook.Admits env.timestamp ↔ s.store.toBook.Admits env.timestamp) :
    Matched State.Peer (submitPrice env caller price s) (submitPrice env caller price' s') := by
  refine matched_bind (requireNotPaused_peer h).matched fun s₁ s₁' hs₁ hs₁' h₁ => ?_
  obtain ⟨stored, rfl⟩ := requireNotPaused_spec hs₁
  obtain ⟨stored', rfl⟩ := requireNotPaused_spec hs₁'
  rw [requireRole_peer h₁]
  refine matched_bind (R := Eq) (alike_refl fun _ => rfl).matched fun _ _ _ _ _ => ?_
  refine matched_bind (matched_of_isOk hpasses) fun _ _ _ _ _ => ?_
  have hwrite : Matched (fun b b' => b'.config = b.config)
      (writePrice env.timestamp caller price s.store.toBook)
      (writePrice env.timestamp caller price' s'.store.toBook) := by
    refine matched_of_iff ?_ fun b b' hb hb' => ?_
    · simp only [writePrice_eq_ok, exists_and_left, exists_eq, and_true]
      rw [hroster, hadmits]
    · obtain ⟨b₁, events, rfl, hconfig⟩ := h
      obtain ⟨-, -, rfl⟩ := writePrice_eq_ok.mp hb
      obtain ⟨-, -, rfl⟩ := writePrice_eq_ok.mp hb'
      exact submit_config.trans (hconfig.trans submit_config.symm)
  exact matched_bind hwrite fun b b' _ _ hconfig => .ok ((h₁.withBook hconfig).publish _ _)

end Drip.Oracle
