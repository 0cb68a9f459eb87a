import Drip.Vault.Tracking

/-!
# Vault — Lifetime

How long the instance of the vault and its persistent entries are live.  A call renews the instance and the
entries that it writes; `keep_alive` and `bump_all_vault_keys` renew all of them.  Reading an entry does not
renew it.

* `tracked_of_run`: `bump_all_vault_keys` reaches every entry that there is.
* `lasting_of_run`: where one of the two is called every 100000 ledgers, no call finds an entry archived.

What the host does with an entry that has exactly the threshold left, and how long it keeps one at most, is
the parameter `host`.
-/

namespace Drip.Vault
open Chain Lease

variable {W : Type} {streams : Streams W} {env : Env} {s s' : State W} {c : Call} {reply : Reply}
variable {here : Address} {m : Moment W}

/-! ### The index -/

theorem present_eq (key : TrackedKey) : key.present s.store = (s.entries.value key).isSome := by
  cases key <;> rfl

/-- Every key in the index counts. -/
theorem count_of_bumpAllVaultKeys (hs : s.entries.Exact) (h : bumpAllVaultKeys s = .ok (reply, s')) :
    ∃ n, reply = .count n ∧ n.val = (s.entries.index.length : Int) := by
  simp only [bumpAllVaultKeys, bind_eq_ok, okOr_eq_ok, pure_eq_ok, Prod.mk.injEq] at h
  obtain ⟨-, -, n, hn, rfl, -⟩ := h
  refine ⟨n, rfl, ?_⟩
  have hall : s.entries.index.countP (TrackedKey.present s.store) = s.entries.index.length := by
    refine List.countP_eq_length.mpr fun key hkey => ?_
    rw [present_eq]
    exact (hs.mem key).mp hkey
  rw [← hall]
  exact Ranged.ofInt?_eq_some.mp hn

/-- **The keepers reach everything**: in every state of a vault `bump_all_vault_keys` renews each entry that
there is, and says how many these are. -/
theorem tracked_of_run {tokens : Ledger} {world : W} {as : List (Action W)}
    (hrun : Run (Step here) (Moment.fresh tokens world) as m)
    (h : exec streams env m.state .bumpAllVaultKeys = .ok (reply, s')) :
    Roster (fun key : TrackedKey => key.present m.state.store = true) (m.state.store.trackedVaultKeys.getD []) ∧
      ∃ n, reply = .count n ∧
        n.val = ({key : TrackedKey | key.present m.state.store = true}.ncard : Int) := by
  have hexact : m.state.entries.Exact := tracks_of_reachable ⟨tokens, world, as, hrun⟩
  have hroster : Roster (fun key : TrackedKey => key.present m.state.store = true)
      (m.state.store.trackedVaultKeys.getD []) := hexact.congr fun key => by rw [present_eq]
  obtain ⟨n, hreply, hn⟩ := count_of_bumpAllVaultKeys hexact h
  exact ⟨hroster, n, hreply, by rw [hn, hroster.ncard]; rfl⟩

/-- A vault with a limit for one token and a balance of its owner. -/
def Sample.two : Moment Unit := visited [signed owner (.setTokenMaxLimit owner token (.lit 400)),
  signed owner (.deposit owner (.lit 100))]

theorem tracked_of_run_two :
    Roster (fun key : TrackedKey => key.present Sample.two.state.store = true)
      (Sample.two.state.store.trackedVaultKeys.getD []) ∧
    ∃ n, Reply.count (.lit 2) = .count n ∧
      n.val = ({key : TrackedKey | key.present Sample.two.state.store = true}.ncard : Int) := by
  have hrun : Run (Step Sample.address) (Moment.fresh Sample.tokens ()) _ Sample.two :=
    Sample.run_visited _ (by decide)
  have hbump : exec Sample.silent (Sample.signedBy Sample.owner (.lit 100) (.lit 1)) Sample.two.state
      .bumpAllVaultKeys = .ok (.count (.lit 2), Sample.two.state.publish (.vaultKeysRefreshed (.lit 2))) := rfl
  exact tracked_of_run hrun hbump

/-! ### A vault and its leases -/

/-- `drip_common::ttl::MIN_TTL_LEDGERS` of the default build. -/
def minTtlLedgers : U32 := .lit 100000

/-- A successful call that renews the instance. -/
def Call.renews (c : Call) (reply : Reply) : Bool :=
  match c with
  | .vaultBatchWithdraw _ _ | .effectiveWithdrawLimit _ | .isPaused => false
  | .depositWithFailureReport _ _ => reply == .settled true
  | _ => true

/-- The calls that renew every entry in the index. -/
def Call.refreshes : Call → Bool
  | .keepAlive | .bumpAllVaultKeys => true
  | _ => false

/-- All entries were renewed in ledger `refreshed`; the instance is live up to ledger `stop`, and an entry up
to `stops key`. -/
structure Leased (W : Type) where
  moment : Moment W
  refreshed : U32
  stop : Int
  stops : TrackedKey → Int

/-- The leases after a successful call; the host gives a new entry a lease of length `first`. -/
def Leased.after (host : Host) (first : Int) (x : Leased W) (env : Env) (c : Call) (reply : Reply)
    (m : Moment W) : Leased W where
  moment := m
  refreshed := if c.refreshes then env.sequence else x.refreshed
  stop :=
    if c.renews reply then
      host.renew minTtlLedgers.val env.sequence.val x.stop ttlExtendTo.val
    else x.stop
  stops :=
    if c.refreshes then
      host.renewed minTtlLedgers.val ttlExtendTo.val env.sequence.val x.moment.state.entries x.stops
    else
      host.kept minTtlLedgers.val ttlExtendTo.val first env.sequence.val x.moment.state.entries x.stops
        ((c.puts x.moment.state reply).map Prod.fst)

inductive Leased.Action (W : Type) where
  | vault (a : Vault.Action W)
  /-- anybody may have the host extend an entry -/
  | extended (stop : Int) (stops : TrackedKey → Int)

/-- A step, whether what it needs is live or not. -/
inductive Leased.Move (host : Host) (here : Address) : Leased W → Leased.Action W → Leased W → Prop where
  | call {x : Leased W} {streams : Streams W} {env : Env} {c : Call} {reply : Reply} {m : Moment W}
      (first : Int) (h : Step here x.moment (.call streams env c reply) m) :
      Leased.Move host here x (.vault (.call streams env c reply)) (x.after host first env c reply m)
  | failed {x : Leased W} {streams : Streams W} {env : Env} {c : Call} {e : Failure Error} {m : Moment W}
      (h : Step here x.moment (.failed streams env c e) m) :
      Leased.Move host here x (.vault (.failed streams env c e)) { x with moment := m }
  | outside {x : Leased W} {tokens : Ledger} {world : W} {m : Moment W}
      (h : Step here x.moment (.outside tokens world) m) :
      Leased.Move host here x (.vault (.outside tokens world)) { x with moment := m }
  | extended {x : Leased W} {stop : Int} {stops : TrackedKey → Int} (hstop : x.stop ≤ stop)
      (hstops : ∀ key, x.stops key ≤ stops key) :
      Leased.Move host here x (.extended stop stops) { x with stop := stop, stops := stops }

/-- The ledger of a call. -/
def Leased.Action.sequence? : Leased.Action W → Option U32
  | .vault (.call _ env _ _) | .vault (.failed _ env _ _) => some env.sequence
  | _ => none

/-- A call comes 100000 ledgers after all entries were renewed, or earlier. -/
def Leased.Prompt (x : Leased W) (a : Leased.Action W) : Prop :=
  ∀ sequence ∈ a.sequence?, sequence.val ≤ x.refreshed.val + minTtlLedgers.val

/-- A call finds the instance and every entry live. -/
def Leased.Live (x : Leased W) (a : Leased.Action W) : Prop :=
  ∀ sequence ∈ a.sequence?, sequence.val ≤ x.stop ∧ Outlast x.moment.state.entries x.stops sequence.val

/-- A vault that has just been initialized, as the first thing that has happened to it. -/
structure Leased.Born (host : Host) (here : Address) (x : Leased W) : Prop where
  moment : ∃ tokens world streams env owner token maxLimit reply, Step here (Moment.fresh tokens world)
    (.call streams env (.initializeVault owner token maxLimit) reply) x.moment
  refreshed : x.refreshed = x.moment.sequence
  stop : ∃ stop, x.stop = host.renew minTtlLedgers.val x.moment.sequence.val stop ttlExtendTo.val

/-- What keeps a vault alive: its index, and leases that reach past the last renewal by the threshold. -/
structure Leased.Kept (x : Leased W) : Prop where
  exact : x.moment.state.entries.Exact
  past : x.refreshed.val ≤ x.moment.sequence.val
  covers : x.refreshed.val + minTtlLedgers.val ≤ x.stop
  entries : Outlast x.moment.state.entries x.stops (x.refreshed.val + minTtlLedgers.val)

variable {host : Host} {first : Int} {x x₀ y : Leased W} {a : Leased.Action W} {as : List (Leased.Action W)}

theorem threshold_lt : minTtlLedgers.val < ttlExtendTo.val := by decide

/-! ### A single step -/

theorem call_spec {m' : Moment W} (h : Step here m (.call streams env c reply) m') :
    m'.state.entries = m.state.entries.puts (c.puts m.state reply) ∧ m'.sequence = env.sequence ∧
      m.sequence.val ≤ env.sequence.val := by
  cases h with
  | call _ _ hsequence _ h => exact ⟨entries_of_exec h, rfl, hsequence⟩

theorem Leased.kept_of_born (hcap : minTtlLedgers.val ≤ host.cap) (h : x.Born host here) : x.Kept := by
  obtain ⟨tokens, world, streams, env, owner, token, maxLimit, reply, hstep⟩ := h.moment
  obtain ⟨stop, hstop⟩ := h.stop
  have hentries : x.moment.state.entries = (Moment.fresh tokens world).state.entries := (call_spec hstep).1
  have hnone : ∀ key, (x.moment.state.entries.value key).isSome = true → False := by
    intro key hkey
    rw [hentries] at hkey
    cases key <;> cases hkey
  constructor
  · exact tracks_of_step (tracks_of_fresh tokens world) hstep
  · rw [h.refreshed]
  · rw [h.refreshed, hstop]
    exact covers_renew threshold_lt.le hcap
  · exact fun key hkey => (hnone key hkey).elim

/-- A call that renews all entries writes none. -/
theorem puts_of_refreshes (h : c.refreshes = true) : c.puts s reply = [] := by
  cases c with
  | keepAlive | bumpAllVaultKeys => rfl
  | _ => cases h

theorem renews_of_refreshes (h : c.refreshes = true) : c.renews reply = true := by
  cases c with
  | keepAlive | bumpAllVaultKeys => rfl
  | _ => cases h

theorem Leased.kept_of_refresh (hcap : minTtlLedgers.val ≤ host.cap) (hx : x.Kept)
    (hc : c.refreshes = true) (hprompt : env.sequence.val ≤ x.refreshed.val + minTtlLedgers.val)
    (h : Step here x.moment (.call streams env c reply) m) : (x.after host first env c reply m).Kept := by
  obtain ⟨hentries, hsequence, -⟩ := call_spec h
  rw [puts_of_refreshes hc] at hentries
  have hentries : m.state.entries = x.moment.state.entries := hentries
  unfold Leased.after
  rw [if_pos hc, if_pos hc, if_pos (renews_of_refreshes hc)]
  constructor
  · exact tracks_of_step hx.exact h
  · rw [hsequence]
  · exact covers_renew threshold_lt.le hcap
  · rw [hentries]
    exact outlast_renewed threshold_lt.le hcap hx.exact hx.entries hprompt

theorem Leased.kept_of_call (hcap : minTtlLedgers.val ≤ host.cap) (hx : x.Kept)
    (hc : ¬ c.refreshes = true) (h : Step here x.moment (.call streams env c reply) m) :
    (x.after host first env c reply m).Kept := by
  obtain ⟨hentries, hsequence, hnow⟩ := call_spec h
  have hlater : x.refreshed.val ≤ env.sequence.val := hx.past.trans hnow
  unfold Leased.after
  rw [if_neg hc, if_neg hc]
  constructor
  · exact tracks_of_step hx.exact h
  · rw [hsequence]
    exact hlater
  · dsimp only
    split
    · exact hx.covers.trans le_renew
    · exact hx.covers
  · rw [hentries]
    exact outlast_kept threshold_lt.le hcap hx.entries (Int.add_le_add_right hlater _)

theorem Leased.kept_of_move (hcap : minTtlLedgers.val ≤ host.cap) (hx : x.Kept) (hprompt : x.Prompt a)
    (h : x.Move host here a y) : y.Kept := by
  cases h with
  | @call streams env c reply m first h =>
      by_cases hc : c.refreshes = true
      · exact kept_of_refresh hcap hx hc (hprompt env.sequence rfl) h
      · exact kept_of_call hcap hx hc h
  | failed h =>
      cases h with
      | failed _ _ hsequence _ _ =>
          have hnow : x.moment.sequence.val ≤ _ := hsequence
          exact ⟨hx.exact, hx.past.trans hnow, hx.covers, hx.entries⟩
  | outside h =>
      cases h with
      | outside _ => exact ⟨hx.exact, hx.past, hx.covers, hx.entries⟩
  | extended hstop hstops =>
      exact ⟨hx.exact, hx.past, hx.covers.trans hstop, fun key hkey => (hx.entries key hkey).trans (hstops key)⟩

theorem Leased.live_of_kept (hx : x.Kept) (hprompt : x.Prompt a) : x.Live a := by
  intro sequence ha
  have hle := hprompt sequence ha
  exact ⟨hle.trans hx.covers, fun key hkey => hle.trans (hx.entries key hkey)⟩

/-! ### Over runs -/

/-- **A vault that is looked after loses nothing**: where each call comes at most 100000 ledgers after the last
`keep_alive` or `bump_all_vault_keys`, it finds the instance and every balance and limit ever written live. -/
theorem lasting_of_run (hcap : minTtlLedgers.val ≤ host.cap) (hborn : x₀.Born host here)
    (h : Run (fun x a y => x.Move host here a y ∧ x.Prompt a) x₀ as x) :
    Run (fun x a y => x.Move host here a y ∧ x.Live a) x₀ as x ∧
      x.refreshed.val + minTtlLedgers.val ≤ x.stop ∧
      Outlast x.moment.state.entries x.stops (x.refreshed.val + minTtlLedgers.val) := by
  have hkept : Run (fun x a y => x.Move host here a y ∧ x.Live a) x₀ as x ∧ x.Kept := by
    induction h with
    | nil => exact ⟨.nil _, Leased.kept_of_born hcap hborn⟩
    | snoc _ hstep ih =>
        obtain ⟨hmove, hprompt⟩ := hstep
        obtain ⟨hlive, hkept⟩ := ih
        exact ⟨hlive.snoc ⟨hmove, Leased.live_of_kept hkept hprompt⟩,
          Leased.kept_of_move hcap hkept hprompt hmove⟩
  exact ⟨hkept.1, hkept.2.covers, hkept.2.entries⟩

/-! ### A sample lease

The sample vault is initialized in the first ledger.  Its owner deposits, a keeper renews the keys, and the
owner deposits again, long after the first deposit. -/

namespace Sample

def leaseHost : Host := ⟨6312000, true⟩

/-- A call by the account that signs it, in the given ledger. -/
def lateCall (signer : Address) (sequence : U32) (c : Call) : Env × Call := (signedBy signer (.lit 100) sequence, c)

def leased : Leased Unit where
  moment := visited []
  refreshed := .lit 1
  stop := leaseHost.renew 100000 1 4096 200000
  stops _ := 0

/-- The lease after a call. -/
def renewed (x : Leased Unit) (e : Env × Call) (reply : Reply) : Leased Unit :=
  x.after leaseHost 4096 e.1 e.2 reply (x.moment.perform silent e).2

/-- The call, and what it returned. -/
def action (e : Env × Call) (reply : Reply) : Leased.Action Unit := .vault (.call silent e.1 e.2 reply)

theorem perform_of {m : Moment Unit} {e : Env × Call} {reply : Reply}
    (h : (exec silent e.1 m.state e.2).toOption.map Prod.fst = some reply) :
    (m.perform silent e).1 = .call silent e.1 e.2 reply := by
  unfold Moment.perform
  cases hexec : exec silent e.1 m.state e.2 with
  | error failure =>
      rw [hexec] at h
      cases h
  | ok r =>
      rw [hexec] at h
      cases h
      rfl

theorem move_renewed {x : Leased Unit} {e : Env × Call} {reply : Reply} (henv : e.1.contract = address)
    (htime : x.moment.now ≤ e.1.timestamp) (hsequence : x.moment.sequence ≤ e.1.sequence)
    (h : (exec silent e.1 x.moment.state e.2).toOption.map Prod.fst = some reply) :
    x.Move leaseHost address (action e reply) (renewed x e reply) := by
  have hstep := step_perform (m := x.moment) (x := e) silent_spares henv htime hsequence
  rw [perform_of h] at hstep
  exact .call 4096 hstep

theorem born_leased : leased.Born leaseHost address where
  moment := by
    have hstep := step_perform (m := Moment.fresh tokens ()) (x := signed owner (.initializeVault owner token
      (.lit 500))) silent_spares rfl (by decide) (by decide)
    have hdone : (exec silent (signedBy owner (.lit 100) (.lit 1)) (Moment.fresh tokens ()).state
        (.initializeVault owner token (.lit 500))).toOption.map Prod.fst = some .done := by decide +kernel
    rw [perform_of hdone] at hstep
    exact ⟨_, _, _, _, _, _, _, _, hstep⟩
  refreshed := rfl
  stop := ⟨4096, rfl⟩

def depositCall : Env × Call := lateCall owner (.lit 2) (.deposit owner (.lit 100))
def bumpCall : Env × Call := lateCall (.account 5) (.lit 90000) .bumpAllVaultKeys
def againCall : Env × Call := lateCall owner (.lit 180000) (.depositToken owner token (.lit 50))

def deposited : Leased Unit := renewed leased depositCall .done
def bumped : Leased Unit := renewed deposited bumpCall (.count (.lit 1))
def lasting : Leased Unit := renewed bumped againCall .done

theorem run_lasting : Run (fun x a y => x.Move leaseHost address a y ∧ x.Prompt a) leased
    [action depositCall .done, action bumpCall (.count (.lit 1)), action againCall .done] lasting := by
  have prompt : ∀ {x : Leased Unit} {e : Env × Call} {reply : Reply},
      e.1.sequence.val ≤ x.refreshed.val + minTtlLedgers.val → x.Prompt (action e reply) := by
    intro x e reply h sequence hsequence
    obtain rfl := Option.some.inj hsequence
    exact h
  refine (((Run.nil _).snoc ⟨move_renewed rfl ?_ ?_ ?_, prompt ?_⟩).snoc
    ⟨move_renewed rfl ?_ ?_ ?_, prompt ?_⟩).snoc ⟨move_renewed rfl ?_ ?_ ?_, prompt ?_⟩
  all_goals decide +kernel

end Sample

/-- The balance of the owner is there for the second deposit, and for a while after it. -/
theorem lasting_of_run_bumped :
    Run (fun x a y => x.Move Sample.leaseHost Sample.address a y ∧ x.Live a) Sample.leased
      [Sample.action Sample.depositCall .done, Sample.action Sample.bumpCall (.count (.lit 1)),
        Sample.action Sample.againCall .done] Sample.lasting ∧
    Sample.lasting.refreshed.val + minTtlLedgers.val ≤ Sample.lasting.stop ∧
    Outlast Sample.lasting.moment.state.entries Sample.lasting.stops
      (Sample.lasting.refreshed.val + minTtlLedgers.val) :=
  lasting_of_run (by decide) Sample.born_leased Sample.run_lasting

end Drip.Vault
