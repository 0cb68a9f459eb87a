import Drip.Support.Leases
import Drip.Stream.Footprint
import Drip.Stream.Pool

/-!
# Stream — Lifetime

How long the instance of a stream is live.  `contracts/stream/src/ttl.rs` renews it in every call that
writes; a stream that is not live cannot be called.  Ledgers are counted by `env.sequence`.

* `live_of_prompt`: a stream that is called every 100000 ledgers is live at every call.
* `pingable_of_run`: so is one that keepers ping as soon as they are paid for it.
* `lasts_of_renewal`: a renewal by the remaining duration lasts up to the end of the stream.
* `short_of_run`: `resume`, `extend_duration` and `top_up_and_extend` do not renew by it.  Their renewal
  comes after a `bump`, when nothing is due any more.

What the host does with an entry that has exactly the threshold left, and how long it keeps one at most, is
the parameter `host`.
-/

namespace Drip.Stream
open Chain Lease

/-! ### `ttl.rs` -/

/-- `drip_common::ttl::EXTEND_TTL_LEDGERS` of the default build. -/
def extendTtlLedgers : U32 := .lit 200000

def secondsPerLedger : Int := 5

def maxTtlLedgers : U32 := .lit 6312000

def extendToForRemaining (remainingSecs : U64) : U32 :=
  -- `div_ceil`
  let remainingLedgers : U32 := .clamp ((remainingSecs.val + (secondsPerLedger - 1)) / secondsPerLedger) (by decide)
  max extendTtlLedgers (min (remainingLedgers.saturatingAdd minTtlLedgers) maxTtlLedgers)

/-- The end of a stream whose config is stored, `0` for one without end. -/
def endTimeOf (s : State) : U64 := (s.store.config.map (·.endTime)).getD (.lit 0)

/-- What remains of a stream at the time of a call. -/
def remainingSecs (env : Env) (s : State) : U64 := (endTimeOf s).saturatingSub env.timestamp

/-- What a successful call extends the instance to, `bump` and `bump_for_remaining` in the order of the
source. -/
def Call.renewals (env : Env) (c : Call) (s s' : State) : List U32 :=
  match c with
  | .initializeStream args => [extendToForRemaining (args.endTime.saturatingSub env.timestamp)]
  | .keeperPing _ =>
      [extendToForRemaining (if 0 < (endTimeOf s).val then remainingSecs env s else .lit 0)]
  | .resume _ =>
      extendTtlLedgers ::
        if 0 < (endTimeOf s').val then [extendToForRemaining (remainingSecs env s')] else []
  | .extendDuration _ _ | .topUpAndExtend _ _ _ =>
      [extendTtlLedgers, extendToForRemaining (remainingSecs env s')]
  | .isEmergencyPaused => []
  | _ => [extendTtlLedgers]

/-! ### The targets -/

theorem val_extendToForRemaining (remaining : U64) : (extendToForRemaining remaining).val =
    max 200000 (min (min ((remaining.val + 4) / 5) 4294967295 + 100000) 6312000) := by
  have hge := remaining.ge
  unfold extendToForRemaining
  dsimp only
  rw [Ranged.val_max, Ranged.val_min, Ranged.saturatingAdd, Ranged.val_clamp, Ranged.val_clamp]
  show max 200000 (min (max 0 (min (max 0 (min ((remaining.val + 4) / 5) _) + 100000) _)) 6312000) = _
  omega

theorem threshold_lt_of_mem {env : Env} {c : Call} {s s' : State} {target : U32}
    (h : target ∈ c.renewals env s s') : minTtlLedgers.val < target.val := by
  have hplain : minTtlLedgers.val < extendTtlLedgers.val := by decide
  have hremaining : ∀ r, minTtlLedgers.val < (extendToForRemaining r).val := by
    intro r
    rw [val_extendToForRemaining]
    show 100000 < _
    omega
  cases c with
  | isEmergencyPaused => cases h
  | initializeStream args =>
      obtain rfl := List.mem_singleton.mp h
      exact hremaining _
  | keeperPing keeper =>
      obtain rfl := List.mem_singleton.mp h
      exact hremaining _
  | resume caller =>
      rcases List.mem_cons.mp h with rfl | h
      · exact hplain
      · split at h
        · obtain rfl := List.mem_singleton.mp h
          exact hremaining _
        · cases h
  | extendDuration | topUpAndExtend =>
      rcases List.mem_cons.mp h with rfl | h
      · exact hplain
      · obtain rfl := List.mem_singleton.mp h
        exact hremaining _
  | _ =>
      obtain rfl := List.mem_singleton.mp h
      exact hplain

/-! ### A stream and its lease -/

/-- The last call was in ledger `sequence`, the last that renewed in ledger `renewed`; the instance is live
up to ledger `stop`. -/
structure Leased where
  moment : Moment
  sequence : U32
  renewed : U32
  stop : Int

/-- The lease after a successful call. -/
def Leased.after (host : Host) (x : Leased) (env : Env) (c : Call) (m : Moment) : Leased where
  moment := m
  sequence := env.sequence
  renewed := if c.renewals env x.moment.state m.state = [] then x.renewed else env.sequence
  stop := host.renewAll minTtlLedgers.val env.sequence.val x.stop
    ((c.renewals env x.moment.state m.state).map Ranged.val)

inductive Leased.Action where
  | stream (a : Stream.Action)
  /-- anybody may have the host extend an entry -/
  | extended (stop : Int)

/-- A step, whether the instance is live or not. -/
inductive Leased.Move (host : Host) (here : Address) : Leased → Leased.Action → Leased → Prop where
  | call {x : Leased} {env : Env} {c : Call} {m : Moment} (hsequence : x.sequence.val ≤ env.sequence.val)
      (h : Step here x.moment (.call env c) m) :
      Leased.Move host here x (.stream (.call env c)) (x.after host env c m)
  | outside {x : Leased} {tokens : Ledger} {m : Moment} (h : Step here x.moment (.outside tokens) m) :
      Leased.Move host here x (.stream (.outside tokens)) { x with moment := m }
  | extended {x : Leased} {stop : Int} (h : x.stop ≤ stop) :
      Leased.Move host here x (.extended stop) { x with stop := stop }

/-- A call finds the instance live. -/
def Leased.Live (x : Leased) : Leased.Action → Prop
  | .stream (.call env _) => env.sequence.val ≤ x.stop
  | _ => True

/-- A call comes 100000 ledgers after the last that renewed, or earlier. -/
def Leased.Prompt (x : Leased) : Leased.Action → Prop
  | .stream (.call env _) => env.sequence.val ≤ x.renewed.val + minTtlLedgers.val
  | _ => True

/-- A new stream: deployed with a lease up to `stop`, which `initialize` has renewed. -/
structure Leased.Born (host : Host) (here : Address) (args : InitArgs) (stop : Int) (x : Leased) : Prop where
  moment : Stream.Born here args x.moment
  renewed : x.renewed = x.sequence
  stop : x.stop = host.renew minTtlLedgers.val x.sequence.val stop
    (extendToForRemaining (args.endTime.saturatingSub x.moment.clock)).val

variable {host : Host} {here : Address} {args : InitArgs} {x x₀ y : Leased} {a : Leased.Action}
variable {as : List Leased.Action} {env : Env} {c : Call} {m : Moment} {stop : Int}

/-- The host keeps an entry for longer than the threshold. -/
def Ample (host : Host) : Prop := minTtlLedgers.val < host.cap

theorem Leased.stop_le_of_move (h : x.Move host here a y) : x.stop ≤ y.stop := by
  cases h with
  | call _ _ => exact le_renewAll
  | outside _ => exact le_refl _
  | extended h => exact h

theorem Leased.stop_le_of_run (h : Run (Move host here) x as y) : x.stop ≤ y.stop := by
  induction h with
  | nil => exact le_refl _
  | snoc _ hmove ih => exact ih.trans (stop_le_of_move hmove)

/-- A call that renews leaves the threshold. -/
theorem Leased.covers_after (hhost : Ample host)
    (hrenews : c.renewals env x.moment.state m.state ≠ []) :
    env.sequence.val + minTtlLedgers.val ≤ (x.after host env c m).stop := by
  obtain ⟨target, rest, hcons⟩ := List.exists_cons_of_ne_nil hrenews
  have hlt : minTtlLedgers.val < target.val :=
    threshold_lt_of_mem (hcons ▸ List.mem_cons_self)
  unfold Leased.after
  rw [hcons, List.map_cons]
  dsimp only
  rw [renewAll_cons hlt hhost]
  exact covers_renew hlt.le hhost.le

/-! ### Called often enough -/

/-- The lease reaches past the last renewal by the threshold. -/
def Leased.Covered (x : Leased) : Prop := x.renewed.val + minTtlLedgers.val ≤ x.stop

theorem Leased.covered_of_born (hhost : Ample host) (h : x.Born host here args stop) : x.Covered := by
  have hlt : minTtlLedgers.val < (extendToForRemaining (args.endTime.saturatingSub x.moment.clock)).val := by
    rw [val_extendToForRemaining]
    show 100000 < _
    omega
  unfold Leased.Covered
  rw [h.renewed, h.stop]
  exact covers_renew hlt.le hhost.le

theorem Leased.covered_of_move (hhost : Ample host) (hx : x.Covered) (h : x.Move host here a y) :
    y.Covered := by
  cases h with
  | @call env c m hsequence h =>
      by_cases hrenews : c.renewals env x.moment.state m.state = []
      · unfold Leased.Covered Leased.after
        rw [if_pos hrenews, hrenews]
        exact hx
      · have hcovers : env.sequence.val + minTtlLedgers.val ≤ (x.after host env c m).stop :=
          covers_after hhost hrenews
        unfold Leased.Covered
        rw [show (x.after host env c m).renewed = env.sequence from if_neg hrenews]
        exact hcovers
  | outside _ => exact hx
  | extended h => exact le_trans hx h

theorem Leased.live_of_covered (hx : x.Covered) (h : x.Prompt a) : x.Live a := by
  cases a with
  | extended stop => trivial
  | stream a =>
      cases a with
      | outside tokens => trivial
      | call env c => exact le_trans h hx

/-- **A stream that is called often enough is never archived**: where each call comes at most 100000
ledgers after the last one that has renewed the lease, each finds the stream live. -/
theorem live_of_prompt (hhost : Ample host) (hborn : x₀.Born host here args stop)
    (h : Run (fun x a y => x.Move host here a y ∧ x.Prompt a) x₀ as x) :
    Run (fun x a y => x.Move host here a y ∧ x.Live a) x₀ as x ∧ x.Covered := by
  induction h with
  | nil => exact ⟨.nil _, Leased.covered_of_born hhost hborn⟩
  | snoc _ hstep ih =>
      obtain ⟨hmove, hprompt⟩ := hstep
      obtain ⟨hlive, hcovered⟩ := ih
      exact ⟨hlive.snoc ⟨hmove, Leased.live_of_covered hcovered hprompt⟩,
        Leased.covered_of_move hhost hcovered hmove⟩

/-! ### A sample lease

The sample stream is deployed in the first ledger, for 4096 ledgers.  A pool for keepers is set up and
pinged. -/

namespace Sample

def leaseHost : Host := ⟨6312000, true⟩

theorem ample_leaseHost : Ample leaseHost := by
  unfold Ample
  decide

def leased : Leased where
  moment := born Sample.args
  sequence := .lit 1
  renewed := .lit 1
  stop := leaseHost.renew 100000 1 4096 200000

theorem born_leased : leased.Born leaseHost address Sample.args 4096 where
  moment := born_of_initialize (by decide +kernel)
  renewed := rfl
  stop := by decide +kernel

/-- An invocation in a later ledger, that everyone but the stream has signed. -/
def envIn (t : U64) (sequence : U32) : Env := { envAt t with sequence := sequence }

/-- The lease after a call. -/
def renewed (x : Leased) (t : U64) (sequence : U32) (c : Call) : Leased :=
  x.after leaseHost (envIn t sequence) c
    ⟨(exec (envIn t sequence) x.moment.state c).toOption.getD x.moment.state, t⟩

theorem move_renewed {x : Leased} {t : U64} {sequence : U32} {c : Call}
    (hsequence : x.sequence.val ≤ sequence.val) (hclock : x.moment.clock.val ≤ t.val)
    (h : (exec (envIn t sequence) x.moment.state c).isOk = true) :
    x.Move leaseHost address (.stream (.call (envIn t sequence) c)) (renewed x t sequence c) := by
  obtain ⟨s', hs'⟩ := exists_of_isOk h
  have hstep : Step address x.moment (.call (envIn t sequence) c) ⟨s', t⟩ := .call rfl hclock hs'
  have hmove : x.Move leaseHost address _ _ := .call hsequence hstep
  unfold renewed
  rw [hs']
  exact hmove

def funded : Leased :=
  renewed (renewed { leased with moment := rewarded (.lit 0) } (.lit 200) (.lit 20)
    (.configureKeeperRewardPool sender rewardToken (.lit 5))) (.lit 300) (.lit 40)
    (.fundKeeperRewardPool sender (.lit 100))

def fundedActions : List Leased.Action :=
  [.stream (.outside (rewardTokens (.lit 0))),
    .stream (.call (envIn (.lit 200) (.lit 20)) (.configureKeeperRewardPool sender rewardToken (.lit 5))),
    .stream (.call (envIn (.lit 300) (.lit 40)) (.fundKeeperRewardPool sender (.lit 100)))]

theorem run_funded : Run (Leased.Move leaseHost address) leased fundedActions funded := by
  have h₁ : leased.Move leaseHost address (.stream (.outside (rewardTokens (.lit 0))))
    { leased with moment := rewarded (.lit 0) } := .outside (step_rewarded _)
  refine (((Run.nil _).snoc h₁).snoc (move_renewed ?_ ?_ ?_)).snoc (move_renewed ?_ ?_ ?_)
  all_goals decide +kernel

/-- The first ping. -/
def pinged : Leased := renewed funded (.lit 400) (.lit 60) (.keeperPing (.account 6))

theorem move_pinged : funded.Move leaseHost address
    (.stream (.call (envIn (.lit 400) (.lit 60)) (.keeperPing (.account 6)))) pinged :=
  move_renewed (by decide +kernel) (by decide +kernel) (by decide +kernel)

end Sample

theorem live_of_prompt_funded :
    Run (fun x a y => x.Move Sample.leaseHost Sample.address a y ∧ x.Live a) Sample.leased
      Sample.fundedActions Sample.funded ∧ Sample.funded.Covered := by
  have hprompt : ∀ x : Leased, ∀ a ∈ Sample.fundedActions, x.Prompt a := by
    intro x a ha
    have hge := x.renewed.ge
    simp only [Sample.fundedActions, List.mem_cons, List.not_mem_nil, or_false] at ha
    obtain rfl | rfl | rfl := ha
    · trivial
    · show (20 : Int) ≤ x.renewed.val + 100000
      omega
    · show (40 : Int) ≤ x.renewed.val + 100000
      omega
  exact live_of_prompt Sample.ample_leaseHost Sample.born_leased
    (Sample.run_funded.mono fun ha hmove => ⟨hmove, hprompt _ _ ha⟩)

/-! ### Keepers -/

theorem Leased.reachable_of_run (hborn : x₀.Born host here args stop) (h : Run (Move host here) x₀ as x) :
    Reachable here x.moment := by
  induction h with
  | nil => exact ⟨args, _, [], hborn.moment, .nil _⟩
  | snoc _ hmove ih =>
      obtain ⟨args, m₀, bs, hm₀, hrun⟩ := ih
      cases hmove with
      | call _ h => exact ⟨args, m₀, _, hm₀, hrun.snoc h⟩
      | outside h => exact ⟨args, m₀, _, hm₀, hrun.snoc h⟩
      | extended _ => exact ⟨args, m₀, _, hm₀, hrun⟩

theorem Leased.config_of_moves (hborn : x₀.Born host here args stop) (h : Run (Move host here) x₀ as x) :
    ∃ info, x.moment.state.store.config = some info := by
  obtain ⟨info, hs⟩ := sound_of_reachable (reachable_of_run hborn h)
  exact ⟨info, hs.config⟩

/-- No keeper has been paid yet. -/
theorem lastPing_of_born {m : Moment} (h : Stream.Born here args m) :
    m.state.store.lastKeeperPingLedger = none := by
  obtain ⟨env, tokens, s₀, -, -, h₀, hm⟩ := h
  rw [hm]
  simp [initializeStream, initializeReading, State.fresh, publish_eq_ok] at h₀
  obtain ⟨-, -, -, -, -, -, -, d, -, -, -, n, -, rfl⟩ := h₀
  rfl

/-- `keeper_ping` notes its ledger. -/
theorem lastPing_of_keeperPing {s s' : State} {info : StreamInfo} {keeper : Address}
    (hi : s.store.config = some info) (h : exec env s (.keeperPing keeper) = .ok s') :
    s'.store.lastKeeperPingLedger = some env.sequence := by
  simp [exec, keeperPing, keeperPingBody, hi] at h
  obtain ⟨-, s₂, ⟨-, -, pool, -, -, -, b, -, s₁, h₁, h₂⟩, rfl⟩ := h
  obtain ⟨hs₁, -⟩ := payFromPool_silent h₁
  obtain ⟨-, i, n, -, -, rfl⟩ := publish_eq_ok.mp h₂
  show s₁.store.lastKeeperPingLedger = _
  rw [hs₁]

/-- No other call does. -/
theorem lastPing_of_other {s s' : State} {info : StreamInfo} (hi : s.store.config = some info)
    (hc : ∀ keeper, c ≠ .keeperPing keeper) (h : exec env s c = .ok s') :
    s'.store.lastKeeperPingLedger = s.store.lastKeeperPingLedger := by
  obtain ⟨info', hw⟩ := wrote_of_exec hi h
  rw [hw.write]
  cases c with
  | keeperPing keeper => exact absurd rfl (hc keeper)
  | initializeStream args => simp [exec, initializeStream, initializeReading, hi] at h
  | _ => rfl

/-- The first ledger in which the next ping is accepted is in the lease. -/
def Leased.Pingable (x : Leased) : Prop :=
  ∀ last ∈ x.moment.state.store.lastKeeperPingLedger, (last.saturatingAdd minTtlLedgers).val ≤ x.stop

theorem Leased.pingable_of_move (hhost : Ample host) {info : StreamInfo}
    (hi : x.moment.state.store.config = some info) (hx : x.Pingable) (h : x.Move host here a y) :
    y.Pingable := by
  have hle := stop_le_of_move h
  cases h with
  | outside h =>
      cases h with
      | outside _ => exact hx
  | extended h => exact fun last hlast => (hx last hlast).trans hle
  | @call env c m hsequence h =>
      intro last hlast
      cases h with
      | @call _ _ s' henv hclock h =>
          by_cases hc : ∃ keeper, c = .keeperPing keeper
          · -- the ping of this ledger
            obtain ⟨keeper, rfl⟩ := hc
            obtain rfl : env.sequence = last :=
              Option.some.inj ((lastPing_of_keeperPing hi h).symm.trans hlast)
            have hcovers : env.sequence.val + minTtlLedgers.val ≤
                (x.after host env (.keeperPing keeper) ⟨s', env.timestamp⟩).stop :=
              covers_after hhost (List.cons_ne_nil _ _)
            refine le_trans ?_ hcovers
            have hge := env.sequence.ge
            rw [Ranged.saturatingAdd, Ranged.val_clamp]
            show max 0 (min (_ + 100000) _) ≤ _ + 100000
            omega
          · have hsame := lastPing_of_other hi (fun keeper heq => hc ⟨keeper, heq⟩) h
            have hlast' : last ∈ x.moment.state.store.lastKeeperPingLedger := hsame ▸ hlast
            exact (hx last hlast').trans hle

/-- **Keepers suffice**: in any run, the stream is live in the first ledger in which a ping after the last
one is accepted. -/
theorem pingable_of_run (hhost : Ample host) (hborn : x₀.Born host here args stop)
    (h : Run (Leased.Move host here) x₀ as x) : x.Pingable := by
  induction h with
  | nil =>
      intro last hlast
      rw [lastPing_of_born hborn.moment] at hlast
      cases hlast
  | snoc hrun hmove ih =>
      obtain ⟨info, hi⟩ := Leased.config_of_moves hborn hrun
      exact Leased.pingable_of_move hhost hi ih hmove

theorem pingable_of_run_pinged : Sample.pinged.Pingable ∧
    Sample.pinged.moment.state.store.lastKeeperPingLedger = some (.lit 60) :=
  ⟨pingable_of_run Sample.ample_leaseHost Sample.born_leased (Sample.run_funded.snoc Sample.move_pinged),
    by decide +kernel⟩

/-! ### Renewals by the remaining duration -/

/-- The ledgers that close during the remaining duration, and the threshold on top of them. -/
theorem reaches_extend {remaining : U64} {ledgers : Int} (hpace : secondsPerLedger * ledgers ≤ remaining.val)
    (hshort : remaining.val ≤ secondsPerLedger * (maxTtlLedgers.val - minTtlLedgers.val)) :
    ledgers + minTtlLedgers.val ≤ (extendToForRemaining remaining).val := by
  rw [val_extendToForRemaining]
  have hpace : 5 * ledgers ≤ remaining.val := hpace
  have hshort : remaining.val ≤ 5 * (6312000 - 100000) := hshort
  show ledgers + 100000 ≤ _
  omega

/-- A lease for the remaining duration, made in ledger `sequence` at time `now`. -/
def Leased.LastsTo (host : Host) (endTime now : U64) (sequence : U32) (x : Leased) : Prop :=
  sequence.val + min (extendToForRemaining (endTime.saturatingSub now)).val host.cap ≤ x.stop

/-- `later` is no later than `endTime`; from `now` and `sequence` on no ledger takes less than five seconds;
and what is left until `endTime` is no longer than a renewal reaches, about a year. -/
structure Within (endTime now : U64) (sequence : U32) (later : Env) : Prop where
  short : endTime.val - now.val ≤ secondsPerLedger * (maxTtlLedgers.val - minTtlLedgers.val)
  pace : secondsPerLedger * (later.sequence.val - sequence.val) ≤ later.timestamp.val - now.val
  time : later.timestamp.val ≤ endTime.val

theorem Leased.LastsTo.live {endTime now : U64} {sequence : U32} {later : Env}
    (hx : x.LastsTo host endTime now sequence) (hcap : maxTtlLedgers.val ≤ host.cap)
    (h : Within endTime now sequence later) : later.sequence.val + minTtlLedgers.val ≤ x.stop := by
  obtain ⟨hshort, hpace, htime⟩ := h
  have hremaining : (endTime.saturatingSub now).val = max 0 (endTime.val - now.val) := by
    have hle := endTime.le
    have hge := now.ge
    rw [Ranged.saturatingSub, Ranged.val_clamp]
    omega
  have hlong : 0 ≤ secondsPerLedger * (maxTtlLedgers.val - minTtlLedgers.val) := by decide
  have hreaches : later.sequence.val - sequence.val + minTtlLedgers.val ≤
      (extendToForRemaining (endTime.saturatingSub now)).val := reaches_extend (by omega) (by omega)
  have htarget : (extendToForRemaining (endTime.saturatingSub now)).val ≤ maxTtlLedgers.val := by
    rw [val_extendToForRemaining]
    show _ ≤ 6312000
    omega
  have hmin : min (extendToForRemaining (endTime.saturatingSub now)).val host.cap =
      (extendToForRemaining (endTime.saturatingSub now)).val := min_eq_left (htarget.trans hcap)
  unfold Leased.LastsTo at hx
  omega

/-- The `initialize` of a stream whose lease is due. -/
theorem lastsTo_of_born (hborn : x₀.Born host here args stop)
    (hdue : host.Due minTtlLedgers.val (stop - x₀.sequence.val)) :
    x₀.LastsTo host args.endTime x₀.moment.clock x₀.sequence := by
  unfold Leased.LastsTo
  rw [hborn.stop]
  exact lives_of_renew hdue

/-- A ping of one. -/
theorem lastsTo_of_ping {keeper : Address} {info : StreamInfo}
    (hi : x.moment.state.store.config = some info) (hend : 0 < info.endTime.val)
    (hping : x.Move host here (.stream (.call env (.keeperPing keeper))) y)
    (hdue : host.Due minTtlLedgers.val (x.stop - env.sequence.val)) :
    y.LastsTo host info.endTime env.timestamp env.sequence := by
  cases hping with
  | @call _ _ m hsequence hstep =>
      have hendTime : endTimeOf x.moment.state = info.endTime := by
        unfold endTimeOf
        rw [hi]
        rfl
      have hrenewals : (Call.keeperPing keeper).renewals env x.moment.state m.state =
          [extendToForRemaining (info.endTime.saturatingSub env.timestamp)] := by
        unfold Call.renewals remainingSecs
        rw [hendTime]
        dsimp only
        rw [if_pos hend]
      unfold Leased.LastsTo Leased.after
      rw [hrenewals]
      exact lives_of_renew hdue

/-- **A renewal that is due lasts up to the end of the stream**, with nobody calling it: whatever happens
after the `initialize`, or after a ping, the lease goes on for more than the threshold at any time up to the
end that the stream had then. -/
theorem lasts_of_renewal (hcap : maxTtlLedgers.val ≤ host.cap) (h : Run (Leased.Move host here) x₀ as x) :
    (∀ (args : InitArgs) (stop : Int) (later : Env), x₀.Born host here args stop →
      host.Due minTtlLedgers.val (stop - x₀.sequence.val) →
      Within args.endTime x₀.moment.clock x₀.sequence later →
      later.sequence.val + minTtlLedgers.val ≤ x.stop) ∧
    (∀ (w : Leased) (env later : Env) (keeper : Address) (info : StreamInfo),
      w.moment.state.store.config = some info → 0 < info.endTime.val →
      w.Move host here (.stream (.call env (.keeperPing keeper))) x₀ →
      host.Due minTtlLedgers.val (w.stop - env.sequence.val) →
      Within info.endTime env.timestamp env.sequence later →
      later.sequence.val + minTtlLedgers.val ≤ x.stop) := by
  have hstop := Leased.stop_le_of_run h
  refine ⟨fun args stop later hborn hdue hwithin => ?_,
    fun w env later keeper info hi hend hping hdue hwithin => ?_⟩
  · exact ((lastsTo_of_born hborn hdue).live hcap hwithin).trans hstop
  · exact ((lastsTo_of_ping hi hend hping hdue).live hcap hwithin).trans hstop

namespace Sample

/-- A ping a hundred and fifty thousand ledgers on, when the renewal is due. -/
def pingedLate : Leased := renewed funded (.lit 400) (.lit 150000) (.keeperPing (.account 6))

theorem move_pingedLate : funded.Move leaseHost address
    (.stream (.call (envIn (.lit 400) (.lit 150000)) (.keeperPing (.account 6)))) pingedLate :=
  move_renewed (by decide +kernel) (by decide +kernel) (by decide +kernel)

end Sample

/-- The sample stream in its last second: a hundred and fifty ledgers after its birth, and a hundred after the
late ping. -/
theorem lasts_of_renewal_funded :
    150 + 100000 ≤ Sample.funded.stop ∧ 150100 + 100000 ≤ Sample.pingedLate.stop := by
  obtain ⟨info, hi, hend⟩ : ∃ info, Sample.funded.moment.state.store.config = some info ∧
      info.endTime = .lit 1100 := ⟨_, Option.eq_some_of_isSome (by decide +kernel), by decide +kernel⟩
  have hpinged := (lasts_of_renewal (by decide) (Run.nil Sample.pingedLate)).2 Sample.funded _
    (Sample.envIn (.lit 1100) (.lit 150100)) _ info hi (by rw [hend]; decide) Sample.move_pingedLate
    (by decide +kernel) (by rw [hend]; exact ⟨by decide, by decide, by decide⟩)
  exact ⟨(lasts_of_renewal (by decide) Sample.run_funded).1 Sample.args 4096
    (Sample.envIn (.lit 1100) (.lit 150)) Sample.born_leased (by decide)
    ⟨by decide, by decide, by decide⟩, hpinged⟩

/-! ### Renewals that are not due -/

/-- Neither a ping nor somebody else's extension. -/
def Leased.Action.Ordinary : Leased.Action → Prop
  | .extended _ | .stream (.call _ (.keeperPing _)) => False
  | _ => True

theorem renewals_of_ordinary {s s' : State} (hordinary : (Leased.Action.stream (.call env c)).Ordinary)
    (hinit : ∀ args, c ≠ .initializeStream args) :
    c.renewals env s s' = [] ∨ ∃ rest, c.renewals env s s' = extendTtlLedgers :: rest := by
  cases c with
  | isEmergencyPaused => exact .inl rfl
  | initializeStream args => exact absurd rfl (hinit args)
  | keeperPing keeper => exact hordinary.elim
  | _ => exact .inr ⟨_, rfl⟩

/-- The end of the lease, seen from the start of the run or from the last call. -/
def Leased.Short (x₀ x : Leased) : Prop :=
  x.stop ≤ max x₀.stop (x.sequence.val + extendTtlLedgers.val)

theorem Leased.short_of_move (hhost : Ample host) {info : StreamInfo}
    (hi : x.moment.state.store.config = some info) (hx : Short x₀ x) (hordinary : a.Ordinary)
    (h : x.Move host here a y) : Short x₀ y := by
  cases h with
  | outside _ => exact hx
  | extended _ => exact hordinary.elim
  | @call env c m hsequence h =>
      have hinit : ∀ args, c ≠ .initializeStream args := by
        rintro args rfl
        cases h with
        | call _ _ h => simp [exec, initializeStream, initializeReading, hi] at h
      have hlong : x.stop ≤ max x₀.stop (env.sequence.val + extendTtlLedgers.val) := by
        unfold Short at hx
        omega
      unfold Short Leased.after
      dsimp only
      have hrenewals : c.renewals env x.moment.state m.state = [] ∨
          ∃ rest, c.renewals env x.moment.state m.state = extendTtlLedgers :: rest :=
        renewals_of_ordinary hordinary hinit
      rcases hrenewals with hnone | ⟨rest, hcons⟩
      · rw [hnone]
        exact hlong
      · rw [hcons, List.map_cons, renewAll_cons (by decide) hhost]
        exact renew_le.trans (max_le hlong (le_max_right _ _))

/-- **Apart from pings, a call renews for 200000 ledgers at most**, however long the stream still runs:
resuming a stream and extending it renew by the remaining duration only when nothing is due.  This is each call
of any run; and where a run has no ping, and nobody has the host extend the entry, it is the run as a whole. -/
theorem short_of_run (hhost : Ample host) (hborn : x₀.Born host here args stop)
    (h : Run (Leased.Move host here) x₀ as x) :
    (∀ a y, a.Ordinary → x.Move host here a y → Leased.Short x y) ∧
      ((∀ a ∈ as, a.Ordinary) → Leased.Short x₀ x) := by
  refine ⟨fun a y hordinary hmove => ?_, fun hall => ?_⟩
  · obtain ⟨info, hi⟩ := Leased.config_of_moves hborn h
    exact Leased.short_of_move hhost hi (le_max_left _ _) hordinary hmove
  · induction h with
    | nil => exact le_max_left _ _
    | snoc hrun hmove ih =>
        obtain ⟨info, hi⟩ := Leased.config_of_moves hborn hrun
        exact Leased.short_of_move hhost hi (ih fun a ha => hall a (List.mem_append_left _ ha))
          (hall _ (List.mem_append_right _ List.mem_cons_self)) hmove

theorem short_of_run_funded : Leased.Short Sample.leased Sample.funded := by
  refine (short_of_run Sample.ample_leaseHost Sample.born_leased Sample.run_funded).2 fun a ha => ?_
  simp only [Sample.fundedActions, List.mem_cons, List.not_mem_nil, or_false] at ha
  obtain rfl | rfl | rfl := ha
  · trivial
  · trivial
  · trivial

end Drip.Stream
