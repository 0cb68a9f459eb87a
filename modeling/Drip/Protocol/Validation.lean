import Drip.Factory.Registry
import Drip.Governor.Effects

/-!
# Protocol — Validation

A request for a stream is validated twice: by the factory, under the bounds of the governor, and by the
`initialize` of the new stream, whose failure the factory turns into a trap.  `initialize_isOk_iff`
says what a new stream accepts; the factory asks for each of these but two, and the governor's
threshold is never zero (`Governor.sound_of_run`).

The factory never looks at the token, while the `initialize` of an open-ended stream reads a balance of
it.  What the contract behind the token's address answers is a parameter here.

* `initializes_iff_of_run`: a validated request initializes its stream exactly when it is not longer
  than `MAX_STREAM_DURATION` and, where it is open-ended, its token answers to `balance`.
-/

namespace Drip
open Chain

/-- The fields that the factory reads of the governor's answer. -/
def Governor.GovernorConfig.view (g : Governor.GovernorConfig) : Drip.GovernorConfig where
  feeBps := g.feeBps
  feeRecipient := g.feeRecipient
  minDurationSeconds := g.minDurationSeconds
  maxDurationSeconds := g.maxDurationSeconds
  maxRatePerSecond := g.maxRatePerSecond
  forceCancelPauseSecs := g.forceCancelPauseSecs

/-- Whether a stream of the request is short enough for `initialize`. -/
def Factory.StreamInitParams.Lasts (p : Factory.StreamInitParams) : Prop :=
  p.endTime.val = 0 ∨ p.endTime.val - p.startTime.val ≤ Stream.maxStreamDuration

instance (p : Factory.StreamInitParams) : Decidable p.Lasts :=
  inferInstanceAs (Decidable (_ ∨ _))

/-- Whether there is an answer to the balance of an open-ended stream at `addr`. -/
def Factory.StreamInitParams.Answered (p : Factory.StreamInitParams)
    (balanceOf : Address → Address → Option I128) (addr : Address) : Prop :=
  p.endTime.val = 0 → (balanceOf p.token addr).isSome = true

instance (p : Factory.StreamInitParams) (balanceOf : Address → Address → Option I128) (addr : Address) :
    Decidable (p.Answered balanceOf addr) :=
  inferInstanceAs (Decidable (_ → _))

section

variable {env : Env} {p : Factory.StreamInitParams} {description : Option Bytes} {now : U64}
variable {config : GovernorConfig} {args : Stream.InitArgs} {ledger : Ledger}
variable {balanceOf : Address → Address → Option I128}

/-! ### The two sides -/

/-- What the `initialize` of a new contract asks for. -/
theorem initialize_isOk_iff :
    (Stream.initializeReading balanceOf env args (.fresh ledger)).isOk = true ↔
      0 < args.ratePerSecond.val ∧ args.forceCancelPauseSecs.val ≠ 0 ∧
      ¬ (isZeroAddress args.recipient = true ∨ args.recipient = args.sender) ∧
      ¬ (0 < args.endTime.val ∧ args.endTime ≤ args.startTime) ∧
      ¬ (0 < args.endTime.val ∧
        args.endTime.val - args.startTime.val < Stream.minStreamDuration) ∧
      ¬ (0 < args.endTime.val ∧
        Stream.maxStreamDuration < args.endTime.val - args.startTime.val) ∧
      ¬ (∃ d ∈ args.description, Stream.maxDescriptionLen < d.length) ∧
      (∃ total d, Stream.totalObligation args = .ok total ∧
        (total <|> balanceOf args.token env.contract) = some d) ∧
      ¬ args.startTime < env.timestamp := by
  constructor
  · intro h
    obtain ⟨r, h⟩ := exists_of_isOk h
    simp only [Stream.initializeReading, bind_eq_ok, reject_eq_ok, not_le] at h
    obtain ⟨-, -, -, hrate, -, hthreshold, -, hrecipient, -, hafter, -, hmin, -, hmax, -, hdesc,
      total, htotal, -, hnow, d, hd, -⟩ := h
    exact ⟨hrate, hthreshold, hrecipient, hafter, hmin, hmax, hdesc,
      ⟨total, d, htotal, okOr_eq_ok.mp hd⟩, hnow⟩
  · rintro ⟨hrate, hthreshold, hrecipient, hafter, hmin, hmax, hdesc, ⟨total, d, htotal, hd⟩, hnow⟩
    have hok : ∃ r, Stream.initializeReading balanceOf env args (.fresh ledger) = .ok r := by
      simp only [Stream.initializeReading, bind_eq_ok, reject_eq_ok, pure_eq_ok, not_le]
      refine ⟨_, (), nofun, (), hrate, (), hthreshold, (), hrecipient, (), hafter, (), hmin, (), hmax,
        (), hdesc, total, htotal, (), hnow, d, okOr_eq_ok.mpr hd, _, Stream.publish_eq_ok.mpr ⟨?_, _, .lit 1, rfl, rfl, rfl⟩, rfl⟩
      intro a ha
      rw [List.mem_singleton.mp ha]
      exact hrate.le
    obtain ⟨r, hr⟩ := hok
    rw [hr]
    rfl

/-- The initial deposit of a validated request. -/
theorem exists_deposit {addr : Address} (hvalid : Factory.validateStreamRequest env p = .ok now) :
    (∃ total d, Stream.totalObligation (Factory.initArgs config p description) = .ok total ∧
      (total <|> balanceOf p.token addr) = some d) ↔ p.Answered balanceOf addr := by
  have hge := p.endTime.ge
  unfold Stream.totalObligation Factory.StreamInitParams.Answered
  split
  · rename_i he
    have he : 0 < p.endTime.val := he
    obtain ⟨duration, required, hduration, hrequired, -⟩ :=
      (Factory.validated_of_validate hvalid).funded he
    refine ⟨fun _ hzero => absurd hzero he.ne', fun _ => ⟨some required, required, ?_, rfl⟩⟩
    simp only [bind_eq_ok, okOr_eq_ok, pure_eq_ok]
    exact ⟨duration, hduration, required, hrequired, rfl⟩
  · rename_i he
    have he : ¬ 0 < p.endTime.val := he
    have hzero : p.endTime.val = 0 := by omega
    constructor
    · rintro ⟨total, d, htotal, hread⟩ -
      obtain rfl := Except.ok.inj htotal
      exact Option.isSome_iff_exists.mpr ⟨d, hread⟩
    · intro hread
      obtain ⟨d, hd⟩ := Option.isSome_iff_exists.mp (hread hzero)
      exact ⟨none, d, rfl, hd⟩

/-- A validated request, with a threshold for the forced cancellation. -/
theorem initializes_iff {addr : Address} (hvalid : Factory.validateStreamRequest env p = .ok now)
    (hdesc : ∀ d ∈ description, d.length ≤ Stream.maxDescriptionLen)
    (hthreshold : config.forceCancelPauseSecs.val ≠ 0) :
    (Stream.initializeReading balanceOf (env.invoke addr) (Factory.initArgs config p description)
      (.fresh ledger)).isOk = true ↔ p.Lasts ∧ p.Answered balanceOf addr := by
  have hchecked := Factory.validated_of_validate hvalid
  have hge := p.endTime.ge
  have hdesc : ¬ ∃ d ∈ description, Stream.maxDescriptionLen < d.length := by
    rintro ⟨d, hd, hlong⟩
    exact absurd (hdesc d hd) (not_le.mpr hlong)
  have hdeposit : (∃ total d, Stream.totalObligation (Factory.initArgs config p description) =
      .ok total ∧ (total <|> balanceOf p.token addr) = some d) ↔ p.Answered balanceOf addr :=
    exists_deposit hvalid
  rw [initialize_isOk_iff]
  constructor
  · rintro ⟨-, -, -, -, -, hmax, -, hread, -⟩
    have hmax : ¬ (0 < p.endTime.val ∧
      Stream.maxStreamDuration < p.endTime.val - p.startTime.val) := hmax
    refine ⟨?_, hdeposit.mp hread⟩
    by_cases he : p.endTime.val = 0
    · exact .inl he
    · exact .inr (not_lt.mp fun hlong => hmax ⟨by omega, hlong⟩)
  · rintro ⟨hlasts, hanswered⟩
    refine ⟨hchecked.rate, hthreshold, hchecked.recipient, hchecked.ends, hchecked.minimum, ?_, hdesc,
      hdeposit.mpr hanswered, hchecked.start⟩
    rintro ⟨he, hlong⟩
    have he : 0 < p.endTime.val := he
    have hlong : Stream.maxStreamDuration < p.endTime.val - p.startTime.val := hlong
    rcases hlasts with hzero | hle
    · omega
    · omega

/-- A request within a maximum of at most `MAX_STREAM_DURATION` is short enough. -/
theorem lasts_of_bounds (hbounds : Factory.enforceBounds config p.ratePerSec p.startTime p.endTime
    now = .ok ()) (hmax : config.maxDurationSeconds.val ≤ Stream.maxStreamDuration) : p.Lasts := by
  simp only [Factory.enforceBounds, bind_eq_ok, reject_eq_ok] at hbounds
  obtain ⟨-, -, -, -, h⟩ := hbounds
  unfold Factory.enforceDuration at h
  split at h
  · simp only [bind_eq_ok, okOr_eq_ok, reject_eq_ok, Ranged.checkedSub_eq_some, Ranged.lt_def] at h
    obtain ⟨duration, hduration, -, -, hle⟩ := h
    exact .inr (by omega)
  · rename_i hzero
    have := p.endTime.ge
    exact .inl (by omega)

/-! ### Under a governor -/

variable {here : Address} {tokens : Ledger} {as : List Governor.Action} {s : Governor.State}
variable {g : Governor.GovernorConfig}

/-- The threshold in the answer of a governor. -/
theorem threshold_of_config (hrun : Run (Governor.Step here) (.fresh tokens) as s)
    (h : Governor.config s = .ok g) : g.view.forceCancelPauseSecs.val ≠ 0 := by
  simp only [Governor.config, Governor.loadConfig, bind_eq_ok, pure_eq_ok] at h
  obtain ⟨_, -, _, -, rfl⟩ := h
  exact (Governor.sound_of_run hrun).threshold

/-- **What the factory accepts and the stream refuses.**  Let a governor, after any run, answer with a
configuration; a request that passes the validation, the description check and the bounds of that
configuration initializes the new stream, at whatever address, balances and tokens, exactly when it is
not longer than `MAX_STREAM_DURATION` and, if open-ended, has a token that answers; and while the
governor's own maximum is not above `MAX_STREAM_DURATION` the first is true of every such request. -/
theorem initializes_iff_of_run (hrun : Run (Governor.Step here) (.fresh tokens) as s)
    (hconfig : Governor.config s = .ok g)
    (hvalid : Factory.validateStreamRequest env p = .ok now)
    (hdesc : ∀ d ∈ description, d.length ≤ Stream.maxDescriptionLen)
    (hbounds : Factory.enforceBounds g.view p.ratePerSec p.startTime p.endTime now = .ok ())
    (balanceOf : Address → Address → Option I128) (addr : Address) (ledger : Ledger) :
    ((Stream.initializeReading balanceOf (env.invoke addr) (Factory.initArgs g.view p description)
      (.fresh ledger)).isOk = true ↔ p.Lasts ∧ p.Answered balanceOf addr) ∧
    (g.maxDurationSeconds.val ≤ Stream.maxStreamDuration →
      ((Stream.initializeReading balanceOf (env.invoke addr) (Factory.initArgs g.view p description)
        (.fresh ledger)).isOk = true ↔ p.Answered balanceOf addr)) := by
  have hthreshold := threshold_of_config hrun hconfig
  have hiff : (Stream.initializeReading balanceOf (env.invoke addr)
      (Factory.initArgs g.view p description) (.fresh ledger)).isOk = true ↔
        p.Lasts ∧ p.Answered balanceOf addr :=
    initializes_iff hvalid hdesc hthreshold
  refine ⟨hiff, fun hmax => ?_⟩
  have hlasts : p.Lasts := lasts_of_bounds hbounds hmax
  rw [hiff]
  exact ⟨fun h => h.2, fun hanswered => ⟨hlasts, hanswered⟩⟩

end

namespace Validation.Sample

/-- A governor that allows streams of four billion seconds. -/
def calls : List (U64 × Governor.Call) :=
  [(.lit 110, .setMaxDuration (.account 1) (.lit 4000000000))]

def governor : Governor.State := Governor.Sample.reached calls

def answer : Governor.GovernorConfig where
  feeBps := .lit 30
  feeRecipient := .account 3
  minDurationSeconds := .lit 3600
  maxDurationSeconds := .lit 4000000000
  maxRatePerSecond := .lit 1000000000000000
  factoryAddress := .contract 5
  forceCancelPauseSecs := .lit 2592000
  minQuorumBps := .lit 0
  votingPeriodLedgers := .lit 17280
  proposalStakeToken := none
  minProposalStake := .lit 0

theorem run_governor : Run (Governor.Step Governor.Sample.address)
    (.fresh Governor.Sample.tokens) (Governor.Sample.actions calls) governor :=
  Governor.Sample.run_reached (by decide)

theorem config_governor : Governor.config governor = .ok answer := by decide +kernel

/-- A request for one token each second, from the hundredth on. -/
def lasting (deposit : I128) (endTime : U64) : Factory.StreamInitParams :=
  { Factory.Sample.request with deposit := deposit, ratePerSec := .lit 1, endTime := endTime }

def tooLong : Factory.StreamInitParams := lasting (.lit 3200000000) (.lit 3200000100)

def longest : Factory.StreamInitParams := lasting (.lit 3155760000) (.lit 3155760100)

/-- An open-ended request whose token is an account. -/
def tokenless : Factory.StreamInitParams :=
  { lasting (.lit 100) (.lit 0) with token := .account 4 }

/-- Contracts are tokens, of which nobody holds any; accounts have no answer. -/
def balanceOf (token _holder : Address) : Option I128 :=
  match token with
  | .contract _ => some (.lit 0)
  | .account _ => none

end Validation.Sample

/-- A stream of more than a hundred years passes all of the factory's checks, and cannot be
initialized. -/
theorem tooLong_refused :
    Run (Governor.Step Governor.Sample.address) (.fresh Governor.Sample.tokens)
      (Governor.Sample.actions Validation.Sample.calls) Validation.Sample.governor ∧
    Governor.config Validation.Sample.governor = .ok Validation.Sample.answer ∧
    Factory.validateStreamRequest Factory.Sample.env Validation.Sample.tooLong = .ok (.lit 100) ∧
    Factory.enforceBounds Validation.Sample.answer.view (.lit 1) (.lit 100) (.lit 3200000100)
      (.lit 100) = .ok () ∧
    (Stream.initializeStream (Factory.Sample.env.invoke Stream.Sample.address)
      (Factory.initArgs Validation.Sample.answer.view Validation.Sample.tooLong none)
      (.fresh Factory.Sample.world.tokens)).isOk = false :=
  ⟨Validation.Sample.run_governor, Validation.Sample.config_governor, by decide +kernel,
    by decide +kernel, by decide +kernel⟩

theorem initializes_iff_of_run_longest :
    (Stream.initializeReading Validation.Sample.balanceOf
      (Factory.Sample.env.invoke Stream.Sample.address)
      (Factory.initArgs Validation.Sample.answer.view Validation.Sample.longest none)
      (.fresh Factory.Sample.world.tokens)).isOk = true ∧
    (Stream.initializeReading Validation.Sample.balanceOf
      (Factory.Sample.env.invoke Stream.Sample.address)
      (Factory.initArgs Validation.Sample.answer.view Validation.Sample.tokenless none)
      (.fresh Factory.Sample.world.tokens)).isOk = false := by
  have hvalid : Factory.validateStreamRequest Factory.Sample.env Validation.Sample.longest =
    .ok (.lit 100) := by decide +kernel
  have hopen : Factory.validateStreamRequest Factory.Sample.env Validation.Sample.tokenless =
    .ok (.lit 100) := by decide +kernel
  have hlasts : Validation.Sample.longest.Lasts := by decide
  have hanswered : Validation.Sample.longest.Answered Validation.Sample.balanceOf
    Stream.Sample.address := by decide
  have hsilent : ¬ Validation.Sample.tokenless.Answered Validation.Sample.balanceOf
    Stream.Sample.address := by decide
  constructor
  · exact (initializes_iff_of_run Validation.Sample.run_governor Validation.Sample.config_governor
      hvalid (fun d hd => absurd hd (Option.not_mem_none d)) (by decide +kernel) _ _ _).1.mpr
        ⟨hlasts, hanswered⟩
  · rw [Bool.eq_false_iff]
    intro hok
    exact hsilent ((initializes_iff_of_run Validation.Sample.run_governor
      Validation.Sample.config_governor hopen (fun d hd => absurd hd (Option.not_mem_none d))
      (by decide +kernel) _ _ _).1.mp hok).2

end Drip
