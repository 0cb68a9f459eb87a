import Drip.Stream.Footprint
import Drip.Factory.Funding

/-!
# Factory — Deposits

The running total of deposits, `CumulativeDeposited`.  `initialize` sets it before the factory has
forwarded the deposit: to the whole obligation of a bounded stream, to the present balance of an
open-ended one.  From then on it follows what the stream receives.

* `deposited_of_exec`: each call adds what it deposits.
* `deposited_of_run`: the total is its first value and the deposits since.
* `deposited_of_creates`: for a stream of the factory, that is the amount funded exactly when the
  stream is bounded and its deposit is the obligation.
-/

namespace Drip.Stream
open Chain

variable {env : Env} {here : Address} {args : InitArgs} {m m₀ : Moment} {as : List Action}
variable {s s₁ s' : State} {info info' : StreamInfo} {c : Call} {kept : Int} {d : I128}

/-- What a funding call deposits, on a stream of the given rate. -/
def Call.deposits (rate : Int) : Call → Int
  | .topUp _ amount | .topUpAndExtend _ amount _ => amount.val
  | .extendDuration _ extra => extra.val * rate
  | _ => 0

/-- The transfers with the purpose of a deposit are those of the funding calls. -/
theorem Effect.deposits (he : Effect env s info c s' info' kept) :
    total info'.token .deposit s'.transfers =
      total info.token .deposit s.transfers + c.deposits info.ratePerSecond.val := by
  have hop : ∀ (e : Escrow) (now rate : Int), (e.apply now (c.op rate kept)).totals .deposit =
      e.totals .deposit + c.deposits rate := by
    intro e now rate
    cases c <;> simp [Call.op, Call.deposits, Escrow.apply, book]
  show (escrowOf env.contract info' s').totals .deposit =
    (escrowOf env.contract info s).totals .deposit + c.deposits info.ratePerSecond.val
  rw [he.escrow]
  exact hop _ _ _

/-! ### The stored total -/

theorem deposit_adds {caller : Address} {amount : I128} (hd : s.store.cumulativeDeposited = some d)
    (h : deposit env s info caller amount = .ok s') :
    ∃ d' : I128, s'.store.cumulativeDeposited = some d' ∧ d'.val = d.val + amount.val := by
  simp only [deposit, addCumulativeDeposit, cumulativeDeposited, hd, bind_eq_ok, okOr_eq_ok,
    pure_eq_ok, Except.ok.injEq, Ranged.checkedAdd_eq_some] at h
  obtain ⟨_, ⟨_, rfl, d', hd', rfl⟩, h⟩ := h
  rw [(transfer_silent h).1]
  exact ⟨d', rfl, hd'⟩

/-- A publication and the release of the guard leave the total alone. -/
theorem deposited_released {e : Event} (h : publish s e = .ok s') :
    s'.released.store.cumulativeDeposited = s.store.cumulativeDeposited := by
  obtain ⟨-, i, n, -, -, rfl⟩ := publish_eq_ok.mp h
  rfl

theorem deposited_of_exec (hi : s.store.config = some info)
    (hd : s.store.cumulativeDeposited = some d) (h : exec env s c = .ok s') :
    ∃ d' : I128, s'.store.cumulativeDeposited = some d' ∧
      d'.val = d.val + c.deposits info.ratePerSecond.val := by
  cases c with
  | initializeStream args => simp [exec, initializeStream, initializeReading, hi] at h
  | topUp caller amount =>
      simp [exec, topUp, topUpBody, hi] at h
      obtain ⟨-, s₂, ⟨-, -, -, -, s₁, h₁, h₂⟩, rfl⟩ := h
      rw [deposited_released h₂]
      exact deposit_adds (s := s.locked) hd h₁
  | extendDuration caller extra =>
      simp [exec, extendDuration, extendDurationBody, hi] at h
      obtain ⟨-, s₂, ⟨-, -, -, -, amount, hamount, s₁, h₁, e, -, h₂⟩, rfl⟩ := h
      rw [deposited_released h₂]
      show ∃ d' : I128, s₁.store.cumulativeDeposited = some d' ∧
        d'.val = d.val + extra.val * info.ratePerSecond.val
      rw [← hamount]
      exact deposit_adds (s := s.locked) hd h₁
  | topUpAndExtend caller amount extra =>
      simp [exec, topUpAndExtend, topUpAndExtendBody, hi] at h
      obtain ⟨-, s₂, ⟨-, -, -, -, -, s₁, h₁, e, -, h₂⟩, rfl⟩ := h
      rw [deposited_released h₂]
      have hadd := deposit_adds (s := s.locked) hd h₁
      exact hadd
  | _ =>
      -- the key is not one of the call's own
      obtain ⟨info', hw⟩ := wrote_of_exec hi h
      refine ⟨d, ?_, (add_zero _).symm⟩
      rw [hw.write]
      exact hd

/-- The total at the end of a run is its first value and the deposits of the run. -/
theorem deposited_of_run (hborn : Born here args m₀)
    (hd : m₀.state.store.cumulativeDeposited = some d) (hrun : Run (Step here) m₀ as m) :
    ∃ info, Sound here m.state info m.clock.val ∧ info.token = args.token ∧
      ∃ d' : I128, m.state.store.cumulativeDeposited = some d' ∧
        d'.val = d.val + total args.token .deposit m.state.transfers := by
  refine Sound.along (P := fun info m => info.token = args.token ∧
      ∃ d' : I128, m.state.store.cumulativeDeposited = some d' ∧
        d'.val = d.val + total args.token .deposit m.state.transfers)
    id (fun _ hstep hc hP => ?_) (fun _ _ _ hP => hP) hrun (sound_of_born hborn) ?_
  · cases hstep with
    | call henv hclock h =>
        obtain ⟨htoken, d₁, hd₁, hsum⟩ := hP
        obtain ⟨d', hd', hadd⟩ := deposited_of_exec hc.before.config hd₁ h
        have hdep := hc.effect.deposits
        rw [hc.effect.token, htoken] at hdep
        refine ⟨hc.effect.token.trans htoken, d', hd', ?_⟩
        dsimp only
        omega
  · obtain ⟨env, -, hcreated⟩ := hborn.created
    refine ⟨rfl, d, hd, ?_⟩
    rw [hcreated.transfers, total_nil, add_zero]

/-- What `initialize` records. -/
theorem deposited_of_initialize {tokens : Ledger}
    (h : initializeStream env args (State.fresh tokens) = .ok ((), s)) :
    ∃ d : I128, s.store.cumulativeDeposited = some d ∧
      d.val = if 0 < args.endTime.val
        then args.ratePerSecond.val * (args.endTime.val - args.startTime.val)
        else (tokens.balance args.token env.contract).val := by
  simp [initializeStream, initializeReading, State.fresh, publish_eq_ok] at h
  obtain ⟨-, -, -, -, -, -, -, total, htotal, -, -, n, -, rfl⟩ := h
  refine ⟨_, rfl, ?_⟩
  by_cases hbounded : 0 < args.endTime.val
  · obtain ⟨d, rfl, hd⟩ := totalObligation_spec htotal hbounded
    rw [if_pos hbounded]
    exact hd
  · obtain rfl := totalObligation_eq_none htotal hbounded
    rw [if_neg hbounded]
    rfl

end Drip.Stream

namespace Drip.Factory
open Chain

section

variable {host : Host} {env : Env} {p : StreamInitParams} {now id : U64}
variable {description : Option Bytes} {w w' : World}

/-- **The recorded total is the amount funded exactly for a bounded stream whose deposit is its
obligation.**  The stream holds nothing but the forwarded deposit when it is created; at the end of
every run the recorded total is then the deposit and what the funding calls brought in, if and only
if the stream was created bounded and with a deposit of the rate times the duration. -/
theorem deposited_of_creates (hcreates : Creates host env p description w id w') :
    ∃ addr d, w'.factory.streamAddr id = some addr ∧ w'.streams addr = some d ∧
      ((w'.tokens.balance p.token addr).val = p.deposit.val →
        ∀ as m, Run (Stream.Step addr) ⟨w'.streamState d, env.timestamp⟩ as m →
          ∃ info, m.state.store.config = some info ∧ ∀ env', ∃ recorded,
            Stream.cumulativeDeposited env' m.state info = .ok recorded ∧
            (recorded.val = p.deposit.val + Stream.total p.token .deposit m.state.transfers ↔
              0 < p.endTime.val ∧
                p.deposit.val = p.ratePerSec.val * (p.endTime.val - p.startTime.val))) := by
  obtain ⟨config, now, hvalid, hcreate⟩ := hcreates
  have hpos := (validated_of_validate hvalid).deposit
  obtain ⟨addr, s, tokens, haddr, hd, hinit, hbal⟩ := initialized_of_create hcreate
  refine ⟨addr, _, haddr, hd, fun honly as m hrun => ?_⟩
  have hborn : Stream.Born addr (initArgs config p description)
      ⟨w'.streamState ⟨s.store, s.events, s.transfers⟩, env.timestamp⟩ :=
    ⟨env.invoke addr, tokens, s, rfl, rfl, hinit, rfl⟩
  obtain ⟨d₀, hd₀, hfirst⟩ := Stream.deposited_of_initialize hinit
  obtain ⟨info, hs, -, recorded, hrec, hsum⟩ := Stream.deposited_of_run hborn hd₀ hrun
  refine ⟨info, hs.config, fun env' => ⟨recorded, ?_, ?_⟩⟩
  · unfold Stream.cumulativeDeposited
    rw [hrec]
  · change d₀.val = if 0 < p.endTime.val
      then p.ratePerSec.val * (p.endTime.val - p.startTime.val)
      else (tokens.balance p.token addr).val at hfirst
    change recorded.val = d₀.val + Stream.total p.token .deposit m.state.transfers at hsum
    split at hfirst
    · rename_i hbounded
      refine ⟨fun h => ⟨hbounded, by omega⟩, fun h => by omega⟩
    · -- an open-ended stream has recorded its balance before the deposit, which is nothing
      rename_i hopen
      refine ⟨fun h => ?_, fun h => absurd h.1 hopen⟩
      omega

end

/-! ### Two sample streams

The sample request asks for exactly its obligation; the same request with an earlier end deposits
more than that. -/

namespace Sample

/-- The sender has obtained five hundred tokens. -/
def supply : Ledger :=
  born.state.tokens.set Stream.Sample.token Stream.Sample.sender (.lit 500)

/-- The new stream after a top-up of five hundred tokens. -/
def toppedUp : Stream.Moment :=
  Stream.Sample.next ⟨{ born.state with tokens := supply }, born.clock⟩ (.lit 300)
    (.topUp Stream.Sample.sender (.lit 500))

theorem run_toppedUp : Run (Stream.Step Stream.Sample.address) born
    [.outside supply, .call (Stream.Sample.envAt (.lit 300))
      (.topUp Stream.Sample.sender (.lit 500))] toppedUp := by
  refine Run.snoc (Run.snoc (.nil _) (.outside fun t => ?_))
    (Stream.Sample.step_next (by decide +kernel) (by decide +kernel))
  show _ ≤ (if t = Stream.Sample.token ∧ Stream.Sample.address = Stream.Sample.sender then _
    else born.state.tokens.balance t Stream.Sample.address).val
  rw [if_neg fun h => absurd h.2 (by decide)]

/-- Ends a hundred seconds before the sample request. -/
def overfunded : StreamInitParams := { request with endTime := .lit 1000 }

def overfundedCreated : U64 × World :=
  match createStreamWithConfig host env config (.lit 100) overfunded none world with
  | .ok r => r
  | .error _ => (.lit 0, world)

theorem creates_overfunded :
    Creates host env overfunded none world overfundedCreated.1 overfundedCreated.2 := by
  refine ⟨config, .lit 100, by decide +kernel, ?_⟩
  have hok : (createStreamWithConfig host env config (.lit 100) overfunded none world).isOk =
    true := by decide +kernel
  obtain ⟨r, hr⟩ := exists_of_isOk hok
  unfold overfundedCreated
  rw [hr]

def overfundedStream : Deployed :=
  (overfundedCreated.2.streams Stream.Sample.address).getD ⟨{}, [], []⟩

theorem streams_overfunded :
    overfundedCreated.2.streams Stream.Sample.address = some overfundedStream := by
  have hsome : (overfundedCreated.2.streams Stream.Sample.address).isSome = true := by
    decide +kernel
  obtain ⟨d, hd⟩ := Option.isSome_iff_exists.mp hsome
  rw [overfundedStream, hd]
  rfl

end Sample

theorem deposited_of_creates_toppedUp :
    ∃ info recorded, Sample.toppedUp.state.store.config = some info ∧
      Stream.cumulativeDeposited (Stream.Sample.envAt (.lit 300)) Sample.toppedUp.state info =
        .ok recorded ∧
      recorded.val = Sample.request.deposit.val +
        Stream.total Sample.request.token .deposit Sample.toppedUp.state.transfers ∧
      Stream.total Sample.request.token .deposit Sample.toppedUp.state.transfers = 500 := by
  obtain ⟨addr, d, haddr, hd, h⟩ := deposited_of_creates Sample.creates_created
  have hhere : Sample.created.2.factory.streamAddr Sample.created.1 = some Stream.Sample.address := by
    decide +kernel
  obtain rfl : Stream.Sample.address = addr := Option.some.inj (hhere.symm.trans haddr)
  obtain rfl : Sample.deployed = d := Option.some.inj (Sample.streams_created.symm.trans hd)
  obtain ⟨info, hi, h⟩ := h (by decide +kernel) _ _ Sample.run_toppedUp
  obtain ⟨recorded, hrec, hiff⟩ := h (Stream.Sample.envAt (.lit 300))
  exact ⟨info, recorded, hi, hrec, hiff.mpr (by decide), by decide +kernel⟩

/-- A deposit of ten thousand for an obligation of nine thousand: right after the creation the
recorded total is nine thousand. -/
theorem overfunded_recorded :
    ∃ id w' d info recorded,
      Creates Sample.host Sample.env Sample.overfunded none Sample.world id w' ∧
      w'.factory.streamAddr id = some Stream.Sample.address ∧
      w'.streams Stream.Sample.address = some d ∧
      (w'.tokens.balance Sample.overfunded.token Stream.Sample.address).val =
        Sample.overfunded.deposit.val ∧
      d.store.config = some info ∧
      Stream.cumulativeDeposited (Stream.Sample.envAt (.lit 100)) (w'.streamState d) info =
        .ok recorded ∧
      recorded.val = 9000 ∧
      Sample.overfunded.deposit.val + Stream.total Sample.overfunded.token .deposit d.transfers =
        10000 :=
  ⟨_, _, Sample.overfundedStream, Stream.Sample.infoOf
    (Sample.overfundedCreated.2.streamState Sample.overfundedStream), .lit 9000,
    Sample.creates_overfunded, by decide +kernel, Sample.streams_overfunded, by decide +kernel,
    by decide +kernel, by decide +kernel, rfl, by decide +kernel⟩

end Drip.Factory
