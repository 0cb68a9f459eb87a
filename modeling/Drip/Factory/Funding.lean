import Drip.Stream.Solvency
import Drip.Factory.Creation

/-!
# Factory — Funding

A bounded stream leaves the factory funded in full.  `Creates` is a creation as each of the three
public entry points makes it: the request is validated, then `create_stream_with_config` runs.  The
validation asks for a deposit that covers the whole schedule, and the creation checks that the
deposit arrived (`born_of_create`); what happens to the stream afterwards is
`Stream.solvent_of_run`.

* `solvent_of_creates`: the stream stays solvent, and withdrawals are paid in full.
-/

namespace Drip.Factory
open Chain

section

variable {host : Host} {env : Env} {config : GovernorConfig} {p : StreamInitParams} {now id : U64}
variable {description : Option Bytes} {w w' : World}

/-- A creation by one of the entry points. -/
def Creates (host : Host) (env : Env) (p : StreamInitParams) (description : Option Bytes)
    (w : World) (id : U64) (w' : World) : Prop :=
  ∃ config now, validateStreamRequest env p = .ok now ∧
    createStreamWithConfig host env config now p description w = .ok (id, w')

/-! ### The entry points -/

theorem creates_of_createStream (h : createStream host env p description w = .ok (id, w')) :
    ∃ w₁, Creates host env p description w₁ id w' := by
  simp only [createStream, bind_eq_ok] at h
  obtain ⟨-, -, w₁, -, now, hnow, -, -, config, -, h⟩ := h
  exact ⟨w₁, config, now, hnow, h⟩

theorem creates_of_batchCreateStreams {configs : List StreamInitParams} {deployed : List Address}
    (h : batchCreateStreams host env configs w = .ok (deployed, w')) (hp : p ∈ configs) :
    ∃ w₁ id w₂, Creates host env p none w₁ id w₂ := by
  simp only [batchCreateStreams, bind_eq_ok] at h
  obtain ⟨-, -, -, -, _, -, config, -, h⟩ := h
  obtain ⟨⟨ds, w₁⟩, _, hturn⟩ := turn_of_foldlM h hp
  simp only [createFromConfig, bind_eq_ok] at hturn
  obtain ⟨-, -, now, hnow, ⟨id, w₂⟩, hcreate, -⟩ := hturn
  exact ⟨w₁, id, w₂, config, now, hnow, hcreate⟩

theorem creates_of_createBatchStreams {sender : Address} {requests : List BatchStreamRequest}
    {clawback : Bool} {ids : List U64} {r : BatchStreamRequest}
    (h : createBatchStreams host env sender requests clawback w = .ok (ids, w')) (hr : r ∈ requests) :
    ∃ w₁ id w₂, Creates host env (r.params sender clawback) none w₁ id w₂ := by
  simp only [createBatchStreams, bind_eq_ok] at h
  obtain ⟨-, -, -, -, -, -, _, -, config, -, h⟩ := h
  obtain ⟨⟨is, w₁⟩, _, hturn⟩ := turn_of_foldlM h hr
  simp only [createFromRequest, bind_eq_ok] at hturn
  obtain ⟨now, hnow, ⟨id, w₂⟩, hcreate, -⟩ := hturn
  exact ⟨w₁, id, w₂, config, now, hnow, hcreate⟩

/-! ### The steps of a creation -/

/-- What the validation of a request has established. -/
structure Validated (env : Env) (p : StreamInitParams) : Prop where
  recipient : ¬ (isZeroAddress p.recipient = true ∨ p.recipient = p.sender)
  ends : ¬ (0 < p.endTime.val ∧ p.endTime ≤ p.startTime)
  minimum : ¬ (0 < p.endTime.val ∧ p.endTime.val - p.startTime.val < Stream.minStreamDuration)
  deposit : 0 < p.deposit.val
  rate : 0 < p.ratePerSec.val
  start : ¬ p.startTime < env.timestamp
  funded : 0 < p.endTime.val → ∃ duration required,
    p.endTime.checkedSub p.startTime = some duration ∧
    p.ratePerSec.checkedMul duration.widen = some required ∧ required.val ≤ p.deposit.val

theorem validated_of_validate (h : validateStreamRequest env p = .ok now) : Validated env p := by
  simp only [validateStreamRequest, bind_eq_ok, reject_eq_ok, not_le] at h
  obtain ⟨-, hrecipient, -, -, -, hends, -, hminimum, -, hdeposit, -, hrate, -, -, -, hstart, u, hfund,
    -⟩ := h
  refine ⟨hrecipient, hends, hminimum, hdeposit, hrate, hstart, fun he => ?_⟩
  unfold validateFunding at hfund
  rw [if_pos he] at hfund
  simp only [bind_eq_ok, okOr_eq_ok, reject_eq_ok, Ranged.lt_def, not_lt] at hfund
  obtain ⟨duration, hduration, required, hrequired, hle⟩ := hfund
  exact ⟨duration, required, hduration, hrequired, hle⟩

/-- A validated bounded request deposits the whole schedule. -/
theorem Validated.covers (h : Validated env p) (he : 0 < p.endTime.val) :
    p.ratePerSec.val * (p.endTime.val - p.startTime.val) ≤ p.deposit.val := by
  obtain ⟨duration, required, hduration, hrequired, hle⟩ := h.funded he
  rw [Ranged.checkedSub_eq_some] at hduration
  rw [Ranged.checkedMul_eq_some, Ranged.val_widen] at hrequired
  rw [← hduration, ← hrequired]
  exact hle

/-- A token call changes the balances only. -/
theorem transfer_frame {token src dst : Address} {amount : I128}
    (h : w.transfer token src dst amount = .ok w') : ∃ tokens, w' = { w with tokens := tokens } := by
  simp only [World.transfer, bind_eq_ok, pure_eq_ok] at h
  obtain ⟨tokens, -, rfl⟩ := h
  exact ⟨tokens, rfl⟩

theorem transferChecked_spec {token src dst : Address} {amount : I128} {e : Error}
    (h : w.transferChecked token src dst amount e = .ok w') :
    (∃ tokens, w' = { w with tokens := tokens }) ∧
      (w'.tokens.balance token dst).val = (w.tokens.balance token dst).val + amount.val := by
  simp only [World.transferChecked, bind_eq_ok, okOr_eq_ok, reject_eq_ok, pure_eq_ok,
    Ranged.checkedAdd_eq_some, not_not] at h
  obtain ⟨w₁, hw, expected, hsum, -, harrived, rfl⟩ := h
  have harrived : (w₁.tokens.balance token dst).val = expected.val := congrArg Ranged.val harrived
  exact ⟨transfer_frame hw, harrived.trans hsum⟩

theorem payFee_frame {token : Address} {fee : I128} (h : payFee env config token fee w = .ok w') :
    ∃ tokens, w' = { w with tokens := tokens } := by
  unfold payFee at h
  split at h
  · exact transfer_frame h
  · cases h
    exact ⟨w.tokens, rfl⟩

/-- The address was free; the new contract there has been initialized with the given arguments. -/
theorem deployStream_spec {wasmHash : Hash} {args : Stream.InitArgs} {addr : Address}
    (h : deployStream host env wasmHash id args w = .ok (addr, w')) :
    (w.streams addr).isSome = false ∧
      ∃ s, Stream.initializeStream (env.invoke addr) args (.fresh w.tokens) = .ok ((), s) ∧
        w' = { w with
          factory := { w.factory with
            saltUsed := Function.update w.factory.saltUsed (host.computeSalt id) (some true) }
          streams := Function.update w.streams addr (some ⟨s.store, s.events, s.transfers⟩) } := by
  simp only [deployStream, bind_eq_ok, reject_eq_ok, not_or, Bool.not_eq_true] at h
  obtain ⟨-, -, -, hfree, h⟩ := h
  split at h
  · cases h
  · rename_i u s hinit
    cases h
    exact ⟨hfree.2.1, s, hinit, rfl⟩

/-- A contract is not deployed over its deployer. -/
theorem deployStream_ne {wasmHash : Hash} {args : Stream.InitArgs} {addr : Address}
    (h : deployStream host env wasmHash id args w = .ok (addr, w')) : addr ≠ env.contract := by
  simp only [deployStream, bind_eq_ok, reject_eq_ok, not_or] at h
  obtain ⟨-, -, -, hfree, h⟩ := h
  split at h
  · cases h
  · cases h
    exact hfree.2.2

/-- The registry resolves the new id to the new address. -/
theorem register_streamAddr {addr : Address} {st st' : Storage}
    (h : register p id addr st = .ok st') : st'.streamAddr id = some addr := by
  simp only [register, appendSenderIndex, appendRecipientIndex, bind_eq_ok, pure_eq_ok] at h
  obtain ⟨-, -, -, -, -, -, st₁, ⟨ix, -, rfl⟩, ix', -, rfl⟩ := h
  exact Function.update_self ..

/-- The new stream is at the address the registry gives, as `initialize` left it, and the deposit has
been added to what that address held. -/
theorem initialized_of_create
    (h : createStreamWithConfig host env config now p description w = .ok (id, w')) :
    ∃ addr s tokens, w'.factory.streamAddr id = some addr ∧
      w'.streams addr = some ⟨s.store, s.events, s.transfers⟩ ∧
      Stream.initializeStream (env.invoke addr) (initArgs config p description) (.fresh tokens) =
        .ok ((), s) ∧
      (w'.tokens.balance p.token addr).val = (tokens.balance p.token addr).val + p.deposit.val := by
  simp only [createStreamWithConfig, bind_eq_ok, pure_eq_ok] at h
  obtain ⟨-, -, fee, -, total, -, -, -, w₁, -, w₂, -, hash, -, ⟨addr, w₃⟩, hdeploy, w₄, hfund, st,
    hreg, h⟩ := h
  cases h
  obtain ⟨-, s, hinit, rfl⟩ := deployStream_spec hdeploy
  obtain ⟨⟨tokens, rfl⟩, hbal⟩ := transferChecked_spec hfund
  have haddr := register_streamAddr hreg
  exact ⟨addr, s, w₂.tokens, haddr, Function.update_self .., hinit, hbal⟩

theorem born_of_create
    (h : createStreamWithConfig host env config now p description w = .ok (id, w')) :
    ∃ addr d, w'.factory.streamAddr id = some addr ∧ w'.streams addr = some d ∧
      Stream.Born addr (initArgs config p description) ⟨w'.streamState d, env.timestamp⟩ ∧
      p.deposit.val ≤ (w'.tokens.balance p.token addr).val := by
  obtain ⟨addr, s, tokens, haddr, hd, hinit, hbal⟩ := initialized_of_create h
  refine ⟨addr, _, haddr, hd, ⟨env.invoke addr, tokens, s, rfl, rfl, hinit, rfl⟩, ?_⟩
  have := (tokens.balance p.token addr).ge
  omega

/-! ### Solvency -/

/-- **A bounded stream of the factory stays solvent.**  In every run after its creation without rate
change, cliff, underpaid extension, clawback and cancellation, the balance and the withdrawn amount
cover the whole schedule; a withdrawal then never finds the stream underfunded, and pays the amount
asked for up to what is earned and not withdrawn. -/
theorem solvent_of_creates (hcreates : Creates host env p description w id w')
    (hbounded : 0 < p.endTime.val) :
    ∃ addr d, w'.factory.streamAddr id = some addr ∧ w'.streams addr = some d ∧
      ∀ as m, Run (Stream.Step addr) ⟨w'.streamState d, env.timestamp⟩ as m →
        (∀ env c, .call env c ∈ as → c.PaysItsWay = true) →
        ∃ info, m.state.store.config = some info ∧
          info.ratePerSecond.val * (info.endTime.val - info.startTime.val) ≤
            (m.state.tokens.balance info.token addr).val + info.withdrawn.val ∧
          ∀ env amount, env.contract = addr → m.clock.val ≤ env.timestamp.val →
            Stream.withdraw env amount m.state ≠ .error (Stream.err .streamUnderfunded) ∧
            ∀ x s', Stream.withdraw env amount m.state = .ok (x, s') →
              ∃ v ts, Stream.streamedAmount env m.state info = .ok v ∧
                s'.transfers = m.state.transfers ++ ts ∧ Stream.sent ts = x.val ∧
                min amount.val (v.val - info.withdrawn.val) ≤ x.val := by
  obtain ⟨config, now, hvalid, hcreate⟩ := hcreates
  obtain ⟨addr, d, haddr, hd, hborn, hfunded⟩ := born_of_create hcreate
  refine ⟨addr, d, haddr, hd, fun as m hrun hcalls => ?_⟩
  have hsol₀ := Stream.solvent_of_born hborn hbounded
    (((validated_of_validate hvalid).covers hbounded).trans hfunded)
  obtain ⟨info, hs, hsol⟩ := Stream.solvent_of_run (Stream.sound_of_born hborn) hsol₀ hrun hcalls
  refine ⟨info, hs.config, ?_, ?_⟩
  · exact Stream.obligation_le hsol
  · rintro env' amount rfl hclock
    have hs := hs.wait hclock
    refine ⟨Stream.avoids_withdraw hs hsol, fun x s' h => ?_⟩
    obtain ⟨v, ts, hv, hts, hpo, hx⟩ := Stream.withdraw_pays hs hsol h
    exact ⟨v, ts, hv, hts, hpo.sent, by omega⟩

end

/-! ### A sample creation

The sample stream, created by the factory for a fee of a hundredth. -/

namespace Sample

def config : GovernorConfig where
  feeBps := .lit 100
  feeRecipient := .account 3
  minDurationSeconds := .lit 60
  maxDurationSeconds := .lit 100000
  maxRatePerSecond := .lit 1000
  forceCancelPauseSecs := .lit 1000

/-- A host that deploys every salt to the address of the sample stream. -/
def host : Host where
  computeSalt := fun id => BitVec.ofInt 256 id.val
  deployedAddress := fun _ _ => Stream.Sample.address
  isStreamWasm := fun _ => true
  governorConfig := fun _ => some config

def env : Env := ⟨.contract 5, .lit 100, .lit 1, fun a => a == Stream.Sample.sender, by decide⟩

def request : StreamInitParams where
  sender := Stream.Sample.sender
  recipient := Stream.Sample.recipient
  token := Stream.Sample.token
  deposit := .lit 10000
  ratePerSec := .lit 10
  startTime := .lit 100
  endTime := .lit 1100
  clawback := false

/-- The sender holds the deposit and the fee. -/
def world : World where
  factory := { streamWasmHash := some 1, governorAddress := some (.account 4) }
  tokens := ⟨fun t a => if t = request.token ∧ a = request.sender then .lit 10100 else .lit 0⟩
  streams := fun _ => none

/-- The id of the new stream, and the world after its creation. -/
def created : U64 × World :=
  match createStreamWithConfig host env config (.lit 100) request none world with
  | .ok r => r
  | .error _ => (.lit 0, world)

theorem creates_created : Creates host env request none world created.1 created.2 := by
  refine ⟨config, .lit 100, by decide +kernel, ?_⟩
  have hok : (createStreamWithConfig host env config (.lit 100) request none world).isOk = true := by
    decide +kernel
  obtain ⟨r, hr⟩ := exists_of_isOk hok
  unfold created
  rw [hr]

/-- The new stream. -/
def deployed : Deployed := (created.2.streams Stream.Sample.address).getD ⟨{}, [], []⟩

theorem streams_created : created.2.streams Stream.Sample.address = some deployed := by
  have hsome : (created.2.streams Stream.Sample.address).isSome = true := by decide +kernel
  obtain ⟨d, hd⟩ := Option.isSome_iff_exists.mp hsome
  rw [deployed, hd]
  rfl

def born : Stream.Moment := ⟨created.2.streamState deployed, env.timestamp⟩

/-- The stream after a withdrawal of five hundred tokens. -/
def drawn : Stream.Moment := Stream.Sample.next born (.lit 300) (.withdraw (.lit 500))

theorem run_drawn : Run (Stream.Step Stream.Sample.address) born
    [.call (Stream.Sample.envAt (.lit 300)) (.withdraw (.lit 500))] drawn :=
  Run.snoc (.nil _) (Stream.Sample.step_next (by decide +kernel) (by decide +kernel))

end Sample

theorem solvent_of_creates_sample :
    ∃ info, Sample.drawn.state.store.config = some info ∧
      info.ratePerSecond.val * (info.endTime.val - info.startTime.val) ≤
        (Sample.drawn.state.tokens.balance info.token Stream.Sample.address).val +
          info.withdrawn.val ∧
      ∀ env amount, env.contract = Stream.Sample.address →
        Sample.drawn.clock.val ≤ env.timestamp.val →
        Stream.withdraw env amount Sample.drawn.state ≠ .error (Stream.err .streamUnderfunded) ∧
        ∀ x s', Stream.withdraw env amount Sample.drawn.state = .ok (x, s') →
          ∃ v ts, Stream.streamedAmount env Sample.drawn.state info = .ok v ∧
            s'.transfers = Sample.drawn.state.transfers ++ ts ∧ Stream.sent ts = x.val ∧
            min amount.val (v.val - info.withdrawn.val) ≤ x.val := by
  obtain ⟨addr, d, haddr, hd, h⟩ := solvent_of_creates Sample.creates_created (by decide)
  have hhere : Sample.created.2.factory.streamAddr Sample.created.1 = some Stream.Sample.address := by
    decide +kernel
  obtain rfl : Stream.Sample.address = addr := Option.some.inj (hhere.symm.trans haddr)
  obtain rfl : Sample.deployed = d := Option.some.inj (Sample.streams_created.symm.trans hd)
  refine h _ _ Sample.run_drawn fun env c hc => ?_
  cases List.mem_singleton.mp hc
  rfl

end Drip.Factory
