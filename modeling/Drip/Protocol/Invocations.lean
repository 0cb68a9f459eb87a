import Drip.Batch.Payments
import Drip.Factory.Flows
import Drip.Governor.Effects
import Drip.Protocol.Interior
import Drip.Vault.Custody
import Drip.Vault.Tracking

/-!
# Protocol — Invocations

Every entry point of the factory, the vault, the governor and the batch processor, as what happens
within it (`Network.Acts`): who may lose tokens by it, which streams it calls, and which it deploys.

A contract of somebody else that is called acts for the signers and for itself, as far as the protocol
is concerned: it moves what is theirs, and calls streams (`Confined`).
-/

namespace Drip
open Chain Network

/-- The signers of the invocation, and the contract that runs. -/
def Env.Acting (env : Env) (a : Address) : Prop := env.authorized a = true ∨ a = env.contract

/-- They, and the contracts of others among `visits`. -/
def Env.Joined (env : Env) (outsider : Address → Prop) (visits : List Address) (a : Address) : Prop :=
  env.Acting a ∨ outsider a ∧ a ∈ visits

/-- A contract that is called has its invoker's signature and those the invoker has. -/
theorem Env.acting_of_invoke {env : Env} {callee a : Address}
    (h : (env.invoke callee).authorized a = true) : env.Acting a := by
  simp only [Env.invoke, Bool.and_eq_true, Bool.or_eq_true, beq_iff_eq] at h
  exact h.2.symm

/-- No stream is deployed. -/
def Network.Terms.nothing : Terms := fun _ _ => False

/-! ### The factory -/

namespace Factory

variable {host : Host} {env : Env} {config : GovernorConfig} {w w' : World} {c : Call}
variable {outsider : Address → Prop} {p : Address → Prop} {T : Terms} {now : U64}

/-- What the factory shares with the other contracts. -/
def World.shared (w : World) : Shared := ⟨w.tokens, w.streams⟩

/-- A contract of somebody else whose `cancel` is called. -/
def Host.Confined (host : Host) (env : Env) (outsider : Address → Prop) : Prop :=
  ∀ stream sender l f l' become, host.cancelForeign env stream sender l f = some (l', become) →
    outsider stream ∧ Acts env.timestamp (fun a => env.authorized a = true ∨ a = stream) .nothing
      ⟨l, f⟩ ⟨l', fun a => (f a).map (become a)⟩

/-- A stream for a request that has passed the checks and the bounds of the configuration. -/
def Grants (host : Host) (env : Env) (config : GovernorConfig) : Terms := fun a args =>
  ∃ p now description id, env.authorized p.sender = true ∧ validateStreamRequest env p = .ok now ∧
    enforceBounds config p.ratePerSec p.startTime p.endTime now = .ok () ∧
    a = host.deployedAddress env.contract (host.computeSalt id) ∧ args = initArgs config p description

theorem acts_of_transfer {token src dst : Address} {amount : I128} (hp : p src)
    (h : w.transfer token src dst amount = .ok w') : Acts now p T w.shared w'.shared := by
  simp only [World.transfer, bind_eq_ok, okOr_eq_ok, pure_eq_ok] at h
  obtain ⟨tokens, htransfer, rfl⟩ := h
  exact .single (.moves (Ledger.moves_transfer hp htransfer))

theorem acts_of_transferChecked {token src dst : Address} {amount : I128} {e : Error} (hp : p src)
    (h : w.transferChecked token src dst amount e = .ok w') : Acts now p T w.shared w'.shared := by
  simp only [World.transferChecked, bind_eq_ok, pure_eq_ok] at h
  obtain ⟨w₁, hw, -, -, -, -, rfl⟩ := h
  exact acts_of_transfer hp hw

theorem acts_of_payFee {token : Address} {fee : I128} (hp : p env.contract)
    (h : payFee env config token fee w = .ok w') : Acts now p T w.shared w'.shared := by
  unfold payFee at h
  split at h
  · exact acts_of_transfer hp h
  · cases h
    exact .refl

/-- A stream is deployed at the address of its salt. -/
theorem deployStream_addr {wasmHash : Hash} {id : U64} {args : Stream.InitArgs} {addr : Address}
    (h : deployStream host env wasmHash id args w = .ok (addr, w')) :
    addr = host.deployedAddress env.contract (host.computeSalt id) := by
  simp only [deployStream, bind_eq_ok] at h
  obtain ⟨-, -, -, -, h⟩ := h
  split at h
  · cases h
  · cases h
    rfl

theorem acts_of_deployStream {wasmHash : Hash} {id : U64} {args : Stream.InitArgs} {addr : Address}
    (hT : T (host.deployedAddress env.contract (host.computeSalt id)) args)
    (h : deployStream host env wasmHash id args w = .ok (addr, w')) :
    Acts env.timestamp p T w.shared w'.shared := by
  have haddr := deployStream_addr h
  obtain ⟨hfree, s, hinit, rfl⟩ := deployStream_spec h
  have hfree : w.shared.streams (env.invoke addr).contract = none := Option.not_isSome_iff_eq_none.mp
    (Bool.eq_false_iff.mp hfree)
  have hact : Act env.timestamp p T w.shared (w.shared.withStream addr s) :=
    .deploys hfree rfl (haddr ▸ hT) hinit
  have htokens := Stream.tokens_of_initialize hinit
  unfold Shared.withStream at hact
  rw [htokens] at hact
  exact .single hact

/-- One creation: the sender pays the factory, and the factory the fee and the deposit. -/
theorem acts_of_makes {m : StreamInitParams × Address} (h : Makes host env config w m w') :
    Acts env.timestamp env.Acting (Grants host env config) w.shared w'.shared := by
  obtain ⟨hsigned, now, description, id, hvalid, hcreate, -⟩ := h
  simp only [createStreamWithConfig, bind_eq_ok, okOr_eq_ok, pure_eq_ok] at hcreate
  obtain ⟨u, hbounds, fee, -, total, -, -, -, w₁, hpull, w₂, hpay, hash, -, ⟨stream, w₃⟩, hdeploy, w₄,
    hfund, st, -, hcreate⟩ := hcreate
  cases hcreate
  have h₁ : Acts env.timestamp env.Acting (Grants host env config) _ w₁.shared :=
    acts_of_transferChecked (.inl hsigned) hpull
  have h₂ : Acts env.timestamp env.Acting (Grants host env config) w₁.shared w₂.shared :=
    acts_of_payFee (.inr rfl) hpay
  have h₃ : Acts env.timestamp env.Acting (Grants host env config) _ w₃.shared :=
    acts_of_deployStream ⟨m.1, now, description, _, hsigned, hvalid, hbounds, rfl, rfl⟩ hdeploy
  have h₄ : Acts env.timestamp env.Acting (Grants host env config) w₃.shared w₄.shared :=
    acts_of_transferChecked (.inr rfl) hfund
  exact ((h₁.trans h₂).trans h₃).trans h₄

/-- The addresses that a call makes calls to, which need not be streams. -/
def Call.visits : Call → List Address
  | .cancelBatchStreams _ streamAddresses => streamAddresses
  | _ => []

theorem acts_of_callCancel {sender stream : Address} {visits : List Address}
    (hhost : host.Confined env outsider) (hin : stream ∈ visits)
    (h : callCancel host env sender stream w = .ok w') :
    Acts env.timestamp (env.Joined outsider visits) .nothing w.shared w'.shared := by
  unfold callCancel at h
  split at h
  · cases h
  · split at h
    · rename_i d hd
      split at h
      · cases h
      · rename_i u s hcancel
        cases h
        have hexec : Stream.exec (env.invoke stream) (d.state w.tokens) (.cancel sender) = .ok s :=
          Stream.after_eq_ok.mpr ⟨u, hcancel⟩
        have hd : w.shared.streams (env.invoke stream).contract = some d := hd
        exact .single (.call hd rfl (fun a ha => .inl (Env.acting_of_invoke ha)) hexec)
    · simp only [bind_eq_ok, okOr_eq_ok, pure_eq_ok] at h
      obtain ⟨⟨l', become⟩, hforeign, rfl⟩ := h
      obtain ⟨hout, hacts⟩ := hhost _ _ _ _ _ _ hforeign
      refine hacts.mono (fun a ha => ?_) fun _ _ hT => hT
      rcases ha with ha | rfl
      · exact .inl (.inl ha)
      · exact .inr ⟨hout, hin⟩

theorem acts_of_cancelBatchStreams {sender : Address} {streamAddresses : List Address}
    (hhost : host.Confined env outsider)
    (h : cancelBatchStreams host env sender streamAddresses w = .ok w') :
    Acts env.timestamp (env.Joined outsider streamAddresses) .nothing w.shared w'.shared := by
  simp only [cancelBatchStreams, bind_eq_ok] at h
  obtain ⟨-, -, -, -, -, -, -, -, h⟩ := h
  refine foldlM_invariant (P := fun w₁ =>
    Acts env.timestamp (env.Joined outsider streamAddresses) .nothing w.shared w₁.shared) ?_ h .refl
  intro stream hin w₁ w₂ hturn hacts
  simp only [cancelTurn, bind_eq_ok] at hturn
  obtain ⟨w₃, hcall, hturn⟩ := hturn
  have hcalled := hacts.trans (acts_of_callCancel hhost hin hcall)
  split at hturn
  · cases hturn
    exact hcalled
  · cases hturn
    exact hcalled

theorem acts_of_run {made : List (StreamInitParams × Address)}
    (h : Run (Makes host env config) w made w') :
    Acts env.timestamp env.Acting (Grants host env config) w.shared w'.shared := by
  induction h with
  | nil => exact .refl
  | snoc _ hmakes ih => exact ih.trans (acts_of_makes hmakes)

theorem shared_of_pause (h : pause env w = .ok w') : w'.shared = w.shared := by
  simp only [pause, bind_eq_ok, pure_eq_ok] at h
  obtain ⟨governor, -, -, -, w₁, hset, rfl⟩ := h
  obtain ⟨stored, rfl⟩ := setPaused_frame hset
  rfl

theorem shared_of_unpause (h : unpause env w = .ok w') : w'.shared = w.shared := by
  simp only [unpause, bind_eq_ok, pure_eq_ok] at h
  obtain ⟨governor, -, -, -, w₁, hset, rfl⟩ := h
  obtain ⟨stored, rfl⟩ := setPaused_frame hset
  rfl

/-- The calls that neither create nor cancel leave the tokens and the streams alone. -/
theorem shared_of_exec (hcreates : c.isCreation = false) (hvisits : c.visits = [])
    (h : exec host env w c = .ok w') : w'.shared = w.shared := by
  cases c with
  | createStream | batchCreateStreams | createBatchStreams => cases hcreates
  | initializeFactory hash governor =>
      simp only [exec, initializeFactory, bind_eq_ok, pure_eq_ok] at h
      obtain ⟨-, -, -, -, -, -, rfl⟩ := h
      rfl
  | cancelBatchStreams sender streamAddresses =>
      obtain rfl : streamAddresses = [] := hvisits
      simp only [exec, cancelBatchStreams, bind_eq_ok, reject_eq_ok] at h
      obtain ⟨-, -, -, hne, -⟩ := h
      exact absurd trivial hne
  | recordCancel stream =>
      simp only [exec, recordCancel] at h
      split at h
      · cases h
        rfl
      · split at h
        · cases h
          rfl
        · simp only [bind_eq_ok] at h
          obtain ⟨info, -, h⟩ := h
          split at h
          · cases h
            rfl
          · cases h
            rfl
  | pause => exact shared_of_pause h
  | unpause => exact shared_of_unpause h
  | isPaused =>
      cases h
      rfl
  | upgradeStreamWasm hash =>
      simp only [exec, upgradeStreamWasm, requireNotPaused, bind_eq_ok, pure_eq_ok] at h
      obtain ⟨governor, -, -, -, w₁, ⟨-, -, rfl⟩, old, -, h⟩ := h
      split at h
      · cases h
        rfl
      · cases h
        rfl
  | migrateSenderIndex sender maxPages =>
      simp only [exec, onStorage, bind_eq_ok, pure_eq_ok] at h
      obtain ⟨r, -, rfl⟩ := h
      rfl
  | migrateRecipientIndex recipient maxPages =>
      simp only [exec, onStorage, bind_eq_ok, pure_eq_ok] at h
      obtain ⟨r, -, rfl⟩ := h
      rfl

theorem acts_of_exec (hhost : host.Confined env outsider) (h : exec host env w c = .ok w') :
    Acts env.timestamp (env.Joined outsider c.visits)
      (fun a args => ∃ config, readConfig host w = .ok config ∧ Grants host env config a args)
      w.shared w'.shared := by
  by_cases hcreates : c.isCreation = true
  · obtain ⟨w₁, config, made, hpause, hconfig, -, hrun⟩ := makes_of_exec h hcreates
    simp only [requireNotPaused, bind_eq_ok, pure_eq_ok] at hpause
    obtain ⟨-, -, rfl⟩ := hpause
    exact (acts_of_run hrun).mono (fun a ha => .inl ha) fun a args hT => ⟨config, hconfig, hT⟩
  · by_cases hvisits : c.visits = []
    · rw [shared_of_exec (Bool.eq_false_iff.mpr hcreates) hvisits h]
    · cases c with
      | cancelBatchStreams sender streamAddresses =>
          exact (acts_of_cancelBatchStreams hhost h).mono (fun _ ha => ha) fun _ _ hT => hT.elim
      | _ => exact absurd rfl hvisits

end Factory

/-! ### The vault -/

namespace Vault

variable {streams : Streams Fleet} {env : Env} {s s' : State Fleet} {c : Call} {reply : Reply}
variable {outsider : Address → Prop} {visits : List Address}

/-- What a vault shares with the streams it calls. -/
def State.shared (s : State Fleet) : Shared := ⟨s.tokens, s.world.streams⟩

/-- A call of the contract at an address, as what happens within it. -/
def Serves {α : Type} (env : Env) (outsider : Address → Prop) (stream : Address) (f : Visit Fleet α) :
    Prop :=
  ∀ x a y, f x = some (a, y) → Acts env.timestamp (env.Joined outsider [stream]) .nothing
    ⟨x.2, x.1.streams⟩ ⟨y.2, y.1.streams⟩

/-- Every call that the vault may make. -/
structure Streams.Serve (streams : Streams Fleet) (env : Env) (outsider : Address → Prop) : Prop where
  recipient : ∀ stream, Serves env outsider stream (streams.recipient env stream)
  withdrawable : ∀ stream, Serves env outsider stream (streams.withdrawable env stream)
  withdraw : ∀ stream amount, Serves env outsider stream (streams.withdraw env stream amount)

/-- The deployed streams answer with what they hold, and pay out by their own entry point. -/
theorem dripStreams_serve (env : Env) (outsider : Address → Prop) : dripStreams.Serve env outsider := by
  refine ⟨fun stream x a y h => ?_, fun stream x a y h => ?_, fun stream amount x a y h => ?_⟩
  · obtain rfl := recipient_eq_some h
    exact .refl
  · obtain ⟨-, rfl⟩ := withdrawable_eq_some h
    exact .refl
  · simp only [dripStreams, Option.bind_eq_bind, Option.bind_eq_some_iff, Option.pure_def,
      Option.some.injEq, toOption_eq_some] at h
    obtain ⟨d, hd, w, hw, h⟩ := h
    obtain ⟨rfl, rfl⟩ := Prod.mk.inj h
    have hexec : Stream.exec (env.invoke stream) (d.state x.2) (.withdraw amount) = .ok w.2 :=
      Stream.after_eq_ok.mpr ⟨w.1, hw⟩
    have hsigned : ∀ a, (env.invoke stream).authorized a = true → env.Joined outsider [stream] a :=
      fun a ha => .inl (Env.acting_of_invoke ha)
    exact .single (.call hd rfl hsigned hexec)

theorem acts_of_callStream {α : Type} {stream : Address} {f : Visit Fleet α} {a : α}
    (hf : Serves env outsider stream f) (hin : stream ∈ visits)
    (h : callStream env stream f s = .ok (a, s')) :
    Acts env.timestamp (env.Joined outsider visits) .nothing s.shared s'.shared := by
  simp only [callStream, bind_eq_ok, okOr_eq_ok, pure_eq_ok, Prod.mk.injEq] at h
  obtain ⟨-, -, ⟨a', world, tokens⟩, hcall, rfl, rfl⟩ := h
  refine (hf _ _ _ hcall).mono (fun b hb => ?_) fun _ _ hT => hT
  rcases hb with hb | ⟨hout, hb⟩
  · exact .inl hb
  · exact .inr ⟨hout, List.mem_singleton.mp hb ▸ hin⟩

/-- What is known after one of the turns that look for the amounts. -/
structure Looked (env : Env) (outsider : Address → Prop) (visits : List Address) (x : Shared)
    (y : Collected Fleet) : Prop where
  acts : Acts env.timestamp (env.Joined outsider visits) .nothing x y.state.shared
  payouts : ∀ p ∈ y.payouts, p.1 ∈ visits

theorem looked_of_collect {recipient stream : Address} {x : Shared} {y z : Collected Fleet}
    (hstreams : streams.Serve env outsider) (hin : stream ∈ visits) (hy : Looked env outsider visits x y)
    (h : collect streams env recipient y stream = .ok z) : Looked env outsider visits x z := by
  simp only [collect, bind_eq_ok] at h
  obtain ⟨-, -, ⟨a, s₁⟩, hrecipient, -, -, ⟨amount, s₂⟩, hwithdrawable, -, -, h⟩ := h
  have hacts := (hy.acts.trans (acts_of_callStream (hstreams.recipient stream) hin hrecipient)).trans
    (acts_of_callStream (hstreams.withdrawable stream) hin hwithdrawable)
  dsimp only at h
  split at h
  · cases h
    exact ⟨hacts, hy.payouts⟩
  · simp only [bind_eq_ok, pure_eq_ok] at h
    obtain ⟨total, -, rfl⟩ := h
    refine ⟨hacts, fun p hp => ?_⟩
    rcases List.mem_append.mp hp with hp | hp
    · exact hy.payouts p hp
    · rw [List.mem_singleton.mp hp]
      exact hin

theorem acts_of_vaultBatchWithdraw {streamIds : List Address} {recipient : Address}
    (hstreams : streams.Serve env outsider)
    (h : vaultBatchWithdraw streams env streamIds recipient s = .ok (reply, s')) :
    Acts env.timestamp (env.Joined outsider streamIds) .nothing s.shared s'.shared := by
  simp only [vaultBatchWithdraw, assertNotPaused, nonReentrant, bind_eq_ok, pure_eq_ok] at h
  obtain ⟨-, -, s₀, ⟨-, -, rfl⟩, -, -, r, ⟨x, hcollect, s₁, hwithdraw, rfl⟩, h⟩ := h
  obtain ⟨rfl, rfl⟩ := Prod.mk.inj h
  have hx : Looked env outsider streamIds s.shared x :=
    foldlM_invariant (P := Looked env outsider streamIds s.shared)
      (fun stream hin y z hz hy => looked_of_collect hstreams hin hy hz) hcollect
      ⟨.refl, fun p hp => absurd hp List.not_mem_nil⟩
  have hacts : Acts env.timestamp (env.Joined outsider streamIds) .nothing s.shared s₁.shared := by
    refine foldlM_invariant (P := fun s₂ : State Fleet =>
      Acts env.timestamp (env.Joined outsider streamIds) .nothing s.shared s₂.shared) ?_ hwithdraw hx.acts
    intro p hp y z hturn hy
    simp only [withdrawStream, bind_eq_ok, pure_eq_ok] at hturn
    obtain ⟨⟨u, s₂⟩, hcall, rfl⟩ := hturn
    exact hy.trans (acts_of_callStream (hstreams.withdraw p.1 p.2) (hx.payouts p hp) hcall)
  exact hacts

theorem acts_of_exec (hserve : streams.Serve env outsider) (hspares : streams.Spares env.contract)
    (h : exec streams env s c = .ok (reply, s')) :
    Acts env.timestamp (env.Joined outsider c.visits) .nothing s.shared s'.shared := by
  by_cases hbatch : ∃ streamIds recipient, c = .vaultBatchWithdraw streamIds recipient
  · obtain ⟨streamIds, recipient, rfl⟩ := hbatch
    exact acts_of_vaultBatchWithdraw hserve h
  · have hc : ∀ streamIds recipient, c ≠ .vaultBatchWithdraw streamIds recipient :=
      fun streamIds recipient heq => hbatch ⟨streamIds, recipient, heq⟩
    have hmoves : Ledger.Moves env.Acting s.tokens s'.tokens :=
      moves_of_flow hc (effect_of_exec hspares h).flow
    have hstreams : s'.world.streams = s.world.streams := by rw [world_of_exec hc h]
    have hact : Act env.timestamp (env.Joined outsider c.visits) .nothing s.shared
        { s.shared with tokens := s'.tokens } := .moves (hmoves.mono fun a ha => .inl ha)
    unfold State.shared at hact ⊢
    rw [hstreams]
    exact .single hact

end Vault

/-! ### The governor -/

namespace Governor

variable {host : Host} {env : Env} {s s' : State} {c : Call}

/-- A stake comes from a proposer who has signed, and goes back from the governor. -/
theorem moves_of_exec (h : exec host env s c = .ok s') : Ledger.Moves env.Acting s.tokens s'.tokens := by
  cases effect_of_exec h with
  | administers _ h =>
      rw [h.tokens]
      exact .refl _ _
  | initializes _ hset _ hfirst _ hrest =>
      rw [hrest.tokens, hfirst.tokens, hset.tokens]
      exact .refl _ _
  | sets _ h _ =>
      rw [h.tokens]
      exact .refl _ _
  | checkpoints => exact .refl _ _
  | proposes hauth _ _ hstake =>
      obtain ⟨tokens, htransfer, rfl⟩ := transfer_eq_ok hstake
      exact Ledger.moves_transfer (.inl hauth) htransfer
  | executes _ hrefund =>
      obtain ⟨-, rfl⟩ | ⟨amount, token, tokens, -, -, htransfer, rfl⟩ := refund_eq_ok hrefund
      · exact .refl _ _
      · exact Ledger.moves_transfer (.inr rfl) htransfer
  | cancels _ _ _ => exact .refl _ _

/-- `initialize` leaves the balances alone. -/
theorem tokens_of_initialize {authority feeRecipient factoryAddress : Address}
    (h : initializeGovernor env authority feeRecipient factoryAddress s = .ok s') :
    s'.tokens = s.tokens := by
  cases effect_initialize h with
  | administers _ h => exact h.tokens
  | initializes _ hset _ hfirst _ hrest => rw [hrest.tokens, hfirst.tokens, hset.tokens]
  | sets _ h _ => exact h.tokens
  | cancels hc _ _ => cases hc

end Governor

/-! ### The batch processor -/

namespace Batch

variable {host : Host} {env : Env} {s s' : State} {funder token : Address} {n : I128}
variable {items : List (Address × I128)} {count : Nat} {l l' : Ledger}

theorem moves_of_fanOut {src : Address} {p : Address → Prop} (hp : p src)
    (h : fanOut token src items l = some l') : Ledger.Moves p l l' := by
  induction items generalizing l with
  | nil =>
      cases h
      exact .refl _ _
  | cons x rest ih =>
      rw [fanOut_cons, Option.bind_eq_some_iff] at h
      obtain ⟨l₁, hx, h⟩ := h
      exact (Ledger.moves_transfer hp hx).trans (ih h)

theorem Moves.moves (h : Moves env funder token items n count s s') :
    Ledger.Moves env.Acting s.tokens s'.tokens := by
  obtain ⟨l₁, l₂, hpull, hpay, rfl⟩ := h.moved
  have hfirst : Ledger.Moves env.Acting s.tokens l₁ := Ledger.moves_transfer (.inl h.authorized) hpull
  exact hfirst.trans (moves_of_fanOut (.inr rfl) hpay)

/-- The entry points that pay a batch. -/
inductive Call where
  | processBatch (funder token : Address) (recipients : List Address) (amounts : List I128)
  | processBatchDetailed (funder token : Address) (recipients : List Address) (amounts : List I128)
  | processBatchWithLimit (funder token : Address) (recipients : List Address) (amounts : List I128)
      (maxItems : Nat)

/-- The state after a result whose value is not looked at. -/
def after {α : Type} (r : Result (α × State)) : Result State := do
  let (_, s) ← r
  return s

/-- The state a call leaves. -/
def exec (host : Host) (env : Env) (s : State) : Call → Result State
  | .processBatch funder token recipients amounts =>
      after (processBatch host env funder token recipients amounts s)
  | .processBatchDetailed funder token recipients amounts =>
      after (processBatchDetailed host env funder token recipients amounts s)
  | .processBatchWithLimit funder token recipients amounts maxItems =>
      after (processBatchWithLimit host env funder token recipients amounts maxItems s)

theorem after_eq_ok {α : Type} {r : Result (α × State)} :
    after r = .ok s' ↔ ∃ x, r = .ok (x, s') := by
  simp only [after, bind_eq_ok, pure_eq_ok, Prod.exists]
  constructor
  · rintro ⟨x, s₁, h, rfl⟩
    exact ⟨x, h⟩
  · rintro ⟨x, h⟩
    exact ⟨x, s', h, rfl⟩

theorem moves_of_processBatch {recipients : List Address} {amounts : List I128}
    (h : processBatch host env funder token recipients amounts s = .ok (n, s')) :
    Ledger.Moves env.Acting s.tokens s'.tokens := by
  obtain ⟨-, -, ⟨-, rfl⟩ | ⟨-, hmoves⟩⟩ := processBatch_eq_ok.mp h
  · exact .refl _ _
  · exact hmoves.moves

theorem moves_of_processBatchDetailed {recipients : List Address} {amounts : List I128}
    {results : List BatchResult}
    (h : processBatchDetailed host env funder token recipients amounts s = .ok (results, s')) :
    Ledger.Moves env.Acting s.tokens s'.tokens := by
  have halike : Alike (fun x y => x.2 = y.2) (processBatch host env funder token recipients amounts s)
      (processBatchDetailed host env funder token recipients amounts s) := detailed_alike
  rw [h] at halike
  generalize hplain : processBatch host env funder token recipients amounts s = r at halike
  cases halike with
  | @ok x _ hsame =>
      obtain ⟨n, s₂⟩ := x
      obtain rfl : s₂ = s' := hsame
      exact moves_of_processBatch hplain

/-- The funder, who has signed, pays for a batch. -/
theorem moves_of_exec {c : Call} (h : exec host env s c = .ok s') :
    Ledger.Moves env.Acting s.tokens s'.tokens := by
  cases c with
  | processBatch funder token recipients amounts =>
      obtain ⟨n, hbatch⟩ := after_eq_ok.mp h
      exact moves_of_processBatch hbatch
  | processBatchDetailed funder token recipients amounts =>
      obtain ⟨results, hbatch⟩ := after_eq_ok.mp h
      exact moves_of_processBatchDetailed hbatch
  | processBatchWithLimit funder token recipients amounts maxItems =>
      obtain ⟨r, hbatch⟩ := after_eq_ok.mp h
      obtain ⟨-, -, -, total, -, -, -, ⟨-, rfl⟩ | ⟨-, hmoves⟩⟩ := processBatchWithLimit_eq_ok.mp hbatch
      · exact .refl _ _
      · exact hmoves.moves

end Batch

end Drip
