import Drip.Protocol.Invocations
import Drip.Protocol.Validation

/-!
# Protocol — Network

The contracts of the protocol together: one factory with the streams it deploys, one governor, the batch
processor and any number of vaults, over one ledger of token balances.

* `Deployment`: what is at which address; at an address without `Role` there is a wallet, a token or a
  contract of somebody else.
* `Step`: somebody from outside calls a contract, or moves tokens of its own.  The factory reads the
  configuration of this governor, the governor's `pause_factory` runs the `pause` of this factory, and the
  vaults withdraw from these streams.
* `Others`: what the contracts of others do when they are called.
* `acts_of_step`: a step as what happens within it.

A contract of the protocol signs nothing but the calls it makes.  Calls that fail are rolled back, and are
no steps.
-/

namespace Drip.Network
open Chain

/-! ### The deployment -/

inductive Role where
  | factory | governor | processor | vault | stream
deriving DecidableEq

structure Deployment where
  role : Address → Option Role
  factory : Address
  governor : Address
  processor : Address
  computeSalt : U64 → Factory.Hash
  /-- where the factory deploys a salt to -/
  streamAddress : Factory.Hash → Address
  isStreamWasm : Factory.Hash → Bool
  role_factory : role factory = some .factory
  role_governor : role governor = some .governor
  role_processor : role processor = some .processor
  role_streamAddress : ∀ salt, role (streamAddress salt) = some .stream

/-- What the contracts of others answer and do, when a contract of the protocol calls them. -/
structure Others where
  governorConfig : Address → Option GovernorConfig
  cancel : Env → Address → Address → Ledger → (Address → Option Factory.Deployed) →
    Option (Ledger × (Address → Factory.Deployed → Factory.Deployed))
  streams : Vault.Streams Vault.Fleet
  callFactory : Address → Bool → Bool
  answersBalance : Address → Bool

/-- The contract at `stream` does what its signers and itself may do. -/
def Bounded {α : Type} (env : Env) (stream : Address) (f : Vault.Visit Vault.Fleet α) : Prop :=
  ∀ x a y, f x = some (a, y) → Acts env.timestamp (fun b => env.authorized b = true ∨ b = stream)
    .nothing ⟨x.2, x.1.streams⟩ ⟨y.2, y.1.streams⟩

structure Others.Confined (o : Others) (env : Env) : Prop where
  cancel : ∀ stream sender l f l' become, o.cancel env stream sender l f = some (l', become) →
    Acts env.timestamp (fun a => env.authorized a = true ∨ a = stream) .nothing
      ⟨l, f⟩ ⟨l', fun a => (f a).map (become a)⟩
  recipient : ∀ stream, Bounded env stream (o.streams.recipient env stream)
  withdrawable : ∀ stream, Bounded env stream (o.streams.withdrawable env stream)
  withdraw : ∀ stream amount, Bounded env stream (o.streams.withdraw env stream amount)

/-! ### The state -/

/-- The ledger is the factory's; those in the states of the other contracts are not looked at. -/
structure State where
  world : Factory.World
  governor : Governor.State
  vaults : Address → Vault.State Vault.Fleet
  processor : Batch.State
  now : U64
  sequence : U32

namespace State

variable (n : State)

def shared : Shared := n.world.shared

def governorState : Governor.State := { n.governor with tokens := n.world.tokens }

def vaultState (vault : Address) : Vault.State Vault.Fleet :=
  { n.vaults vault with tokens := n.world.tokens, world := { streams := n.world.streams } }

def processorState : Batch.State := { n.processor with tokens := n.world.tokens }

/-- The time and the ledger of an invocation. -/
def elapsed (env : Env) : State := { n with now := env.timestamp, sequence := env.sequence }

end State

/-! ### What the contracts call -/

namespace Deployment

variable (D : Deployment)

/-- At the address there is no contract of the protocol. -/
def Outside (a : Address) : Prop := D.role a = none

def factoryHost (n : State) (o : Others) : Factory.Host where
  computeSalt := D.computeSalt
  deployedAddress _ salt := D.streamAddress salt
  isStreamWasm := D.isStreamWasm
  governorConfig a :=
    if a = D.governor then (Governor.config n.governorState).toOption.map (·.view)
    else o.governorConfig a
  cancelForeign env stream sender l f :=
    if D.role stream = none then o.cancel env stream sender l f else none

/-- The factory's `pause` or `unpause`, called by the governor. -/
def switched (n : State) (env : Env) : Bool → Factory.Result Factory.World
  | true => Factory.pause (env.invoke D.factory) n.world
  | false => Factory.unpause (env.invoke D.factory) n.world

def governorHost (n : State) (env : Env) (o : Others) : Governor.Host where
  callFactory a on := if a = D.factory then (D.switched n env on).isOk else o.callFactory a on

/-- The factory after a call of the governor. -/
def factoryAfter (n : State) (env : Env) (c : Governor.Call) : Factory.World :=
  if n.governor.store.params.factoryAddress = some D.factory then
    match c with
    | .pauseFactory _ => (D.switched n env true).toOption.getD n.world
    | .unpauseFactory _ => (D.switched n env false).toOption.getD n.world
    | _ => n.world
  else n.world

/-- A call of what is at an address: a stream of the protocol, another of its contracts, which has no
such entry point, or a contract of somebody else. -/
def visit {α : Type} (stream : Address) (own other : Vault.Visit Vault.Fleet α) :
    Vault.Visit Vault.Fleet α := fun x =>
  if D.role stream = some .stream then own x
  else if D.role stream = none then other x
  else none

def streams (o : Others) : Vault.Streams Vault.Fleet where
  recipient env stream :=
    D.visit stream (Vault.dripStreams.recipient env stream) (o.streams.recipient env stream)
  withdrawable env stream :=
    D.visit stream (Vault.dripStreams.withdrawable env stream) (o.streams.withdrawable env stream)
  withdraw env stream amount :=
    D.visit stream (Vault.dripStreams.withdraw env stream amount) (o.streams.withdraw env stream amount)

end Deployment

/-! ### Steps -/

inductive Action where
  | factory (o : Others) (env : Env) (c : Factory.Call)
  | stream (env : Env) (c : Stream.Call)
  | governor (o : Others) (env : Env) (c : Governor.Call)
  | ballot (b : Governor.Ballot)
  | vault (o : Others) (env : Env) (c : Vault.Call)
  | processor (o : Others) (env : Env) (c : Batch.Call)
  | wallet (env : Env) (token src dst : Address) (amount : I128)

/-- A call from outside, at the time of the last one or later, that no contract of the protocol has
signed. -/
structure Deployment.Called (D : Deployment) (n : State) (env : Env) (callee : Address) : Prop where
  contract : env.contract = callee
  time : n.now.val ≤ env.timestamp.val
  sequence : n.sequence.val ≤ env.sequence.val
  signers : ∀ a, env.authorized a = true → D.Outside a

inductive Step (D : Deployment) : State → Action → State → Prop where
  | factory {n : State} {o : Others} {env : Env} {c : Factory.Call} {w : Factory.World}
      (hcall : D.Called n env D.factory) (ho : o.Confined env)
      (h : Factory.exec (D.factoryHost n o) env n.world c = .ok w) :
      Step D n (.factory o env c) { n.elapsed env with world := w }
  | stream {n : State} {env : Env} {c : Stream.Call} {d : Factory.Deployed} {s : Stream.State}
      (hcall : D.Called n env env.contract) (hd : n.world.streams env.contract = some d)
      (h : Stream.exec env (n.world.streamState d) c = .ok s) :
      Step D n (.stream env c) { n.elapsed env with world := n.world.withStream env.contract s }
  | governor {n : State} {o : Others} {env : Env} {c : Governor.Call} {g : Governor.State}
      (hcall : D.Called n env D.governor)
      (h : Governor.exec (D.governorHost n env o) env n.governorState c = .ok g) :
      Step D n (.governor o env c) { n.elapsed env with
        world := { D.factoryAfter n env c with tokens := g.tokens }
        governor := g }
  /-- ballots are counted by code that is not in the repository -/
  | ballot {n : State} {b : Governor.Ballot} {p : Governor.Proposal}
      (h : n.governor.store.proposals.proposal b.proposalId = some p) :
      Step D n (.ballot b) { n with
        governor := n.governor.withProposals (b.count p n.governor.store.proposals) }
  | vault {n : State} {o : Others} {env : Env} {c : Vault.Call} {reply : Vault.Reply}
      {s : Vault.State Vault.Fleet} (hrole : D.role env.contract = some .vault)
      (hcall : D.Called n env env.contract) (ho : o.Confined env) (hspares : o.streams.Spares env.contract)
      (h : Vault.exec (D.streams o) env (n.vaultState env.contract) c = .ok (reply, s)) :
      Step D n (.vault o env c) { n.elapsed env with
        world := { n.world with tokens := s.tokens, streams := s.world.streams }
        vaults := Function.update n.vaults env.contract s }
  | processor {n : State} {o : Others} {env : Env} {c : Batch.Call} {s : Batch.State}
      (hcall : D.Called n env D.processor)
      (h : Batch.exec ⟨o.answersBalance⟩ env n.processorState c = .ok s) :
      Step D n (.processor o env c) { n.elapsed env with
        world := { n.world with tokens := s.tokens }
        processor := s }
  | wallet {n : State} {env : Env} {token src dst : Address} {amount : I128} {tokens : Ledger}
      (hcall : D.Called n env token) (hsigned : env.authorized src = true)
      (h : n.world.tokens.transfer token src dst amount = some tokens) :
      Step D n (.wallet env token src dst amount) { n.elapsed env with
        world := { n.world with tokens := tokens } }

/-- The factory and the governor have been initialized with each other's address; there are no streams,
and the vaults and the processor have not been called. -/
structure Genesis (D : Deployment) (n : State) : Prop where
  factory : ∃ hash tokens, Factory.initializeFactory hash D.governor
    { factory := {}, tokens := tokens, streams := fun _ => none } = .ok n.world
  governor : ∃ env authority feeRecipient, env.contract = D.governor ∧
    Governor.initializeGovernor env authority feeRecipient D.factory (.fresh n.world.tokens) =
      .ok n.governor
  vaults : ∀ a, ∃ tokens, n.vaults a = .fresh tokens { streams := fun _ => none }
  processor : n.processor.lock = none

/-! ### A step from within -/

/-- Whose tokens a step may take, apart from those of streams. -/
def Action.Party (D : Deployment) : Action → Address → Prop
  | .factory _ env c => env.Joined D.Outside c.visits
  | .stream env _ => fun a => env.authorized a = true
  | .governor _ env _ => env.Acting
  | .ballot _ => fun _ => False
  | .vault _ env c => env.Joined D.Outside c.visits
  | .processor _ env _ => env.Acting
  | .wallet env _ _ _ _ => fun a => env.authorized a = true

/-- The streams a step may deploy: those the factory has granted under the configuration it has read. -/
def Action.terms (D : Deployment) (n : State) : Action → Terms
  | .factory o env _ => fun a args => ∃ config, Factory.readConfig (D.factoryHost n o) n.world =
      .ok config ∧ Factory.Grants (D.factoryHost n o) env config a args
  | _ => .nothing

variable {D : Deployment} {n n' n₀ : State} {o : Others} {env : Env} {a : Action} {as : List Action}

theorem confined_factoryHost (ho : o.Confined env) : (D.factoryHost n o).Confined env D.Outside := by
  intro stream sender l f l' become h
  unfold Deployment.factoryHost at h
  dsimp only at h
  split at h
  · rename_i hout
    exact ⟨hout, ho.cancel _ _ _ _ _ _ h⟩
  · cases h

theorem serves_visit {α : Type} {stream : Address} {own other : Vault.Visit Vault.Fleet α}
    (hown : Vault.Serves env D.Outside stream own) (hother : Bounded env stream other) :
    Vault.Serves env D.Outside stream (D.visit stream own other) := by
  intro x a y h
  unfold Deployment.visit at h
  split at h
  · exact hown x a y h
  · split at h
    · rename_i hout
      refine (hother x a y h).mono (fun b hb => ?_) fun _ _ hT => hT
      rcases hb with hb | rfl
      · exact .inl (.inl hb)
      · exact .inr ⟨hout, List.mem_singleton_self _⟩
    · cases h

theorem serve_streams (ho : o.Confined env) : (D.streams o).Serve env D.Outside := by
  have hdrip := Vault.dripStreams_serve env D.Outside
  exact ⟨fun stream => serves_visit (hdrip.recipient stream) (ho.recipient stream),
    fun stream => serves_visit (hdrip.withdrawable stream) (ho.withdrawable stream),
    fun stream amount => serves_visit (hdrip.withdraw stream amount) (ho.withdraw stream amount)⟩

/-- A withdrawal takes from the stream alone. -/
theorem spares_withdraw {stream here : Address} {amount u : _} {x y : Vault.Fleet × Ledger}
    (hne : stream ≠ here) (h : Vault.dripStreams.withdraw env stream amount x = some (u, y)) :
    Vault.Ledger.Spares here x.2 y.2 := by
  simp only [Vault.dripStreams, Option.bind_eq_bind, Option.bind_eq_some_iff, Option.pure_def,
    Option.some.injEq, toOption_eq_some] at h
  obtain ⟨d, hd, w, hw, h⟩ := h
  obtain ⟨-, rfl⟩ := Prod.mk.inj h
  exact fun t => (Stream.moves_of_withdraw hw).le (fun heq => hne heq.symm) t

theorem spares_visit {α : Type} {stream here : Address} {own other : Vault.Visit Vault.Fleet α}
    (hown : ∀ x a y, stream ≠ here → own x = some (a, y) → Vault.Ledger.Spares here x.2 y.2)
    (hother : ∀ w l a w' l', other (w, l) = some (a, w', l') → Vault.Ledger.Spares here l l')
    (hhere : D.role here = some .vault) (w : Vault.Fleet) (l : Ledger) (a : α) (w' : Vault.Fleet)
    (l' : Ledger) (h : D.visit stream own other (w, l) = some (a, w', l')) :
    Vault.Ledger.Spares here l l' := by
  unfold Deployment.visit at h
  split at h
  · rename_i hrole
    refine hown (w, l) a (w', l') ?_ h
    rintro rfl
    rw [hhere] at hrole
    cases hrole
  · split at h
    · exact hother w l a w' l' h
    · cases h

theorem spares_streams {here : Address} (hhere : D.role here = some .vault) (ho : o.streams.Spares here) :
    (D.streams o).Spares here := by
  refine ⟨fun env stream => spares_visit (fun x a y _ h => ?_) (ho.recipient env stream) hhere,
    fun env stream => spares_visit (fun x a y _ h => ?_) (ho.withdrawable env stream) hhere,
    fun env stream amount => spares_visit (fun x a y hne h => ?_) (ho.withdraw env stream amount) hhere⟩
  · obtain rfl := Vault.recipient_eq_some h
    exact fun _ => le_rfl
  · obtain ⟨-, rfl⟩ := Vault.withdrawable_eq_some h
    exact fun _ => le_rfl
  · exact spares_withdraw hne h

/-- A pause leaves the tokens and the streams alone. -/
theorem shared_factoryAfter (n : State) (env : Env) (c : Governor.Call) :
    (D.factoryAfter n env c).shared = n.shared := by
  have hswitch : ∀ on, ((D.switched n env on).toOption.getD n.world).shared = n.shared := by
    intro on
    cases h : D.switched n env on with
    | error e => rfl
    | ok w =>
        cases on with
        | true => exact Factory.shared_of_pause h
        | false => exact Factory.shared_of_unpause h
  unfold Deployment.factoryAfter
  split
  · split
    · exact hswitch true
    · exact hswitch false
    · rfl
  · rfl

theorem acts_of_step (h : Step D n a n') :
    Acts n'.now (a.Party D) (a.terms D n) n.shared n'.shared := by
  cases h with
  | factory hcall ho h => exact Factory.acts_of_exec (confined_factoryHost ho) h
  | stream hcall hd h => exact .single (.call hd rfl (fun _ ha => ha) h)
  | governor hcall h =>
      have hmoves := Governor.moves_of_exec h
      refine .single ?_
      show Act _ _ _ _ ⟨_, (D.factoryAfter n _ _).shared.streams⟩
      rw [shared_factoryAfter]
      exact .moves hmoves
  | ballot h => exact .refl
  | vault hrole hcall ho hspares h =>
      have hacts := Vault.acts_of_exec (serve_streams ho) (spares_streams hrole hspares) h
      exact hacts.mono (fun _ ha => ha) fun _ _ hT => hT
  | processor hcall h => exact .single (.moves (Batch.moves_of_exec h))
  | wallet hcall hsigned h => exact .single (.moves (Ledger.moves_transfer hsigned h))

/-! ### A sample network

A factory, its governor, the processor and one vault; the addresses with the highest bit are those of
streams.  A stream is created, its recipient withdraws from it through the vault, and the governor pauses
the factory. -/

namespace Sample

def roleOf : Address → Option Role
  | .account _ => none
  | .contract id =>
      if id.msb then some .stream
      else if id = 5 then some .factory
      else if id = 6 then some .governor
      else if id = 8 then some .processor
      else if id = 10 then some .vault
      else none

def site (salt : Factory.Hash) : Address := .contract (salt ||| BitVec.intMin 256)

theorem roleOf_site (salt : Factory.Hash) : roleOf (site salt) = some .stream := by
  have hmsb : (salt ||| BitVec.intMin 256).msb = true := by
    rw [BitVec.msb_or, BitVec.msb_intMin, decide_eq_true (by decide), Bool.or_true]
  unfold roleOf site
  dsimp only
  rw [hmsb]
  rfl

def deployment : Deployment where
  role := roleOf
  factory := .contract 5
  governor := .contract 6
  processor := .contract 8
  computeSalt id := BitVec.ofInt 256 id.val
  streamAddress := site
  isStreamWasm _ := true
  role_factory := by decide +kernel
  role_governor := by decide +kernel
  role_processor := by decide +kernel
  role_streamAddress := roleOf_site

def sender : Address := .account 1
def recipient : Address := .account 2
def feeRecipient : Address := .account 3
def authority : Address := .account 4
def token : Address := .contract 9
def vault : Address := .contract 10

/-- Nobody else's contract answers. -/
def silent : Others where
  governorConfig _ := none
  cancel _ _ _ _ _ := none
  streams := ⟨fun _ _ _ => none, fun _ _ _ => none, fun _ _ _ _ => none⟩
  callFactory _ _ := false
  answersBalance _ := false

theorem confined_silent (env : Env) : silent.Confined env := by
  constructor
  · intro _ _ _ _ _ _ h
    cases h
  · intro _ _ _ _ h
    cases h
  · intro _ _ _ _ h
    cases h
  · intro _ _ _ _ _ h
    cases h

theorem spares_silent (here : Address) : silent.streams.Spares here := by
  constructor
  · intro _ _ _ _ _ _ _ h
    cases h
  · intro _ _ _ _ _ _ _ h
    cases h
  · intro _ _ _ _ _ _ _ _ h
    cases h

/-- An invocation at `t` that one account has signed. -/
def signedBy (signer callee : Address) (t : U64) : Env :=
  ⟨callee, t, .lit 1, fun a => a != callee && a == signer, by simp⟩

theorem called {n : State} {signer callee : Address} {t : U64} (hrole : roleOf signer = none)
    (htime : n.now.val ≤ t.val) (hsequence : n.sequence.val ≤ 1) :
    deployment.Called n (signedBy signer callee t) callee := by
  refine ⟨rfl, htime, hsequence, fun a ha => ?_⟩
  have ha : a = signer := by
    simp only [signedBy, Bool.and_eq_true, beq_iff_eq] at ha
    exact ha.2
  rw [ha]
  exact hrole

/-- Others take no part. -/
theorem not_joined {signer callee a : Address} {t : U64} {outsider : Address → Prop} {visits : List Address}
    (hsigner : a ≠ signer) (hcallee : a ≠ callee) (hvisits : a ∉ visits) :
    ¬ (signedBy signer callee t).Joined outsider visits a := by
  rintro ((hsigned | heq) | ⟨-, hin⟩)
  · simp only [signedBy, Bool.and_eq_true, beq_iff_eq] at hsigned
    exact hsigner hsigned.2
  · exact hcallee heq
  · exact hvisits hin

def tokens : Ledger where
  balance t a := if t = token ∧ a = sender then .lit 10100 else .lit 0

/-- The state of a successful result. -/
def left {E σ : Type} (s : σ) (r : Outcome E σ) : σ :=
  match r with
  | .ok s => s
  | .error _ => s

theorem eq_ok_left {E σ : Type} (s : σ) {r : Outcome E σ} (h : r.isOk = true) : r = .ok (left s r) := by
  obtain ⟨s', rfl⟩ := exists_of_isOk h
  rfl

/-- Before the initialization of the factory. -/
def blank : Factory.World := { factory := {}, tokens := tokens, streams := fun _ => none }

def opened : State where
  world := left blank (Factory.initializeFactory 1 (.contract 6) blank)
  governor := left (.fresh tokens) (Governor.initializeGovernor (signedBy authority (.contract 6) (.lit 100))
    authority feeRecipient (.contract 5) (.fresh tokens))
  vaults _ := .fresh tokens { streams := fun _ => none }
  processor := { tokens := tokens }
  now := .lit 100
  sequence := .lit 1

theorem genesis_opened : Genesis deployment opened where
  factory := ⟨1, tokens, eq_ok_left blank (by decide +kernel)⟩
  governor := ⟨signedBy authority (.contract 6) (.lit 100), authority, feeRecipient, rfl,
    eq_ok_left (.fresh tokens) (by decide +kernel)⟩
  vaults _ := ⟨tokens, rfl⟩
  processor := rfl

/-- Two tokens a second for five thousand seconds. -/
def request : Factory.StreamInitParams where
  sender := sender
  recipient := recipient
  token := token
  deposit := .lit 10000
  ratePerSec := .lit 2
  startTime := .lit 200
  endTime := .lit 5200
  clawback := false

/-- The state after a call of the factory. -/
def factoryNext (n : State) (env : Env) (c : Factory.Call) : State :=
  { n.elapsed env with
    world := left n.world (Factory.exec (deployment.factoryHost n silent) env n.world c) }

/-- The state after a call of a vault. -/
def vaultNext (n : State) (env : Env) (c : Vault.Call) : State :=
  let s := (left (.done, n.vaultState env.contract) (Vault.exec (deployment.streams silent) env
    (n.vaultState env.contract) c)).2
  { n.elapsed env with
    world := { n.world with tokens := s.tokens, streams := s.world.streams }
    vaults := Function.update n.vaults env.contract s }

/-- The state after a call of the governor. -/
def governorNext (n : State) (env : Env) (c : Governor.Call) : State :=
  let g := left n.governorState (Governor.exec (deployment.governorHost n env silent) env n.governorState c)
  { n.elapsed env with
    world := { deployment.factoryAfter n env c with tokens := g.tokens }
    governor := g }

def byFactory (t : U64) : Env := signedBy sender (.contract 5) t
def byVault (t : U64) : Env := signedBy recipient vault t
def byGovernor (t : U64) : Env := signedBy authority (.contract 6) t

def created : State := factoryNext opened (byFactory (.lit 200)) (.createStream request none)

theorem step_created : Step deployment opened
    (.factory silent (byFactory (.lit 200)) (.createStream request none)) created :=
  .factory (called rfl (by decide) (by decide)) (confined_silent _)
    (eq_ok_left opened.world (by decide +kernel))

/-- The recipient opens a vault. -/
def vaulted : State := vaultNext created (byVault (.lit 300)) (.initializeVault recipient token (.lit 500))

theorem step_vaulted : Step deployment created
    (.vault silent (byVault (.lit 300)) (.initializeVault recipient token (.lit 500))) vaulted :=
  .vault (by decide +kernel) (called rfl (by decide) (by decide)) (confined_silent _) (spares_silent _)
    (eq_ok_left (.done, created.vaultState vault) (by decide +kernel))

/-- And withdraws from the stream through it. -/
def withdrawn : State :=
  vaultNext vaulted (byVault (.lit 1200)) (.vaultBatchWithdraw [site 0] recipient)

theorem step_withdrawn : Step deployment vaulted
    (.vault silent (byVault (.lit 1200)) (.vaultBatchWithdraw [site 0] recipient)) withdrawn :=
  .vault (by decide +kernel) (called rfl (by decide) (by decide)) (confined_silent _) (spares_silent _)
    (eq_ok_left (.done, vaulted.vaultState vault) (by decide +kernel))

def stopped : State := governorNext withdrawn (byGovernor (.lit 1300)) (.pauseFactory authority)

/-- The stream that was created. -/
def deployed : Factory.Deployed := (stopped.world.streams (site 0)).getD ⟨{}, [], []⟩

/-- The streams go on. -/
def drawn : State :=
  { stopped.elapsed (signedBy recipient (site 0) (.lit 2200)) with
    world := stopped.world.withStream (site 0) (left (.fresh tokens) (Stream.exec
      (signedBy recipient (site 0) (.lit 2200)) (stopped.world.streamState deployed) (.withdraw (.lit 500)))) }

/-- The run up to the pause. -/
def actions : List Action :=
  [.factory silent (byFactory (.lit 200)) (.createStream request none),
    .vault silent (byVault (.lit 300)) (.initializeVault recipient token (.lit 500)),
    .vault silent (byVault (.lit 1200)) (.vaultBatchWithdraw [site 0] recipient)]

theorem run_withdrawn : Run (Step deployment) opened actions withdrawn :=
  (((Run.nil _).snoc step_created).snoc step_vaulted).snoc step_withdrawn

end Sample

end Drip.Network
