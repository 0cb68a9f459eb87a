import Drip.Support.Runs
import Drip.Vault.Control

/-!
# Vault — Calls

The vault as a machine.  A `Call` is an entry point with its arguments, and `exec` what it returns and
the state it leaves.  A vault starts empty (`Moment.fresh`).  Ledger times and ledger sequences never go
back, and between the calls to it the tokens and the streams move (`Step`): nobody takes from its
balances, for it authorizes nothing but its own calls.  The same holds of the streams it calls
(`Streams.Spares`).

The reads of single keys leave no trace, and are left out.
-/

namespace Drip.Vault
open Chain

variable {W : Type}

inductive Call where
  | initializeVault (owner token : Address) (maxLimit : I128)
  | deposit (src : Address) (amount : I128)
  | depositWithFee (src : Address) (grossAmount feeAmount : I128)
  | batchDeposit (deposits : List DepositSpec)
  | withdraw (caller dst : Address) (amount : I128)
  | withdrawBatch (caller : Address) (payouts : List (Address × I128))
  | vaultBatchWithdraw (streamIds : List Address) (recipient : Address)
  | setOperatorWithdrawLimit (caller : Address) (newLimit : I128)
  | setLimit (caller : Address) (newLimit : I128)
  | setOperator (caller operator : Address)
  | revokeOperator (caller : Address)
  | proposeOwner (caller newOwner : Address)
  | acceptOwner (caller : Address)
  | setOwnerProposalTtl (caller : Address) (ttlSeconds : U64)
  | effectiveWithdrawLimit (caller : Address)
  | pause (caller : Address)
  | unpause (caller : Address)
  | keepAlive
  | isPaused
  | upgrade (caller : Address) (newWasmHash : BitVec 256)
  | depositToken (src token : Address) (amount : I128)
  | withdrawToken (caller token dst : Address) (amount : I128)
  | setTokenMaxLimit (caller token : Address) (limit : I128)
  | approveToken (caller token : Address) (approved : Bool)
  | bumpAllVaultKeys
  | depositWithFailureReport (src : Address) (amount : I128)
  | initiateEmergencyMigration (caller destination : Address)
  | executeEmergencyMigration (caller : Address)
  | cancelEmergencyMigration (caller : Address)
deriving DecidableEq

def exec (streams : Streams W) (env : Env) (s : State W) : Call → Result (Reply × State W)
  | .initializeVault owner token maxLimit => initializeVault env owner token maxLimit s
  | .deposit src amount => deposit env src amount s
  | .depositWithFee src grossAmount feeAmount => depositWithFee env src grossAmount feeAmount s
  | .batchDeposit deposits => batchDeposit env deposits s
  | .withdraw caller dst amount => withdraw env caller dst amount s
  | .withdrawBatch caller payouts => withdrawBatch env caller payouts s
  | .vaultBatchWithdraw streamIds recipient => vaultBatchWithdraw streams env streamIds recipient s
  | .setOperatorWithdrawLimit caller newLimit => setOperatorWithdrawLimit env caller newLimit s
  | .setLimit caller newLimit => setLimit env caller newLimit s
  | .setOperator caller operator => setOperator env caller operator s
  | .revokeOperator caller => revokeOperator env caller s
  | .proposeOwner caller newOwner => proposeOwner env caller newOwner s
  | .acceptOwner caller => acceptOwner env caller s
  | .setOwnerProposalTtl caller ttlSeconds => setOwnerProposalTtl env caller ttlSeconds s
  | .effectiveWithdrawLimit caller => effectiveWithdrawLimit env caller s
  | .pause caller => pause env caller s
  | .unpause caller => unpause env caller s
  | .keepAlive => keepAlive s
  | .isPaused => .ok (.flag (isPaused env s).1, (isPaused env s).2)
  | .upgrade caller newWasmHash => upgrade env caller newWasmHash s
  | .depositToken src token amount => depositToken env src token amount s
  | .withdrawToken caller token dst amount => withdrawToken env caller token dst amount s
  | .setTokenMaxLimit caller token limit => setTokenMaxLimit env caller token limit s
  | .approveToken caller token approved => approveToken env caller token approved s
  | .bumpAllVaultKeys => bumpAllVaultKeys s
  | .depositWithFailureReport src amount => depositWithFailureReport env src amount s
  | .initiateEmergencyMigration caller destination =>
      initiateEmergencyMigration env caller destination s
  | .executeEmergencyMigration caller => executeEmergencyMigration env caller s
  | .cancelEmergencyMigration caller => cancelEmergencyMigration env caller s

/-- The calls that write the settings. -/
def Call.sets : Call → Bool
  | .initializeVault _ _ _ | .setOperatorWithdrawLimit _ _ | .setLimit _ _ | .setTokenMaxLimit _ _ _
  | .approveToken _ _ _ | .setOperator _ _ | .revokeOperator _ | .proposeOwner _ _ | .acceptOwner _
  | .setOwnerProposalTtl _ _ | .initiateEmergencyMigration _ _ | .executeEmergencyMigration _
  | .cancelEmergencyMigration _ => true
  | _ => false

/-! ### Steps -/

/-- The vault at a ledger. -/
structure Moment (W : Type) where
  state : State W
  now : U64
  sequence : U32

def Moment.fresh (tokens : Ledger) (world : W) : Moment W := ⟨.fresh tokens world, .lit 0, .lit 0⟩

/-- No holder named `here` has less of a token than before. -/
def Ledger.Spares (here : Address) (l l' : Ledger) : Prop :=
  ∀ t, (l.balance t here).val ≤ (l'.balance t here).val

/-- What the streams do takes nothing from `here`. -/
structure Streams.Spares (streams : Streams W) (here : Address) : Prop where
  recipient : ∀ env stream w l a w' l', streams.recipient env stream (w, l) = some (a, w', l') →
    Ledger.Spares here l l'
  withdrawable : ∀ env stream w l a w' l', streams.withdrawable env stream (w, l) = some (a, w', l') →
    Ledger.Spares here l l'
  withdraw : ∀ env stream amount w l a w' l',
    streams.withdraw env stream amount (w, l) = some (a, w', l') → Ledger.Spares here l l'

inductive Action (W : Type) where
  | call (streams : Streams W) (env : Env) (c : Call) (reply : Reply)
  | failed (streams : Streams W) (env : Env) (c : Call) (failure : Failure Error)
  | outside (tokens : Ledger) (world : W)

/-- A step of the vault at `here`. -/
inductive Step (here : Address) : Moment W → Action W → Moment W → Prop where
  | call {m : Moment W} {s' : State W} {streams : Streams W} {env : Env} {c : Call} {reply : Reply}
      (henv : env.contract = here) (htime : m.now ≤ env.timestamp) (hseq : m.sequence ≤ env.sequence)
      (hstreams : streams.Spares here) (h : exec streams env m.state c = .ok (reply, s')) :
      Step here m (.call streams env c reply) ⟨s', env.timestamp, env.sequence⟩
  /-- a call that fails is rolled back -/
  | failed {m : Moment W} {streams : Streams W} {env : Env} {c : Call} {e : Failure Error}
      (henv : env.contract = here) (htime : m.now ≤ env.timestamp) (hseq : m.sequence ≤ env.sequence)
      (hstreams : streams.Spares here) (h : exec streams env m.state c = .error e) :
      Step here m (.failed streams env c e) ⟨m.state, env.timestamp, env.sequence⟩
  | outside {m : Moment W} {tokens : Ledger} {world : W}
      (h : Ledger.Spares here m.state.tokens tokens) :
      Step here m (.outside tokens world)
        ⟨{ m.state with tokens := tokens, world := world }, m.now, m.sequence⟩

def Reachable (here : Address) (m : Moment W) : Prop :=
  ∃ tokens world as, Run (Step here) (Moment.fresh tokens world) as m

/-! ### Computed runs -/

/-- The call carried out: what is to be seen of it, and the vault after it. -/
def Moment.perform (streams : Streams W) (m : Moment W) (x : Env × Call) : Action W × Moment W :=
  match exec streams x.1 m.state x.2 with
  | .ok (reply, s') => (.call streams x.1 x.2 reply, ⟨s', x.1.timestamp, x.1.sequence⟩)
  | .error e => (.failed streams x.1 x.2 e, ⟨m.state, x.1.timestamp, x.1.sequence⟩)

def Moment.tour (streams : Streams W) (m : Moment W) : List (Env × Call) → List (Action W) × Moment W
  | [] => ([], m)
  | x :: rest =>
      let (a, m₁) := m.perform streams x
      let (as, m₂) := m₁.tour streams rest
      (a :: as, m₂)

/-- Calls of the vault at `here`, at ledgers that do not go back. -/
def Scheduled (here : Address) : U64 → U32 → List (Env × Call) → Prop
  | _, _, [] => True
  | now, sequence, x :: rest => x.1.contract = here ∧ now ≤ x.1.timestamp ∧ sequence ≤ x.1.sequence ∧
      Scheduled here x.1.timestamp x.1.sequence rest

instance Scheduled.decide : (here : Address) → (now : U64) → (sequence : U32) →
    (xs : List (Env × Call)) → Decidable (Scheduled here now sequence xs)
  | _, _, _, [] => isTrue trivial
  | here, _, _, x :: rest =>
      have : Decidable (Scheduled here x.1.timestamp x.1.sequence rest) :=
        Scheduled.decide here _ _ rest
      inferInstanceAs (Decidable (_ ∧ _ ∧ _ ∧ _))

variable {here : Address} {streams : Streams W} {m : Moment W} {x : Env × Call}

theorem step_perform (hstreams : streams.Spares here) (henv : x.1.contract = here)
    (htime : m.now ≤ x.1.timestamp) (hseq : m.sequence ≤ x.1.sequence) :
    Step here m (m.perform streams x).1 (m.perform streams x).2 := by
  unfold Moment.perform
  cases h : exec streams x.1 m.state x.2 with
  | error e => exact .failed henv htime hseq hstreams h
  | ok r => exact .call henv htime hseq hstreams h

theorem run_tour (hstreams : streams.Spares here) (xs : List (Env × Call))
    (h : Scheduled here m.now m.sequence xs) :
    Run (Step here) m (m.tour streams xs).1 (m.tour streams xs).2 := by
  induction xs generalizing m with
  | nil => exact .nil m
  | cons x rest ih =>
      obtain ⟨henv, htime, hseq, hrest⟩ := h
      have hstep := step_perform hstreams henv htime hseq
      have first : Run (Step here) m [(m.perform streams x).1] (m.perform streams x).2 :=
        Run.snoc (.nil m) hstep
      refine first.trans (ih ?_)
      unfold Moment.perform
      split <;> exact hrest

/-! ### A sample vault

Account 1 owns it, and account 2 operates it.  Both hold two tokens. -/

namespace Sample

def address : Address := .contract 6
def owner : Address := .account 1
def operator : Address := .account 2
def token : Address := .contract 9

/-- Streams that do not answer. -/
def silent : Streams Unit := ⟨fun _ _ _ => none, fun _ _ _ => none, fun _ _ _ _ => none⟩

theorem silent_spares : silent.Spares address := by
  constructor
  · intro _ _ _ _ _ _ _ h
    cases h
  · intro _ _ _ _ _ _ _ h
    cases h
  · intro _ _ _ _ _ _ _ _ h
    cases h

def tokens : Ledger where
  balance _ a := if a = owner ∨ a = operator then .lit 1000 else .lit 0

/-- An invocation that the given account has signed. -/
def signedBy (signer : Address) (t : U64) (sequence : U32) : Env :=
  ⟨address, t, sequence, fun a => a != address && a == signer, by simp⟩

/-- A call at time 100 in ledger 1, by the account that signs it. -/
def signed (signer : Address) (c : Call) : Env × Call := (signedBy signer (.lit 100) (.lit 1), c)

/-- The initialization, with a limit of 500, and the calls. -/
def calls (xs : List (Env × Call)) : List (Env × Call) :=
  signed owner (.initializeVault owner token (.lit 500)) :: xs

def visited (xs : List (Env × Call)) : Moment Unit :=
  ((Moment.fresh tokens ()).tour silent (calls xs)).2

theorem run_visited (xs : List (Env × Call))
    (h : Scheduled address (.lit 0) (.lit 0) (calls xs)) :
    Run (Step address) (Moment.fresh tokens ()) ((Moment.fresh tokens ()).tour silent (calls xs)).1
      (visited xs) := run_tour silent_spares _ h

theorem reachable_visited (xs : List (Env × Call))
    (h : Scheduled address (.lit 0) (.lit 0) (calls xs)) : Reachable address (visited xs) :=
  ⟨tokens, (), _, run_visited xs h⟩

end Sample

end Drip.Vault
