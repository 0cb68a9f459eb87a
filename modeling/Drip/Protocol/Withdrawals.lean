import Drip.Factory.Creation
import Drip.Stream.DryRun
import Drip.Support.Clamped
import Drip.Vault.Calls

/-!
# Protocol — Withdrawals

`vault_batch_withdraw` and the streams it calls.  The vault adds up what the streams say can be withdrawn,
and then withdraws it from each of them; a stream pays no more than it holds.

* `Stream.withdraw_moves`: where the tokens of a withdrawal go.
* `Fleet`: the deployed streams, as the vault's calls see them.
* `collected`, `paid_out`: what the two passes over the list do.
* `total_iff_covered`: the total that the vault reports is what the streams have paid exactly if each of them
  holds what can be withdrawn from it when its turn comes.
-/

namespace Drip
open Chain

/-! ### Where a payment goes -/

namespace Stream

variable {env : Env} {s s' : State} {info : StreamInfo} {amount x : I128}

/-- What of a payment goes to `a`. -/
def share (s : State) (info : StreamInfo) (amount : Int) (a : Address) : Int :=
  match s.store.splitConfig with
  | some split =>
      (if a = payoutAddress s info.recipient then amount - amount * split.splitBps.val / 10000 else 0) +
        if a = split.secondaryRecipient then amount * split.splitBps.val / 10000 else 0
  | none => if a = payoutAddress s info.recipient then amount else 0

theorem payPositive_moves {dst : Address} {purpose : Purpose} (hnn : 0 ≤ amount.val)
    (h : payPositive env s info dst amount purpose = .ok s') (t a : Address) :
    (s'.tokens.balance t a).val = (s.tokens.balance t a).val
      - (if t = info.token ∧ a = env.contract then amount.val else 0)
      + if t = info.token ∧ a = dst then amount.val else 0 := by
  unfold payPositive at h
  split at h
  · obtain ⟨l, hl, rfl⟩ := transfer_eq_ok.mp h
    exact (Ledger.transfer_spec hl).2.2 t a
  · cases h
    have hzero : amount.val = 0 := by omega
    simp [hzero]

theorem payRecipient_moves (h : payRecipient env s info amount = .ok s') (hnn : 0 ≤ amount.val)
    (hsplit : ∀ sc ∈ s.store.splitConfig, sc.splitBps.val ≤ 10000) (t a : Address) :
    (s'.tokens.balance t a).val = (s.tokens.balance t a).val
      - (if t = info.token ∧ a = env.contract then amount.val else 0)
      + if t = info.token then share s info amount.val a else 0 := by
  unfold payRecipient at h
  unfold share
  cases hs : s.store.splitConfig with
  | none =>
      rw [hs] at h
      obtain ⟨l, hl, rfl⟩ := transfer_eq_ok.mp h
      have hmove := (Ledger.transfer_spec hl).2.2 t a
      dsimp only at hmove ⊢
      rw [hmove]
      by_cases ht : t = info.token
      · simp only [ht, true_and, if_true]
      · simp only [ht, false_and, if_false]
  | some split =>
      rw [hs] at h
      simp only [bind_eq_ok, okOr_eq_ok, Ranged.checkedSub_eq_some] at h
      obtain ⟨secondary, hsec, primary, hprim, s₁, h₁, h₂⟩ := h
      obtain ⟨secondary', hsec', hval, hsec0, hsecle⟩ := exists_share hnn (hsplit split hs)
      obtain rfl : secondary = secondary' := Except.ok.inj (hsec.symm.trans hsec')
      have hmove₁ := payPositive_moves (by omega) h₁ t a
      have hmove₂ := payPositive_moves hsec0 h₂ t a
      dsimp only
      rw [hmove₂, hmove₁, hprim, ← hval]
      by_cases ht : t = info.token
      · simp only [ht, true_and, if_true]
        split <;> omega
      · simp only [ht, false_and, if_false]
        omega

theorem withdraw_moves (hi : s.store.config = some info)
    (hsplit : ∀ sc ∈ s.store.splitConfig, sc.splitBps.val ≤ 10000)
    (h : withdraw env amount s = .ok (x, s')) (t a : Address) :
    (s'.tokens.balance t a).val = (s.tokens.balance t a).val
      - (if t = info.token ∧ a = env.contract then x.val else 0)
      + if t = info.token then share s info x.val a else 0 := by
  obtain ⟨d⟩ := exists_withdrawing hi h
  have hmove := payRecipient_moves d.pays d.positive.le hsplit t a
  -- what follows the payment moves no tokens
  rw [d.noted.tokens]
  exact hmove

/-- `withdrawable`, the entry point. -/
def viewWithdrawable (env : Env) (s : State) : Result I128 := do
  let info ← load s
  if info.isCancelled then return .lit 0 else withdrawable env s info

end Stream

/-! ### The streams, as the vault calls them -/

/-- The state in which a deployed stream runs. -/
def Factory.Deployed.state (d : Deployed) (l : Ledger) : Stream.State :=
  { store := d.store, tokens := l, events := d.events, transfers := d.transfers }

namespace Vault

/-- The deployed streams, and what the withdrawals from them have returned so far. -/
structure Fleet where
  streams : Address → Option Factory.Deployed
  returned : List I128 := []

def Fleet.info (f : Fleet) (a : Address) : Option Stream.StreamInfo :=
  (f.streams a).bind fun d => d.store.config

/-- A withdrawal from a stream has returned an amount, and left its state. -/
def Fleet.withdrew (f : Fleet) (stream : Address) (amount : I128) (s : Stream.State) : Fleet where
  streams := Function.update f.streams stream (some ⟨s.store, s.events, s.transfers⟩)
  returned := f.returned ++ [amount]

/-- The calls of `DripStream`; there is nothing at the other addresses.  A withdrawal is authorized by
whoever has authorized the call of the vault. -/
def dripStreams : Streams Fleet where
  recipient _ stream x := do
    let d ← x.1.streams stream
    let info ← d.store.config
    return (info.recipient, x)
  withdrawable env stream x := do
    let d ← x.1.streams stream
    let amount ← (Stream.viewWithdrawable (env.invoke stream) (d.state x.2)).toOption
    return (amount, x)
  withdraw env stream amount x := do
    let d ← x.1.streams stream
    let r ← (Stream.withdraw (env.invoke stream) amount (d.state x.2)).toOption
    return ((), x.1.withdrew stream r.1 r.2, r.2.tokens)

variable {env : Env} {s s' : State Fleet} {f : Fleet} {l : Ledger} {ids : List Address} {reply : Reply}
variable {recipient stream a : Address} {d : Factory.Deployed} {info : Stream.StreamInfo} {amount : I128}

/-! ### What is due -/

/-- What a stream says can be withdrawn. -/
def owed (env : Env) (f : Fleet) (l : Ledger) (a : Address) : I128 :=
  ((f.streams a).bind fun d =>
    (Stream.viewWithdrawable (env.invoke a) (d.state l)).toOption).getD (.lit 0)

/-- The streams that something can be withdrawn from. -/
def payers (env : Env) (f : Fleet) (l : Ledger) (ids : List Address) : List Address :=
  ids.filter fun a => (owed env f l a).val ≠ 0

/-- What a stream holds of its token. -/
def held (f : Fleet) (l : Ledger) (a : Address) : Int :=
  match f.info a with
  | some info => (l.balance info.token a).val
  | none => 0

/-- What a payment of `b` adds to what `a` holds. -/
def passes (f : Fleet) (l : Ledger) (b : Address) (amount : Int) (a : Address) : Int :=
  match f.streams b, f.info b, f.info a with
  | some d, some info, some info' =>
      if info'.token = info.token then Stream.share (d.state l) info amount a else 0
  | _, _, _ => 0

/-- Every stream holds what can be withdrawn from it when its turn comes: what it holds now, and what
the streams before it pass on to it. -/
def Covered (env : Env) (f : Fleet) (l : Ledger) (ids : List Address) : Prop :=
  Clamped.Covered (fun a => (owed env f l a).val) (passes f l) (held f l) (payers env f l ids)

/-! ### The calls -/

theorem callStream_eq_ok {α : Type} {g : Visit Fleet α} {y : α × State Fleet} :
    callStream env stream g s = .ok y ↔ stream ≠ env.contract ∧
      ∃ x, g (s.world, s.tokens) = some x ∧
        y = (x.1, { s with world := x.2.1, tokens := x.2.2 }) := by
  simp only [callStream, bind_eq_ok, reject_eq_ok, okOr_eq_ok, pure_eq_ok, exists_const]
  refine and_congr_right fun _ => exists_congr fun x => and_congr_right fun _ => ?_
  exact eq_comm

/-- The first two calls change nothing. -/
theorem recipient_eq_some {x : Fleet × Ledger} {r : Address × Fleet × Ledger}
    (h : dripStreams.recipient env stream x = some r) : r.2 = x := by
  simp only [dripStreams, Option.bind_eq_bind, Option.bind_eq_some_iff, Option.pure_def,
    Option.some.injEq] at h
  obtain ⟨d, -, info, -, rfl⟩ := h
  rfl

theorem withdrawable_eq_some {x : Fleet × Ledger} {r : I128 × Fleet × Ledger}
    (h : dripStreams.withdrawable env stream x = some r) :
    r.1 = owed env x.1 x.2 stream ∧ r.2 = x := by
  simp only [dripStreams, Option.bind_eq_bind, Option.bind_eq_some_iff, Option.pure_def,
    Option.some.injEq] at h
  obtain ⟨d, hd, amount, hamount, rfl⟩ := h
  refine ⟨?_, rfl⟩
  unfold owed
  rw [hd, Option.bind_some, hamount]
  rfl

theorem collect_spec {x y : Collected Fleet}
    (h : collect dripStreams env recipient x stream = .ok y) :
    stream ∉ x.seen ∧ y.seen = x.seen ++ [stream] ∧ y.state = x.state ∧
      y.total.val = x.total.val + ((payers env x.state.world x.state.tokens [stream]).map fun a =>
        (owed env x.state.world x.state.tokens a).val).sum ∧
      y.payouts = x.payouts ++ (payers env x.state.world x.state.tokens [stream]).map fun a =>
        (a, owed env x.state.world x.state.tokens a) := by
  simp only [collect, bind_eq_ok, reject_eq_ok, callStream_eq_ok, exists_const] at h
  obtain ⟨hseen, y₁, ⟨-, r₁, hr₁, rfl⟩, -, y₂, ⟨-, r₂, hr₂, rfl⟩, hneg, h⟩ := h
  have hx₁ := recipient_eq_some hr₁
  obtain ⟨hamount, hx₂⟩ := withdrawable_eq_some hr₂
  rw [hx₁] at hx₂ hamount h
  rw [hx₂] at h
  dsimp only at hamount h
  rw [hamount] at h hneg
  unfold payers
  rw [List.filter_singleton]
  split at h
  · rename_i hzero
    cases h
    simp [hseen, hzero]
  · rename_i hzero
    simp only [bind_eq_ok, okOr_eq_ok, pure_eq_ok, Ranged.checkedAdd_eq_some] at h
    obtain ⟨total, htotal, rfl⟩ := h
    simp [hseen, hzero, htotal]

theorem payers_cons : payers env f l (a :: ids) = payers env f l [a] ++ payers env f l ids :=
  List.filter_append [a] ids

/-- What the vault has found out when it starts to withdraw. -/
theorem collected {x y : Collected Fleet}
    (h : ids.foldlM (collect dripStreams env recipient) x = .ok y) (hx : x.seen.Nodup) :
    y.state = x.state ∧ (x.seen ++ ids).Nodup ∧
      y.total.val = x.total.val + ((payers env x.state.world x.state.tokens ids).map fun a =>
        (owed env x.state.world x.state.tokens a).val).sum ∧
      y.payouts = x.payouts ++ (payers env x.state.world x.state.tokens ids).map fun a =>
        (a, owed env x.state.world x.state.tokens a) := by
  induction ids generalizing x with
  | nil =>
      cases h
      simp [payers, hx]
  | cons a ids ih =>
      rw [List.foldlM_cons, bind_eq_ok] at h
      obtain ⟨z, hz, h⟩ := h
      obtain ⟨hnew, hseen, hstate, htotal, hpayouts⟩ := collect_spec hz
      have hz : z.seen.Nodup := by
        rw [hseen]
        exact List.nodup_append.mpr ⟨hx, List.pairwise_singleton _ a, fun b hb c hc => by
          obtain rfl := List.mem_singleton.mp hc
          rintro rfl
          exact hnew hb⟩
      obtain ⟨hstate', hnodup, htotal', hpayouts'⟩ := ih h hz
      rw [hstate] at hstate' htotal' hpayouts'
      rw [payers_cons, List.map_append, List.map_append, List.sum_append]
      refine ⟨hstate', ?_, ?_, ?_⟩
      · rw [hseen, List.append_assoc] at hnodup
        exact hnodup
      · rw [htotal', htotal, add_assoc]
      · rw [hpayouts', hpayouts, List.append_assoc]

/-! ### The withdrawals -/

/-- A withdrawal of what can be withdrawn pays it up to what the stream holds. -/
theorem withdrawStream_spec (h : withdrawStream dripStreams env s (a, amount) = .ok s')
    (hd : s.world.streams a = some d) (hs : Stream.Sound a (d.state s.tokens) info env.timestamp.val)
    (howed : Stream.viewWithdrawable (env.invoke a) (d.state s.tokens) = .ok amount)
    (hne : amount.val ≠ 0) :
    ∃ x : I128, x.val = min amount.val (s.tokens.balance info.token a).val ∧
      s'.world.returned = s.world.returned ++ [x] ∧
      (∀ b, b ≠ a → s'.world.streams b = s.world.streams b) ∧
      ∀ t b, (s'.tokens.balance t b).val = (s.tokens.balance t b).val
        - (if t = info.token ∧ b = a then x.val else 0)
        + if t = info.token then Stream.share (d.state s.tokens) info x.val b else 0 := by
  simp only [withdrawStream, bind_eq_ok, callStream_eq_ok, pure_eq_ok] at h
  obtain ⟨y, ⟨-, r, hr, rfl⟩, rfl⟩ := h
  simp only [dripStreams, Option.bind_eq_bind, Option.bind_eq_some_iff, Option.pure_def,
    Option.some.injEq, toOption_eq_some] at hr
  obtain ⟨d', hd', w, hw, rfl⟩ := hr
  obtain rfl : d = d' := Option.some.inj (hd.symm.trans hd')
  have hmoves := Stream.withdraw_moves hs.config hs.split_le hw
  obtain ⟨v, -, -, ts, hv, -, -, -, -, hpayout, -, hx⟩ :=
    Stream.withdraw_spec hs.config hs.withdrawn_nonneg hs.split_le hw
  refine ⟨w.1, ?_, rfl, fun b hb => Function.update_of_ne hb _ _, hmoves⟩
  have hamount : amount.val = max (v.val - info.withdrawn.val) 0 := by
    simp only [Stream.viewWithdrawable, bind_eq_ok, Stream.load_eq_ok, hs.config, Option.some.injEq] at howed
    obtain ⟨_, rfl, howed⟩ := howed
    split at howed
    · cases howed
      exact absurd rfl hne
    · obtain ⟨v', hv', hval⟩ := Stream.withdrawable_val hs.withdrawn_nonneg howed
      obtain rfl := Except.ok.inj (hv.symm.trans hv')
      exact hval
  rw [hx, hpayout.sent, hamount, Stream.payable, min_self]
  rfl

/-- What a stream says can be withdrawn does not depend on who holds which tokens. -/
theorem owed_of_ne_zero (hd : f.streams a = some d) (hne : (owed env f l a).val ≠ 0) (l' : Ledger) :
    Stream.viewWithdrawable (env.invoke a) (d.state l') = .ok (owed env f l a) := by
  have hl : Stream.viewWithdrawable (env.invoke a) (d.state l') =
      Stream.viewWithdrawable (env.invoke a) (d.state l) := rfl
  unfold owed at hne ⊢
  rw [hd, Option.bind_some] at hne ⊢
  cases h : Stream.viewWithdrawable (env.invoke a) (d.state l) with
  | ok amount => exact hl.trans h
  | error e =>
      rw [h] at hne
      exact absurd rfl hne

/-- A deployed stream that a withdrawal is to be made from. -/
structure Payer (env : Env) (f : Fleet) (l : Ledger) (a : Address) (d : Factory.Deployed)
    (info : Stream.StreamInfo) : Prop where
  deployed : f.streams a = some d
  sound : Stream.Sound a (d.state l) info env.timestamp.val
  owed : (owed env f l a).val ≠ 0

theorem Payer.config (h : Payer env f l a d info) : f.info a = some info := by
  unfold Fleet.info
  rw [h.deployed, Option.bind_some]
  exact h.sound.config

theorem Payer.held (h : Payer env f l a d info) (l' : Ledger) :
    held f l' a = (l'.balance info.token a).val := by
  unfold Vault.held
  rw [h.config]

theorem Payer.passes {b : Address} {d' : Factory.Deployed} {info' : Stream.StreamInfo}
    (h : Payer env f l a d info) (h' : Payer env f l b d' info') (x : Int) :
    passes f l a x b =
      if info'.token = info.token then Stream.share (d.state l) info x b else 0 := by
  unfold Vault.passes
  rw [h.deployed, h.config, h'.config]

/-- The withdrawals, one after the other. -/
theorem paid_out {queue : List Address} (hnodup : queue.Nodup)
    (hkept : ∀ a ∈ queue, s.world.streams a = f.streams a)
    (hpayers : ∀ a ∈ queue, ∃ d info, Payer env f l a d info)
    (h : (queue.map fun a => (a, owed env f l a)).foldlM (withdrawStream dripStreams env) s = .ok s') :
    ∃ paid, Clamped.Pays (fun a => (owed env f l a).val) (passes f l) (held f s.tokens) queue
        (paid.map Ranged.val) ∧
      s'.world.returned = s.world.returned ++ paid := by
  induction queue generalizing s with
  | nil =>
      cases h
      exact ⟨[], .nil _, (List.append_nil _).symm⟩
  | cons a rest ih =>
      rw [List.map_cons, List.foldlM_cons, bind_eq_ok] at h
      obtain ⟨s₁, h₁, h⟩ := h
      obtain ⟨hnew, hnodup⟩ := List.nodup_cons.mp hnodup
      obtain ⟨d, info, hp⟩ := hpayers a List.mem_cons_self
      have hd : s.world.streams a = some d := (hkept a List.mem_cons_self).trans hp.deployed
      obtain ⟨x, hx, hreturned, hothers, hmoves⟩ := withdrawStream_spec h₁ hd hp.sound.outside
        (owed_of_ne_zero hp.deployed hp.owed s.tokens) hp.owed
      have hrest : ∀ b ∈ rest, b ≠ a := fun b hb hba => hnew (hba ▸ hb)
      obtain ⟨paid, hpaid, hreturned'⟩ := ih hnodup
        (fun b hb => (hothers b (hrest b hb)).trans (hkept b (List.mem_cons_of_mem a hb)))
        (fun b hb => hpayers b (List.mem_cons_of_mem a hb)) h
      rw [← hp.held s.tokens] at hx
      refine ⟨x :: paid, ?_, ?_⟩
      · rw [List.map_cons, hx]
        refine .cons (fun b hb => ?_) hpaid
        -- what the first payment adds to what a later stream holds
        obtain ⟨d', info', hp'⟩ := hpayers b (List.mem_cons_of_mem a hb)
        rw [← hx, hp'.held, hp'.held, hp.passes hp', hmoves info'.token b,
          if_neg fun hba => hrest b hb hba.2, sub_zero]
        rfl
      · rw [hreturned', hreturned, List.append_assoc, List.singleton_append]

/-! ### The total -/

/-- Two passes over the list, with the pause and the lock around them. -/
theorem vaultBatchWithdraw_eq_ok
    (h : vaultBatchWithdraw dripStreams env ids recipient s = .ok (reply, s')) :
    ∃ (s₁ s₂ : State Fleet) (x : Collected Fleet), s₁.world = s.world ∧ s₁.tokens = s.tokens ∧
      ids.foldlM (collect dripStreams env recipient) { state := s₁ } = .ok x ∧
      x.payouts.foldlM (withdrawStream dripStreams env) x.state = .ok s₂ ∧
      reply = .amount x.total ∧ s'.world = s₂.world := by
  simp only [vaultBatchWithdraw, assertNotPaused, nonReentrant, bind_eq_ok, reject_eq_ok, pure_eq_ok,
    exists_const] at h
  obtain ⟨-, s₀, ⟨-, rfl⟩, -, r, ⟨x, hx, s₂, hs₂, rfl⟩, hreply⟩ := h
  obtain ⟨rfl, rfl⟩ := Prod.mk.inj hreply
  refine ⟨_, s₂, x, ?_, ?_, hx, hs₂, rfl, rfl⟩
  · rfl
  · rfl

/-! ### A sample vault and a stream

The stream is just created, at time 100, and holds 10000 tokens. -/

namespace Sample

/-- Ten tokens a second from 100 on, with no end. -/
def openEnded : Stream.InitArgs := { Stream.Sample.args with endTime := .lit 0 }

def created (args : Stream.InitArgs) : Factory.Deployed :=
  let s := (Stream.Sample.born args).state
  ⟨s.store, s.events, s.transfers⟩

/-- The vault after its initialization. -/
def batching (args : Stream.InitArgs) : State Fleet :=
  let fleet : Fleet :=
    { streams := fun a => if a = Stream.Sample.address then some (created args) else none }
  ((Moment.fresh (Stream.Sample.born args).state.tokens fleet).tour dripStreams (calls [])).2.state

/-- The withdrawal by the recipient of the stream. -/
def batch (args : Stream.InitArgs) (t : U64) : Result (Reply × State Fleet) :=
  vaultBatchWithdraw dripStreams (signedBy Stream.Sample.recipient t (.lit 1)) [Stream.Sample.address]
    Stream.Sample.recipient (batching args)

theorem reachable_created {args : Stream.InitArgs} {d : Factory.Deployed} {a : Address}
    (hb : (Stream.initializeStream (Stream.Sample.envAt (.lit 100)) args
      (Stream.State.fresh Stream.Sample.tokens)).isOk = true)
    (htokens : (batching args).tokens = (Stream.Sample.born args).state.tokens)
    (hstreams : (batching args).world.streams =
      fun a => if a = Stream.Sample.address then some (created args) else none)
    (hd : (batching args).world.streams a = some d) :
    Stream.Reachable a ⟨d.state (batching args).tokens, .lit 100⟩ := by
  rw [hstreams] at hd
  dsimp only at hd
  split at hd
  · rename_i ha
    obtain rfl := Option.some.inj hd
    rw [htokens, ha]
    exact ⟨args, _, [], Stream.Sample.born_of_initialize hb, .nil _⟩
  · cases hd

end Sample

/-- **The total of `vault_batch_withdraw`** is what the streams have paid exactly if each of them holds
what can be withdrawn from it when its turn comes. -/
theorem total_iff_covered
    (hids : ∀ a ∈ ids, ∀ d, s.world.streams a = some d → ∃ clock : U64,
      clock.val ≤ env.timestamp.val ∧ Stream.Reachable a ⟨d.state s.tokens, clock⟩)
    (h : vaultBatchWithdraw dripStreams env ids recipient s = .ok (reply, s')) :
    ∃ (total : I128) (returned : List I128), reply = .amount total ∧
      s'.world.returned = s.world.returned ++ returned ∧
      (total.val = (returned.map Ranged.val).sum ↔ Covered env s.world s.tokens ids) := by
  obtain ⟨s₁, s₂, x, hworld, htokens, hcollect, hwithdraw, rfl, hs'⟩ := vaultBatchWithdraw_eq_ok h
  obtain ⟨hstate, hnodup, htotal, hpayouts⟩ := collected hcollect List.nodup_nil
  dsimp only at hstate htotal hpayouts
  rw [List.nil_append] at hnodup hpayouts
  rw [hworld, htokens] at htotal hpayouts
  rw [hstate, hpayouts] at hwithdraw
  have hpayers : ∀ a ∈ payers env s.world s.tokens ids, ∃ d info,
      Payer env s.world s.tokens a d info := by
    intro a ha
    obtain ⟨hmem, howed⟩ := List.mem_filter.mp ha
    have howed : (owed env s.world s.tokens a).val ≠ 0 := of_decide_eq_true howed
    cases hd : s.world.streams a with
    | none =>
        unfold owed at howed
        rw [hd] at howed
        exact absurd rfl howed
    | some d =>
        obtain ⟨clock, hclock, hreach⟩ := hids a hmem d hd
        obtain ⟨info, hs⟩ := Stream.sound_of_reachable hreach
        exact ⟨d, info, hd, hs.wait hclock, howed⟩
  obtain ⟨paid, hpaid, hreturned⟩ := paid_out (hnodup.filter _) (fun a _ => by rw [hworld]) hpayers
    hwithdraw
  rw [htokens] at hpaid
  refine ⟨x.total, paid, rfl, ?_, ?_⟩
  · rw [hs', hreturned, hworld]
  · rw [htotal, zero_add, eq_comm]
    exact Clamped.sum_eq_iff hpaid

theorem total_iff_covered_funded :
    ∃ reply s' total returned, Sample.batch Stream.Sample.args (.lit 300) = .ok (reply, s') ∧
      reply = .amount total ∧
      s'.world.returned = (Sample.batching Stream.Sample.args).world.returned ++ returned ∧
      (total.val = (returned.map Ranged.val).sum ↔
        Covered (Sample.signedBy Stream.Sample.recipient (.lit 300) (.lit 1))
          (Sample.batching Stream.Sample.args).world (Sample.batching Stream.Sample.args).tokens
          [Stream.Sample.address]) := by
  obtain ⟨r, hr⟩ := exists_of_isOk (x := Sample.batch Stream.Sample.args (.lit 300)) (by decide +kernel)
  have hids : ∀ a ∈ [Stream.Sample.address], ∀ d,
      (Sample.batching Stream.Sample.args).world.streams a = some d → ∃ clock : U64,
      clock.val ≤ (300 : Int) ∧
        Stream.Reachable a ⟨d.state (Sample.batching Stream.Sample.args).tokens, clock⟩ := by
    intro a _ d hd
    exact ⟨.lit 100, by decide, Sample.reachable_created (by decide +kernel) rfl rfl hd⟩
  obtain ⟨total, returned, h⟩ := total_iff_covered hids hr
  exact ⟨r.1, r.2, total, returned, hr, h⟩

/-- The open-ended stream says that 20000 can be withdrawn at 2100, and pays the 10000 it holds. -/
theorem reports_unpaid :
    (∀ a ∈ [Stream.Sample.address], ∀ d,
      (Sample.batching Sample.openEnded).world.streams a = some d →
      Stream.Reachable a ⟨d.state (Sample.batching Sample.openEnded).tokens, .lit 100⟩) ∧
    (Sample.batching Sample.openEnded).world.returned = [] ∧
    ∃ s', Sample.batch Sample.openEnded (.lit 2100) = .ok (.amount (.lit 20000), s') ∧
      s'.world.returned = [.lit 10000] := by
  refine ⟨fun a _ d hd => Sample.reachable_created (by decide +kernel) rfl rfl hd, rfl, ?_⟩
  exact ⟨_, rfl, rfl⟩

end Vault

end Drip
