import Mathlib.Algebra.BigOperators.Group.List.Basic
import Drip.Factory.Batches

/-!
# Factory — Flows

The money of a creation passes through the factory: the sender pays the deposit and the fee in, the
fee and the deposit go out again to the fee's recipient and the new stream.  What one creation adds
to any balance is `net`, in which the factory's own share cancels, whoever the parties are
(`Makes.moved`); what a creation call adds is the sum over its creations (`Made`).

* `flows_of_exec`: where the parties are distinct, what each of them has paid and received.
-/

namespace Drip.Factory
open Chain

/-- The protocol fee on a deposit. -/
def feeOn (config : GovernorConfig) (deposit : I128) : Int :=
  deposit.val * config.feeBps.val / 10000

/-- What `a` pays for a request, in `token`. -/
def paid (config : GovernorConfig) (token a : Address) (p : StreamInitParams) : Int :=
  if p.token = token ∧ p.sender = a then p.deposit.val + feeOn config p.deposit else 0

/-- The fee of a request, in `token`. -/
def charged (config : GovernorConfig) (token : Address) (p : StreamInitParams) : Int :=
  if p.token = token then feeOn config p.deposit else 0

/-- The deposit of a request, in `token`. -/
def deposited (token : Address) (p : StreamInitParams) : Int :=
  if p.token = token then p.deposit.val else 0

/-- What a creation adds to the balance of `a` in `token`. -/
def net (config : GovernorConfig) (token a : Address) (m : StreamInitParams × Address) : Int :=
  (if a = m.2 then deposited token m.1 else 0) +
    (if a = config.feeRecipient then charged config token m.1 else 0) - paid config token a m.1

section

variable {host : Host} {env : Env} {config : GovernorConfig} {p : StreamInitParams} {now id : U64}
variable {description : Option Bytes} {w w' : World} {m : StreamInitParams × Address}
variable {made : List (StreamInitParams × Address)}

/-! ### One creation -/

theorem protocolFee_spec {deposit fee : I128} (h : protocolFee config deposit = .ok fee)
    (hpos : 0 < deposit.val) : fee.val = feeOn config deposit ∧ 0 ≤ fee.val := by
  simp only [protocolFee, bind_eq_ok, okOr_eq_ok, Ranged.checkedMul_eq_some,
    Ranged.ofInt?_eq_some] at h
  obtain ⟨product, hproduct, hfee⟩ := h
  have hbps : 0 ≤ config.feeBps.val := config.feeBps.ge
  have hproduct : product.val = deposit.val * config.feeBps.val := hproduct
  have hnonneg : 0 ≤ deposit.val * config.feeBps.val := Int.mul_nonneg hpos.le hbps
  rw [hproduct, Int.tdiv_eq_ediv_of_nonneg hnonneg] at hfee
  refine ⟨hfee, ?_⟩
  rw [hfee]
  exact Int.ediv_nonneg hnonneg (by decide)

/-- What a token transfer adds to each balance. -/
theorem transfer_moved {token src dst : Address} {amount : I128}
    (h : w.transfer token src dst amount = .ok w') (t a : Address) :
    (w'.tokens.balance t a).val = (w.tokens.balance t a).val
      - (if t = token ∧ a = src then amount.val else 0)
      + (if t = token ∧ a = dst then amount.val else 0) := by
  simp only [World.transfer, bind_eq_ok, okOr_eq_ok, pure_eq_ok] at h
  obtain ⟨tokens, htransfer, rfl⟩ := h
  exact (Ledger.transfer_spec htransfer).2.2 t a

theorem transferChecked_moved {token src dst : Address} {amount : I128} {e : Error}
    (h : w.transferChecked token src dst amount e = .ok w') (t a : Address) :
    (w'.tokens.balance t a).val = (w.tokens.balance t a).val
      - (if t = token ∧ a = src then amount.val else 0)
      + (if t = token ∧ a = dst then amount.val else 0) := by
  simp only [World.transferChecked, bind_eq_ok, pure_eq_ok] at h
  obtain ⟨w₁, hw, -, -, -, -, rfl⟩ := h
  exact transfer_moved hw t a

theorem payFee_moved {token : Address} {fee : I128} (h : payFee env config token fee w = .ok w')
    (hfee : 0 ≤ fee.val) (t a : Address) :
    (w'.tokens.balance t a).val = (w.tokens.balance t a).val
      - (if t = token ∧ a = env.contract then fee.val else 0)
      + (if t = token ∧ a = config.feeRecipient then fee.val else 0) := by
  unfold payFee at h
  split at h
  · exact transfer_moved h t a
  · cases h
    have hzero : fee.val = 0 := by omega
    rw [hzero, ite_self, ite_self]
    omega

/-- **What a creation moves.**  The new stream is at a free address other than the factory's, and each
balance has grown by `net`. -/
theorem moved_of_create (hpos : 0 < p.deposit.val)
    (h : createStreamWithConfig host env config now p description w = .ok (id, w')) :
    ∃ stream, w'.factory.streamAddr id = some stream ∧ stream ≠ env.contract ∧
      ∀ t a, (w'.tokens.balance t a).val =
        (w.tokens.balance t a).val + net config t a (p, stream) := by
  simp only [createStreamWithConfig, bind_eq_ok, okOr_eq_ok, pure_eq_ok,
    Ranged.checkedAdd_eq_some] at h
  obtain ⟨-, -, fee, hfee, total, htotal, -, -, w₁, hpull, w₂, hpay, hash, -, ⟨stream, w₃⟩, hdeploy,
    w₄, hfund, st, hreg, h⟩ := h
  cases h
  obtain ⟨hfee, hnonneg⟩ := protocolFee_spec hfee hpos
  have haddr := register_streamAddr hreg
  refine ⟨stream, haddr, deployStream_ne hdeploy, fun t a => ?_⟩
  obtain ⟨-, s, -, rfl⟩ := deployStream_spec hdeploy
  have h₁ := transferChecked_moved hpull t a
  have h₂ := payFee_moved hpay hnonneg t a
  have h₃ := transferChecked_moved hfund t a
  dsimp only at h₁ h₂ h₃ ⊢
  rw [h₃, h₂, h₁]
  unfold net paid charged deposited
  rw [← hfee]
  dsimp only
  -- the factory pays out what it took in
  by_cases ht : t = p.token
  · simp only [ht, true_and, eq_comm (a := p.sender)]
    split_ifs <;> omega
  · simp only [ht, Ne.symm ht, false_and, if_false, ite_self]
    omega

theorem Makes.moved (h : Makes host env config w m w') :
    m.2 ≠ env.contract ∧ ∀ t a, (w'.tokens.balance t a).val =
      (w.tokens.balance t a).val + net config t a m := by
  obtain ⟨-, now, description, id, hnow, hcreate, haddr⟩ := h
  obtain ⟨stream, hstream, hne, hmoved⟩ := moved_of_create (validated_of_validate hnow).deposit hcreate
  obtain rfl : stream = m.2 := Option.some.inj (hstream.symm.trans haddr)
  exact ⟨hne, hmoved⟩

/-- The address was free, and is deployed to. -/
theorem Makes.deployed (h : Makes host env config w m w') :
    (w.streams m.2).isSome = false ∧ ∃ d, w'.streams = Function.update w.streams m.2 (some d) := by
  obtain ⟨-, now, description, id, -, hcreate, haddr⟩ := h
  obtain ⟨stream, hregisters⟩ := registers_of_create hcreate
  rw [hregisters.streamAddr, Function.update_self] at haddr
  obtain rfl : stream = m.2 := Option.some.inj haddr
  exact ⟨hregisters.fresh, hregisters.streams⟩

/-! ### A sequence of creations -/

/-- The creations `made`, from `w` to `w'`, in an environment whose contract is at `here`. -/
structure Made (here : Address) (config : GovernorConfig) (w : World)
    (made : List (StreamInitParams × Address)) (w' : World) : Prop where
  distinct : (made.map Prod.snd).Nodup
  elsewhere : here ∉ made.map Prod.snd
  new : ∀ a ∈ made.map Prod.snd, (w.streams a).isSome = false
  deployed : ∀ a, (w'.streams a).isSome = true ↔ (w.streams a).isSome = true ∨
    a ∈ made.map Prod.snd
  moved : ∀ t a, (w'.tokens.balance t a).val =
    (w.tokens.balance t a).val + (made.map (net config t a)).sum

theorem Made.nil (here : Address) (config : GovernorConfig) (w : World) : Made here config w [] w :=
  ⟨List.nodup_nil, List.not_mem_nil, fun _ ha => absurd ha List.not_mem_nil,
    fun a => by rw [List.map_nil]; simp, fun t a => (Int.add_zero _).symm⟩

theorem Made.snoc {w₁ : World} (hmade : Made env.contract config w made w₁)
    (h : Makes host env config w₁ m w') : Made env.contract config w (made ++ [m]) w' := by
  obtain ⟨hne, hmoved⟩ := h.moved
  obtain ⟨hfree, d, hstreams⟩ := h.deployed
  have hdeployed := hmade.deployed m.2
  rw [hfree] at hdeployed
  have hnew : (w.streams m.2).isSome = false ∧ m.2 ∉ made.map Prod.snd :=
    ⟨Bool.eq_false_iff.mpr fun hsome => Bool.false_ne_true (hdeployed.mpr (.inl hsome)),
      fun hin => Bool.false_ne_true (hdeployed.mpr (.inr hin))⟩
  have hsnoc : (made ++ [m]).map Prod.snd = made.map Prod.snd ++ [m.2] := by
    rw [List.map_append, List.map_singleton]
  refine ⟨?_, ?_, ?_, fun a => ?_, fun t a => ?_⟩
  · rw [hsnoc, ← List.concat_eq_append]
    exact List.Nodup.concat hnew.2 hmade.distinct
  · rw [hsnoc, List.mem_append, List.mem_singleton]
    exact not_or.mpr ⟨hmade.elsewhere, hne.symm⟩
  · intro a ha
    rw [hsnoc, List.mem_append, List.mem_singleton] at ha
    rcases ha with ha | rfl
    · exact hmade.new a ha
    · exact hnew.1
  · rw [hsnoc, List.mem_append, List.mem_singleton, hstreams]
    by_cases ha : a = m.2
    · simp [ha]
    · simp only [Function.update_of_ne ha, ha, or_false]
      exact hmade.deployed a
  · rw [hmoved, hmade.moved, List.map_append, List.map_singleton, List.sum_append,
      List.sum_singleton]
    omega

theorem made_of_run (h : Run (Makes host env config) w made w') :
    Made env.contract config w made w' ∧ ∀ m ∈ made, env.authorized m.1.sender = true := by
  induction h with
  | nil => exact ⟨.nil _ _ _, fun _ hm => absurd hm List.not_mem_nil⟩
  | snoc _ hmakes ih =>
      obtain ⟨hmade, hsigned⟩ := ih
      refine ⟨hmade.snoc hmakes, fun m hm => ?_⟩
      rcases List.mem_append.mp hm with hm | hm
      · exact hsigned m hm
      · rw [List.mem_singleton.mp hm]
        exact hmakes.1

/-! ### The parties -/

/-- The fee's recipient, the senders and the new streams are distinct. -/
structure Apart (config : GovernorConfig) (made : List (StreamInitParams × Address)) : Prop where
  recipient : config.feeRecipient ∉ made.map Prod.snd
  unpaid : ∀ m ∈ made, m.1.sender ≠ config.feeRecipient
  outside : ∀ m ∈ made, ∀ m' ∈ made, m.1.sender ≠ m'.2

variable {t a : Address}

theorem net_of_ne (hstream : a ≠ m.2) (hfee : a ≠ config.feeRecipient) :
    net config t a m = -paid config t a m.1 := by
  unfold net
  rw [if_neg hstream, if_neg hfee]
  omega

theorem paid_of_ne (h : p.sender ≠ a) : paid config t a p = 0 := if_neg fun hp => h hp.2

/-- A sum in which only one element counts. -/
theorem sum_map_single {α : Type} [DecidableEq α] {xs : List α} {f : α → Int} {x : α}
    (hxs : xs.Nodup) (hx : x ∈ xs) (hothers : ∀ y, y ≠ x → y ∈ xs → f y = 0) :
    (xs.map f).sum = f x := by
  rw [List.sum_map_eq_nsmul_single x f hothers, List.count_eq_one_of_mem hxs hx, one_nsmul]

/-- An address that takes part in no creation. -/
theorem sum_net_other (hstream : a ∉ made.map Prod.snd) (hfee : a ≠ config.feeRecipient)
    (hsender : ∀ m ∈ made, m.1.sender ≠ a) : (made.map (net config t a)).sum = 0 := by
  refine List.sum_eq_zero fun x hx => ?_
  obtain ⟨m, hm, rfl⟩ := List.mem_map.mp hx
  have hne : a ≠ m.2 := by
    rintro rfl
    exact hstream (List.mem_map_of_mem hm)
  rw [net_of_ne hne hfee, paid_of_ne (hsender m hm), Int.neg_zero]

/-- A sender pays for its requests. -/
theorem sum_net_sender (ha : Apart config made) (hm : m ∈ made) :
    (made.map (net config t m.1.sender)).sum =
      -((made.map Prod.fst).map (paid config t m.1.sender)).sum := by
  have hnet : ∀ m' ∈ made, net config t m.1.sender m' = -paid config t m.1.sender m'.1 :=
    fun m' hm' => net_of_ne (ha.outside m hm m' hm') (ha.unpaid m hm)
  rw [List.map_congr_left hnet, List.map_map, List.sum_neg, List.map_map]
  rfl

/-- A stream receives its deposit. -/
theorem sum_net_stream (ha : Apart config made) (hdistinct : (made.map Prod.snd).Nodup)
    (hm : m ∈ made) : (made.map (net config t m.2)).sum = deposited t m.1 := by
  have hfee : m.2 ≠ config.feeRecipient := by
    intro he
    exact ha.recipient (he ▸ List.mem_map_of_mem hm)
  have hnet : ∀ m' ∈ made, net config t m.2 m' = if m.2 = m'.2 then deposited t m'.1 else 0 := by
    intro m' hm'
    unfold net
    rw [if_neg hfee, paid_of_ne (ha.outside m' hm' m hm)]
    omega
  have hothers : ∀ m', m' ≠ m → m' ∈ made → net config t m.2 m' = 0 := by
    intro m' hne hm'
    rw [hnet m' hm', if_neg fun he => hne ?_]
    exact List.inj_on_of_nodup_map hdistinct hm' hm he.symm
  rw [sum_map_single (List.Nodup.of_map _ hdistinct) hm hothers, hnet m hm, if_pos rfl]

/-- The fee's recipient receives the fees. -/
theorem sum_net_fee (ha : Apart config made) :
    (made.map (net config t config.feeRecipient)).sum =
      ((made.map Prod.fst).map (charged config t)).sum := by
  have hnet : ∀ m ∈ made, net config t config.feeRecipient m = charged config t m.1 := by
    intro m hm
    have hstream : config.feeRecipient ≠ m.2 := by
      intro he
      exact ha.recipient (he ▸ List.mem_map_of_mem hm)
    unfold net
    rw [if_neg hstream, if_pos rfl, paid_of_ne (ha.unpaid m hm)]
    omega
  rw [List.map_congr_left hnet, List.map_map]
  rfl

/-- The addresses created are those deployed to since. -/
theorem Made.mem_iff {here : Address} (h : Made here config w made w') :
    a ∈ made.map Prod.snd ↔ (w.streams a).isSome = false ∧ (w'.streams a).isSome = true := by
  have hdeployed := h.deployed a
  constructor
  · exact fun ha => ⟨h.new a ha, hdeployed.mpr (.inr ha)⟩
  · rintro ⟨hfree, ha⟩
    refine (hdeployed.mp ha).resolve_left fun hsome => ?_
    exact Bool.false_ne_true (hfree.symm.trans hsome)

/-- **The factory keeps nothing.**  After a successful creation call under the governor's
configuration, whose fee recipient is none of the factory, the senders and the new streams, there is
one new stream for each request; in every token the factory holds what it held, each sender has paid
the deposits and the fees of its requests, each new stream has received its deposit, and the fee
recipient all fees.  A contract deployed by the call has signed nothing. -/
theorem flows_of_exec {c : Call} (h : exec host env w c = .ok w') (hc : c.requests ≠ [])
    (hconfig : readConfig host w = .ok config)
    (hunsigned : ∀ a, (w.streams a).isSome = false → (w'.streams a).isSome = true →
      env.authorized a = false)
    (hfactory : config.feeRecipient ≠ env.contract)
    (hsenders : ∀ p ∈ c.requests, config.feeRecipient ≠ p.sender)
    (hstreams : (w.streams config.feeRecipient).isSome = false →
      (w'.streams config.feeRecipient).isSome = false) :
    ∃ made : List (StreamInitParams × Address), made.map Prod.fst = c.requests ∧
      (made.map Prod.snd).Nodup ∧
      (∀ a, a ∈ made.map Prod.snd ↔
        (w.streams a).isSome = false ∧ (w'.streams a).isSome = true) ∧
      ∀ t, w'.tokens.balance t env.contract = w.tokens.balance t env.contract ∧
        (∀ a, (∃ p ∈ c.requests, p.sender = a) → (w'.tokens.balance t a).val =
          (w.tokens.balance t a).val - (c.requests.map (paid config t a)).sum) ∧
        (∀ m ∈ made, (w'.tokens.balance t m.2).val =
          (w.tokens.balance t m.2).val + deposited t m.1) ∧
        (w'.tokens.balance t config.feeRecipient).val =
          (w.tokens.balance t config.feeRecipient).val +
            (c.requests.map (charged config t)).sum := by
  have hcreation : c.isCreation = true := by
    cases c with
    | createStream | batchCreateStreams | createBatchStreams => rfl
    | _ => exact absurd rfl hc
  obtain ⟨w₁, config', made, hpause, hconfig', hrequests, hrun⟩ := makes_of_exec h hcreation
  simp only [requireNotPaused, bind_eq_ok, pure_eq_ok] at hpause
  obtain ⟨-, -, rfl⟩ := hpause
  obtain rfl : config = config' := by
    have hsame : readConfig host w = .ok config' := hconfig'
    rw [hconfig] at hsame
    exact Except.ok.inj hsame
  obtain ⟨hmade, hsigned⟩ := made_of_run hrun
  have hnew : ∀ a, a ∈ made.map Prod.snd ↔
      (w.streams a).isSome = false ∧ (w'.streams a).isSome = true := fun a => hmade.mem_iff
  have hapart : Apart config made := by
    refine ⟨fun hin => ?_, fun m hm => ?_, fun m hm m' hm' he => ?_⟩
    · obtain ⟨hfree, hsome⟩ := (hnew _).mp hin
      exact Bool.false_ne_true ((hstreams hfree).symm.trans hsome)
    · exact (hsenders m.1 (hrequests ▸ List.mem_map_of_mem hm)).symm
    · -- a new stream has not signed for the request
      obtain ⟨hfree, hsome⟩ := (hnew m'.2).mp (List.mem_map_of_mem hm')
      have hsigned := hsigned m hm
      rw [he, hunsigned _ hfree hsome] at hsigned
      exact Bool.false_ne_true hsigned
  refine ⟨made, hrequests, hmade.distinct, hnew, fun t => ⟨Ranged.ext ?_, ?_, fun m hm => ?_, ?_⟩⟩
  · rw [hmade.moved, sum_net_other hmade.elsewhere hfactory.symm fun m hm => ?_, Int.add_zero]
    exact env.ne_contract (hsigned m hm)
  · rintro a ⟨p, hp, rfl⟩
    rw [← hrequests] at hp ⊢
    obtain ⟨m, hm, rfl⟩ := List.mem_map.mp hp
    rw [hmade.moved, sum_net_sender hapart hm]
    rfl
  · rw [hmade.moved, sum_net_stream hapart hmade.distinct hm]
  · rw [hmade.moved, sum_net_fee hapart, hrequests]

end

namespace Sample

/-- The sample batch of two: nine thousand tokens, for a fee of ninety. -/
def pairCall : Call := .createBatchStreams request.sender pair false

def paired : World := next opened pairCall

end Sample

theorem flows_of_exec_paired :
    ∃ made : List (StreamInitParams × Address), made.map Prod.fst = Sample.pairParams ∧
      (∀ m ∈ made, (Sample.paired.tokens.balance Sample.request.token m.2).val =
        (Sample.opened.tokens.balance Sample.request.token m.2).val + m.1.deposit.val) ∧
      (Sample.paired.tokens.balance Sample.request.token Sample.request.sender).val =
        (Sample.opened.tokens.balance Sample.request.token Sample.request.sender).val - 9090 ∧
      (Sample.paired.tokens.balance Sample.request.token (.account 3)).val =
        (Sample.opened.tokens.balance Sample.request.token (.account 3)).val + 90 := by
  have hunsigned : ∀ a, (Sample.opened.streams a).isSome = false →
      (Sample.paired.streams a).isSome = true → Sample.env.authorized a = false := by
    intro a _ hdeployed
    refine Bool.eq_false_iff.mpr fun hsigned => ?_
    obtain rfl : a = Stream.Sample.sender := eq_of_beq hsigned
    have hnone : (Sample.paired.streams Stream.Sample.sender).isSome = false := by decide +kernel
    exact absurd (hnone.symm.trans hdeployed) (by decide)
  have hexec : exec Sample.deployer Sample.env Sample.opened Sample.pairCall = .ok Sample.paired :=
    Sample.eq_ok_left (by decide +kernel)
  have hconfig : readConfig Sample.deployer Sample.opened = .ok Sample.config := rfl
  obtain ⟨made, hmade, -, -, h⟩ := flows_of_exec hexec (by decide) hconfig hunsigned (by decide)
    (by decide) (fun _ => by decide +kernel)
  obtain ⟨-, hsenders, hstreams, hfees⟩ := h Sample.request.token
  have htoken : ∀ p ∈ Sample.pairParams, p.token = Sample.request.token := by decide
  refine ⟨made, hmade, fun m hm => ?_, ?_, hfees⟩
  · have hp : m.1 ∈ made.map Prod.fst := List.mem_map_of_mem hm
    rw [hmade] at hp
    rw [hstreams m hm, deposited, if_pos (htoken _ hp)]
  · exact hsenders _ ⟨_, List.mem_cons_self, rfl⟩

end Drip.Factory
