import Drip.Factory.Effects

/-!
# Factory — Registry

The registry over every run of a fresh factory: the address map, the set of known streams, the
counters, the lock and the indices agree with each other and with the creations announced.

* `Moves.registered`, `registered_of_run`: the registry is that of the creations announced.
* `Moves.creations`: creations are only added.
* `registry_of_run`: what the parts of the registry then say, each in its own terms.
-/

namespace Drip.Factory
open Chain Paged

section

variable {here : Address} {w w' w₀ : World} {K : Address → Prop} {a : Action} {as : List Action}

/-! ### Along a run -/

theorem Steady.registered (h : Steady w w') (hr : Registered w) : Registered w' := by
  have hcount : streamCount w'.factory = streamCount w.factory := by
    unfold streamCount
    rw [h.count]
  have hagg : aggregate w'.factory = aggregate w.factory := by
    unfold aggregate
    rw [h.totals]
  refine ⟨?_, ?_, ?_, ?_, ?_, ?_, ?_, ?_, ?_, ?_⟩
  · rw [h.count]; exact hr.initialized
  · rw [hcount, h.creations]; exact hr.count
  · rw [h.streamAddr, h.creations]; exact hr.addr
  · rw [h.known, h.creations]; exact hr.known
  · rw [hagg, h.creations]; exact hr.supply
  · rw [h.lock]; exact hr.lock
  · rw [h.creations]; exact hr.distinct
  · intro b hb
    rw [h.creations] at hb
    rw [h.deployed]
    exact hr.deployed b hb
  · rw [h.senders, h.creations]; exact hr.senders
  · rw [h.recipients, h.creations]; exact hr.recipients

theorem Move.registered (h : Move K w w') (hr : Registered w) : Registered w' := by
  cases h with
  | steady h => exact h.registered hr
  | registers h => exact h.registered hr
  | records hK hnew =>
      exact ⟨hr.initialized, hr.count, hr.addr, hr.known, hr.supply, hr.lock, hr.distinct,
        hr.deployed, hr.senders, hr.recipients⟩

theorem Moves.registered (h : Moves K w w') (hr : Registered w) : Registered w' := by
  induction h with
  | refl => exact hr
  | tail _ hmove ih => exact hmove.registered ih

/-- Creations are only added. -/
theorem Moves.creations (h : Moves K w w') : w.creations <+: w'.creations := by
  induction h with
  | refl => exact List.prefix_rfl
  | tail _ hmove ih =>
      refine ih.trans ?_
      cases hmove with
      | steady h => exact h.creations ▸ List.prefix_rfl
      | registers h => rw [h.creations]; exact List.prefix_append _ _
      | records hK hnew => exact List.prefix_rfl

theorem registered_of_step (h : Step here w a w') (hr : Registered w) : Registered w' :=
  (moves_of_step hr h).registered hr

theorem registered_of_run (h : Run (Step here) w as w') (hr : Registered w) :
    Registered w' ∧ w.creations <+: w'.creations := by
  refine h.invariant (P := fun w' => Registered w' ∧ w.creations <+: w'.creations) ?_
    ⟨hr, List.prefix_rfl⟩
  rintro w₁ a w₂ - hstep ⟨hr₁, hle⟩
  have hmoves := moves_of_step hr₁ hstep
  exact ⟨hmoves.registered hr₁, hle.trans hmoves.creations⟩

theorem registered_of_fresh (h : Fresh w) : Registered w := by
  obtain ⟨hash, governor, tokens, h⟩ := h
  simp only [initializeFactory, bind_eq_ok, pure_eq_ok] at h
  obtain ⟨-, -, -, -, -, -, rfl⟩ := h
  exact ⟨rfl, rfl, fun i => rfl, fun a => rfl, rfl, rfl, List.nodup_nil, fun a ha => absurd ha
    List.not_mem_nil, fun a => ⟨[], .nil, rfl⟩, fun a => ⟨[], .nil, rfl⟩⟩

/-! ### What the registry says -/

theorem Registered.streamAddr_iff (hr : Registered w) {i : U64} {stream : Address} :
    w.factory.streamAddr i = some stream ↔ ∃ c ∈ w.creations[i.val.toNat]?, c.stream = stream := by
  rw [hr.addr, Option.map_eq_some_iff]
  rfl

theorem Registered.isSome_streamAddr (hr : Registered w) (i : U64) :
    (w.factory.streamAddr i).isSome = true ↔ i.val < (streamCount w.factory).val := by
  rw [hr.addr, hr.count, Option.isSome_map, Option.isSome_iff_ne_none, ne_eq,
    List.getElem?_eq_none_iff]
  have := i.ge
  omega

theorem Registered.streamAddr_injective (hr : Registered w) {i j : U64} {stream : Address}
    (hi : w.factory.streamAddr i = some stream) (hj : w.factory.streamAddr j = some stream) :
    i = j := by
  have hlt := (hr.isSome_streamAddr i).mp (by rw [hi]; rfl)
  rw [hr.count] at hlt
  rw [hr.addr, ← List.getElem?_map] at hi hj
  have hnat := (List.getElem?_inj (by rw [List.length_map]; have := i.ge; omega) hr.distinct).mp
    (hi.trans hj.symm)
  have := i.ge
  have := j.ge
  exact Ranged.ext (by omega)

theorem Registered.known_iff (hr : Registered w) {stream : Address} :
    Known w.factory stream ↔ ∃ i, w.factory.streamAddr i = some stream := by
  unfold Known
  rw [hr.known]
  constructor
  · intro h
    split at h
    · rename_i hin
      obtain ⟨c, hc, rfl⟩ := List.mem_map.mp hin
      obtain ⟨n, hn⟩ := List.mem_iff_getElem?.mp hc
      have hlt := (List.getElem?_eq_some_iff.mp hn).1
      have hcount := hr.count
      have hle := (streamCount w.factory).le
      exact ⟨⟨n, by omega, by omega⟩, hr.streamAddr_iff.mpr ⟨c, hn, rfl⟩⟩
    · cases h
  · rintro ⟨i, hi⟩
    obtain ⟨c, hc, rfl⟩ := hr.streamAddr_iff.mp hi
    rw [if_pos (List.mem_map_of_mem (List.mem_of_getElem? hc))]
    rfl

/-- The index of `a` is the list `xs`: in increasing order, the ids of the creations whose party is
`a`.  Up to `u32::MAX` of them, less a page, that is what its readers return. -/
structure Enumerates (party : Creation → Address) (cs : List Creation) (a : Address) (ix : Index)
    (xs : List U64) : Prop where
  legacy : ix.legacy = none
  pages : Gathers xs ix.pages
  increasing : xs.Pairwise fun i j => i.val < j.val
  mem : ∀ i : U64, i ∈ xs ↔ ∃ c ∈ cs[i.val.toNat]?, party c = a
  reads : xs.length + 99 ≤ u32Max → ReadsAs xs (streamPage ix) (countIndex ix) ix.pages

theorem Indexes.enumerates {party : Creation → Address} {cs : List Creation} {a : Address}
    {ix : Index} (h : Indexes party cs a ix) : ∃ xs, Enumerates party cs a ix xs := by
  obtain ⟨xs, hxs, hids⟩ := h
  refine ⟨xs, hxs.legacy, hxs.gathers, ?_, fun i => ?_, fun hlen => ?_⟩
  · have hinc : ((idsOf party a cs).map (Nat.cast : Nat → Int)).Pairwise (· < ·) :=
      List.pairwise_map.mpr (idsOf_increasing.imp Int.ofNat_lt.mpr)
    rw [← hids] at hinc
    exact List.pairwise_map.mp hinc
  · have hval : i ∈ xs ↔ i.val ∈ xs.map Ranged.val :=
      (List.mem_map_of_injective fun _ _ => Ranged.ext).symm
    rw [hval, hids, List.mem_map, ← mem_idsOf]
    constructor
    · rintro ⟨n, hn, he⟩
      rw [← he]
      exact hn
    · exact fun hn => ⟨_, hn, Int.toNat_of_nonneg i.ge⟩
  · exact readsAs_of_holds (hxs.holds hlen) (by rw [List.length_nil, Nat.zero_add]; exact hlen)

/-- **The registry of a fresh factory.**  After any run of calls, successful and failed, of direct
calls to the streams and of token movements: the addresses are set for the ids below the counter, are
distinct, are the known streams, and stay as they are; the total supply is the counter; the lock is
free; and the index of every sender and of every recipient lists the ids announced for them, in
increasing order. -/
theorem registry_of_run (hfresh : Fresh w₀) (hrun : Run (Step here) w₀ as w) :
    (∀ i, (w.factory.streamAddr i).isSome = true ↔ i.val < (streamCount w.factory).val) ∧
    (∀ i stream bs w', w.factory.streamAddr i = some stream → Run (Step here) w bs w' →
      w'.factory.streamAddr i = some stream) ∧
    (∀ i j stream, w.factory.streamAddr i = some stream → w.factory.streamAddr j = some stream →
      i = j) ∧
    (∀ stream, Known w.factory stream ↔ ∃ i, w.factory.streamAddr i = some stream) ∧
    (aggregate w.factory).totalSupply = streamCount w.factory ∧
    w.factory.createLock.getD false = false ∧
    (∀ i : U64, i.val < (streamCount w.factory).val → ∃ c, w.creations[i.val.toNat]? = some c ∧
      w.factory.streamAddr i = some c.stream) ∧
    ∀ a, (∃ xs, Enumerates Creation.creator w.creations a (w.factory.bySender a) xs) ∧
      ∃ xs, Enumerates Creation.recipient w.creations a (w.factory.byRecipient a) xs := by
  obtain ⟨hr, -⟩ := registered_of_run hrun (registered_of_fresh hfresh)
  refine ⟨hr.isSome_streamAddr, ?_, fun _ _ _ => hr.streamAddr_injective, fun _ => hr.known_iff,
    Ranged.ext (hr.supply.trans hr.count.symm), hr.lock, fun i hi => ?_, fun a =>
    ⟨(hr.senders a).enumerates, (hr.recipients a).enumerates⟩⟩
  · intro i stream bs w' hi hlater
    obtain ⟨hr', later, hlater⟩ := registered_of_run hlater hr
    obtain ⟨c, hc, hstream⟩ := hr.streamAddr_iff.mp hi
    refine hr'.streamAddr_iff.mpr ⟨c, ?_, hstream⟩
    rw [← hlater, List.getElem?_append_left (List.getElem?_eq_some_iff.mp hc).1]
    exact hc
  · obtain ⟨stream, hs⟩ := Option.isSome_iff_exists.mp ((hr.isSome_streamAddr i).mpr hi)
    obtain ⟨c, hc, rfl⟩ := hr.streamAddr_iff.mp hs
    exact ⟨c, hc, hs⟩

end

/-! ### A sample factory

A factory at the address of the sample creation, on a chain where every contract that is not one of
its streams lets itself be cancelled. -/

namespace Sample

def deployer : Host :=
  { host with
    deployedAddress := fun _ salt => .contract (salt + 7)
    cancelForeign := fun _ _ _ tokens _ => some (tokens, fun _ d => d) }

/-- The world a successful call leaves. -/
def left (r : Result World) : World :=
  match r with
  | .ok w => w
  | .error _ => world

theorem eq_ok_left {r : Result World} (h : r.isOk = true) : r = .ok (left r) := by
  cases r with
  | error e => cases h
  | ok w => rfl

def opened : World := left (initializeFactory 1 (.account 4)
  { factory := {}, tokens := world.tokens, streams := fun _ => none })

theorem fresh_opened : Fresh opened := ⟨1, .account 4, world.tokens, eq_ok_left (by decide +kernel)⟩

def next (w : World) (c : Call) : World := left (exec deployer env w c)

theorem step_next {w : World} {c : Call} (h : (exec deployer env w c).isOk = true) :
    Step env.contract w (.call deployer env c) (next w c) :=
  .call rfl (eq_ok_left h)

/-- One stream, and then its cancellation. -/
def registered : World := next opened (.createStream request none)

def settled : World := next registered (.cancelBatchStreams request.sender [Stream.Sample.address])

/-- The sender cannot pay for a second stream. -/
theorem step_refused : Step env.contract registered
    (.failed deployer env (.createStream request none)) registered := by
  have hfails : (exec deployer env registered (.createStream request none)).isOk = false := by
    decide +kernel
  cases h : exec deployer env registered (.createStream request none) with
  | error e => exact .failed rfl h
  | ok w => rw [h] at hfails; cases hfails

theorem run_settled : Run (Step env.contract) opened
    [.call deployer env (.createStream request none),
      .failed deployer env (.createStream request none),
      .call deployer env (.cancelBatchStreams request.sender [Stream.Sample.address])] settled :=
  (((Run.nil _).snoc (step_next (by decide +kernel))).snoc step_refused).snoc
    (step_next (by decide +kernel))

end Sample

theorem registry_of_run_settled :
    (aggregate Sample.settled.factory).totalSupply = streamCount Sample.settled.factory ∧
      (streamCount Sample.settled.factory).val = 1 ∧
      Known Sample.settled.factory Stream.Sample.address ∧
      ∃ xs, Enumerates Creation.creator Sample.settled.creations Sample.request.sender
        (Sample.settled.factory.bySender Sample.request.sender) xs ∧ .lit 0 ∈ xs := by
  obtain ⟨-, -, -, hknown, hsupply, -, -, hindex⟩ :=
    registry_of_run Sample.fresh_opened Sample.run_settled
  obtain ⟨⟨xs, hxs⟩, -⟩ := hindex Sample.request.sender
  have hcreations : Sample.settled.creations =
      [⟨Sample.request.sender, Sample.request.recipient, Stream.Sample.address⟩] := by
    decide +kernel
  refine ⟨hsupply, by decide +kernel, (hknown _).mpr ⟨.lit 0, by decide +kernel⟩, xs, hxs, ?_⟩
  refine (hxs.mem _).mpr
    ⟨⟨Sample.request.sender, Sample.request.recipient, Stream.Sample.address⟩, ?_, rfl⟩
  rw [hcreations]
  rfl

end Drip.Factory
