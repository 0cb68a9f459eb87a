import Drip.Protocol.Consent
import Drip.Stream.Silence

/-!
# Protocol — Silence

A stream in the network while its sender and operator take no part.

* `followed_of_run`: what happens to the stream is a run of its own that none of them has signed.
* `silence_of_run`: whatever the governor, the factory, the vaults and everybody else do, its schedule stays and
  it gives its tokens to its recipient only; if it was funded, it pays in full until it is cancelled.
-/

namespace Drip.Network
open Chain

variable {D : Deployment} {n n' n₁ : State} {a : Action} {as : List Action} {x : Address}
variable {now : U64} {p q : Address → Prop} {T Q : Terms} {y z : Shared} {m₁ : Stream.Moment}

/-- The stream at `x` has come from `m₁` by a run of its own that nobody in `q` has signed. -/
def Followed (q : Address → Prop) (x : Address) (m₁ : Stream.Moment) (now : U64) (y : Shared) : Prop :=
  ∃ (d : Factory.Deployed) (clock : U64) (bs : List Stream.Action), y.streams x = some d ∧
    clock.val ≤ now.val ∧
    Run (fun m b m' => Stream.Step x m b m' ∧ b.Unsigned q) m₁ bs ⟨d.state y.tokens, clock⟩

theorem Followed.later {later : U64} (hle : now.val ≤ later.val) (h : Followed q x m₁ now y) :
    Followed q x m₁ later y := by
  obtain ⟨d, clock, bs, hd, hclock, hrun⟩ := h
  exact ⟨d, clock, bs, hd, hclock.trans hle, hrun⟩

/-- Others have moved tokens, and not taken the stream's. -/
theorem Followed.outside (h : Followed q x m₁ now y) (hsame : z.streams x = y.streams x)
    (hle : ∀ t, (y.tokens.balance t x).val ≤ (z.tokens.balance t x).val) : Followed q x m₁ now z := by
  obtain ⟨d, clock, bs, hd, hclock, hrun⟩ := h
  exact ⟨d, clock, _, hsame.trans hd, hclock, hrun.snoc ⟨.outside hle, trivial⟩⟩

theorem Act.followed (hsites : ∀ b, Q.site b → ¬ p b) (hquiet : ∀ b, q b → ¬ p b) (hy : Stands Q now y)
    (h : Act now p T y z) (hf : Followed q x m₁ now y) : Followed q x m₁ now z := by
  obtain ⟨d, clock, bs, hd, hclock, hrun⟩ := hf
  have hf : Followed q x m₁ now y := ⟨d, clock, bs, hd, hclock, hrun⟩
  obtain ⟨_, _, hplaced⟩ := hy x d hd
  have hx : ¬ p x := hsites x hplaced.site
  cases h with
  | moves h => exact hf.outside rfl (h.le hx)
  | @call env d' c s hd' htime hsigned h =>
      by_cases hself : x = env.contract
      · subst hself
        obtain rfl := Option.some.inj (hd.symm.trans hd')
        subst htime
        refine ⟨_, env.timestamp, _, Shared.withStream_self _ _ _, le_refl _,
          hrun.snoc ⟨.call rfl hclock h, ?_⟩⟩
        exact fun b hb hauth => hquiet b hb (hsigned b hauth)
      · obtain ⟨_, _, hother⟩ := hy _ _ hd'
        obtain ⟨info, hs⟩ := Stream.sound_of_reachable hother.reachable
        have hmoves := Stream.moves_of_exec hs h
        refine hf.outside (Shared.withStream_of_ne hself) (hmoves.le ?_)
        rintro (hauth | heq)
        · exact hx (hsigned x hauth)
        · exact hself heq
  | @deploys env args s hfree htime hT h =>
      have hne : x ≠ env.contract := by
        rintro rfl
        cases hd.symm.trans hfree
      refine hf.outside (Shared.withStream_of_ne hne) fun t => ?_
      show _ ≤ ((Stream.State.tokens s).balance t x).val
      rw [Stream.tokens_of_initialize h]

theorem Acts.followed (hsites : ∀ b, Q.site b → ¬ p b) (hquiet : ∀ b, q b → ¬ p b)
    (hT : ∀ b args, T b args → Q b args) (hy : Stands Q now y) (h : Acts now p T y z)
    (hf : Followed q x m₁ now y) : Followed q x m₁ now z := by
  induction h with
  | refl => exact hf
  | tail hacts hact ih => exact hact.followed hsites hquiet (Acts.stands hsites hT hy hacts) ih

theorem followed_of_step (hn : Reachable D n) (h : Step D n a n') (hquiet : ∀ b, q b → ¬ a.Party D b)
    (hf : Followed q x m₁ n.now n.shared) : Followed q x m₁ n'.now n'.shared :=
  Acts.followed (fun _ hsite hx => role_of_party h hx (site_of_sites hsite)) hquiet
    (fun _ _ => sites_of_terms) (hn.stands.later (now_le_of_step h)) (acts_of_step h)
    (hf.later (now_le_of_step h))

theorem followed_of_run (hn : Reachable D n₁) (h : Run (Step D) n₁ as n)
    (hquiet : ∀ a ∈ as, ∀ b, q b → ¬ a.Party D b) (hf : Followed q x m₁ n₁.now n₁.shared) :
    Followed q x m₁ n.now n.shared := by
  have hrun : Reachable D n ∧ Followed q x m₁ n.now n.shared :=
    h.invariant (P := fun n => Reachable D n ∧ Followed q x m₁ n.now n.shared)
      (fun ha hstep hn => ⟨hn.1.snoc hstep, followed_of_step hn.1 hstep (hquiet _ ha) hn.2⟩) ⟨hn, hf⟩
  exact hrun.2

/-! ### What the recipient can rely on -/

variable {d₁ : Factory.Deployed} {info₁ : Stream.StreamInfo}

/-- A stream that its managers leave alone is left alone by all. -/
theorem left_of_run (hn : Reachable D n₁) (hd : n₁.world.streams x = some d₁)
    (hi : d₁.store.config = some info₁) (h : Run (Step D) n₁ as n)
    (hsilent : ∀ a ∈ as, ∀ b, Stream.Manages info₁ (n₁.world.streamState d₁) b → ¬ a.Party D b) :
    ∃ d info, n.world.streams x = some d ∧ Stream.Sound x (n.world.streamState d) info n.now.val ∧
      Stream.Left x info₁ (n₁.world.streamState d₁) info (n.world.streamState d) := by
  obtain ⟨clock₁, hclock₁, hplaced⟩ := hn.stands x d₁ hd
  obtain ⟨info, hs⟩ := Stream.sound_of_reachable hplaced.reachable
  obtain rfl : info₁ = info := Option.some.inj (hi.symm.trans hs.config)
  have hf : Followed (Stream.Manages info₁ (n₁.world.streamState d₁)) x ⟨n₁.world.streamState d₁, clock₁⟩
      n₁.now n₁.shared := ⟨d₁, clock₁, [], hd, hclock₁, .nil _⟩
  obtain ⟨d, clock, bs, hd', hclock, hrun⟩ := followed_of_run hn h hsilent hf
  obtain ⟨info, hs', hleft⟩ := Stream.left_along hs hrun
  exact ⟨d, info, hd', hs'.wait hclock, hleft⟩

/-- A bounded stream without checkpoint and cliff that holds all that it promises. -/
structure Funded (n : State) (x : Address) (d : Factory.Deployed) (info : Stream.StreamInfo) : Prop where
  bounded : 0 < info.endTime.val
  no_checkpoint : d.store.rateCheckpoint = none
  no_cliff : d.store.cliffConfig = none
  covered : info.ratePerSecond.val * (info.endTime.val - info.startTime.val) ≤
    (n.world.tokens.balance info.token x).val + info.withdrawn.val

/-- From now on a withdrawal is never turned away for want of funds, and it is paid in full. -/
def Pays (n : State) (x : Address) (d : Factory.Deployed) (info : Stream.StreamInfo) : Prop :=
  ∀ env amount, env.contract = x → n.now.val ≤ env.timestamp.val →
    Stream.withdraw env amount (n.world.streamState d) ≠ .error (Stream.err .streamUnderfunded) ∧
    ∀ paid s', Stream.withdraw env amount (n.world.streamState d) = .ok (paid, s') →
      ∃ v, Stream.streamedAmount env (n.world.streamState d) info = .ok v ∧
        paid.val = min amount.val (max (v.val - info.withdrawn.val) 0)

theorem Funded.solvent (h : Funded n x d₁ info₁) :
    (Stream.escrowOf x info₁ (n.world.streamState d₁)).Solvent := by
  have hstop : (Stream.scheduleOf info₁ d₁.store).stop = some info₁.endTime.val :=
    Stream.stop_eq_some.mpr ⟨h.bounded, rfl⟩
  refine ⟨Option.isSome_iff_exists.mpr ⟨_, hstop⟩, ?_, ?_, ?_⟩
  · show d₁.store.rateCheckpoint.map _ = none
    rw [h.no_checkpoint]
    rfl
  · show d₁.store.cliffConfig.map _ = none
    rw [h.no_cliff]
    rfl
  · show (Stream.scheduleOf info₁ d₁.store).obligation ≤ _
    rw [Stream.Schedule.obligation_eq hstop]
    exact h.covered

/-- It has what it needs as long as it is left alone. -/
theorem pays_of_left {d : Factory.Deployed} {info : Stream.StreamInfo} (hfunded : Funded n₁ x d₁ info₁)
    (hs : Stream.Sound x (n.world.streamState d) info n.now.val)
    (hl : Stream.Left x info₁ (n₁.world.streamState d₁) info (n.world.streamState d))
    (hopen : info.isCancelled = false) : Pays n x d info := by
  have hsolvent := hl.solvent hfunded.solvent hopen
  rintro env amount rfl htime
  refine ⟨Stream.avoids_withdraw (hs.wait htime) hsolvent, fun paid s' hw => ?_⟩
  obtain ⟨v, ts, hv, -, -, hpaid⟩ := Stream.withdraw_pays (hs.wait htime) hsolvent hw
  exact ⟨v, hv, hpaid⟩

/-- **A sender who stays silent takes nothing back**: in a run in which the sender and the operator of a
stream take no part, its schedule stays as it is, and unless it is cancelled it holds, with what it has paid,
no less than before.  If it was funded, it pays. -/
theorem silence_of_run (hn : Reachable D n₁) (hd : n₁.world.streams x = some d₁)
    (hi : d₁.store.config = some info₁) (h : Run (Step D) n₁ as n)
    (hsilent : ∀ a ∈ as, ∀ b, Stream.Manages info₁ (n₁.world.streamState d₁) b → ¬ a.Party D b) :
    ∃ d info, n.world.streams x = some d ∧ d.store.config = some info ∧
      Stream.Left x info₁ (n₁.world.streamState d₁) info (n.world.streamState d) ∧
      (Funded n₁ x d₁ info₁ → info.isCancelled = false → Pays n x d info) := by
  obtain ⟨d, info, hd', hs, hl⟩ := left_of_run hn hd hi h hsilent
  exact ⟨d, info, hd', hs.config, hl, fun hfunded => pays_of_left hfunded hs hl⟩

namespace Sample

def fresh : Factory.Deployed := (created.world.streams (site 0)).getD ⟨{}, [], []⟩

theorem streams_created : created.world.streams (site 0) = some fresh := by
  have hsome : (created.world.streams (site 0)).isSome = true := by decide +kernel
  obtain ⟨d, hd⟩ := Option.isSome_iff_exists.mp hsome
  unfold fresh
  rw [hd]
  rfl

def freshInfo : Stream.StreamInfo := fresh.store.config.get (by decide +kernel)

theorem config_fresh : fresh.store.config = some freshInfo := (Option.some_get _).symm

theorem funded_created : Funded created (site 0) fresh freshInfo where
  bounded := by decide +kernel
  no_checkpoint := by decide +kernel
  no_cliff := by decide +kernel
  covered := by decide +kernel

theorem manages_fresh {b : Address}
    (h : Stream.Manages freshInfo (created.world.streamState fresh) b) : b = sender := by
  rcases h with rfl | hoperator
  · show freshInfo.sender = sender
    decide +kernel
  · have hnone : (created.world.streamState fresh).store.operator = none := by decide +kernel
    cases hnone.symm.trans hoperator

end Sample

/-- The stream that was created, after a withdrawal through a vault. -/
theorem silence_of_run_withdrawn :
    ∃ d info, Sample.withdrawn.world.streams (Sample.site 0) = some d ∧ d.store.config = some info ∧
      Stream.Left (Sample.site 0) Sample.freshInfo (Sample.created.world.streamState Sample.fresh) info
        (Sample.withdrawn.world.streamState d) ∧
      (info.isCancelled = false → Pays Sample.withdrawn (Sample.site 0) d info) := by
  have hn : Reachable Sample.deployment Sample.created :=
    Reachable.snoc ⟨_, [], Sample.genesis_opened, .nil _⟩ Sample.step_created
  have hrun := ((Run.nil _).snoc Sample.step_vaulted).snoc Sample.step_withdrawn
  obtain ⟨d, info, hd, hi, hl, hpays⟩ :=
    silence_of_run hn Sample.streams_created Sample.config_fresh hrun fun a ha b hb => by
      obtain rfl := Sample.manages_fresh hb
      simp only [List.mem_append, List.mem_cons, List.not_mem_nil, or_false, false_or] at ha
      obtain rfl | rfl := ha
      · exact Sample.not_joined (by decide) (by decide) List.not_mem_nil
      · exact Sample.not_joined (by decide) (by decide) (by decide +kernel)
  exact ⟨d, info, hd, hi, hl, hpays Sample.funded_created⟩

end Drip.Network
