import Mathlib.Logic.Relation
import Drip.Protocol.Withdrawals
import Drip.Stream.Custody

/-!
# Protocol — Interior

What happens within one invocation of any contract of the protocol, down to the calls it makes of others.
The contracts share the balances and the deployed streams (`Shared`), and change them by transfers, by
calls of streams, and by deploying streams (`Act`).

* `p` names who takes part: the signers, the contract that runs, and the contracts of others that it
  calls.  `T` says which streams may be deployed.
* `Stands Q now x`: each stream of `x` is where its own entry points have brought it from its
  `initialize`, whatever the others have done meanwhile.
* `Acts.stands`: this stays so, and `Acts.custody`: only those who take part, and streams, lose tokens.
-/

namespace Drip.Network
open Chain

/-- What the contracts share. -/
structure Shared where
  tokens : Ledger
  streams : Address → Option Factory.Deployed

/-- After a call that left a stream in the state `s`. -/
def Shared.withStream (x : Shared) (stream : Address) (s : Stream.State) : Shared where
  tokens := s.tokens
  streams := Function.update x.streams stream (some ⟨s.store, s.events, s.transfers⟩)

theorem Shared.withStream_self (x : Shared) (stream : Address) (s : Stream.State) :
    (x.withStream stream s).streams stream = some ⟨s.store, s.events, s.transfers⟩ :=
  Function.update_self ..

theorem Shared.withStream_of_ne {x : Shared} {stream a : Address} {s : Stream.State} (h : a ≠ stream) :
    (x.withStream stream s).streams a = x.streams a := Function.update_of_ne h _ _

/-- Which streams may be deployed, and with which arguments. -/
abbrev Terms := Address → Stream.InitArgs → Prop

inductive Act (now : U64) (p : Address → Prop) (T : Terms) : Shared → Shared → Prop where
  | moves {x : Shared} {tokens : Ledger} (h : x.tokens.Moves p tokens) :
      Act now p T x { x with tokens := tokens }
  | call {x : Shared} {env : Env} {d : Factory.Deployed} {c : Stream.Call} {s : Stream.State}
      (hd : x.streams env.contract = some d) (htime : env.timestamp = now)
      (hsigned : ∀ a, env.authorized a = true → p a)
      (h : Stream.exec env (d.state x.tokens) c = .ok s) : Act now p T x (x.withStream env.contract s)
  | deploys {x : Shared} {env : Env} {args : Stream.InitArgs} {s : Stream.State}
      (hfree : x.streams env.contract = none) (htime : env.timestamp = now)
      (hT : T env.contract args)
      (h : Stream.initializeStream env args (.fresh x.tokens) = .ok ((), s)) :
      Act now p T x (x.withStream env.contract s)

abbrev Acts (now : U64) (p : Address → Prop) (T : Terms) : Shared → Shared → Prop :=
  Relation.ReflTransGen (Act now p T)

variable {now : U64} {p q : Address → Prop} {T Q : Terms} {x y : Shared} {a : Address}

theorem Act.mono (hp : ∀ a, p a → q a) (hT : ∀ a args, T a args → Q a args) (h : Act now p T x y) :
    Act now q Q x y := by
  cases h with
  | moves h => exact .moves (h.mono hp)
  | call hd htime hsigned h => exact .call hd htime (fun a ha => hp a (hsigned a ha)) h
  | deploys hfree htime hT' h => exact .deploys hfree htime (hT _ _ hT') h

theorem Acts.mono (hp : ∀ a, p a → q a) (hT : ∀ a args, T a args → Q a args) (h : Acts now p T x y) :
    Acts now q Q x y :=
  Relation.ReflTransGen.mono (fun _ _ hact => Act.mono hp hT hact) _ _ h

/-- A stream that its own entry points have brought from its `initialize` to the state `m`. -/
def Placed (Q : Terms) (here : Address) (m : Stream.Moment) : Prop :=
  ∃ args m₀ as, Q here args ∧ Stream.Born here args m₀ ∧ Run (Stream.Step here) m₀ as m

/-- Each stream, at the time of the last call to it. -/
def Stands (Q : Terms) (now : U64) (x : Shared) : Prop :=
  ∀ a d, x.streams a = some d → ∃ clock : U64, clock.val ≤ now.val ∧ Placed Q a ⟨d.state x.tokens, clock⟩

theorem Placed.reachable {m : Stream.Moment} (h : Placed Q a m) : Stream.Reachable a m := by
  obtain ⟨args, m₀, as, -, hborn, hrun⟩ := h
  exact ⟨args, m₀, as, hborn, hrun⟩

theorem Placed.mono {m : Stream.Moment} (hQ : ∀ a args, T a args → Q a args) (h : Placed T a m) :
    Placed Q a m := by
  obtain ⟨args, m₀, as, hT, hborn, hrun⟩ := h
  exact ⟨args, m₀, as, hQ a args hT, hborn, hrun⟩

theorem Placed.snoc {m m' : Stream.Moment} {b : Stream.Action} (h : Placed Q a m)
    (hb : Stream.Step a m b m') : Placed Q a m' := by
  obtain ⟨args, m₀, as, hQ, hborn, hrun⟩ := h
  exact ⟨args, m₀, as ++ [b], hQ, hborn, hrun.snoc hb⟩

/-- Others have moved tokens, and not taken the stream's. -/
theorem Placed.outside {d : Factory.Deployed} {l l' : Ledger} {clock : U64}
    (h : Placed Q a ⟨d.state l, clock⟩)
    (hle : ∀ t, (l.balance t a).val ≤ (l'.balance t a).val) : Placed Q a ⟨d.state l', clock⟩ :=
  h.snoc (.outside hle)

theorem Stands.later {later : U64} (hle : now.val ≤ later.val) (h : Stands Q now x) :
    Stands Q later x := by
  intro a d hd
  obtain ⟨clock, hclock, hplaced⟩ := h a d hd
  exact ⟨clock, hclock.trans hle, hplaced⟩

theorem Stands.mono (hQ : ∀ a args, T a args → Q a args) (h : Stands T now x) : Stands Q now x := by
  intro a d hd
  obtain ⟨clock, hclock, hplaced⟩ := h a d hd
  exact ⟨clock, hclock, hplaced.mono hQ⟩

/-- Whoever may be a stream of the terms. -/
def Terms.site (Q : Terms) (a : Address) : Prop := ∃ args, Q a args

theorem Placed.site {m : Stream.Moment} (h : Placed Q a m) : Q.site a := by
  obtain ⟨args, -, -, hargs, -⟩ := h
  exact ⟨args, hargs⟩

/-- One stream has come to a state of its own, and the others have lost nothing. -/
theorem Stands.withStream {stream : Address} {s : Stream.State} (hx : Stands Q now x)
    (hs : Placed Q stream ⟨s, now⟩) (hle : ∀ a, Q.site a → a ≠ stream →
      ∀ t, (x.tokens.balance t a).val ≤ (s.tokens.balance t a).val) :
    Stands Q now (x.withStream stream s) := by
  intro a d hd
  by_cases ha : a = stream
  · subst ha
    rw [Shared.withStream_self] at hd
    obtain rfl := Option.some.inj hd
    exact ⟨now, le_refl _, hs⟩
  · rw [Shared.withStream_of_ne ha] at hd
    obtain ⟨clock, hclock, hplaced⟩ := hx a d hd
    exact ⟨clock, hclock, hplaced.outside (hle a hplaced.site ha)⟩

/-- Those who take part lose tokens, and a stream that is called. -/
theorem Act.custody (hx : Stands Q now x) (h : Act now p T x y) :
    x.tokens.Moves (fun a => p a ∨ Q.site a) y.tokens := by
  cases h with
  | moves h => exact h.mono fun a ha => .inl ha
  | call hd htime hsigned h =>
      obtain ⟨clock, -, hplaced⟩ := hx _ _ hd
      obtain ⟨info, hs⟩ := Stream.sound_of_reachable hplaced.reachable
      refine (Stream.moves_of_exec hs h).mono fun a ha => ?_
      rcases ha with ha | rfl
      · exact .inl (hsigned a ha)
      · exact .inr hplaced.site
  | deploys hfree htime hT h =>
      show x.tokens.Moves _ (Stream.State.tokens _)
      rw [Stream.tokens_of_initialize h]
      exact .refl _ _

theorem Act.stands (hsites : ∀ a, Q.site a → ¬ p a) (hT : ∀ a args, T a args → Q a args)
    (hx : Stands Q now x) (h : Act now p T x y) : Stands Q now y := by
  cases h with
  | moves h =>
      intro a d hd
      obtain ⟨clock, hclock, hplaced⟩ := hx a d hd
      exact ⟨clock, hclock, hplaced.outside (h.le (hsites a hplaced.site))⟩
  | call hd htime hsigned h =>
      obtain ⟨clock, hclock, hplaced⟩ := hx _ _ hd
      obtain ⟨info, hs⟩ := Stream.sound_of_reachable hplaced.reachable
      subst htime
      refine hx.withStream (hplaced.snoc (.call rfl hclock h)) fun a hsite hne => ?_
      refine (Stream.moves_of_exec hs h).le ?_
      rintro (ha | hself)
      · exact hsites a hsite (hsigned a ha)
      · exact hne hself
  | @deploys env args s hfree htime hT' h =>
      subst htime
      have hborn : Stream.Born env.contract args ⟨s, env.timestamp⟩ := ⟨env, _, s, rfl, rfl, h, rfl⟩
      refine hx.withStream ⟨args, _, [], hT _ _ hT', hborn, .nil _⟩ fun a _ _ t => ?_
      rw [Stream.tokens_of_initialize h]

theorem Acts.stands (hsites : ∀ a, Q.site a → ¬ p a) (hT : ∀ a args, T a args → Q a args)
    (hx : Stands Q now x) (h : Acts now p T x y) : Stands Q now y := by
  induction h with
  | refl => exact hx
  | tail _ hact ih => exact hact.stands hsites hT ih

theorem Acts.custody (hsites : ∀ a, Q.site a → ¬ p a) (hT : ∀ a args, T a args → Q a args)
    (hx : Stands Q now x) (h : Acts now p T x y) :
    x.tokens.Moves (fun a => p a ∨ Q.site a) y.tokens := by
  induction h with
  | refl => exact .refl _ _
  | tail hacts hact ih => exact ih.trans (hact.custody (Acts.stands hsites hT hx hacts))

end Drip.Network
