import Drip.Support.Runs
import Drip.Stream.Effects

/-!
# Stream — Runs

A stream over time.  A `Moment` is the state of the world around one stream and the ledger time of
the last call; it changes by a call of an entry point at the same or a later time, or by token
movements that do not involve the stream (`Action.outside`), which may add to its balances and
never take from them.

* `Born here m`: the stream at `here` has just been initialized, and holds whatever it was funded
  with.
* `Reachable here m`: some run leads there.
* `sound_of_reachable`: every reachable stream is sound.
* `play` runs a list of calls, for concrete runs.
-/

namespace Drip.Stream
open Chain

structure Moment where
  state : State
  clock : U64

inductive Action where
  | call (env : Env) (c : Call)
  | outside (tokens : Ledger)

variable {env : Env} {here : Address} {m m' m₀ : Moment} {a : Action} {as : List Action}
variable {s s' : State} {info : StreamInfo}

inductive Step (here : Address) : Moment → Action → Moment → Prop where
  | call {m : Moment} {env : Env} {c : Call} {s' : State} (henv : env.contract = here)
      (hclock : m.clock.val ≤ env.timestamp.val) (h : exec env m.state c = .ok s') :
      Step here m (.call env c) ⟨s', env.timestamp⟩
  | outside {m : Moment} {tokens : Ledger}
      (h : ∀ t, (m.state.tokens.balance t here).val ≤ (tokens.balance t here).val) :
      Step here m (.outside tokens) ⟨{ m.state with tokens := tokens }, m.clock⟩

/-- The stream as `initialize` leaves it, whatever it was funded with. -/
def Born (here : Address) (args : InitArgs) (m : Moment) : Prop :=
  ∃ env tokens s₀, env.contract = here ∧ m.clock = env.timestamp ∧
    initializeStream env args (State.fresh tokens) = .ok ((), s₀) ∧
    m.state = { s₀ with tokens := m.state.tokens }

def Reachable (here : Address) (m : Moment) : Prop :=
  ∃ args m₀ as, Born here args m₀ ∧ Run (Step here) m₀ as m

/-! ### Creation -/

/-- The config `initialize` writes, after the publication of the creation. -/
def initialInfo (args : InitArgs) : StreamInfo where
  sender := args.sender
  recipient := args.recipient
  token := args.token
  ratePerSecond := args.ratePerSecond
  startTime := args.startTime
  endTime := args.endTime
  withdrawn := .lit 0
  pausedAt := .lit 0
  flags := (if args.clawbackEnabled then flagClawbackEnabled else 0)
    ||| (if args.isRegulatedAsset then flagRegulatedAsset else 0)
  eventSequence := .lit 1
  cumulativeFees := .lit 0

theorem initialInfo_not_paused (args : InitArgs) : (initialInfo args).isPaused = false := by
  show (((if args.clawbackEnabled then flagClawbackEnabled else 0)
    ||| (if args.isRegulatedAsset then flagRegulatedAsset else 0)) &&& flagPaused != 0) = false
  cases args.clawbackEnabled <;> cases args.isRegulatedAsset <;> decide

/-- What a new stream is made of. -/
structure Created (env : Env) (args : InitArgs) (s : State) : Prop where
  config : s.store.config = some (initialInfo args)
  rate_pos : 0 < args.ratePerSecond.val
  start_lt : 0 < args.endTime.val → args.startTime.val < args.endTime.val
  obligation : 0 < args.endTime.val →
    args.ratePerSecond.val * (args.endTime.val - args.startTime.val) ≤ i128Max
  not_backdated : env.timestamp.val ≤ args.startTime.val
  rateCheckpoint : s.store.rateCheckpoint = none
  cliffConfig : s.store.cliffConfig = none
  pool : s.store.keeperRewardPool = none
  splitConfig : s.store.splitConfig = none
  operator : s.store.operator = none
  autoForwardAddress : s.store.autoForwardAddress = none
  transfers : s.transfers = []

/-- The obligation that passed the guard. -/
theorem totalObligation_spec {args : InitArgs} {total : Option I128}
    (h : totalObligation args = .ok total) (he : 0 < args.endTime.val) :
    ∃ d, total = some d ∧
      d.val = args.ratePerSecond.val * (args.endTime.val - args.startTime.val) := by
  unfold totalObligation at h
  rw [if_pos he] at h
  simp only [bind_eq_ok, okOr_eq_ok, pure_eq_ok, Ranged.checkedSub_eq_some,
    Ranged.checkedMul_eq_some, Ranged.val_widen] at h
  obtain ⟨t, ht, d, hd, rfl⟩ := h
  rw [ht] at hd
  exact ⟨d, rfl, hd⟩

theorem totalObligation_eq_none {args : InitArgs} {total : Option I128}
    (h : totalObligation args = .ok total) (he : ¬ 0 < args.endTime.val) : total = none := by
  unfold totalObligation at h
  rw [if_neg he] at h
  exact (Except.ok.inj h).symm

theorem created_of_initialize {args : InitArgs} {tokens : Ledger}
    (h : initializeStream env args (State.fresh tokens) = .ok ((), s)) : Created env args s := by
  simp [initializeStream, initializeReading, State.fresh, publish_eq_ok] at h
  obtain ⟨hr, -, -, hlt, -, -, -, total, htotal, hb, -, n, hn, rfl⟩ := h
  obtain rfl : n = .lit 1 := Ranged.ext hn
  refine ⟨rfl, hr, hlt, fun he => ?_, hb, rfl, rfl, rfl, rfl, rfl, rfl, rfl⟩
  obtain ⟨d, -, hd⟩ := totalObligation_spec htotal he
  rw [← hd]
  exact d.le

theorem Born.created {args : InitArgs} (h : Born here args m) :
    ∃ env, m.clock = env.timestamp ∧ Created env args m.state := by
  obtain ⟨env, tokens, s₀, -, hclock, h₀, hm⟩ := h
  have hc := created_of_initialize h₀
  refine ⟨env, hclock, ?_⟩
  rw [hm]
  exact ⟨hc.config, hc.rate_pos, hc.start_lt, hc.obligation, hc.not_backdated, hc.rateCheckpoint,
    hc.cliffConfig, hc.pool, hc.splitConfig, hc.operator, hc.autoForwardAddress, hc.transfers⟩

/-- The schedule of a new stream: linear from the start, nothing pending. -/
theorem Created.schedule {args : InitArgs} (h : Created env args s) :
    scheduleOf (initialInfo args) s.store =
      { rate := args.ratePerSecond.val
        start := args.startTime.val
        stop := if args.endTime.val = 0 then none else some args.endTime.val
        pausedAt := none
        checkpoint := none
        cliff := none } := by
  unfold scheduleOf
  rw [h.rateCheckpoint, h.cliffConfig, initialInfo_not_paused]
  rfl

theorem sound_of_born {args : InitArgs} (h : Born here args m) :
    Sound here m.state (initialInfo args) m.clock.val := by
  obtain ⟨env, hclock, hc⟩ := h.created
  refine ⟨hc.config, ?_, le_refl 0, ?_, ?_, fun _ => ⟨hc.operator, initialInfo_not_paused args⟩⟩
  · have hstop : ∀ e ∈ (scheduleOf (initialInfo args) m.state.store).stop, args.startTime.val < e := by
      intro e he
      obtain ⟨hpos, rfl⟩ := mem_stop.mp he
      exact hc.start_lt hpos
    rw [hc.schedule] at hstop ⊢
    exact ⟨hc.rate_pos, hstop, nofun, nofun, nofun, nofun, nofun, fun _ => nofun⟩
  · intro p hp
    rw [hc.pool] at hp
    cases hp
  · intro sc hsc
    rw [hc.splitConfig] at hsc
    cases hsc

/-! ### Soundness of every reachable stream -/

/-- Token movements outside leave the stream sound. -/
theorem Sound.outside {now : Int} {tokens : Ledger} (hs : Sound here s info now) :
    Sound here { s with tokens := tokens } info now :=
  ⟨hs.config, hs.valid, hs.withdrawn_nonneg, hs.pool_token, hs.split_le, hs.sender_here⟩

/-- A successful call on a sound stream, with what it did. -/
structure Called (here : Address) (m : Moment) (info : StreamInfo) (env : Env) (c : Call)
    (s' : State) (info' : StreamInfo) (kept : Int) : Prop where
  contract : env.contract = here
  clock : m.clock.val ≤ env.timestamp.val
  before : Sound here m.state info m.clock.val
  effect : Effect env m.state info c s' info' kept

theorem Called.sound {c : Call} {info' : StreamInfo} {kept : Int}
    (h : Called here m info env c s' info' kept) :
    Sound env.contract m.state info env.timestamp.val := by
  rw [h.contract]
  exact h.before.wait h.clock

theorem called_of_exec {c : Call} (hs : Sound here m.state info m.clock.val)
    (henv : env.contract = here) (hclock : m.clock.val ≤ env.timestamp.val)
    (h : exec env m.state c = .ok s') : ∃ info' kept, Called here m info env c s' info' kept := by
  subst henv
  obtain ⟨info', kept, he⟩ := effect_of_exec (hs.wait hclock) h
  exact ⟨info', kept, rfl, hclock, hs, he⟩

/-- What each step preserves about a sound stream holds along a run, and the stream stays sound. -/
theorem Sound.along {P : StreamInfo → Moment → Prop} {step : Moment → Action → Moment → Prop}
    (hsub : ∀ {m a m'}, step m a m' → Step here m a m')
    (hcall : ∀ {m info env c s' info' kept}, .call env c ∈ as →
      step m (.call env c) ⟨s', env.timestamp⟩ → Called here m info env c s' info' kept →
      P info m → P info' ⟨s', env.timestamp⟩)
    (houtside : ∀ {m info tokens},
      step m (.outside tokens) ⟨{ m.state with tokens := tokens }, m.clock⟩ →
      (∀ t, (m.state.tokens.balance t here).val ≤ (tokens.balance t here).val) →
      m.state.store.config = some info → P info m →
      P info ⟨{ m.state with tokens := tokens }, m.clock⟩)
    (hrun : Run step m₀ as m) (hs : Sound here m₀.state info m₀.clock.val) (h₀ : P info m₀) :
    ∃ info', Sound here m.state info' m.clock.val ∧ P info' m := by
  refine hrun.invariant (P := fun m => ∃ info, Sound here m.state info m.clock.val ∧ P info m)
    ?_ ⟨info, hs, h₀⟩
  intro m a m' ha hstep ⟨info, hs, hP⟩
  cases hsub hstep with
  | call henv hclock h =>
      obtain ⟨info', kept, hc⟩ := called_of_exec hs henv hclock h
      exact ⟨info', henv ▸ hc.effect.sound, hcall ha hstep hc hP⟩
  | outside h => exact ⟨info, hs.outside, houtside hstep h hs.config hP⟩

/-- A run of a sound stream leaves a sound stream of the same sender and token. -/
theorem Sound.run (hs : Sound here m₀.state info m₀.clock.val) (h : Run (Step here) m₀ as m) :
    ∃ info', Sound here m.state info' m.clock.val ∧ info'.sender = info.sender ∧
      info'.token = info.token := by
  refine Sound.along (P := fun info' _ => info'.sender = info.sender ∧ info'.token = info.token)
    id (fun _ _ hc hP => ?_) (fun _ _ _ hP => hP) h hs ⟨rfl, rfl⟩
  exact ⟨hc.effect.sender.trans hP.1, hc.effect.token.trans hP.2⟩

theorem sound_of_reachable (h : Reachable here m) : ∃ info, Sound here m.state info m.clock.val := by
  obtain ⟨args, m₀, as, hborn, hrun⟩ := h
  obtain ⟨info, hs, -, -⟩ := (sound_of_born hborn).run hrun
  exact ⟨info, hs⟩

/-- What holds of the stored config. -/
def Holds (P : StreamInfo → Moment → Prop) (m : Moment) : Prop :=
  ∃ info, m.state.store.config = some info ∧ P info m

/-- `Run.keeps_spec` for a stream: where a step of a sound stream keeps `P` exactly when it is `ok`, a run
of `ok` steps keeps `P`, and no other run has it at every state. -/
theorem Sound.keeps {P : StreamInfo → Moment → Prop} {ok : Moment → Action → Prop}
    {step : Moment → Action → Moment → Prop} (hsub : ∀ m a m', step m a m' → Step here m a m')
    (hok : ∀ m a m' info info', step m a m' → Sound here m.state info m.clock.val →
      Sound here m'.state info' m'.clock.val → P info m → (P info' m' ↔ ok m a))
    (hs : Sound here m₀.state info m₀.clock.val) (h₀ : P info m₀) :
    (Run (fun m a m' => step m a m' ∧ ok m a) m₀ as m → Holds P m) ∧
    (Run (fun m a m' => step m a m' ∧ Holds P m') m₀ as m ↔
      Run (fun m a m' => step m a m' ∧ ok m a) m₀ as m) := by
  have hQ : ∀ m a m', step m a m' → (∃ info, Sound here m.state info m.clock.val) →
      ∃ info, Sound here m'.state info m'.clock.val := by
    rintro m a m' hstep ⟨info, hs⟩
    obtain ⟨info', hs', -⟩ := hs.run ((Run.nil m).snoc (hsub m a m' hstep))
    exact ⟨info', hs'⟩
  have hkeep : ∀ m a m', step m a m' → (∃ info, Sound here m.state info m.clock.val) →
      Holds P m → (Holds P m' ↔ ok m a) := by
    rintro m a m' hstep ⟨info, hs⟩ ⟨info₁, hi, hP⟩
    obtain rfl := Option.some.inj (hi.symm.trans hs.config)
    obtain ⟨info', hs'⟩ := hQ m a m' hstep ⟨_, hs⟩
    rw [← hok m a m' _ info' hstep hs hs' hP]
    constructor
    · rintro ⟨info₂, hi₂, hP₂⟩
      obtain rfl := Option.some.inj (hi₂.symm.trans hs'.config)
      exact hP₂
    · exact fun hP' => ⟨info', hs'.config, hP'⟩
  have hP : Holds P m₀ := ⟨info, hs.config, h₀⟩
  exact (Run.keeps_spec hQ hkeep ⟨info, hs⟩ hP).symm

/-! ### Concrete runs -/

/-- The moment after a list of calls. -/
def play (m : Moment) : List (Env × Call) → Option Moment
  | [] => some m
  | (env, c) :: rest =>
      if m.clock.val ≤ env.timestamp.val then
        match exec env m.state c with
        | .ok s' => play ⟨s', env.timestamp⟩ rest
        | .error _ => none
      else none

theorem run_of_play {calls : List (Env × Call)} (henv : ∀ x ∈ calls, x.1.contract = here)
    (h : play m calls = some m') :
    Run (Step here) m (calls.map fun x => .call x.1 x.2) m' := by
  induction calls generalizing m with
  | nil => cases h; exact .nil _
  | cons x rest ih =>
      obtain ⟨env, c⟩ := x
      unfold play at h
      split at h
      · rename_i hclock
        split at h
        · rename_i s' hs'
          have first : Run (Step here) m [.call env c] ⟨s', env.timestamp⟩ :=
            Run.snoc (.nil m) (.call (henv _ List.mem_cons_self) hclock hs')
          exact first.trans (ih (fun y hy => henv y (List.mem_cons_of_mem _ hy)) h)
        · cases h
      · cases h

/-! ### A sample stream

Ten tokens a second from 100 to 1100, fully funded, with clawback; the runs below start from it. -/

namespace Sample

def address : Address := .contract 7
def token : Address := .contract 9
def sender : Address := .account 1
def recipient : Address := .account 2

/-- An invocation at `t` that everyone but the stream has signed. -/
def envAt (t : U64) : Env := ⟨address, t, .lit 1, fun a => a != address, by decide⟩

def args : InitArgs where
  sender := sender
  recipient := recipient
  token := token
  ratePerSecond := .lit 10
  startTime := .lit 100
  endTime := .lit 1100
  clawbackEnabled := true
  forceCancelPauseSecs := .lit 1000
  isRegulatedAsset := false
  description := none

def tokens : Ledger where
  balance t a := if t = token ∧ (a = address ∨ a = sender) then .lit 10000 else .lit 0

/-- The sample stream with other arguments. -/
def born (args : InitArgs) : Moment where
  state :=
    match initializeStream (envAt (.lit 100)) args (State.fresh tokens) with
    | .ok (_, s) => s
    | .error _ => State.fresh tokens
  clock := .lit 100

/-- The moment after the calls, each at its time. -/
def reached (args : InitArgs) (calls : List (U64 × Call)) : Moment :=
  (play (born args) (calls.map fun x => (envAt x.1, x.2))).getD (born args)

/-- The run of the calls. -/
def actions (calls : List (U64 × Call)) : List Action := calls.map fun x => .call (envAt x.1) x.2

theorem born_of_initialize {args : InitArgs}
    (h : (initializeStream (envAt (.lit 100)) args (State.fresh tokens)).isOk = true) :
    Born address args (born args) := by
  refine ⟨envAt (.lit 100), tokens, (born args).state, rfl, rfl, ?_, rfl⟩
  obtain ⟨r, hr⟩ := exists_of_isOk h
  unfold born
  rw [hr]

theorem run_reached {args : InitArgs} {calls : List (U64 × Call)}
    (h : (play (born args) (calls.map fun x => (envAt x.1, x.2))).isSome = true) :
    Run (Step address) (born args) (actions calls) (reached args calls) := by
  have hplay : play (born args) (calls.map fun x => (envAt x.1, x.2)) =
      some (reached args calls) := by
    unfold reached
    obtain ⟨m, hm⟩ := Option.isSome_iff_exists.mp h
    rw [hm]; rfl
  have henv : ∀ x ∈ calls.map fun x => (envAt x.1, x.2), x.1.contract = address := by
    intro x hx
    obtain ⟨y, -, rfl⟩ := List.mem_map.mp hx
    rfl
  have hrun := run_of_play henv hplay
  rw [List.map_map] at hrun
  exact hrun

theorem reachable_reached {args : InitArgs} {calls : List (U64 × Call)}
    (hb : (initializeStream (envAt (.lit 100)) args (State.fresh tokens)).isOk = true)
    (h : (play (born args) (calls.map fun x => (envAt x.1, x.2))).isSome = true) :
    Reachable address (reached args calls) :=
  ⟨args, born args, actions calls, born_of_initialize hb, run_reached h⟩

/-- The moment after one call at `t`. -/
def next (m : Moment) (t : U64) (c : Call) : Moment :=
  match exec (envAt t) m.state c with
  | .ok s' => ⟨s', t⟩
  | .error _ => m

theorem exec_next {t : U64} {c : Call} (h : (exec (envAt t) m.state c).isOk = true) :
    exec (envAt t) m.state c = .ok (next m t c).state := by
  obtain ⟨s', hr⟩ := exists_of_isOk h
  unfold next
  rw [hr]

theorem step_next {t : U64} {c : Call} (hclock : m.clock.val ≤ t.val)
    (h : (exec (envAt t) m.state c).isOk = true) :
    Step address m (.call (envAt t) c) (next m t c) := by
  have hm : next m t c = ⟨(next m t c).state, (envAt t).timestamp⟩ := by
    obtain ⟨s', hr⟩ := exists_of_isOk h
    unfold next
    rw [hr]
    rfl
  rw [hm]
  exact .call rfl hclock (exec_next h)

/-- The config of a stream. -/
def infoOf (s : State) : StreamInfo := s.store.config.getD (initialInfo args)

/-- The state a successful call leaves. -/
def left (r : Result (Unit × State)) : State :=
  match r with
  | .ok (_, s') => s'
  | .error _ => State.fresh tokens

theorem eq_ok_left {r : Result (Unit × State)} (h : r.isOk = true) : r = .ok ((), left r) := by
  cases r with
  | error e => cases h
  | ok x => rfl

end Sample

end Drip.Stream
