import Drip.Oracle.Pairs

/-!
# Oracle — Calls

The oracle as a machine.  An `Invocation` is an entry point with its arguments, the environment it runs
in and the answers of the feeds; `enter` is what it returns and the state it leaves.  The ledger time of
a `Moment` never goes back (`Visits`).

* `Moment.tour`: a run computed from its invocations, and `run_tour` that it is one.
-/

namespace Drip.Oracle
open Chain

inductive Entry where
  | administer (c : Call)
  | configureOracle (caller : Address) (config : OracleConfig)
  | updateOracleConfig (caller : Address) (update : OracleConfigUpdate)
  | submitPrice (caller : Address) (price : U64)
  | getTwapPrice
  | getTwapPriceForObservations (count : U32)
  | setOracleFeeds (caller primaryOracle : Address) (fallbackOracle : Option Address)
  | setPrimaryOracle (caller primaryOracle : Address)
  | setFallbackOracle (caller fallbackOracle : Address)
  | getPriceWithFallback
  | priceStatus
  | priceAge
  | isPriceStale
  | latestPrice
  | setMaxStalenessSeconds (caller : Address) (seconds : U64)
  | setAssetOracleConfig (caller token : Address) (config : AssetOracleConfig)
  | setMaxDeviationBps (caller : Address) (maxDeviationBps : U32)
  | calculateFiatStreamPayout (tokenAmount : U64)
  | setPrice (caller base quote : Address) (price : U128)
  | getPrice (base quote : Address)
  | getPriceInverted (base quote : Address)
  | setPriceSymbol (caller : Address) (base quote : Symbol) (price : U128)
  | getPriceSymbol (base quote : Symbol)
  | getPriceInvertedSymbol (base quote : Symbol)
  | pause (caller : Address)
  | unpause (caller : Address)
  | isPaused
  | upgrade (caller : Address) (newWasmHash : BitVec 256)

/-- What an entry point returns. -/
inductive Reply where
  | done
  | price (p : U64)
  | data (d : PriceData)
  | status (st : PriceStatus)
  | pairPrice (p : U128)
  | flag (b : Bool)
deriving DecidableEq

structure Invocation where
  feeds : Feeds
  env : Env
  entry : Entry

/-- An entry point without a value. -/
def done (r : Result State) : Result (Reply × State) := do
  let s ← r
  return (.done, s)

def priced (r : Result (U64 × State)) : Result (Reply × State) := do
  let (p, s) ← r
  return (.price p, s)

/-- An entry point that writes nothing. -/
def viewed {α : Type} (reply : α → Reply) (r : Result α) (s : State) : Result (Reply × State) := do
  let a ← r
  return (reply a, s)

def enter (i : Invocation) (s : State) : Result (Reply × State) :=
  let env := i.env
  let feeds := i.feeds
  match i.entry with
  | .administer c => done (exec env s c)
  | .configureOracle caller config => done (configureOracle env caller config s)
  | .updateOracleConfig caller update => done (updateOracleConfig env caller update s)
  | .submitPrice caller price => done (submitPrice env caller price s)
  | .getTwapPrice => priced (getTwapPrice feeds env s)
  | .getTwapPriceForObservations count => priced (getTwapPriceForObservations feeds env count s)
  | .setOracleFeeds caller primaryOracle fallbackOracle =>
      done (setOracleFeeds env caller primaryOracle fallbackOracle s)
  | .setPrimaryOracle caller primaryOracle => done (setPrimaryOracle env caller primaryOracle s)
  | .setFallbackOracle caller fallbackOracle => done (setFallbackOracle env caller fallbackOracle s)
  | .getPriceWithFallback => priced (getPriceWithFallback feeds env s)
  | .priceStatus => viewed .status (loadPriceStatus env s.store.toBook) s
  | .priceAge => viewed .price (priceAge env s.store.toBook) s
  | .isPriceStale => viewed .flag (isPriceStale env s.store.toBook) s
  | .latestPrice => viewed .data (latestPrice feeds env s) s
  | .setMaxStalenessSeconds caller seconds => done (setMaxStalenessSeconds env caller seconds s)
  | .setAssetOracleConfig caller token config => done (setAssetOracleConfig env caller token config s)
  | .setMaxDeviationBps caller maxDeviationBps => done (setMaxDeviationBps env caller maxDeviationBps s)
  | .calculateFiatStreamPayout tokenAmount =>
      priced (calculateFiatStreamPayout feeds env tokenAmount s)
  | .setPrice caller base quote price => done (setPrice env caller base quote price s)
  | .getPrice base quote => viewed .pairPrice (getPrice env base quote s) s
  | .getPriceInverted base quote => viewed .pairPrice (getPriceInverted env base quote s) s
  | .setPriceSymbol caller base quote price => done (setPriceSymbol env caller base quote price s)
  | .getPriceSymbol base quote => viewed .pairPrice (getPriceSymbol env base quote s) s
  | .getPriceInvertedSymbol base quote => viewed .pairPrice (getPriceInvertedSymbol env base quote s) s
  | .pause caller => done (pause env caller s)
  | .unpause caller => done (unpause env caller s)
  | .isPaused => .ok (.flag (isPaused env s).1, (isPaused env s).2)
  | .upgrade caller newWasmHash => done (upgrade env caller newWasmHash s)

/-! ### Visits -/

/-- The oracle at a ledger time. -/
structure Moment where
  state : State
  now : U64

def Moment.fresh : Moment := ⟨State.fresh, .lit 0⟩

inductive Visit where
  | made (i : Invocation) (reply : Reply)
  | refused (i : Invocation) (failure : Failure Error)

def Visit.invocation : Visit → Invocation
  | .made i _ => i
  | .refused i _ => i

inductive Visits (here : Address) : Moment → Visit → Moment → Prop where
  | made {m : Moment} {i : Invocation} {reply : Reply} {s' : State} (henv : i.env.contract = here)
      (htime : m.now ≤ i.env.timestamp) (h : enter i m.state = .ok (reply, s')) :
      Visits here m (.made i reply) ⟨s', i.env.timestamp⟩
  /-- an invocation that fails is rolled back -/
  | refused {m : Moment} {i : Invocation} {failure : Failure Error} (henv : i.env.contract = here)
      (htime : m.now ≤ i.env.timestamp) (h : enter i m.state = .error failure) :
      Visits here m (.refused i failure) ⟨m.state, i.env.timestamp⟩

/-- The invocation carried out: what is to be seen of it, and the oracle after it. -/
def Moment.visit (m : Moment) (i : Invocation) : Visit × Moment :=
  match enter i m.state with
  | .ok (reply, s') => (.made i reply, ⟨s', i.env.timestamp⟩)
  | .error failure => (.refused i failure, ⟨m.state, i.env.timestamp⟩)

def Moment.tour (m : Moment) : List Invocation → List Visit × Moment
  | [] => ([], m)
  | i :: rest =>
      let (v, m₁) := m.visit i
      let (vs, m₂) := m₁.tour rest
      (v :: vs, m₂)

variable {here : Address} {m m' : Moment} {v : Visit} {i : Invocation}

theorem visits_visit (henv : i.env.contract = here) (htime : m.now ≤ i.env.timestamp) :
    Visits here m (m.visit i).1 (m.visit i).2 := by
  unfold Moment.visit
  cases h : enter i m.state with
  | error failure => exact .refused henv htime h
  | ok x => exact .made henv htime h

theorem Visits.eq_visit (h : Visits here m v m') : m' = (m.visit v.invocation).2 := by
  unfold Moment.visit
  cases h with
  | made henv htime h => simp only [Visit.invocation, h]
  | refused henv htime h => simp only [Visit.invocation, h]

theorem Visits.time (h : Visits here m v m') :
    m.now ≤ m'.now ∧ m'.now = v.invocation.env.timestamp ∧ v.invocation.env.contract = here := by
  cases h with
  | made henv htime _ => exact ⟨htime, rfl, henv⟩
  | refused henv htime _ => exact ⟨htime, rfl, henv⟩

/-- Invocations of the oracle at `here`, at times that do not go back from `now`. -/
def Scheduled (here : Address) : U64 → List Invocation → Prop
  | _, [] => True
  | now, i :: rest => i.env.contract = here ∧ now ≤ i.env.timestamp ∧ Scheduled here i.env.timestamp rest

instance Scheduled.decide : (here : Address) → (now : U64) → (is : List Invocation) →
    Decidable (Scheduled here now is)
  | _, _, [] => isTrue trivial
  | here, _, i :: rest =>
      have : Decidable (Scheduled here i.env.timestamp rest) := Scheduled.decide here _ rest
      inferInstanceAs (Decidable (_ ∧ _ ∧ _))

theorem run_tour (is : List Invocation) (h : Scheduled here m.now is) :
    Run (Visits here) m (m.tour is).1 (m.tour is).2 := by
  induction is generalizing m with
  | nil => exact .nil m
  | cons i rest ih =>
      obtain ⟨henv, htime, hrest⟩ := h
      have hvisit := visits_visit henv htime
      have first : Run (Visits here) m [(m.visit i).1] (m.visit i).2 := Run.snoc (.nil m) hvisit
      refine first.trans (ih ?_)
      rw [hvisit.time.2.1]
      unfold Moment.visit
      split <;> exact hrest

theorem tour_cons (m : Moment) (i : Invocation) (is : List Invocation) :
    m.tour (i :: is) = ((m.visit i).1 :: ((m.visit i).2.tour is).1, ((m.visit i).2.tour is).2) := rfl

theorem tour_append (is js : List Invocation) :
    (m.tour (is ++ js)).1 = (m.tour is).1 ++ ((m.tour is).2.tour js).1 ∧
      (m.tour (is ++ js)).2 = ((m.tour is).2.tour js).2 := by
  induction is generalizing m with
  | nil => exact ⟨rfl, rfl⟩
  | cons i is ih => exact ⟨congrArg ((m.visit i).1 :: ·) ih.1, ih.2⟩

theorem visit_invocation : (m.visit i).1.invocation = i := by
  unfold Moment.visit
  split <;> rfl

theorem tour_invocations (m : Moment) (is : List Invocation) :
    (m.tour is).1.map Visit.invocation = is := by
  induction is generalizing m with
  | nil => rfl
  | cons i is ih => rw [tour_cons, List.map_cons, visit_invocation, ih]

/-- Invocations related one by one are so in the tours that make them. -/
theorem forall₂_tour {R : Invocation → Invocation → Prop} {is js : List Invocation}
    (h : List.Forall₂ R is js) :
    List.Forall₂ (fun v w => R v.invocation w.invocation) (m.tour is).1 (m'.tour js).1 := by
  rw [← tour_invocations m is, ← tour_invocations m' js, List.forall₂_map_left_iff,
    List.forall₂_map_right_iff] at h
  exact h

theorem mem_tour {is : List Invocation} (h : v ∈ (m.tour is).1) : v.invocation ∈ is := by
  induction is generalizing m with
  | nil => exact absurd h List.not_mem_nil
  | cons i rest ih =>
      rcases List.mem_cons.mp h with hv | h
      · have hi : v.invocation = i := hv ▸ visit_invocation
        rw [hi]
        exact List.mem_cons_self
      · exact List.mem_cons_of_mem i (ih h)

/-! ### A sample oracle

Account 1 is its first admin. -/

namespace Sample

/-- Feeds that do not answer. -/
def silent : Feeds := ⟨fun _ => none, fun _ => none⟩

/-- The initialization and the entries, each at its time. -/
def invocations (feeds : Feeds) (entries : List (U64 × Entry)) : List Invocation :=
  ((.lit 100, .administer (.initializeOracle admin)) :: entries).map fun x =>
    ⟨feeds, envAt x.1, x.2⟩

def visited (feeds : Feeds) (entries : List (U64 × Entry)) : Moment :=
  (Moment.fresh.tour (invocations feeds entries)).2

theorem run_visited (feeds : Feeds) (entries : List (U64 × Entry))
    (h : Scheduled address (.lit 0) (invocations feeds entries)) :
    Run (Visits address) Moment.fresh (Moment.fresh.tour (invocations feeds entries)).1
      (visited feeds entries) := run_tour _ h

end Sample

end Drip.Oracle
