import Mathlib.Logic.Function.Basic
import Mathlib.Order.MinMax
import Drip.Support.Runs

/-!
# Indexer — Migrations

`indexer/src/db/migrate.ts` and `db/migrate.js`, which are one program: the runner that brings a database to
the layout of the repository.  Any number of runners work on one database, each with the files of its own
release, and each of them can fail or be stopped between any two transactions.  Nothing keeps them apart but
the primary key of `schema_migrations`.

* `history_of_run`: the migrations that are recorded are always the first ones of the list of files, each once,
  and the schema is what their scripts make of the first one, in this order.  A runner that comes to the end
  finds all files of its release recorded.
* `Orderly`: what this takes.  Nothing in the runner keeps a `down` from running beside an `up`, which then goes
  on past the file that was undone.
-/

namespace Drip.Indexer

/-- A file of `db/migrations`, and its `.down.sql` if there is one. -/
structure Migration (σ κ : Type) where
  version : κ
  script : σ → Option σ
  down : Option (σ → Option σ)

/-- A runner of `up`: the files that it has, and those it still goes through, without the ones that were
recorded when it began. -/
structure Upgrade (σ κ : Type) where
  release : List (Migration σ κ)
  todo : List (Migration σ κ)

/-- The schema, `schema_migrations`, and the runners. -/
structure Deployment (ω σ κ : Type) where
  schema : σ
  history : List κ
  runners : ω → Option (Upgrade σ κ)

inductive MigrationMove (ω σ κ : Type) where
  | begin (w : ω) (release : List (Migration σ κ))
  | apply (w : ω)
  /-- the script fails, or the version is there already: the transaction is rolled back -/
  | fail (w : ω)
  | finish (w : ω)
  | crash (w : ω)
  | down (release : List (Migration σ κ))

variable {ω σ κ : Type} {files release todo : List (Migration σ κ)} {d d' d₀ : Deployment ω σ κ} {s₀ : σ}
variable {k j : Nat} {a : MigrationMove ω σ κ} {as : List (MigrationMove ω σ κ)} {m : Migration σ κ}

section

variable [DecidableEq ω] [LinearOrder κ]

/-- `listMigrations`, without the versions that are `applied`. -/
def pendingOf (release : List (Migration σ κ)) (history : List κ) : List (Migration σ κ) :=
  release.filter fun m => m.version ∉ history

/-- What the script of the last migration undoes; without one, only the row goes. -/
def revert (release : List (Migration σ κ)) (version : κ) (schema : σ) : Option σ :=
  match (release.find? fun m => m.version = version).bind Migration.down with
  | some script => script schema
  | none => some schema

inductive MigrationStep : Deployment ω σ κ → MigrationMove ω σ κ → Deployment ω σ κ → Prop where
  | begin {d : Deployment ω σ κ} {w : ω} {release : List (Migration σ κ)} (hoff : d.runners w = none) :
      MigrationStep d (.begin w release)
        { d with runners := Function.update d.runners w (some ⟨release, pendingOf release d.history⟩) }
  | apply {d : Deployment ω σ κ} {w : ω} {release todo : List (Migration σ κ)} {m : Migration σ κ}
      {schema : σ} (hon : d.runners w = some ⟨release, m :: todo⟩) (hscript : m.script d.schema = some schema)
      (hnew : m.version ∉ d.history) :
      MigrationStep d (.apply w)
        { schema := schema
          history := d.history ++ [m.version]
          runners := Function.update d.runners w (some ⟨release, todo⟩) }
  | fail {d : Deployment ω σ κ} {w : ω} {u : Upgrade σ κ} (hon : d.runners w = some u) (htodo : u.todo ≠ []) :
      MigrationStep d (.fail w) { d with runners := Function.update d.runners w none }
  | finish {d : Deployment ω σ κ} {w : ω} {release : List (Migration σ κ)}
      (hon : d.runners w = some ⟨release, []⟩) :
      MigrationStep d (.finish w) { d with runners := Function.update d.runners w none }
  | crash {d : Deployment ω σ κ} {w : ω} {u : Upgrade σ κ} (hon : d.runners w = some u) :
      MigrationStep d (.crash w) { d with runners := Function.update d.runners w none }
  | down {d : Deployment ω σ κ} {release : List (Migration σ κ)} {version : κ} {schema : σ}
      (hlast : d.history.max? = some version)
      (hscript : revert release version d.schema = some schema) :
      MigrationStep d (.down release)
        { d with
          schema := schema
          history := d.history.filter fun v => v ≠ version }

end

/-! ### The files -/

/-- Each runner has the first files of the list, those of its release; and no `up` is under way when a `down`
runs. -/
def Orderly (files : List (Migration σ κ)) (d : Deployment ω σ κ) : MigrationMove ω σ κ → Prop
  | .begin _ release => release <+: files
  | .down _ => ∀ w, d.runners w = none
  | _ => True

def MigrationMove.IsDown : MigrationMove ω σ κ → Prop
  | .down _ => True
  | _ => False

/-- What the scripts make of a schema, one after the other. -/
def runScripts (files : List (Migration σ κ)) (schema : σ) : Option σ :=
  files.foldlM (fun schema m => m.script schema) schema

def versions (files : List (Migration σ κ)) : List κ := files.map Migration.version

theorem version_mem (hj : files[j]? = some m) (hk : j < k) : m.version ∈ versions (files.take k) := by
  obtain ⟨hlt, rfl⟩ := List.getElem?_eq_some_iff.mp hj
  exact List.mem_map_of_mem (List.mem_take_iff_getElem.mpr ⟨j, by omega, rfl⟩)

theorem getElem?_release (hrelease : release <+: files) (hj : release[j]? = some m) : files[j]? = some m := by
  obtain ⟨rest, rfl⟩ := hrelease
  rw [List.getElem?_append_left (List.getElem?_eq_some_iff.mp hj).1]
  exact hj

/-- The first `k` files are recorded, and no runner is further. -/
structure Upto (files : List (Migration σ κ)) (k : Nat) (d : Deployment ω σ κ) : Prop where
  le : k ≤ files.length
  history : d.history = versions (files.take k)
  runners : ∀ w u, d.runners w = some u → u.release <+: files ∧ ∃ j ≤ k, u.todo = u.release.drop j

theorem versions_succ (hk : files[k]? = some m) :
    versions (files.take (k + 1)) = versions (files.take k) ++ [m.version] := by
  unfold versions
  rw [List.take_add_one, hk, List.map_append]
  rfl

/-- A runner that ends. -/
theorem Upto.ended [DecidableEq ω] (h : Upto files k d) (w : ω) :
    Upto files k { d with runners := Function.update d.runners w none } := by
  refine ⟨h.le, h.history, fun v u hu => ?_⟩
  dsimp only at hu
  by_cases hv : v = w
  · rw [hv, Function.update_self] at hu
    cases hu
  · rw [Function.update_of_ne hv] at hu
    exact h.runners v u hu

section

variable [LinearOrder κ]

/-- The files stand in the order of their versions, and no two have the same one. -/
def Sorted (files : List (Migration σ κ)) : Prop := files.Pairwise fun m n => m.version < n.version

theorem version_notMem (hsorted : Sorted files) (hj : files[j]? = some m) (hk : k ≤ j) :
    m.version ∉ versions (files.take k) := by
  intro hin
  obtain ⟨n, hn, heq⟩ := List.mem_map.mp hin
  obtain ⟨i, hi, hget⟩ := List.mem_take_iff_getElem.mp hn
  obtain ⟨hlt, rfl⟩ := List.getElem?_eq_some_iff.mp hj
  have hbefore := List.pairwise_iff_getElem.mp hsorted i j (by omega) hlt (by omega)
  rw [hget] at hbefore
  exact hbefore.ne heq

/-- What a runner has to do when it begins. -/
theorem pendingOf_eq (hsorted : Sorted files) (hrelease : release <+: files) :
    pendingOf release (versions (files.take k)) = release.drop k := by
  unfold pendingOf
  conv_lhs => rw [← List.take_append_drop k release]
  rw [List.filter_append]
  have hdone : (release.take k).filter (fun m => m.version ∉ versions (files.take k)) = [] := by
    refine List.filter_eq_nil_iff.mpr fun m hm hnew => ?_
    obtain ⟨i, hi, rfl⟩ := List.mem_take_iff_getElem.mp hm
    have hget := getElem?_release hrelease (List.getElem?_eq_getElem (by omega : i < release.length))
    exact of_decide_eq_true hnew (version_mem hget (by omega))
  have hleft : (release.drop k).filter (fun m => m.version ∉ versions (files.take k)) = release.drop k := by
    refine List.filter_eq_self.mpr fun m hm => decide_eq_true ?_
    obtain ⟨i, hi, rfl⟩ := List.mem_drop_iff_getElem.mp hm
    have hget := getElem?_release hrelease (List.getElem?_eq_getElem (by omega : k + i < release.length))
    exact version_notMem hsorted hget (Nat.le_add_right k i)
  rw [hdone, hleft, List.nil_append]

/-- The last version, and the history without it. -/
theorem Upto.reverted (hsorted : Sorted files) (h : Upto files k d) {version : κ}
    (hlast : d.history.max? = some version) :
    ∃ k', k = k' + 1 ∧ d.history.filter (fun v => v ≠ version) = versions (files.take k') := by
  rw [h.history] at hlast ⊢
  cases k with
  | zero =>
      rw [List.take_zero] at hlast
      cases hlast
  | succ k =>
      have hlt : k < files.length := h.le
      have hget : files[k]? = some files[k] := List.getElem?_eq_getElem hlt
      have hmax : version = files[k].version := by
        obtain ⟨hin, hle⟩ := List.max?_eq_some_iff.mp hlast
        refine le_antisymm ?_ (hle _ (version_mem hget (Nat.lt_succ_self k)))
        obtain ⟨n, hn, rfl⟩ := List.mem_map.mp hin
        obtain ⟨i, hi, rfl⟩ := List.mem_take_iff_getElem.mp hn
        rcases Nat.lt_or_ge i k with hik | hik
        · exact (List.pairwise_iff_getElem.mp hsorted i k (by omega) hlt hik).le
        · obtain rfl : i = k := by omega
          exact le_rfl
      refine ⟨k, rfl, ?_⟩
      subst hmax
      rw [versions_succ hget, List.filter_append]
      have hkept : (versions (files.take k)).filter (fun v => v ≠ files[k].version) =
          versions (files.take k) := by
        refine List.filter_eq_self.mpr fun v hv => decide_eq_true fun heq => ?_
        exact version_notMem hsorted hget le_rfl (heq ▸ hv)
      have hgone : [files[k].version].filter (fun v => v ≠ files[k].version) = [] :=
        List.filter_eq_nil_iff.mpr fun v hv hne => of_decide_eq_true hne (List.mem_singleton.mp hv)
      rw [hkept, hgone, List.append_nil]

/-! ### Runs -/

variable [DecidableEq ω]

/-- A step records nothing, or the next file, after its script; or it is a `down`. -/
theorem upto_of_step (hsorted : Sorted files) (h : MigrationStep d a d') (horderly : Orderly files d a)
    (hd : Upto files k d) :
    ∃ k', Upto files k' d' ∧ (a.IsDown ∨ k' = k ∧ d'.schema = d.schema ∨
      k' = k + 1 ∧ ∃ m ∈ files[k]?, m.script d.schema = some d'.schema) := by
  cases h with
  | @begin w release hoff =>
      refine ⟨k, ⟨hd.le, hd.history, fun v u hu => ?_⟩, .inr (.inl ⟨rfl, rfl⟩)⟩
      dsimp only at hu
      by_cases hv : v = w
      · rw [hv, Function.update_self] at hu
        obtain rfl := Option.some.inj hu
        refine ⟨horderly, k, le_rfl, ?_⟩
        dsimp only
        rw [hd.history, pendingOf_eq hsorted horderly]
      · rw [Function.update_of_ne hv] at hu
        exact hd.runners v u hu
  | @apply w release todo m schema hon hscript hnew =>
      obtain ⟨hrelease, j, hj, htodo⟩ := hd.runners w _ hon
      dsimp only at hrelease htodo
      have hget : release[j]? = some m := by
        rw [← List.head?_drop, ← htodo]
        rfl
      have hfile := getElem?_release hrelease hget
      -- a file before the `k`-th one is recorded already
      obtain rfl : j = k := by
        refine le_antisymm hj (not_lt.mp fun hlt => hnew ?_)
        rw [hd.history]
        exact version_mem hfile hlt
      have hlt := (List.getElem?_eq_some_iff.mp hfile).1
      refine ⟨j + 1, ⟨hlt, ?_, fun v u hu => ?_⟩, .inr (.inr ⟨rfl, m, hfile, hscript⟩)⟩
      · dsimp only
        rw [hd.history, versions_succ hfile]
      · dsimp only at hu
        by_cases hv : v = w
        · rw [hv, Function.update_self] at hu
          obtain rfl := Option.some.inj hu
          refine ⟨hrelease, j + 1, le_rfl, ?_⟩
          dsimp only
          rw [← List.tail_drop, ← htodo]
          rfl
        · rw [Function.update_of_ne hv] at hu
          obtain ⟨hrelease', i, hi, htodo'⟩ := hd.runners v u hu
          exact ⟨hrelease', i, hi.trans (Nat.le_succ j), htodo'⟩
  | fail _ _ => exact ⟨k, hd.ended _, .inr (.inl ⟨rfl, rfl⟩)⟩
  | finish _ => exact ⟨k, hd.ended _, .inr (.inl ⟨rfl, rfl⟩)⟩
  | crash _ => exact ⟨k, hd.ended _, .inr (.inl ⟨rfl, rfl⟩)⟩
  | @down release version schema hlast hscript =>
      obtain ⟨k', rfl, hhistory⟩ := hd.reverted hsorted hlast
      refine ⟨k', ⟨Nat.le_of_succ_le hd.le, hhistory, fun w u hu => ?_⟩, .inl trivial⟩
      cases (horderly w).symm.trans hu

/-- **Migrations are applied in order, each once.**  However runners of different releases overlap, fail and
are started again, as long as each `down` has the database for itself: the recorded versions are those of the
first files, in their order; without a `down`, the schema is what exactly these scripts make of the first
schema; and a runner that has come to its end finds all its files recorded. -/
theorem history_of_run (hsorted : Sorted files)
    (h : Run (fun d a d' => MigrationStep d a d' ∧ Orderly files d a)
      (⟨s₀, [], fun _ => none⟩ : Deployment ω σ κ) as d) :
    ∃ k ≤ files.length, d.history = versions (files.take k) ∧
      ((∀ a ∈ as, ¬ a.IsDown) → runScripts (files.take k) s₀ = some d.schema) ∧
      ∀ w release, d.runners w = some ⟨release, []⟩ → ∀ m ∈ release, m.version ∈ d.history := by
  have hall : ∃ k, Upto files k d ∧
      ((∀ a ∈ as, ¬ a.IsDown) → runScripts (files.take k) s₀ = some d.schema) := by
    induction h with
    | nil => exact ⟨0, ⟨Nat.zero_le _, rfl, fun w u hu => (by cases hu)⟩, fun _ => rfl⟩
    | snoc _ hstep ih =>
        obtain ⟨k, hd, hscripts⟩ := ih
        obtain ⟨k', hd', hwhat⟩ := upto_of_step hsorted hstep.1 hstep.2 hd
        refine ⟨k', hd', fun hno => ?_⟩
        have hbefore := hscripts fun a ha => hno a (List.mem_append_left _ ha)
        rcases hwhat with hdown | ⟨rfl, hsame⟩ | ⟨rfl, m, hget, hscript⟩
        · exact absurd hdown (hno _ (List.mem_append_right _ List.mem_cons_self))
        · rw [hsame]
          exact hbefore
        · unfold runScripts at hbefore ⊢
          rw [List.take_add_one, Option.mem_def.mp hget, List.foldlM_append, hbefore]
          exact (bind_pure _).trans hscript
  obtain ⟨k, hd, hscripts⟩ := hall
  refine ⟨k, hd.le, hd.history, hscripts, fun w release hw m hm => ?_⟩
  obtain ⟨hrelease, j, hj, htodo⟩ := hd.runners w _ hw
  dsimp only at hrelease htodo
  obtain ⟨i, hi, rfl⟩ := List.getElem_of_mem hm
  have hlen : release.length ≤ j := List.drop_eq_nil_iff.mp htodo.symm
  rw [hd.history]
  exact version_mem (getElem?_release hrelease (List.getElem?_eq_getElem hi)) (by omega)

end

namespace Sample

/-- A script that creates a table. -/
def creates (version : Nat) (table : String) : Migration (List String) Nat :=
  ⟨version, fun tables => if table ∈ tables then none else some (tables ++ [table]), none⟩

def initial : Migration (List String) Nat := creates 1 "streams"
def second : Migration (List String) Nat := creates 2 "votes"

/-- Of two runners, the one with the newer release is the slower one, and has to begin again. -/
def moves : List (MigrationMove Bool (List String) Nat) :=
  [.begin true [initial, second], .begin false [initial], .apply false, .fail true,
    .begin true [initial, second], .apply true]

theorem sorted_files : Sorted [initial, second] := by
  unfold Sorted
  exact List.pairwise_pair.mpr (by decide)

theorem run_moves : ∃ d : Deployment Bool (List String) Nat,
    Run (fun d a d' => MigrationStep d a d' ∧ Orderly [initial, second] d a)
      ⟨[], [], fun _ => none⟩ moves d ∧ d.history = [1, 2] ∧ d.schema = ["streams", "votes"] ∧
      d.runners true = some ⟨[initial, second], []⟩ := by
  refine ⟨_, (((((((Run.nil _).snoc ⟨.begin rfl, List.prefix_rfl⟩).snoc
    ⟨.begin rfl, List.prefix_append [initial] [second]⟩).snoc
    ⟨@MigrationStep.apply _ _ _ _ _ _ false [initial] [] initial _ rfl rfl (by decide), trivial⟩).snoc
    ⟨.fail (u := ⟨[initial, second], [initial, second]⟩) rfl (List.cons_ne_nil _ _), trivial⟩).snoc
    ⟨.begin rfl, List.prefix_rfl⟩).snoc
    ⟨@MigrationStep.apply _ _ _ _ _ _ true [initial, second] [] second _ rfl rfl (by decide), trivial⟩),
    rfl, rfl, rfl⟩

end Sample

/-- The slower runner fails on the file that the other one has applied, and goes on when it is started again. -/
theorem history_of_run_overlapping : ∃ d : Deployment Bool (List String) Nat,
    (∃ k ≤ 2, d.history = versions ([Sample.initial, Sample.second].take k)) ∧
    d.schema = ["streams", "votes"] ∧ ∀ m ∈ [Sample.initial, Sample.second], m.version ∈ d.history := by
  obtain ⟨d, hrun, -, hschema, hended⟩ := Sample.run_moves
  obtain ⟨k, hk, hhistory, -, hfound⟩ := history_of_run Sample.sorted_files hrun
  exact ⟨d, ⟨k, hk, hhistory⟩, hschema, hfound true _ hended⟩

end Drip.Indexer
