import Drip.Support.Leases
import Drip.Support.Roster

/-!
# Support — Indexed entries

Entries under keys, and an index of the keys from which all of them are renewed before their leases end.

* `Exact`: the index lists the keys that have an entry, each once; `exact_puts` keeps it.
* `outlast_kept`, `outlast_renewed`: leases that reach past a time go on doing so when entries are written,
  and reach further when all are renewed before that time.
-/

variable {κ ν : Type} [DecidableEq κ]

structure Entries (κ ν : Type) where
  value : κ → Option ν
  index : List κ

namespace Entries

variable {e : Entries κ ν} {ps : List (κ × ν)} {k : κ} {v : ν}

/-- An entry written, and its key put in the index. -/
def put (e : Entries κ ν) (p : κ × ν) : Entries κ ν where
  value := Function.update e.value p.1 (some p.2)
  index := if p.1 ∈ e.index then e.index else e.index ++ [p.1]

def puts (e : Entries κ ν) (ps : List (κ × ν)) : Entries κ ν := ps.foldl put e

/-- The index lists the keys that have an entry. -/
def Exact (e : Entries κ ν) : Prop := Roster (fun k => (e.value k).isSome = true) e.index

theorem isSome_put {p : κ × ν} : ((e.put p).value k).isSome = true ↔ (e.value k).isSome = true ∨ k = p.1 := by
  show (Function.update e.value p.1 (some p.2) k).isSome = true ↔ _
  by_cases hk : k = p.1
  · subst hk
    rw [Function.update_self]
    exact iff_of_true rfl (.inr rfl)
  · rw [Function.update_of_ne hk]
    exact (or_iff_left hk).symm

theorem exact_put {p : κ × ν} (h : e.Exact) : (e.put p).Exact := by
  have hsome : ∀ k, (e.value k).isSome = true ∨ k = p.1 ↔ ((e.put p).value k).isSome = true :=
    fun k => isSome_put.symm
  unfold Exact put
  dsimp only
  split
  · rename_i hin
    refine h.congr fun k => Iff.trans ?_ (hsome k)
    refine ⟨Or.inl, fun hk => hk.elim id ?_⟩
    rintro rfl
    exact (h.mem _).mp hin
  · rename_i hnew
    have hnone : ¬ (e.value p.1).isSome = true := fun hsome => hnew ((h.mem _).mpr hsome)
    exact (h.push hnone).congr hsome

theorem exact_puts (h : e.Exact) : (e.puts ps).Exact := by
  induction ps generalizing e with
  | nil => exact h
  | cons p rest ih => exact ih (exact_put h)

theorem isSome_puts : ((e.puts ps).value k).isSome = true ↔
    (e.value k).isSome = true ∨ k ∈ ps.map Prod.fst := by
  induction ps generalizing e with
  | nil => exact (or_iff_left List.not_mem_nil).symm
  | cons p rest ih =>
      have hrest : (((e.put p).puts rest).value k).isSome = true ↔ _ := ih
      rw [isSome_put, or_assoc, ← List.mem_cons] at hrest
      exact hrest

end Entries

namespace Lease

variable {host : Host} {threshold target first now limit : Int} {e : Entries κ ν} {ps : List (κ × ν)}
variable {stops : κ → Int}

/-- The ends of the leases after a write: an entry that is written is renewed, and a new one starts with a
lease of length `first`. -/
def Host.kept (host : Host) (threshold target first now : Int) (e : Entries κ ν) (stops : κ → Int)
    (written : List κ) (k : κ) : Int :=
  if k ∈ written then
    host.renew threshold now (if (e.value k).isSome then stops k else now + first) target
  else stops k

/-- The ends of the leases after a renewal of all entries in the index; one that has ended is not renewed. -/
def Host.renewed (host : Host) (threshold target now : Int) (e : Entries κ ν) (stops : κ → Int) (k : κ) : Int :=
  if k ∈ e.index ∧ (e.value k).isSome = true ∧ now ≤ stops k then
    host.renew threshold now (stops k) target
  else stops k

/-- No entry ends before `limit`. -/
def Outlast (e : Entries κ ν) (stops : κ → Int) (limit : Int) : Prop :=
  ∀ k, (e.value k).isSome = true → limit ≤ stops k

theorem outlast_kept (htarget : threshold ≤ target) (hcap : threshold ≤ host.cap)
    (h : Outlast e stops limit) (hlimit : limit ≤ now + threshold) :
    Outlast (e.puts ps) (host.kept threshold target first now e stops (ps.map Prod.fst)) limit := by
  intro k hk
  unfold Host.kept
  split
  · exact hlimit.trans (covers_renew htarget hcap)
  · rename_i hold
    exact h k ((Entries.isSome_puts.mp hk).resolve_right hold)

/-- In time, a renewal of all entries leaves the threshold to each. -/
theorem outlast_renewed (htarget : threshold ≤ target) (hcap : threshold ≤ host.cap) (hexact : e.Exact)
    (h : Outlast e stops limit) (htime : now ≤ limit) :
    Outlast e (host.renewed threshold target now e stops) (now + threshold) := by
  intro k hk
  unfold Host.renewed
  rw [if_pos ⟨(hexact.mem k).mpr hk, hk, htime.trans (h k hk)⟩]
  exact covers_renew htarget hcap

end Lease
