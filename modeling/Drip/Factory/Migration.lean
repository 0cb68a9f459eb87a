import Drip.Support.Runs
import Drip.Factory.Paging

/-!
# Factory — Migration

How far the migration of an index has come.  `Laid L n k ix` says which keys an index has after `k`
pages of the legacy vector `L` were copied and `n` entries appended, whatever the pages hold: unlike
`Holds` it is kept up to the last count a `u32` can hold, where the numbers saturate.

* `migrate_laid`, `append_laid`: what the two writers make of it.
* `progress_iff`: what a migration returns is its progress until entries that were appended are
  counted too.
* `progress_of_run`: over any run of appends and migrations.
-/

namespace Drip.Factory
open Chain Paged

variable {L : List U64} {ix ix' : Index} {n k m : Nat} {entry : U64}

/-! ### Which keys there are -/

/-- Where the `i`-th appended entry goes. -/
def slot (L : List U64) (i : Nat) : Nat := saturatingAdd (room L * pageSize) i

/-- The pages there are: `k` of the legacy vector, and those of `n` appended entries. -/
def PagesOf (L : List U64) (n k : Nat) (pages : Nat → Option (List U64)) : Prop :=
  ∀ p, (pages p).isSome = true ↔ p < k ∨ ∃ i < n, p = slot L i / pageSize

structure Underway (L : List U64) (n k : Nat) (ix : Index) : Prop where
  more : k < room L
  legacy : ix.legacy = some L
  count : ix.count = some (saturatingAdd L.length n)
  cursor : ix.cursor = some (k * 100)
  legacyCount : ix.legacyCount = some L.length
  pages : PagesOf L n k ix.pages
  fits : 0 < n → room L * pageSize ≤ u32Max

structure Done (L : List U64) (n : Nat) (ix : Index) : Prop where
  legacy : ix.legacy = none
  count : ix.count = some (saturatingAdd L.length n) ∨ (ix.count = none ∧ L = [] ∧ n = 0)
  cursor : ix.cursor = none
  legacyCount : ix.legacyCount = some L.length ∨ (ix.legacyCount = none ∧ L = [])
  pages : PagesOf L n (room L) ix.pages
  fits : 0 < n → room L * pageSize ≤ u32Max

theorem Done.entries (h : Done L n ix) : ix.count.getD 0 = saturatingAdd L.length n := by
  rcases h.count with hc | ⟨hc, rfl, rfl⟩
  · rw [hc]; rfl
  · rw [hc]; rfl

/-- Pages are in use. -/
inductive InPages (L : List U64) (n : Nat) : Nat → Index → Prop where
  | underway {k : Nat} {ix : Index} (h : Underway L n k ix) : InPages L n k ix
  | done {ix : Index} (h : Done L n ix) : InPages L n (room L) ix

/-- `k` pages of the legacy vector `L` are copied, and `n` entries appended. -/
inductive Laid (L : List U64) : Nat → Nat → Index → Prop where
  | untouched {ix : Index} (h : Untouched L ix) : Laid L 0 0 ix
  | inPages {n k : Nat} {ix : Index} (h : InPages L n k ix) : Laid L n k ix

theorem laid_of_legacy (legacy : Option (List U64)) :
    Laid (legacy.getD []) 0 0 { legacy := legacy } := by
  cases legacy with
  | none =>
      have hdone : Done [] 0 {} :=
        ⟨rfl, .inr ⟨rfl, rfl, rfl⟩, rfl, .inr ⟨rfl, rfl⟩, fun p => by simp [room], nofun⟩
      exact .inPages (.done hdone)
  | some L => exact .untouched ⟨rfl, rfl, rfl, rfl, fun _ => rfl⟩

/-! ### Migration -/

/-- The pages copied after a migration by `m` pages at most. -/
def advance (L : List U64) (k m : Nat) : Nat := min (k + min m maxMigrationPages) (room L)

theorem pages_advanced {pages : Nat → Option (List U64)} (hmore : k < room L) (h : PagesOf L n k pages)
    (c : Nat) : PagesOf L n (min (k + c) (room L)) (advanced L k c pages) := by
  intro p
  have hroom := lt_room (L := L) (p := p)
  unfold advanced
  by_cases hin : k ≤ p ∧ p < k + c ∧ p * 100 < L.length
  · rw [if_pos hin]
    exact iff_of_true rfl (.inl (by omega))
  · rw [if_neg hin, h p]
    refine or_congr_left ?_
    omega

/-- The writes of a migration that copies `c` pages, from the `k`-th on. -/
theorem copies (hL : L.length ≤ u32Max) (hmore : k < room L) {pages : Nat → Option (List U64)} (c : Nat)
    (hpages : PagesOf L n k pages) (hfits : 0 < n → room L * pageSize ≤ u32Max) :
    ∃ ix', (do
        let (cursor, pages) ← migratePages L L.length c (k * 100) pages
        if L.length ≤ cursor then
          return (saturatingAdd L.length n,
            ⟨none, some (saturatingAdd L.length n), none, some L.length, pages⟩)
        else return (saturatingAdd L.length n,
            ⟨some L, some (saturatingAdd L.length n), some cursor, some L.length, pages⟩) :
          Result (Nat × Index)) = .ok (saturatingAdd L.length n, ix') ∧
      InPages L n (min (k + c) (room L)) ix' ∧ (ix'.legacy = none ↔ min (k + c) (room L) = room L) := by
  have hk := lt_room.mp hmore
  have hall := lt_room (L := L) (p := k + c)
  have hcursor : k * 100 = min (k * 100) L.length := by omega
  have hpages := pages_advanced hmore hpages c
  rw [hcursor, migratePages_eq hL, ok_bind]
  dsimp only
  by_cases hdone : k + c < room L
  · rw [if_neg (by omega), min_eq_left hdone.le, min_eq_left (by omega)]
    rw [min_eq_left hdone.le] at hpages
    refine ⟨_, rfl, .underway ⟨hdone, rfl, rfl, rfl, rfl, hpages, hfits⟩, ?_⟩
    simp [hdone.ne]
  · rw [if_pos (by omega), min_eq_right (by omega)]
    rw [min_eq_right (by omega)] at hpages
    exact ⟨_, rfl, .done ⟨rfl, .inl rfl, rfl, .inl rfl, hpages, hfits⟩, by simp⟩

theorem room_eq_zero (h : L.length ≤ 0) : room L = 0 := by
  unfold room
  omega

theorem saturatingAdd_zero (hL : L.length ≤ u32Max) : saturatingAdd L.length 0 = L.length :=
  min_eq_left hL

/-- A migration by `m` pages finds all entries, and copies as many pages as it may. -/
def Migrates (L : List U64) (n k m : Nat) (ix : Index) : Prop :=
  ∃ ix', migrateLegacyIndex ix m = .ok (saturatingAdd L.length n, ix') ∧
    Laid L n (advance L k m) ix' ∧ (ix'.legacy = none ↔ advance L k m = room L) ∧
    (0 < m → InPages L n (advance L k m) ix')

theorem Untouched.migrates (h : Untouched L ix) (hL : L.length ≤ u32Max) (m : Nat) :
    Migrates L 0 0 m ix := by
  obtain ⟨legacy, count, cursor, legacyCount, pages⟩ := ix
  obtain ⟨rfl, rfl, rfl, rfl, hpages⟩ := h
  unfold Migrates migrateLegacyIndex advance
  dsimp only [Option.getD_none] at hpages ⊢
  have hnone : PagesOf L 0 0 pages := fun p => by simp [hpages]
  rw [saturatingAdd_zero hL]
  by_cases hempty : L.length ≤ 0
  · have hroom := room_eq_zero hempty
    have hdone : Done L 0 ⟨none, none, none, none, pages⟩ :=
      ⟨rfl, .inr ⟨rfl, List.eq_nil_of_length_eq_zero (by omega), rfl⟩, rfl,
        .inr ⟨rfl, List.eq_nil_of_length_eq_zero (by omega)⟩, hroom ▸ hnone, nofun⟩
    rw [if_pos hempty, Nat.min_eq_right (by omega)]
    exact ⟨_, rfl, .inPages (.done hdone), by simp, fun _ => .done hdone⟩
  · have hmore : 0 < room L := lt_room.mpr (by omega)
    rw [if_neg hempty]
    by_cases hcap : min m maxMigrationPages = 0
    · rw [if_pos hcap, hcap]
      refine ⟨_, rfl, ?_, ?_, fun hpos => ?_⟩
      · rw [Nat.min_eq_left (Nat.zero_le _)]
        exact .untouched ⟨rfl, rfl, rfl, rfl, hpages⟩
      · simp only [reduceCtorEq, false_iff]
        omega
      · unfold maxMigrationPages at hcap
        omega
    · obtain ⟨ix', heq, hix', hiff⟩ := copies hL hmore (min m maxMigrationPages) hnone nofun
      rw [saturatingAdd_zero hL] at heq
      rw [if_neg hcap]
      exact ⟨ix', heq, .inPages hix', hiff, fun _ => hix'⟩

theorem Underway.migrates (h : Underway L n k ix) (hL : L.length ≤ u32Max) (m : Nat) :
    Migrates L n k m ix := by
  obtain ⟨legacy, count, cursor, legacyCount, pages⟩ := ix
  obtain ⟨hmore, rfl, rfl, rfl, rfl, hpages, hfits⟩ := h
  have hk := lt_room.mp hmore
  unfold Migrates migrateLegacyIndex advance
  dsimp only [Option.getD_some] at hpages ⊢
  rw [if_neg (by omega)]
  by_cases hcap : min m maxMigrationPages = 0
  · have hunder : Underway L n k ⟨some L, some (saturatingAdd L.length n), some (k * 100),
        some L.length, pages⟩ := ⟨hmore, rfl, rfl, rfl, rfl, hpages, hfits⟩
    rw [if_pos hcap, hcap, Nat.min_eq_left (by omega)]
    refine ⟨_, rfl, .inPages (.underway hunder), ?_, fun _ => .underway hunder⟩
    simp [hmore.ne]
  · obtain ⟨ix', heq, hix', hiff⟩ := copies hL hmore (min m maxMigrationPages) hpages hfits
    rw [if_neg hcap]
    exact ⟨ix', heq, .inPages hix', hiff, fun _ => hix'⟩

theorem Done.migrates (h : Done L n ix) (m : Nat) : Migrates L n (room L) m ix := by
  unfold Migrates migrateLegacyIndex advance
  rw [Nat.min_eq_right (Nat.le_add_right _ _), h.legacy, ← h.entries]
  exact ⟨ix, rfl, .inPages (.done h), by simp [h.legacy], fun _ => .done h⟩

theorem migrate_laid (h : Laid L n k ix) (hL : L.length ≤ u32Max) (m : Nat) : Migrates L n k m ix := by
  cases h with
  | untouched h => exact h.migrates hL m
  | inPages h =>
      cases h with
      | underway h => exact h.migrates hL m
      | done h => exact h.migrates m

/-! ### Appending -/

theorem le_room : L.length ≤ room L * pageSize := by
  unfold room pageSize
  omega

theorem appendBase_spec {base : Nat} (h : appendBase L.length = .ok base) :
    base = room L * pageSize ∧ base ≤ u32Max := by
  unfold appendBase at h
  split at h
  next hzero =>
    cases h
    exact ⟨by rw [room_eq_zero hzero.le, Nat.zero_mul], Nat.zero_le _⟩
  next hne =>
    simp only [bind_eq_ok, reject_eq_ok, pure_eq_ok, exists_const] at h
    obtain ⟨hfits, rfl⟩ := h
    refine ⟨?_, not_lt.mp hfits⟩
    unfold room pageSize
    omega

/-- An appended entry goes past the pages of the legacy vector. -/
theorem slot_of_physical {legacyCount : Option Nat} {physical : Nat} (hL : L.length ≤ u32Max)
    (hc : legacyCount = some L.length ∨ (legacyCount = none ∧ L = []))
    (h : logicalToPhysicalOffset (saturatingAdd L.length n) legacyCount = .ok physical) :
    physical = slot L n ∧ room L * pageSize ≤ u32Max := by
  rcases hc with rfl | ⟨rfl, rfl⟩
  · have hle : L.length ≤ saturatingAdd L.length n := le_min (Nat.le_add_right _ _) hL
    have hroom := le_room (L := L)
    unfold logicalToPhysicalOffset at h
    simp only [if_pos hle, bind_eq_ok, pure_eq_ok] at h
    obtain ⟨base, hbase, rfl⟩ := h
    obtain ⟨rfl, hfits⟩ := appendBase_spec hbase
    refine ⟨?_, hfits⟩
    unfold slot saturatingAdd
    omega
  · cases h
    refine ⟨?_, Nat.zero_le _⟩
    simp [slot, room]

theorem pages_appended {pages : Nat → Option (List U64)} {page : List U64} (h : PagesOf L n k pages) :
    PagesOf L (n + 1) k (Function.update pages (slot L n / pageSize) (some page)) := by
  intro p
  have hlast : (∃ i < n + 1, p = slot L i / pageSize) ↔
      (∃ i < n, p = slot L i / pageSize) ∨ p = slot L n / pageSize := Nat.exists_lt_succ_right
  rw [hlast, ← or_assoc, ← h p]
  by_cases hp : p = slot L n / pageSize
  · subst hp
    rw [Function.update_self]
    exact iff_of_true rfl (.inr rfl)
  · rw [Function.update_of_ne hp]
    exact (or_iff_left hp).symm

theorem count_appended : saturatingAdd (saturatingAdd L.length n) 1 = saturatingAdd L.length (n + 1) := by
  unfold saturatingAdd
  omega

/-- An append copies a page, and adds an entry. -/
theorem append_laid (h : Laid L n k ix) (hL : L.length ≤ u32Max)
    (happend : appendIndexEntry ix entry = .ok ix') : Laid L (n + 1) (advance L k 1) ix' := by
  obtain ⟨ix₁, hmig, -, -, hpaged⟩ := migrate_laid h hL migrationPagesPerAppend
  have hpaged : InPages L n (advance L k 1) ix₁ := hpaged (by decide)
  unfold appendIndexEntry at happend
  rw [hmig, ok_bind] at happend
  simp only [bind_eq_ok, pure_eq_ok, count_appended] at happend
  obtain ⟨physical, hphysical, rfl⟩ := happend
  refine .inPages ?_
  generalize advance L k 1 = k' at hpaged ⊢
  cases hpaged with
  | underway h =>
      obtain ⟨rfl, hfits⟩ := slot_of_physical hL (.inl h.legacyCount) hphysical
      exact .underway ⟨h.more, h.legacy, rfl, h.cursor, h.legacyCount, pages_appended h.pages,
        fun _ => hfits⟩
  | done h =>
      obtain ⟨rfl, hfits⟩ := slot_of_physical hL h.legacyCount hphysical
      exact .done ⟨h.legacy, .inl rfl, h.cursor, h.legacyCount, pages_appended h.pages,
        fun _ => hfits⟩

/-! ### Progress -/

/-- The pages of legacy entries written so far. -/
def migratedPages (L : List U64) (ix : Index) : Nat :=
  (List.range (room L)).countP fun p => (ix.pages p).isSome

/-- What a migration is to return, for the index it leaves. -/
structure Progress (L : List U64) (returned : Nat) (ix : Index) : Prop where
  le : returned ≤ L.length
  pages : returned = min L.length (100 * migratedPages L ix)
  removed : returned = L.length ↔ ix.legacy = none

theorem countP_range_lt (r : Nat) : (List.range r).countP (fun p => decide (p < k)) = min k r := by
  induction r with
  | zero => simp
  | succ r ih =>
      rw [List.range_succ, List.countP_append, ih, List.countP_singleton]
      split
      next h =>
        have hlt := of_decide_eq_true h
        omega
      next h =>
        have hge : k ≤ r := by simpa using h
        omega

theorem migratedPages_eq (h : PagesOf L n k ix.pages) (hk : k ≤ room L)
    (hfits : 0 < n → room L * pageSize ≤ u32Max) : migratedPages L ix = k := by
  have hbefore : ∀ p ∈ List.range (room L), (ix.pages p).isSome = true ↔ decide (p < k) = true := by
    intro p hp
    have hroom := List.mem_range.mp hp
    rw [h p, decide_eq_true_iff, or_iff_left]
    rintro ⟨i, hi, rfl⟩
    -- an appended entry is past the room of the legacy vector
    have hfits := hfits (by omega)
    have hslot : room L * pageSize ≤ slot L i := le_min (Nat.le_add_right _ _) hfits
    exact absurd ((Nat.le_div_iff_mul_le (by decide)).mpr hslot) hroom.not_ge
  unfold migratedPages
  rw [List.countP_congr hbefore, countP_range_lt, min_eq_left hk]

theorem Laid.copied_eq (h : Laid L n k ix) : migratedPages L ix = k ∧ k ≤ room L := by
  cases h with
  | untouched h =>
      exact ⟨migratedPages_eq (n := 0) (fun p => by simp [h.pages p]) (Nat.zero_le _) nofun,
        Nat.zero_le _⟩
  | inPages h =>
      cases h with
      | underway h => exact ⟨migratedPages_eq h.pages h.more.le h.fits, h.more.le⟩
      | done h => exact ⟨migratedPages_eq h.pages le_rfl h.fits, le_rfl⟩

/-- Nothing was appended, or the migration will not be over. -/
def Unmixed (L : List U64) (ix : Index) (m : Nat) : Prop :=
  countIndex ix = L.length ∨
    (ix.legacy.isSome = true ∧ ix.cursor.getD 0 + 100 * min m maxMigrationPages < L.length)

theorem Laid.countIndex_eq (h : Laid L n k ix) (hL : L.length ≤ u32Max) :
    countIndex ix = saturatingAdd L.length n := by
  unfold countIndex
  cases h with
  | untouched h => rw [h.count, h.legacy, saturatingAdd_zero hL]; rfl
  | inPages h =>
      cases h with
      | underway h => rw [h.count]; rfl
      | done h =>
          rcases h.count with hc | ⟨hc, rfl, rfl⟩
          · rw [hc]; rfl
          · rw [hc, h.legacy]; rfl

/-- The entries appended are counted, unless there is no room for any. -/
theorem Laid.count_eq_iff (h : Laid L n k ix) (hL : L.length ≤ u32Max) :
    saturatingAdd L.length n = L.length ↔ n = 0 := by
  have hfits : 0 < n → room L * pageSize ≤ u32Max := by
    cases h with
    | untouched h => exact nofun
    | inPages h =>
        cases h with
        | underway h => exact h.fits
        | done h => exact h.fits
  unfold saturatingAdd room pageSize u32Max at *
  omega

theorem Laid.unmixed_iff (h : Laid L n k ix) (hL : L.length ≤ u32Max) :
    Unmixed L ix m ↔ n = 0 ∨ advance L k m < room L := by
  unfold Unmixed
  rw [h.countIndex_eq hL, h.count_eq_iff hL]
  cases h with
  | untouched h => simp
  | inPages h =>
      refine or_congr_right ?_
      have hlt := lt_room (L := L) (p := k + min m maxMigrationPages)
      unfold advance
      cases h with
      | underway h =>
          rw [h.legacy, h.cursor]
          simp only [Option.isSome_some, Option.getD_some, true_and]
          omega
      | done h =>
          rw [h.legacy]
          simp only [Option.isSome_none, Bool.false_eq_true, false_and, false_iff]
          omega

/-- What a migration returns is its progress as long as nothing else is counted. -/
theorem progress_iff (h : Laid L n k ix) (hL : L.length ≤ u32Max)
    (hiff : ix.legacy = none ↔ k = room L) :
    Progress L (migrated ix) ix ↔ n = 0 ∨ k < room L := by
  have hcopied := h.copied_eq
  have hcount := h.count_eq_iff hL
  have hk := lt_room (L := L) (p := k)
  unfold migrated
  cases h with
  | untouched h =>
      refine iff_of_true ⟨?_, ?_, ?_⟩ (.inl rfl)
      all_goals rw [h.cursor, h.count]
      · exact Nat.zero_le _
      · rw [hcopied.1]
        simp
      · rw [hiff]
        simp only [Option.getD_none]
        omega
  | inPages h =>
      cases h with
      | underway h =>
          have hmore := hk.mp h.more
          refine iff_of_true ⟨?_, ?_, ?_⟩ (.inr h.more)
          all_goals rw [h.cursor, Option.getD_some]
          · omega
          · rw [hcopied.1]
            omega
          · rw [hiff]
            omega
      | done h =>
          -- the cursor is gone, and the count of all entries stands in for it
          have hstands : ix.cursor.getD (ix.count.getD 0) = saturatingAdd L.length n := by
            rw [h.cursor]
            exact h.entries
          have hge : L.length ≤ saturatingAdd L.length n := le_min (Nat.le_add_right _ _) hL
          rw [hstands, or_iff_left (lt_irrefl _), ← hcount]
          constructor
          · intro h
            exact h.le.antisymm hge
          · intro heq
            rw [heq]
            refine ⟨le_rfl, ?_, iff_of_true rfl h.legacy⟩
            rw [hcopied.1]
            omega

/-! ### Runs -/

/-- Whose index of which kind: `BySender` or `ByRecipient`. -/
inductive Side where
  | sender
  | recipient
deriving DecidableEq

namespace Side

def index (st : Storage) (a : Address) : Side → Index
  | .sender => st.bySender a
  | .recipient => st.byRecipient a

def append (st : Storage) (a : Address) (entry : U64) : Side → Result Storage
  | .sender => appendSenderIndex st a entry
  | .recipient => appendRecipientIndex st a entry

def migrate (st : Storage) (a : Address) (maxPages : Nat) : Side → Result (Nat × Storage)
  | .sender => migrateSenderIndex st a maxPages
  | .recipient => migrateRecipientIndex st a maxPages

/-- An index other than this one is the same in both. -/
def Elsewhere (side : Side) (a : Address) (st st' : Storage) : Prop :=
  ∀ side' b, (side' ≠ side ∨ b ≠ a) → index st' b side' = index st b side'

end Side

variable {side side' : Side} {a b : Address} {st st' : Storage} {returned : Nat}

theorem append_index (h : side.append st a entry = .ok st') :
    appendIndexEntry (side.index st a) entry = .ok (side.index st' a) ∧ side.Elsewhere a st st' := by
  cases side with
  | sender =>
      simp only [Side.append, appendSenderIndex, bind_eq_ok, pure_eq_ok] at h
      obtain ⟨ix, hix, rfl⟩ := h
      refine ⟨by simpa [Side.index] using hix, fun side' b hne => ?_⟩
      cases side' with
      | sender => exact Function.update_of_ne (by simpa using hne) _ _
      | recipient => rfl
  | recipient =>
      simp only [Side.append, appendRecipientIndex, bind_eq_ok, pure_eq_ok] at h
      obtain ⟨ix, hix, rfl⟩ := h
      refine ⟨by simpa [Side.index] using hix, fun side' b hne => ?_⟩
      cases side' with
      | sender => rfl
      | recipient => exact Function.update_of_ne (by simpa using hne) _ _

theorem migrate_index (h : side.migrate st a m = .ok (returned, st')) :
    (∃ total, migrateLegacyIndex (side.index st a) m = .ok (total, side.index st' a)) ∧
    returned = migrated (side.index st' a) ∧ side.Elsewhere a st st' := by
  cases side with
  | sender =>
      simp only [Side.migrate, migrateSenderIndex, bind_eq_ok, pure_eq_ok, Prod.mk.injEq] at h
      obtain ⟨⟨total, ix⟩, hix, rfl, rfl⟩ := h
      refine ⟨⟨total, by simpa [Side.index] using hix⟩, by simp [Side.index], fun side' b hne => ?_⟩
      cases side' with
      | sender => exact Function.update_of_ne (by simpa using hne) _ _
      | recipient => rfl
  | recipient =>
      simp only [Side.migrate, migrateRecipientIndex, bind_eq_ok, pure_eq_ok, Prod.mk.injEq] at h
      obtain ⟨⟨total, ix⟩, hix, rfl, rfl⟩ := h
      refine ⟨⟨total, by simpa [Side.index] using hix⟩, by simp [Side.index], fun side' b hne => ?_⟩
      cases side' with
      | sender => rfl
      | recipient => exact Function.update_of_ne (by simpa using hne) _ _

/-- A use of the indices, with what a migration returned. -/
inductive Use where
  | append (side : Side) (a : Address) (entry : U64)
  | migrate (side : Side) (a : Address) (maxPages returned : Nat)
  | other

inductive Used : Storage → Use → Storage → Prop where
  | append {st st' : Storage} {side : Side} {a : Address} {entry : U64}
      (h : side.append st a entry = .ok st') : Used st (.append side a entry) st'
  | migrate {st st' : Storage} {side : Side} {a : Address} {m returned : Nat}
      (h : side.migrate st a m = .ok (returned, st')) : Used st (.migrate side a m returned) st'
  /-- a call that fails, or that has nothing to do with the indices -/
  | other {st st' : Storage} (hs : st'.bySender = st.bySender)
      (hr : st'.byRecipient = st.byRecipient) : Used st .other st'

/-- What a migration of this index returned. -/
def Use.answer (side : Side) (a : Address) : Use → Option Nat
  | .migrate side' b _ returned => if side' = side ∧ b = a then some returned else none
  | _ => none

/-- What a use appends to this index. -/
def Use.adds (side : Side) (a : Address) : Use → Nat
  | .append side' b _ => if side' = side ∧ b = a then 1 else 0
  | _ => 0

/-- How many entries were appended to this index. -/
def appends (side : Side) (a : Address) (us : List Use) : Nat := (us.map (·.adds side a)).sum

/-- A migration of this index returns its progress. -/
def Truthful (side : Side) (a : Address) (L : List U64) (_ : Storage) (u : Use) (st' : Storage) : Prop :=
  ∀ returned, u.answer side a = some returned → Progress L returned (side.index st' a)

/-- A migration of this index has nothing else to count. -/
def Countable (side : Side) (a : Address) (L : List U64) (st : Storage) (u : Use) : Prop :=
  ∀ m returned, u = .migrate side a m returned → Unmixed L (side.index st a) m

variable {u : Use} {us : List Use}

theorem Side.Elsewhere.index_eq (h : side'.Elsewhere b st st') (hne : ¬ (side' = side ∧ b = a)) :
    side.index st' a = side.index st a := by
  refine h side a ?_
  by_cases hside : side = side'
  · exact .inr fun hab => hne ⟨hside.symm, hab.symm⟩
  · exact .inl hside

/-- A step: the pages copied do not get fewer, and a migration returns its progress exactly if it has
nothing else to count. -/
theorem Used.laid (h : Used st u st') (hL : L.length ≤ u32Max) (hlaid : Laid L n k (side.index st a)) :
    (∃ k', k ≤ k' ∧ Laid L (n + u.adds side a) k' (side.index st' a)) ∧
    (Truthful side a L st u st' ↔ Countable side a L st u) := by
  have hkept : side.index st' a = side.index st a → ∃ k', k ≤ k' ∧ Laid L n k' (side.index st' a) :=
    fun heq => ⟨k, le_rfl, heq ▸ hlaid⟩
  have hroom := hlaid.copied_eq.2
  have hahead : ∀ m, k ≤ advance L k m := fun m => le_min (Nat.le_add_right _ _) hroom
  cases h with
  | append h =>
      rename_i side' b entry
      obtain ⟨happend, helse⟩ := append_index h
      refine ⟨?_, iff_of_true nofun nofun⟩
      by_cases hthis : side' = side ∧ b = a
      · obtain ⟨rfl, rfl⟩ := hthis
        rw [Use.adds, if_pos ⟨rfl, rfl⟩]
        exact ⟨advance L k 1, hahead 1, append_laid hlaid hL happend⟩
      · rw [Use.adds, if_neg hthis]
        exact hkept (helse.index_eq hthis)
  | migrate h =>
      rename_i side' b m returned
      obtain ⟨⟨total, hmig⟩, rfl, helse⟩ := migrate_index h
      by_cases hthis : side' = side ∧ b = a
      · obtain ⟨rfl, rfl⟩ := hthis
        obtain ⟨ix', heq, hix', hiff, -⟩ := migrate_laid hlaid hL m
        cases heq.symm.trans hmig
        refine ⟨⟨_, hahead m, hix'⟩, ?_⟩
        have htruthful := progress_iff hix' hL hiff
        rw [← hlaid.unmixed_iff hL] at htruthful
        simpa [Truthful, Countable, Use.answer] using htruthful
      · refine ⟨hkept (helse.index_eq hthis), iff_of_true ?_ ?_⟩
        · simp [Truthful, Use.answer, hthis]
        · rintro m' returned' heq
          cases heq
          exact absurd ⟨rfl, rfl⟩ hthis
  | other hs hr =>
      refine ⟨hkept ?_, iff_of_true nofun nofun⟩
      cases side with
      | sender => exact congrFun hs a
      | recipient => exact congrFun hr a

/-- After any uses of the indices, an index has the keys of what was appended to it. -/
theorem laid_of_run (hL : L.length ≤ u32Max) (hlaid : Laid L n k (side.index st a))
    (h : Run Used st us st') : ∃ k', Laid L (n + appends side a us) k' (side.index st' a) := by
  induction h with
  | nil => exact ⟨k, hlaid⟩
  | snoc _ hu ih =>
      obtain ⟨k₁, h₁⟩ := ih
      obtain ⟨k₂, -, h₂⟩ := (hu.laid hL h₁).1
      refine ⟨k₂, ?_⟩
      simpa [appends, Nat.add_assoc] using h₂

/-- What the migrations of this index returned, oldest first. -/
def answers (side : Side) (a : Address) (us : List Use) : List Nat := us.filterMap (·.answer side a)

/-- Where every migration returns its progress, the numbers never decrease. -/
theorem answers_sorted (hL : L.length ≤ u32Max) (hlaid : Laid L n k (side.index st a))
    (h : Run (fun st u st' => Used st u st' ∧ Truthful side a L st u st') st us st') :
    (∃ n' k', Laid L n' k' (side.index st' a) ∧
      ∀ r ∈ answers side a us, r ≤ min L.length (100 * k')) ∧
    (answers side a us).Pairwise (· ≤ ·) := by
  induction h with
  | nil => exact ⟨⟨n, k, hlaid, nofun⟩, .nil⟩
  | snoc _ hu ih =>
      rename_i st₁ st₂ us u _
      obtain ⟨⟨n₁, k₁, h₁, hle⟩, hsorted⟩ := ih
      obtain ⟨k₂, hk, h₂⟩ := (hu.1.laid hL h₁).1
      have hprogress : ∀ r, u.answer side a = some r → r = min L.length (100 * k₂) := by
        intro r hr
        rw [(hu.2 r hr).pages, h₂.copied_eq.1]
      have hle' : ∀ r ∈ answers side a us, r ≤ min L.length (100 * k₂) := by
        intro r hr
        have := hle r hr
        omega
      unfold answers at hsorted hle' ⊢
      rw [List.filterMap_append]
      cases hanswer : u.answer side a with
      | none =>
          rw [List.filterMap_cons_none hanswer, List.filterMap_nil, List.append_nil]
          exact ⟨⟨_, k₂, h₂, hle'⟩, hsorted⟩
      | some r =>
          have hr := hprogress r hanswer
          rw [List.filterMap_cons_some hanswer, List.filterMap_nil]
          refine ⟨⟨_, k₂, h₂, fun r' hr' => ?_⟩, List.pairwise_append.mpr ⟨hsorted, by simp, ?_⟩⟩
          · rcases List.mem_append.mp hr' with hr' | hr'
            · exact hle' r' hr'
            · rw [List.mem_singleton.mp hr', hr]
          · intro r' hr' r'' hr''
            rw [List.mem_singleton.mp hr'', hr]
            exact hle' r' hr'

/-- **Migration progress.**  From any legacy vector, over any uses of the indices: the migrations of an
index return the legacy entries migrated so far, and never less than before, exactly if at each of
them nothing was appended yet or the migration is not over with it. -/
theorem progress_of_run {legacy : Option (List U64)} (hst : side.index st a = { legacy := legacy })
    (hL : (legacy.getD []).length ≤ u32Max) :
    Run (fun st u st' => Used st u st' ∧ Truthful side a (legacy.getD []) st u st') st us st' ∧
      (answers side a us).Pairwise (· ≤ ·) ↔
    Run (fun st u st' => Used st u st' ∧ Countable side a (legacy.getD []) st u) st us st' := by
  have hlaid : Laid (legacy.getD []) 0 0 (side.index st a) := hst ▸ laid_of_legacy legacy
  have hkeep : ∀ s u t, Used s u t → (∃ n k, Laid (legacy.getD []) n k (side.index s a)) →
      ∃ n k, Laid (legacy.getD []) n k (side.index t a) := by
    rintro s u t hu ⟨n, k, h⟩
    obtain ⟨k', -, h'⟩ := (hu.laid hL h).1
    exact ⟨_, k', h'⟩
  have hiff : ∀ s u t, Used s u t → (∃ n k, Laid (legacy.getD []) n k (side.index s a)) →
      (Truthful side a (legacy.getD []) s u t ↔ Countable side a (legacy.getD []) s u) := by
    rintro s u t hu ⟨n, k, h⟩
    exact (hu.laid hL h).2
  have hsteps :
      Run (fun st u st' => Used st u st' ∧ Truthful side a (legacy.getD []) st u st') st us st' ↔
      Run (fun st u st' => Used st u st' ∧ Countable side a (legacy.getD []) st u) st us st' :=
    Run.steps_iff hkeep hiff ⟨0, 0, hlaid⟩
  rw [← hsteps]
  exact and_iff_left_of_imp fun h => (answers_sorted hL hlaid h).2

/-! ### Runs carried out -/

/-- The storage a use leaves, if a migration returns what it is said to return. -/
def Use.perform (st : Storage) : Use → Option Storage
  | .append side a entry => (side.append st a entry).toOption
  | .migrate side a m returned =>
      (side.migrate st a m).toOption.bind fun r => if r.1 = returned then some r.2 else none
  | .other => some st

def Use.after (st : Storage) (u : Use) : Storage := (u.perform st).getD st

theorem used_after (h : (u.perform st).isSome = true) : Used st u (u.after st) := by
  obtain ⟨st', hst'⟩ := Option.isSome_iff_exists.mp h
  unfold Use.after
  rw [hst', Option.getD_some]
  cases u with
  | append side a entry => exact .append (toOption_eq_some.mp hst')
  | migrate side a m returned =>
      obtain ⟨r, hr, hst'⟩ := Option.bind_eq_some_iff.mp hst'
      split at hst'
      next hret =>
        cases hst'
        subst hret
        exact .migrate (toOption_eq_some.mp hr)
      next => cases hst'
  | other =>
      cases hst'
      exact .other rfl rfl

/-- A legacy vector of 150 ids for every sender. -/
def Sample.unmigrated : Storage where
  bySender _ := { legacy := some (List.replicate 150 (.lit 7)) }

/-- An id is appended, which copies the first page, and the progress asked for. -/
def Sample.partly : Storage :=
  Use.after (Use.after Sample.unmigrated (.append .sender (.account 1) (.lit 300)))
    (.migrate .sender (.account 1) 0 100)

theorem sample_partly : Run (fun st u st' => Used st u st' ∧
      Truthful .sender (.account 1) (List.replicate 150 (.lit 7)) st u st') Sample.unmigrated
      [.append .sender (.account 1) (.lit 300), .migrate .sender (.account 1) 0 100] Sample.partly ∧
    (answers .sender (.account 1) [.append .sender (.account 1) (.lit 300),
      .migrate .sender (.account 1) 0 100]).Pairwise (· ≤ ·) := by
  have hstart : Side.index Sample.unmigrated (.account 1) .sender =
      { legacy := some (List.replicate 150 (.lit 7)) } := rfl
  refine (progress_of_run hstart (by decide +kernel)).mpr ?_
  refine ((Run.nil _).snoc ⟨used_after (by decide +kernel), nofun⟩).snoc
    ⟨used_after (by decide +kernel), ?_⟩
  rintro m returned ⟨⟩
  exact .inr ⟨by decide +kernel, by decide +kernel⟩

/-- The last page is copied, and 151 legacy entries of 150 are reported. -/
theorem overcounted : Run Used Sample.unmigrated
      [.append .sender (.account 1) (.lit 300), .migrate .sender (.account 1) 0 100,
        .migrate .sender (.account 1) 1 151]
      (Use.after Sample.partly (.migrate .sender (.account 1) 1 151)) ∧
    ¬ Progress (List.replicate 150 (.lit 7)) 151
      (Side.index (Use.after Sample.partly (.migrate .sender (.account 1) 1 151)) (.account 1) .sender) := by
  refine ⟨?_, fun h => absurd h.le (by simp)⟩
  exact (((Run.nil _).snoc (used_after (by decide +kernel))).snoc
    (used_after (by decide +kernel))).snoc (used_after (by decide +kernel))

end Drip.Factory
