import Drip.Factory.Migration

/-!
# Factory — Refresh

`extend_page_ttls` of `contracts/factory/src/index.rs`: every append and every read extends up to three
pages, from one that the ledger's sequence number picks.  The walk takes the number of pages from the
number of entries; the pages themselves stand apart from the legacy ones, whose last is filled up by
none.

* `reached_iff`: the pages a walk reaches at one sequence or another.
* `refreshed_iff`: these are all the pages there are, as long as the appended ones need no more than
  the entries account for.
-/

namespace Drip.Factory

variable {L : List U64} {ix : Index} {n k p count : Nat} {side : Side} {a : Address}
variable {st st' : Storage} {us : List Use}

/-- `extend_page_ttls`: the pages it extends. -/
def extendPageTtls (ix : Index) (sequence count : Nat) : List Nat :=
  if count = 0 then []
  else
    let numPages := saturatingAdd ((count - 1) / pageSize) 1
    let startPage := sequence % numPages
    ((List.range 3).map fun i => saturatingAdd startPage i % numPages).filter fun pageIndex =>
      (ix.pages pageIndex).isSome

/-- The pages extended at a sequence number, by an append that left the index or by a read of it. -/
def refreshed (ix : Index) (sequence : Nat) : List Nat :=
  match ix.count with
  | some count => extendPageTtls ix sequence count
  | none => []

/-! ### What a walk reaches -/

theorem reached_iff (hc : count ≤ u32Max) :
    (∃ sequence ≤ u32Max, p ∈ extendPageTtls ix sequence count) ↔
    (ix.pages p).isSome = true ∧ p * pageSize < count := by
  unfold extendPageTtls
  split
  next hzero => simp [hzero]
  next hne =>
    have hpages : saturatingAdd ((count - 1) / pageSize) 1 = (count - 1) / pageSize + 1 := by
      unfold saturatingAdd pageSize u32Max at *
      omega
    have hlt : p < (count - 1) / pageSize + 1 ↔ p * pageSize < count := by
      unfold pageSize
      omega
    rw [hpages, ← hlt]
    simp only [List.mem_filter, List.mem_map, List.mem_range]
    constructor
    · rintro ⟨sequence, -, ⟨i, -, rfl⟩, hp⟩
      exact ⟨hp, Nat.mod_lt _ (Nat.succ_pos _)⟩
    · rintro ⟨hp, hlt⟩
      -- the walk starts from the page whose number is the sequence's
      have hfits : p ≤ u32Max := by
        unfold pageSize u32Max at *
        omega
      refine ⟨p, hfits, ⟨0, by omega, ?_⟩, hp⟩
      rw [Nat.mod_eq_of_lt hlt, saturatingAdd, Nat.add_zero, min_eq_left hfits, Nat.mod_eq_of_lt hlt]

/-! ### What there is to reach -/

/-- The places left free on the last legacy page. -/
def spare (L : List U64) : Nat := room L * pageSize - L.length

/-- The last appended page has more entries than the last legacy page has places left; or nothing was
appended; or the page numbers are used up. -/
def Snug (L : List U64) (n : Nat) : Prop :=
  n = 0 ∨ spare L ≤ (n - 1) % pageSize ∨
    (u32Max / pageSize + 1) * pageSize ≤ room L * pageSize + (n - 1)

theorem slot_mono {i j : Nat} (h : i ≤ j) : slot L i ≤ slot L j := by
  unfold slot saturatingAdd
  omega

/-- The page of the last appended entry is within reach. -/
theorem last_within_iff (hn : 0 < n) :
    slot L (n - 1) / pageSize * pageSize < saturatingAdd L.length n ↔ Snug L n := by
  unfold Snug spare slot saturatingAdd room pageSize u32Max at *
  omega

theorem within_iff (hL : L.length ≤ u32Max) (hpages : PagesOf L n k ix.pages) (hk : k ≤ room L) :
    (∀ p, (ix.pages p).isSome = true → p * pageSize < saturatingAdd L.length n) ↔ Snug L n := by
  rcases Nat.eq_zero_or_pos n with rfl | hn
  · refine iff_of_true (fun p hp => ?_) (.inl rfl)
    rcases (hpages p).mp hp with hlt | ⟨i, hi, -⟩
    · have := lt_room.mp (hlt.trans_le hk)
      unfold saturatingAdd pageSize
      omega
    · exact absurd hi (Nat.not_lt_zero i)
  · rw [← last_within_iff hn]
    constructor
    · intro h
      exact h _ ((hpages _).mpr (.inr ⟨n - 1, by omega, rfl⟩))
    · intro h p hp
      rcases (hpages p).mp hp with hlt | ⟨i, hi, rfl⟩
      · have := lt_room.mp (hlt.trans_le hk)
        unfold saturatingAdd pageSize
        omega
      · have hle : slot L i / pageSize ≤ slot L (n - 1) / pageSize :=
          Nat.div_le_div_right (slot_mono (by omega))
        exact (Nat.mul_le_mul_right _ hle).trans_lt h

/-- Every page there is can be reached. -/
def WithinReach (ix : Index) : Prop :=
  ∀ p, (ix.pages p).isSome = true → ∃ sequence ≤ u32Max, p ∈ refreshed ix sequence

theorem refreshed_iff (h : Laid L n k ix) (hL : L.length ≤ u32Max) : WithinReach ix ↔ Snug L n := by
  have hcount : ∀ {pages}, ix.count = some (saturatingAdd L.length n) → ix.pages = pages →
      (WithinReach ix ↔ ∀ p, (pages p).isSome = true → p * pageSize < saturatingAdd L.length n) := by
    rintro pages hcount rfl
    unfold WithinReach refreshed
    rw [hcount]
    refine forall_congr' fun p => imp_congr_right fun hp => ?_
    exact (reached_iff (min_le_right _ _)).trans (and_iff_right hp)
  cases h with
  | untouched h =>
      refine iff_of_true (fun p hp => ?_) (.inl rfl)
      rw [h.pages p] at hp
      cases hp
  | inPages h =>
      cases h with
      | underway h => exact (hcount h.count rfl).trans (within_iff hL h.pages h.more.le)
      | done h =>
          rcases h.count with hc | ⟨hc, rfl, rfl⟩
          · exact (hcount hc rfl).trans (within_iff hL h.pages le_rfl)
          · refine iff_of_true (fun p hp => ?_) (.inl rfl)
            rcases (h.pages p).mp hp with hlt | ⟨i, hi, -⟩
            · exact absurd hlt (Nat.not_lt_zero p)
            · exact absurd hi (Nat.not_lt_zero i)

/-- **The page walk.**  From any legacy vector, after any uses of the indices: every page of an index
can be reached by the walk exactly if the pages of the entries appended to it are no more than the
number of entries accounts for. -/
theorem within_reach_of_run {legacy : Option (List U64)}
    (hst : side.index st a = { legacy := legacy }) (hL : (legacy.getD []).length ≤ u32Max)
    (h : Run Used st us st') :
    WithinReach (side.index st' a) ↔ Snug (legacy.getD []) (appends side a us) := by
  obtain ⟨k, hlaid⟩ := laid_of_run hL (hst ▸ laid_of_legacy legacy) h
  rw [Nat.zero_add] at hlaid
  exact refreshed_iff hlaid hL

/-- A hundred and fifty legacy ids leave fifty places free, which fifty appended ones do not make up
for and fifty-one do. -/
example : ¬ Snug (List.replicate 150 (.lit 7)) 50 ∧ Snug (List.replicate 150 (.lit 7)) 51 := by
  simp [Snug, spare, room, pageSize, u32Max]

theorem sample_within : WithinReach
      (Side.index (Use.after {} (.append .sender (.account 1) (.lit 300))) (.account 1) .sender) ↔
    Snug [] (appends .sender (.account 1) [.append .sender (.account 1) (.lit 300)]) := by
  have hstart : Side.index {} (.account 1) .sender = { legacy := none } := rfl
  have hrun : Run Used {} [.append .sender (.account 1) (.lit 300)]
      (Use.after {} (.append .sender (.account 1) (.lit 300))) :=
    (Run.nil _).snoc (used_after (by decide +kernel))
  have hreach := within_reach_of_run hstart (by decide) hrun
  exact hreach

/-- One id appended to a hundred and fifty goes on page 2, where the walk takes there to be two. -/
theorem out_of_reach :
    Run Used Sample.unmigrated [.append .sender (.account 1) (.lit 300)]
      (Use.after Sample.unmigrated (.append .sender (.account 1) (.lit 300))) ∧
    ¬ WithinReach (Side.index
      (Use.after Sample.unmigrated (.append .sender (.account 1) (.lit 300))) (.account 1) .sender) := by
  have hrun : Run Used Sample.unmigrated [.append .sender (.account 1) (.lit 300)]
      (Use.after Sample.unmigrated (.append .sender (.account 1) (.lit 300))) :=
    (Run.nil _).snoc (used_after (by decide +kernel))
  have hstart : Laid (List.replicate 150 (.lit 7)) 0 0
      (Side.index Sample.unmigrated (.account 1) .sender) := laid_of_legacy (some _)
  obtain ⟨k, hlaid⟩ := laid_of_run (by decide +kernel) hstart hrun
  refine ⟨hrun, fun hreach => ?_⟩
  have hsnug := (refreshed_iff hlaid (by decide +kernel)).mp hreach
  revert hsnug
  simp [Snug, spare, room, pageSize, u32Max, appends, Use.adds]

end Drip.Factory
