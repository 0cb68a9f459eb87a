import Mathlib.Logic.Relation
import Drip.Support.Roster
import Drip.Common.Rbac

/-!
# Common — Membership

The three copies of a membership agree.

* `Coherent admin st`: each member list names the accounts with an assignment, each once; an admin's
  assignment does not expire; the counter is the number of admins.
* `grant_spec`, `revoke_spec`: what a grant and a revocation write.
* `Move`: a grant or a revocation, as the contracts make them.  A move keeps the records coherent,
  and never takes the last admin away.
-/

namespace Drip.Rbac
open Chain

variable {R : Type} {admin r r' : R} {a a' : Address} {now : U64}
variable {st st' st₁ : Records R} {e : Option U64} {b : Bool}

/-- The account holds the role at `now`. -/
def Holds (st : Records R) (now : U64) (role : R) (account : Address) : Prop :=
  hasRole now (st.role role account) = .ok true

instance : Decidable (Holds st now r a) :=
  inferInstanceAs (Decidable (hasRole now (st.role r a) = .ok true))

structure Coherent (admin : R) (st : Records R) : Prop where
  /-- no legacy flag -/
  typed : ∀ r a b, st.role r a ≠ some (.flag b)
  lists : ∀ r, Roster (fun a => (st.role r a).isSome = true) (roleMembers st r)
  permanent : ∀ a v, st.role admin a = some (.assignment v) → v.expiresAt = none
  counted : (adminCount st).val = (roleMembers st admin).length

theorem Coherent.empty : Coherent admin ({} : Records R) :=
  ⟨fun _ _ _ => nofun, fun _ => .nil fun _ => nofun, fun _ _ => nofun, rfl⟩

/-! ### Reads -/

theorem Coherent.assigned (hc : Coherent admin st) {v : Stored} (h : st.role r a = some v) :
    ∃ x, v = .assignment x := by
  cases v with
  | flag b => exact absurd h (hc.typed r a b)
  | assignment x => exact ⟨x, rfl⟩

theorem isSome_of_hasRole (h : hasRole now (st.role r a) = .ok true) :
    (st.role r a).isSome = true := by
  cases hv : st.role r a with
  | none =>
      rw [hv] at h
      cases h
  | some v => rfl

/-- In coherent records the admins are the accounts with an assignment, at any time. -/
theorem Coherent.holds_admin (hc : Coherent admin st) :
    Holds st now admin a ↔ (st.role admin a).isSome = true := by
  refine ⟨isSome_of_hasRole, fun h => ?_⟩
  obtain ⟨v, hv⟩ := Option.isSome_iff_exists.mp h
  obtain ⟨x, rfl⟩ := hc.assigned hv
  have hx := hc.permanent a x hv
  unfold Holds
  rw [hv]
  show Except.ok (x.active now) = .ok true
  rw [RoleAssignment.active, hx]

theorem Coherent.mem_members (hc : Coherent admin st) :
    a ∈ roleMembers st r ↔ (st.role r a).isSome = true := (hc.lists r).mem a

/-- The counter is the number of accounts that hold `Admin`. -/
theorem Coherent.ncard_admins (hc : Coherent admin st) (now : U64) :
    (adminCount st).val = {a | Holds st now admin a}.ncard := by
  rw [hc.counted, ← (hc.lists admin).ncard]
  congr 2
  ext a
  exact hc.holds_admin.symm

theorem Coherent.admin_of_count (hc : Coherent admin st) (h : (st.role admin a).isSome = true) :
    1 ≤ (adminCount st).val := by
  have := (hc.lists admin).length_pos h
  rw [hc.counted]
  omega

/-- What a grant with an expiry checks of the role and the expiry. -/
theorem permanent_of_check {q : Prop} (h : ¬ ((r = admin ∧ e.isSome = true) ∨ q)) :
    r = admin → e = none := by
  intro hr
  cases hsome : e.isSome with
  | false => exact Option.isNone_iff_eq_none.mp (Option.isSome_eq_false_iff.mp hsome)
  | true => exact absurd (.inl ⟨hr, hsome⟩) h

/-! ### Writes -/

theorem countAdmin_spec (h : countAdmin b st = .ok st') :
    (∃ n, st' = { st with adminCount := n }) ∧
      (adminCount st').val = (adminCount st).val + if b = true then 1 else 0 := by
  unfold countAdmin at h
  split at h
  · rename_i hb
    simp only [bind_eq_ok, okOr_eq_ok, pure_eq_ok, Ranged.checkedAdd_eq_some] at h
    obtain ⟨next, hnext, rfl⟩ := h
    rw [if_pos hb]
    exact ⟨⟨_, rfl⟩, hnext⟩
  · rename_i hb
    cases h
    rw [if_neg hb, add_zero]
    exact ⟨⟨_, rfl⟩, rfl⟩

/-- The counter after a revocation; an admin's assignment is active. -/
theorem discountAdmin_spec {active expired : Bool} (hb : b = true → active = true)
    (h : discountAdmin b active expired st = .ok st') :
    (∃ n, st' = { st with adminCount := n }) ∧ (b = true → 1 < (adminCount st).val) ∧
      (adminCount st').val = (adminCount st).val - if b = true then 1 else 0 := by
  unfold discountAdmin at h
  cases b with
  | true =>
      rw [hb rfl] at h
      simp only [Bool.and_self, if_true, bind_eq_ok, reject_eq_ok, okOr_eq_ok, pure_eq_ok,
        Ranged.checkedSub_eq_some, not_le] at h
      obtain ⟨-, hlt, next, hnext, rfl⟩ := h
      exact ⟨⟨_, rfl⟩, fun _ => hlt, hnext⟩
  | false =>
      cases h
      exact ⟨⟨_, rfl⟩, fun h => absurd h Bool.false_ne_true, (sub_zero _).symm⟩

section

variable [DecidableEq R]

@[simp]
theorem setRole_role (st : Records R) (r : R) (a : Address) (v : Option Stored) (r' : R)
    (a' : Address) :
    (st.setRole r a v).role r' a' = if r' = r ∧ a' = a then v else st.role r' a' := by
  show Function.update st.role r (Function.update (st.role r) a v) r' a' = _
  by_cases hr : r' = r
  · subst hr
    rw [Function.update_self]
    by_cases ha : a' = a
    · rw [ha, Function.update_self, if_pos ⟨rfl, rfl⟩]
    · rw [Function.update_of_ne ha, if_neg fun h => ha h.2]
  · rw [Function.update_of_ne hr, if_neg fun h => hr h.1]

@[simp]
theorem setMembers_role (st : Records R) (r : R) (xs : List Address) :
    (st.setMembers r xs).role = st.role := rfl

theorem setMembers_members (st : Records R) (r : R) (xs : List Address) (r' : R) :
    roleMembers (st.setMembers r xs) r' = if r' = r then xs else roleMembers st r' := by
  unfold roleMembers
  show (Function.update st.members r (some xs) r').getD [] = _
  by_cases hr : r' = r
  · rw [hr, Function.update_self, if_pos rfl]
    rfl
  · rw [Function.update_of_ne hr, if_neg hr]

/-- A write of the role of one account keeps the type of what is stored. -/
theorem Coherent.typed_write {o : Option Stored} (hc : Coherent admin st)
    (hrole : ∀ r' a', st'.role r' a' = if r' = r ∧ a' = a then o else st.role r' a')
    (ho : ∀ b, o ≠ some (.flag b)) (r' : R) (a' : Address) (b : Bool) :
    st'.role r' a' ≠ some (.flag b) := by
  rw [hrole]
  split
  · exact ho b
  · exact hc.typed r' a' b

/-- It leaves the members of the other roles as they are. -/
theorem Coherent.others_write {o : Option Stored} {r' : R} (hc : Coherent admin st) (hr : r' ≠ r)
    (hrole : ∀ r' a', st'.role r' a' = if r' = r ∧ a' = a then o else st.role r' a') :
    Roster (fun a' => (st'.role r' a').isSome = true) (roleMembers st r') := by
  refine (hc.lists r').congr fun a' => ?_
  rw [hrole, if_neg fun h => hr h.1]

/-- One account more: the new member stands at the end of the list. -/
theorem Coherent.push {v : RoleAssignment} (hc : Coherent admin st) (hnew : st.role r a = none)
    (hperm : r = admin → v.expiresAt = none)
    (hrole : ∀ r' a', st'.role r' a' = if r' = r ∧ a' = a then some (.assignment v) else st.role r' a')
    (hmembers : ∀ r', roleMembers st' r' =
      if r' = r then roleMembers st r ++ [a] else roleMembers st r')
    (hcount : (adminCount st').val = (adminCount st).val + if r = admin then 1 else 0) :
    Coherent admin st' := by
  refine ⟨hc.typed_write hrole fun _ => nofun, fun r' => ?_, fun a' w hw => ?_, ?_⟩
  · rw [hmembers]
    split
    · rename_i hr
      subst hr
      have hpush := (hc.lists r').push (a := a) (by rw [hnew]; exact nofun)
      refine hpush.congr fun a' => ?_
      rw [hrole]
      by_cases ha : a' = a
      · rw [if_pos ⟨rfl, ha⟩]
        exact ⟨fun _ => rfl, fun _ => .inr ha⟩
      · rw [if_neg fun h => ha h.2]
        exact or_iff_left ha
    · rename_i hr
      exact hc.others_write hr hrole
  · rw [hrole] at hw
    split at hw
    · rename_i hra
      cases hw
      exact hperm hra.1.symm
    · exact hc.permanent a' w hw
  · rw [hcount, hmembers, hc.counted]
    by_cases hr : r = admin
    · rw [if_pos hr, if_pos hr.symm, hr, List.length_append, List.length_singleton]
      push_cast
      rfl
    · rw [if_neg hr, if_neg fun h => hr h.symm, add_zero]

/-- The assignment of a member is replaced. -/
theorem Coherent.renew {v : RoleAssignment} (hc : Coherent admin st)
    (hold : (st.role r a).isSome = true) (hperm : r = admin → v.expiresAt = none) :
    Coherent admin (st.setRole r a (some (.assignment v))) := by
  refine ⟨hc.typed_write (setRole_role st r a _) fun _ => nofun, fun r' => (hc.lists r').congr fun a' => ?_,
    fun a' w hw => ?_, hc.counted⟩
  · rw [setRole_role]
    split
    · rename_i hra
      rw [hra.1, hra.2]
      exact iff_of_true hold rfl
    · exact Iff.rfl
  · rw [setRole_role] at hw
    split at hw
    · rename_i hra
      cases hw
      exact hperm hra.1.symm
    · exact hc.permanent a' w hw

/-- One account less. -/
theorem Coherent.drop (hc : Coherent admin st) (hold : (st.role r a).isSome = true)
    (hrole : ∀ r' a', st'.role r' a' = if r' = r ∧ a' = a then none else st.role r' a')
    (hmembers : ∀ r', roleMembers st' r' =
      if r' = r then (roleMembers st r).filter fun m => m ≠ a else roleMembers st r')
    (hcount : (adminCount st').val = (adminCount st).val - if r = admin then 1 else 0) :
    Coherent admin st' := by
  refine ⟨hc.typed_write hrole fun _ => nofun, fun r' => ?_, fun a' w hw => ?_, ?_⟩
  · rw [hmembers]
    split
    · rename_i hr
      subst hr
      refine ((hc.lists r').drop (a := a)).congr fun a' => ?_
      rw [hrole]
      by_cases ha : a' = a
      · rw [if_pos ⟨rfl, ha⟩]
        exact iff_of_false (fun h => h.2 ha) nofun
      · rw [if_neg fun h => ha h.2]
        exact and_iff_left ha
    · rename_i hr
      exact hc.others_write hr hrole
  · rw [hrole] at hw
    split at hw
    · cases hw
    · exact hc.permanent a' w hw
  · rw [hcount, hmembers, hc.counted]
    by_cases hr : r = admin
    · subst hr
      have := (hc.lists r).length_drop hold
      rw [if_pos rfl, if_pos rfl]
      omega
    · rw [if_neg hr, if_neg fun h => hr h.symm, sub_zero]

/-! ### Grants and revocations -/

/-- What a grant writes. -/
theorem grant_spec (hc : Coherent admin st) (hperm : r = admin → e = none)
    (h : grantWithExpiration now (decide (r = admin)) r a e st = .ok (b, st')) :
    Coherent admin st' ∧
      (∀ r' a', st'.role r' a' =
        if r' = r ∧ a' = a then some (.assignment ⟨e⟩) else st.role r' a') ∧
      (adminCount st').val =
        (adminCount st).val + if r = admin ∧ (st.role r a).isSome = false then 1 else 0 := by
  simp only [grantWithExpiration, bind_eq_ok] at h
  obtain ⟨wasActive, hactive, h⟩ := h
  split at h
  · rename_i hexists
    have hold : (st.role r a).isSome = true := by
      rcases Bool.or_eq_true_iff.mp hexists with hw | hs
      · rw [hw] at hactive
        exact isSome_of_hasRole hactive
      · exact hs
    cases h
    refine ⟨hc.renew hold hperm, fun _ _ => setRole_role .., ?_⟩
    have hif : ¬ (r = admin ∧ (st.role r a).isSome = false) := fun hf => by simp [hold] at hf
    rw [if_neg hif, add_zero]
    rfl
  · rename_i hexists
    have hnone : (st.role r a).isSome = false := by
      cases hs : (st.role r a).isSome with
      | false => rfl
      | true => exact absurd (Bool.or_eq_true_iff.mpr (.inr hs)) hexists
    simp only [bind_eq_ok, pure_eq_ok] at h
    obtain ⟨st₁, hcount, h⟩ := h
    obtain ⟨⟨n, rfl⟩, hval⟩ := countAdmin_spec hcount
    cases h
    simp only [decide_eq_true_eq] at hval
    refine ⟨hc.push (Option.isSome_eq_false_iff.mp hnone |> Option.isNone_iff_eq_none.mp) hperm
      (fun _ _ => setRole_role ..) (fun r' => setMembers_members ..) hval, fun _ _ => setRole_role ..,
      ?_⟩
    have hif : (r = admin ∧ (st.role r a).isSome = false) ↔ r = admin := and_iff_left hnone
    simp only [hif]
    exact hval

/-- A grant leaves an assignment. -/
theorem isSome_of_grant {isAdmin : Bool}
    (h : grantWithExpiration now isAdmin r a e st = .ok (b, st')) :
    (st'.role r a).isSome = true := by
  simp only [grantWithExpiration, bind_eq_ok] at h
  obtain ⟨wasActive, -, h⟩ := h
  split at h
  · cases h
    rw [setRole_role, if_pos ⟨rfl, rfl⟩]
    rfl
  · simp only [bind_eq_ok, pure_eq_ok] at h
    obtain ⟨st₁, hcount, h⟩ := h
    obtain ⟨⟨n, rfl⟩, -⟩ := countAdmin_spec hcount
    cases h
    rw [setMembers_role]
    show ((st.setRole r a (some (.assignment ⟨e⟩))).role r a).isSome = true
    rw [setRole_role, if_pos ⟨rfl, rfl⟩]
    rfl

/-- A revocation finds no assignment and does nothing, or discounts an assignment, active or expired, and
removes it. -/
theorem revoke_cases {ev : Option RoleRevokedEvent} (hc : Coherent admin st)
    (h : revoke now (decide (r = admin)) r a st = .ok (ev, st')) :
    (st.role r a = none ∧ ev = none ∧ st' = st) ∨
      ∃ x e st₁, st.role r a = some (.assignment x) ∧ ev = some e ∧
        discountAdmin (decide (r = admin)) (x.active now) (hasExpiredAssignment now (some x)) st
          = .ok st₁ ∧
        st' = (st₁.setRole r a none).setMembers r ((roleMembers st₁ r).filter fun m => m ≠ a) := by
  simp only [revoke, revokeWithEvent, bind_eq_ok] at h
  obtain ⟨active, hactive, assignment, hread, h⟩ := h
  cases hv : st.role r a with
  | none =>
      rw [hv] at hactive hread
      cases hactive
      cases hread
      cases h
      exact .inl ⟨rfl, rfl, rfl⟩
  | some v =>
      obtain ⟨x, rfl⟩ := hc.assigned hv
      rw [hv] at hactive hread
      cases hactive
      cases hread
      -- an assignment is active or has expired
      have hlive : ¬ ((!x.active now && !hasExpiredAssignment now (some x)) = true) := by
        rcases x with ⟨_ | exp⟩
        · exact Bool.false_ne_true
        · simp [RoleAssignment.active, hasExpiredAssignment]
      rw [if_neg hlive] at h
      simp only [bind_eq_ok, pure_eq_ok] at h
      obtain ⟨st₁, hcount, h⟩ := h
      cases h
      exact .inr ⟨x, _, st₁, rfl, rfl, hcount, rfl⟩

/-- A revocation removes an assignment that is there, active or expired. -/
theorem revoke_spec {ev : Option RoleRevokedEvent} (hc : Coherent admin st)
    (h : revoke now (decide (r = admin)) r a st = .ok (ev, st')) :
    Coherent admin st' ∧
      (∀ r' a', st'.role r' a' = if r' = r ∧ a' = a then none else st.role r' a') ∧
      (adminCount st').val =
        (adminCount st).val - (if r = admin ∧ (st.role r a).isSome = true then 1 else 0) ∧
      (r = admin → (st.role r a).isSome = true → 1 < (adminCount st).val) := by
  obtain ⟨hv, -, rfl⟩ | ⟨x, ev', st₁, hv, -, hcount, rfl⟩ := revoke_cases hc h
  · refine ⟨hc, fun r' a' => ?_, ?_, fun _ h => ?_⟩
    · split
      · rename_i hra
        rw [hra.1, hra.2, hv]
      · rfl
    · have hif : ¬ (r = admin ∧ (st'.role r a).isSome = true) := fun hf => by
        rw [hv] at hf
        exact Bool.false_ne_true hf.2
      rw [if_neg hif, sub_zero]
    · rw [hv] at h
      cases h
  · have hold : (st.role r a).isSome = true := by rw [hv]; rfl
    have hadmin : r = admin → x.active now = true := by
      rintro rfl
      rw [RoleAssignment.active, hc.permanent a x hv]
    obtain ⟨⟨n, rfl⟩, hlast, hval⟩ :=
      discountAdmin_spec (fun hb => hadmin (of_decide_eq_true hb)) hcount
    simp only [decide_eq_true_eq] at hval hlast
    refine ⟨hc.drop hold (fun _ _ => setRole_role ..) (fun r' => setMembers_members ..) hval,
      fun _ _ => setRole_role .., ?_, fun hr _ => hlast hr⟩
    have hif : (r = admin ∧ (st.role r a).isSome = true) ↔ r = admin := and_iff_left hold
    simp only [hif]
    exact hval

/-- A grant or a revocation as the contracts make them: `Admin` is granted without expiry. -/
inductive Move (admin : R) : Records R → Records R → Prop where
  | grant {st st' : Records R} {now : U64} {r : R} {a : Address} {e : Option U64} {b : Bool}
      (hperm : r = admin → e = none)
      (h : grantWithExpiration now (decide (r = admin)) r a e st = .ok (b, st')) : Move admin st st'
  | revoke {st st' : Records R} {now : U64} {r : R} {a : Address} {ev : Option RoleRevokedEvent}
      (h : revoke now (decide (r = admin)) r a st = .ok (ev, st')) : Move admin st st'

abbrev Moves (admin : R) : Records R → Records R → Prop := Relation.ReflTransGen (Move admin)

theorem Move.keeps (h : Move admin st st') (hc : Coherent admin st) :
    Coherent admin st' ∧ (1 ≤ (adminCount st).val → 1 ≤ (adminCount st').val) := by
  cases h with
  | grant hperm h =>
      obtain ⟨hc', -, hcount⟩ := grant_spec hc hperm h
      refine ⟨hc', fun hle => ?_⟩
      rw [hcount]
      split <;> omega
  | revoke h =>
      obtain ⟨hc', -, hcount, hlast⟩ := revoke_spec hc h
      refine ⟨hc', fun hle => ?_⟩
      rw [hcount]
      split
      · rename_i hra
        have := hlast hra.1 hra.2
        omega
      · omega

theorem Moves.keeps (h : Moves admin st st') (hc : Coherent admin st) :
    Coherent admin st' ∧ (1 ≤ (adminCount st).val → 1 ≤ (adminCount st').val) := by
  induction h with
  | refl => exact ⟨hc, id⟩
  | tail _ hmove ih =>
      obtain ⟨hc₁, hle₁⟩ := ih
      obtain ⟨hc', hle'⟩ := hmove.keeps hc₁
      exact ⟨hc', fun hle => hle' (hle₁ hle)⟩

end

end Drip.Rbac
