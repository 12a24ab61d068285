import Warphold.Fleet.Admins
import Warphold.Proofs.Logins

/-!
# Removing an admin

Removing an admin works unless the admin acknowledged a recovery kit, and never takes the last one.
-/

namespace Warphold.Fleet.AdminDb

variable {db db' : AdminDb} {a : AdminAction}

abbrev Reach : AdminDb → Prop := Runs.Reach step Runs.Free start

structure Inv (db : AdminDb) : Prop where
  nodup : (db.admins.map (·.1)).Nodup
  admins : db.admins ≠ []

lemma Inv.handleAdminDelete (h : Inv db) (caller id : ℕ) :
    Inv (db.handleAdminDelete caller id).1 := by
  unfold AdminDb.handleAdminDelete
  split_ifs with hown hlen
  · exact h
  · exact h
  · refine ⟨h.nodup.sublist (List.filter_sublist.map _), fun hnil => ?_⟩
    -- of two admins one has another ID
    obtain ⟨x, y, l, hl⟩ : ∃ x y l, db.admins = x :: y :: l := by
      rcases hd : db.admins with _ | ⟨x, _ | ⟨y, l⟩⟩
      · exact absurd hd h.admins
      · simp [hd] at hlen
      · exact ⟨x, y, l, rfl⟩
    have hxy : x.1 ≠ y.1 := fun heq => by
      have := h.nodup
      simp [hl, heq] at this
    have hall := List.filter_eq_nil_iff.1 hnil
    simp only [hl, List.mem_cons, forall_eq_or_imp, ne_eq, decide_not, Bool.not_eq_true',
      decide_eq_false_iff_not, not_not] at hall
    exact hxy (hall.1.trans hall.2.1.symm)
  · exact h
  · exact h

lemma Inv.step (h : Inv db) (hstep : db.step a = some db') : Inv db' := by
  cases a <;> simp only [AdminDb.step] at hstep
  case createAdmin email =>
    split_ifs at hstep
    cases hstep
    refine ⟨List.nodup_cons.2 ⟨fun hmem => ?_, h.nodup⟩, by simp⟩
    exact absurd (lt_nextID hmem) (lt_irrefl _)
  case deleteAdmin caller id =>
    cases hstep
    exact h.handleAdminDelete caller id
  all_goals
    split_ifs at hstep
    cases hstep
    exact ⟨h.nodup, h.admins⟩

lemma reach_inv (h : Reach db) : Inv db := by
  refine h.invariant (fun db hdb => ?_) fun _ _ _ hi _ hstep => hi.step hstep
  obtain ⟨email, rfl⟩ := hdb
  exact ⟨by simp, by simp⟩

/-- A request to delete another admin succeeds exactly if that admin acknowledged no kit. It then
removes the admin and the admin's sessions and nothing else, and changes nothing if it fails. No request
leaves the fleet without an admin. -/
theorem admin_removal_iff (h : Reach db) :
    db.admins ≠ [] ∧
    ∀ caller id : ℕ, 2 ≤ db.admins.length → db.isAdmin id = true → id ≠ caller →
      let r := db.handleAdminDelete caller id
      (r.2 = .deleted ↔ ∀ k ∈ db.kitAcks, k.2 ≠ id)
      ∧ (r.2 = .deleted → (∀ x, x ∈ r.1.admins ↔ x ∈ db.admins ∧ x.1 ≠ id)
        ∧ (∀ s, s ∈ r.1.sessions ↔ s ∈ db.sessions ∧ s.2 ≠ id)
        ∧ r.1.agents = db.agents ∧ r.1.kitAcks = db.kitAcks)
      ∧ (r.2 ≠ .deleted → r.1 = db) := by
  refine ⟨(reach_inv h).admins, fun caller id htwo hid hne => ?_⟩
  have hlen : 1 < db.admins.length := htwo
  have hacks : (db.kitAcks.any fun k => k.2 = id) = true ↔ ¬ ∀ k ∈ db.kitAcks, k.2 ≠ id := by
    simp only [List.any_eq_true, decide_eq_true_eq, ne_eq, not_forall, not_not, exists_prop]
  by_cases hack : (db.kitAcks.any fun k => k.2 = id) = true
  · have hr : db.handleAdminDelete caller id = (db, .failed) := by
      simp only [AdminDb.handleAdminDelete, if_neg hne, hid, hlen, and_self, if_true, hack]
    simp only [hr, reduceCtorEq, false_iff, false_imp_iff, ne_eq, not_false_eq_true, implies_true,
      and_true]
    exact hacks.1 hack
  · have hr : db.handleAdminDelete caller id = ({ db with
        admins := db.admins.filter fun a => a.1 ≠ id
        sessions := db.sessions.filter fun s => s.2 ≠ id }, .deleted) := by
      simp only [AdminDb.handleAdminDelete, if_neg hne, hid, hlen, and_self, if_true, if_neg hack]
    rw [hr]
    refine ⟨iff_of_true rfl ?_, fun _ => ⟨?_, ?_, rfl, rfl⟩, fun hn => absurd rfl hn⟩
    · exact not_not.1 (mt hacks.2 hack)
    · simp [List.mem_filter]
    · simp [List.mem_filter]

def twoAdmins : AdminDb := ⟨[(2, [2]), (1, [])], [], [[1]], []⟩

lemma reach_twoAdmins : Reach twoAdmins :=
  Runs.reach_of_run [.createAdmin [2], .insertAgent [1]] (.init ⟨[], rfl⟩) (by decide)

theorem admin_removal_sample : (twoAdmins.handleAdminDelete 1 2).2 = .deleted
    ∧ twoAdmins.admins ≠ [] :=
  ⟨((admin_removal_iff reach_twoAdmins).2 1 2 (by decide) (by decide) (by decide)).1.2 (by decide),
    (admin_removal_iff reach_twoAdmins).1⟩

/-- The second admin acknowledges the device's kit and cannot be removed any more. -/
theorem acknowledged_stays : ∃ db, Reach db ∧ db.admins.length = 2 ∧ db.isAdmin 2 = true
    ∧ db.handleAdminDelete 1 2 = (db, .failed) :=
  ⟨{ twoAdmins with kitAcks := [([1], 2)] },
    .step reach_twoAdmins trivial (show twoAdmins.step (.setKitAck [1] 2) = _ by decide),
    by decide, by decide, by decide⟩

end Warphold.Fleet.AdminDb
