import Warphold.Content.ManagerV0
import Warphold.Lib.Runs

/-!
# Deleting what compactions have replaced

A compaction log with an output missing hides none of its inputs. So it must have no input left, or
these come back (`Chained.closed`).
-/

namespace Warphold.Content.ManagerV0

open List ManagerV0

section Active

variable {st : Store} {b : IndexBlob} {ids : List Str}

lemma has_iff {id : Str} : st.has id = true ↔ ∃ b ∈ st.indexBlobs, b.blobID = id := by
  simp [Store.has]

lemma has_eq_false {id : Str} : st.has id = false ↔ ∀ b ∈ st.indexBlobs, b.blobID ≠ id := by
  simp [Store.has]

lemma haveAllOutputs_iff {cl : CompactionLog} :
    haveAllOutputs st cl = true ↔ ∀ o ∈ cl.outputs, st.has o = true := by
  simp [haveAllOutputs]

/-- No log hides a blob. -/
def Visible (st : Store) (id : Str) : Prop :=
  ∀ cl ∈ st.logs, haveAllOutputs st cl = true → id ∉ cl.inputs

lemma listActive_eq : listActiveIndexBlobs st
    = st.indexBlobs.filter fun b => !st.logs.any fun cl =>
        haveAllOutputs st cl && cl.inputs.contains b.blobID := by
  simp only [listActiveIndexBlobs, any_filter]

lemma visible_iff {id : Str} : (!st.logs.any fun cl =>
    haveAllOutputs st cl && cl.inputs.contains id) = true ↔ Visible st id := by
  simp [Visible]

lemma mem_active : b ∈ listActiveIndexBlobs st ↔ b ∈ st.indexBlobs ∧ Visible st b.blobID := by
  rw [listActive_eq, mem_filter, visible_iff]

lemma active_congr {st' : Store} {q : IndexBlob → Bool}
    (hst : st'.indexBlobs = st.indexBlobs.filter q)
    (h : ∀ b ∈ st.indexBlobs, Visible st' b.blobID ∧ q b = true ↔ Visible st b.blobID) :
    listActiveIndexBlobs st' = listActiveIndexBlobs st := by
  rw [listActive_eq, listActive_eq, hst, filter_filter]
  refine filter_congr fun b hb => ?_
  rw [Bool.eq_iff_iff, Bool.and_eq_true, visible_iff, visible_iff]
  exact h b hb

lemma has_delete {id : Str} :
    (deleteIndexBlobs ids st).has id = true ↔ st.has id = true ∧ id ∉ ids := by
  simp only [has_iff, deleteIndexBlobs, mem_filter, Bool.not_eq_true', contains_eq_mem,
    decide_eq_false_iff_not]
  constructor
  · rintro ⟨b, ⟨hb, hid⟩, rfl⟩
    exact ⟨⟨b, hb, rfl⟩, hid⟩
  · rintro ⟨⟨b, hb, rfl⟩, hid⟩
    exact ⟨b, ⟨hb, hid⟩, rfl⟩

end Active

structure Chained (st : Store) : Prop where
  closed : ∀ cl ∈ st.logs, haveAllOutputs st cl = false → ∀ i ∈ cl.inputs, st.has i = false
  ordered : ∀ cl ∈ st.logs, ∀ cl' ∈ st.logs, ∀ o ∈ cl.outputs, o ∈ cl'.inputs →
    cl.timestamp ≤ cl'.timestamp
  scheduled : ∀ e ∈ st.cleanups, ∀ cl ∈ st.logs, cl.blobID ∈ e.blobIDs →
    ∀ i ∈ cl.inputs, st.has i = false
  logIDs : (st.logs.map (·.blobID)).Nodup
  ids : (st.indexBlobs.map (·.blobID)).Nodup

/-- Every blob comes after the inputs of the compactions it came out of, as far as they are there. -/
def InputsFirst (st : Store) (ids : List Str) : Prop :=
  ∀ k ∈ List.range ids.length, ∀ o ∈ ids[k]?, ∀ cl ∈ st.logs, o ∈ cl.outputs →
    ∀ i ∈ cl.inputs, st.has i = true → i ∈ ids.take k

instance (st : Store) (ids : List Str) : Decidable (InputsFirst st ids) := by
  unfold InputsFirst
  infer_instance

section Delete

variable {st : Store} {ids : List Str} {env : Env} {latest settle : ℤ}

def Closes (st : Store) (ids : List Str) : Prop :=
  ∀ cl ∈ st.logs, ∀ o ∈ cl.outputs, o ∈ ids → ∀ i ∈ cl.inputs, st.has i = true → i ∈ ids

lemma Chained.delete (h : Chained st) (hc : Closes st ids) : Chained (deleteIndexBlobs ids st) := by
  have hsub : ∀ {id}, st.has id = false → (deleteIndexBlobs ids st).has id = false := fun hid => by
    rw [Bool.eq_false_iff, Ne, has_delete, hid]
    simp
  refine ⟨fun cl hcl hout i hi => ?_, h.ordered, fun e he cl hcl hid i hi =>
    hsub (h.scheduled e he cl hcl hid i hi), h.logIDs,
    h.ids.sublist (filter_sublist.map _)⟩
  cases hv : haveAllOutputs st cl with
  | false => exact hsub (h.closed cl hcl hv i hi)
  | true =>
    rw [haveAllOutputs_iff] at hv
    rw [Bool.eq_false_iff, Ne, haveAllOutputs_iff] at hout
    simp only [not_forall] at hout
    obtain ⟨o, ho, hgone⟩ := hout
    rw [has_delete, not_and, not_not] at hgone
    rw [Bool.eq_false_iff, Ne, has_delete, not_and, not_not]
    exact hc cl hcl o ho (hgone (hv o ho)) i hi

lemma Chained.active_delete (h : Chained st) (hc : Closes st ids)
    (hin : ∀ i ∈ ids, ∃ cl ∈ st.logs, i ∈ cl.inputs) :
    listActiveIndexBlobs (deleteIndexBlobs ids st) = listActiveIndexBlobs st := by
  have h' := h.delete hc
  refine active_congr rfl fun b hb => ?_
  have hthere : st.has b.blobID = true := has_iff.2 ⟨b, hb, rfl⟩
  constructor
  · rintro ⟨hv, hid⟩ cl hcl hout hmem
    have hid : b.blobID ∉ ids := by simpa using hid
    cases hout' : haveAllOutputs (deleteIndexBlobs ids st) cl with
    | true => exact hv cl hcl hout' hmem
    | false =>
      have := h'.closed cl hcl hout' b.blobID hmem
      rw [Bool.eq_false_iff] at this
      exact this (has_delete.2 ⟨hthere, hid⟩)
  · intro hv
    refine ⟨fun cl hcl hout hmem => hv cl hcl ?_ hmem, ?_⟩
    · rw [haveAllOutputs_iff] at hout ⊢
      exact fun o ho => (has_delete.1 (hout o ho)).1
    · simp only [contains_eq_mem, Bool.not_eq_true', decide_eq_false_iff_not]
      intro hid
      obtain ⟨cl, hcl, hmem⟩ := hin _ hid
      have hout : haveAllOutputs st cl = false := by
        rw [Bool.eq_false_iff]
        exact fun hout => hv cl hcl hout hmem
      exact absurd (h.closed cl hcl hout _ hmem) (by simp [hthere])

lemma mem_indexBlobsToDelete {i : Str} : i ∈ indexBlobsToDelete env latest settle st
    ↔ ∃ cl ∈ st.logs, cl.timestamp ≤ latest - settle ∧ i ∈ cl.inputs := by
  rw [indexBlobsToDelete, (env.order_perm _).mem_iff, findIndexBlobsToDelete, mem_dedup]
  simp only [blobsOlderThan, mem_flatMap, mem_filter, Bool.not_eq_true',
    decide_eq_false_iff_not, decide_eq_true_eq]
  constructor
  · rintro ⟨cl, ⟨⟨hcl, hle⟩, -⟩, hi⟩
    exact ⟨cl, hcl, hle, hi⟩
  · rintro ⟨cl, hcl, hle, hi⟩
    exact ⟨cl, ⟨⟨hcl, hle⟩, by omega⟩, hi⟩

lemma Chained.closes_all (h : Chained st) :
    Closes st (indexBlobsToDelete env latest settle st) := by
  intro cl hcl o ho hdel i hi _
  obtain ⟨cl', hcl', hle, ho'⟩ := mem_indexBlobsToDelete.1 hdel
  exact mem_indexBlobsToDelete.2 ⟨cl, hcl, (h.ordered cl hcl cl' hcl' o ho ho').trans hle, hi⟩

lemma InputsFirst.closes (h : InputsFirst st ids) (n : ℕ) : Closes st (ids.take n) := by
  intro cl hcl o ho hdel i hi hthere
  obtain ⟨k, hk, hget⟩ := mem_iff_getElem.1 hdel
  rw [length_take] at hk
  rw [getElem_take] at hget
  have hmem := h k (mem_range.2 (by omega)) o
    (by rw [getElem?_eq_getElem (by omega), hget]; rfl) cl hcl ho i hi hthere
  exact (take_subset_take_left ids (by omega)) hmem

/-- A round that ends, or that deletes every blob after the inputs of the compactions it came out
of. -/
def Safe (env : Env) (latest settle : ℤ) (st : Store) : Prop :=
  env.deletes = none ∨ InputsFirst st (indexBlobsToDelete env latest settle st)

lemma Safe.closes (hs : Safe env latest settle st) (h : Chained st) :
    Closes st (reached env.deletes (indexBlobsToDelete env latest settle st)) := by
  unfold reached
  split
  · exact h.closes_all
  · next n hn =>
    rcases hs with hs | hs
    · cases hn.symm.trans hs
    · exact hs.closes n

lemma reached_subset {α : Type} (stops : Option ℕ) (l : List α) : reached stops l ⊆ l := by
  unfold reached
  split
  · exact Subset.refl l
  · exact take_subset _ l

lemma Chained.deleteOldBlobs (h : Chained st) (hs : Safe env latest settle st) :
    Chained (deleteOldBlobs env latest settle st).1 ∧
      listActiveIndexBlobs (deleteOldBlobs env latest settle st).1
        = listActiveIndexBlobs st := by
  have hc := hs.closes h
  have hd := h.delete hc
  have ha := h.active_delete hc fun i hi => by
    obtain ⟨cl, hcl, -, hi⟩ := mem_indexBlobsToDelete.1 (reached_subset _ _ hi)
    exact ⟨cl, hcl, hi⟩
  unfold ManagerV0.deleteOldBlobs delayCleanupBlobs
  dsimp only
  split_ifs with hstop
  · exact ⟨hd, ha⟩
  · exact ⟨hd, ha⟩
  · exact ⟨hd, ha⟩
  · refine ⟨⟨hd.closed, hd.ordered, fun e he => ?_, hd.logIDs, hd.ids⟩, ha⟩
    rcases mem_append.1 he with he | he
    · exact hd.scheduled e he
    -- the logs that are scheduled have just lost their inputs
    intro cl hcl hid i hi
    rw [mem_singleton.1 he] at hid
    obtain ⟨cl', hcl', heq⟩ := mem_map.1 hid
    obtain ⟨hcl', hle⟩ := mem_filter.1 hcl'
    obtain rfl : cl' = cl := inj_on_of_nodup_map h.logIDs hcl' hcl heq
    have hgone : ¬ (deleteIndexBlobs (reached env.deletes
        (indexBlobsToDelete env latest settle st)) st).has i = true := by
      rw [has_delete, not_and, not_not, Option.not_isSome_iff_eq_none.1 hstop]
      exact fun _ => mem_indexBlobsToDelete.2 ⟨cl', hcl, by simpa using hle, hi⟩
    exact Bool.eq_false_iff.2 hgone

lemma Chained.filterLogs (h : Chained st) {q : CompactionLog → Bool}
    (hq : ∀ cl ∈ st.logs, q cl = false → ∀ i ∈ cl.inputs, st.has i = false) :
    Chained { st with logs := st.logs.filter q } ∧
      listActiveIndexBlobs { st with logs := st.logs.filter q } = listActiveIndexBlobs st := by
  have hsub : ∀ cl ∈ st.logs.filter q, cl ∈ st.logs := fun cl hcl => (mem_filter.1 hcl).1
  refine ⟨⟨fun cl hcl => h.closed cl (hsub cl hcl), fun cl hcl cl' hcl' => h.ordered cl
    (hsub cl hcl) cl' (hsub cl' hcl'), fun e he cl hcl => h.scheduled e he cl (hsub cl hcl),
    h.logIDs.sublist (filter_sublist.map _), h.ids⟩, ?_⟩
  refine active_congr (q := fun _ => true) (filter_true _).symm fun b hb => ?_
  have hthere : st.has b.blobID = true := has_iff.2 ⟨b, hb, rfl⟩
  constructor
  · rintro ⟨hv, -⟩ cl hcl hout hmem
    cases hk : q cl with
    | true => exact hv cl (mem_filter.2 ⟨hcl, hk⟩) hout hmem
    | false => exact absurd (hq cl hcl hk _ hmem) (by simp [hthere])
  · exact fun hv => ⟨fun cl hcl hout => hv cl (hsub cl hcl) hout, rfl⟩

lemma Chained.cleanup (h : Chained st) :
    Chained (cleanup env settle st).1 ∧
      listActiveIndexBlobs (cleanup env settle st).1 = listActiveIndexBlobs st := by
  unfold ManagerV0.cleanup
  extract_lets latest old logs st'
  have hst' : Chained st' ∧ listActiveIndexBlobs st' = listActiveIndexBlobs st := by
    refine h.filterLogs fun cl hcl hid => ?_
    have hid : cl.blobID ∈ logs := by simpa using hid
    obtain ⟨e, he, hid⟩ := mem_flatMap.1 (reached_subset _ _ hid)
    exact h.scheduled e ((env.cleanupOrder_perm _).mem_iff.1 (mem_filter.1 he).1) cl hcl hid
  split_ifs
  · exact hst'
  · exact ⟨⟨hst'.1.closed, hst'.1.ordered,
      fun e he => hst'.1.scheduled e (mem_filter.1 he).1, hst'.1.logIDs, hst'.1.ids⟩, hst'.2⟩

lemma Chained.finish {opt : CompactOptions} {r : Store × Outcome} (h : Chained r.1)
    (hs : r.2 = .registered → Safe env env.logTime opt.maxEventualConsistencySettleTime r.1) :
    Chained (finish env opt r).1 ∧
      listActiveIndexBlobs (finish env opt r).1 = listActiveIndexBlobs r.1 := by
  obtain ⟨st, o⟩ := r
  cases o with
  | failed => exact ⟨h, rfl⟩
  | skipped => exact h.cleanup
  | registered =>
    obtain ⟨hd, ha⟩ := h.deleteOldBlobs (hs rfl)
    rcases hdel : ManagerV0.deleteOldBlobs env env.logTime opt.maxEventualConsistencySettleTime st
      with ⟨st', done⟩
    simp only [hdel] at hd ha
    cases done with
    | false =>
      simp only [ManagerV0.finish, hdel]
      exact ⟨hd, ha⟩
    | true =>
      simp only [ManagerV0.finish, hdel]
      exact ⟨hd.cleanup.1, hd.cleanup.2.trans ha⟩

end Delete

section Write

variable {st : Store} {outs : List IndexBlob}

lemma has_append {id : Str} : ({ st with indexBlobs := st.indexBlobs ++ outs } : Store).has id
    = (st.has id || outs.any fun b => b.blobID = id) := any_append

lemma Store.unused.has_iff (hu : st.unused (outs.map (·.blobID))) {cl : CompactionLog}
    (hcl : cl ∈ st.logs) {id : Str} (hid : id ∈ cl.inputs ∨ id ∈ cl.outputs) :
    ({ st with indexBlobs := st.indexBlobs ++ outs } : Store).has id = st.has id := by
  have hnone : (outs.any fun b => b.blobID = id) = false := by
    rw [any_eq_false]
    intro b hb heq
    obtain ⟨-, hlogs⟩ := hu.2 b.blobID (mem_map_of_mem hb)
    obtain ⟨hin, hout⟩ := hlogs cl hcl
    rw [of_decide_eq_true heq] at hin hout
    exact hid.elim hin hout
  rw [has_append, hnone, Bool.or_false]

lemma Store.unused.haveAllOutputs_eq (hu : st.unused (outs.map (·.blobID))) {cl : CompactionLog}
    (hcl : cl ∈ st.logs) : haveAllOutputs { st with indexBlobs := st.indexBlobs ++ outs } cl
      = haveAllOutputs st cl := by
  rw [Bool.eq_iff_iff, haveAllOutputs_iff, haveAllOutputs_iff]
  exact forall₂_congr fun o ho => by rw [hu.has_iff hcl (.inr ho)]

lemma Chained.append (h : Chained st) (hu : st.unused (outs.map (·.blobID))) :
    Chained { st with indexBlobs := st.indexBlobs ++ outs } := by
  refine ⟨fun cl hcl hout i hi => ?_, h.ordered, fun e he cl hcl hid i hi => ?_, h.logIDs, ?_⟩
  · rw [hu.haveAllOutputs_eq hcl] at hout
    rw [hu.has_iff hcl (.inl hi)]
    exact h.closed cl hcl hout i hi
  · rw [hu.has_iff hcl (.inl hi)]
    exact h.scheduled e he cl hcl hid i hi
  · rw [map_append]
    refine h.ids.append hu.1 fun id hid hnew => ?_
    obtain ⟨b, hb, rfl⟩ := mem_map.1 hid
    exact has_eq_false.1 (hu.2 _ hnew).1 b hb rfl

lemma Chained.register (h : Chained st) {log : CompactionLog}
    (hout : haveAllOutputs st log = true)
    (hnew : ∀ cl ∈ st.logs, ∀ o ∈ log.outputs, o ∉ cl.inputs)
    (hlast : ∀ cl ∈ st.logs, cl.blobID ≠ log.blobID ∧ cl.timestamp ≤ log.timestamp)
    (hclean : ∀ e ∈ st.cleanups, log.blobID ∉ e.blobIDs) :
    Chained { st with logs := st.logs ++ [log] } := by
  have hmem : ∀ cl ∈ st.logs ++ [log], cl ∈ st.logs ∨ cl = log := fun cl hcl => by
    simpa using hcl
  refine ⟨fun cl hcl hout' => ?_, fun cl hcl cl' hcl' o ho ho' => ?_, fun e he cl hcl hid => ?_, ?_,
    h.ids⟩
  · rcases hmem cl hcl with hcl | rfl
    · exact h.closed cl hcl hout'
    · exact absurd (hout.symm.trans hout') nofun
  · rcases hmem cl hcl with hc | rfl <;> rcases hmem cl' hcl' with hc' | rfl
    · exact h.ordered cl hc cl' hc' o ho ho'
    · exact (hlast cl hc).2
    · exact absurd ho' (hnew cl' hc' o ho)
    · exact le_rfl
  · rcases hmem cl hcl with hcl | rfl
    · exact h.scheduled e he cl hcl hid
    · exact absurd hid (hclean e he)
  · rw [map_append]
    refine h.logIDs.append (nodup_singleton _) fun id hid hnew' => ?_
    obtain ⟨cl, hcl, rfl⟩ := mem_map.1 hid
    exact (hlast cl hcl).1 (by simpa using hnew')

end Write

section Compact

variable {cfg : Config} {env : Env} {opt : CompactOptions} {st : Store}

lemma compactIndexBlobs_adds (cfg : Config) (env : Env) (opt : CompactOptions)
    (blobs : List IndexBlob) (st : Store) :
    ∃ outs, ((compactIndexBlobs cfg env opt blobs st).2 ≠ .registered ∧
        (compactIndexBlobs cfg env opt blobs st).1
          = { st with indexBlobs := st.indexBlobs ++ outs }) ∨
      compactIndexBlobs cfg env opt blobs st
        = ({ st with
            indexBlobs := st.indexBlobs ++ outs
            logs := st.logs ++ [⟨env.logID, env.logTime, blobs.map (·.blobID),
              outs.map (·.blobID)⟩] }, .registered) := by
  have hnil : st = { st with indexBlobs := st.indexBlobs ++ [] } := by rw [append_nil]
  unfold compactIndexBlobs
  by_cases hidle : idle opt blobs = true
  · rw [if_pos hidle]
    exact ⟨[], .inl ⟨nofun, hnil⟩⟩
  rw [if_neg hidle]
  by_cases hread : (blobs.any fun b => env.unreadable b.blobID) = true
  · rw [if_pos hread]
    exact ⟨[], .inl ⟨nofun, hnil⟩⟩
  rw [if_neg hread]
  rcases buildShards cfg (compactedBuilder opt blobs) with _ | shards
  · exact ⟨[], .inl ⟨nofun, hnil⟩⟩
  dsimp only
  rcases env.writes with _ | n
  · dsimp only
    by_cases hlog : env.logFails = true
    · rw [if_pos hlog]
      exact ⟨outputBlobs env shards, .inl ⟨nofun, rfl⟩⟩
    · rw [if_neg hlog]
      exact ⟨outputBlobs env shards, .inr rfl⟩
  · exact ⟨(outputBlobs env shards).take n, .inl ⟨nofun, rfl⟩⟩

lemma Chained.compactIndexBlobs (h : Chained st) (hf : env.fresh cfg opt st) :
    Chained (beforeDeletions cfg opt env st).1 := by
  obtain ⟨hunused, hlast, hclean⟩ := hf
  unfold beforeDeletions at hunused ⊢
  obtain ⟨outs, ⟨-, heq⟩ | heq⟩ := compactIndexBlobs_adds cfg env opt
    (getBlobsToCompact cfg.maxPackSize opt (listActiveIndexBlobs st)) st
  · rw [heq] at hunused ⊢
    rw [drop_left] at hunused
    exact h.append hunused
  · rw [heq] at hunused ⊢
    rw [drop_left] at hunused
    refine (h.append hunused).register ?_ (fun cl hcl o ho => ((hunused.2 o ho).2 cl hcl).1) hlast
      hclean
    rw [haveAllOutputs_iff]
    intro o ho
    obtain ⟨b, hb, rfl⟩ := mem_map.1 ho
    exact has_iff.2 ⟨b, mem_append_right _ hb, rfl⟩

end Compact

section Reach

variable {cfg : Config} {s : State}

/-- The round of deletions of a call ends, or goes in the right order. -/
def Orderly (cfg : Config) (s : State) : Action → Prop
  | .write _ => True
  | .compact opt env => Safe env env.logTime opt.maxEventualConsistencySettleTime
      (beforeDeletions cfg opt env s.store).1

def Empty (s : State) : Prop := s = ⟨⟨[], [], []⟩, ⟨[], [], []⟩⟩

structure Intact (s : State) : Prop where
  chained : Chained s.store
  active : listActiveIndexBlobs s.store = listActiveIndexBlobs s.before

lemma Intact.step {s s' : State} {a : Action} (h : Intact s) (hok : Orderly cfg s a)
    (hs : step cfg s a = some s') : Intact s' := by
  cases a with
  | write b =>
    simp only [ManagerV0.step, Option.ite_none_right_eq_some, Option.some.injEq] at hs
    obtain ⟨hu, rfl⟩ := hs
    exact ⟨h.chained.append hu, rfl⟩
  | compact opt env =>
    simp only [ManagerV0.step, Option.ite_none_right_eq_some, Option.some.injEq] at hs
    obtain ⟨hf, rfl⟩ := hs
    obtain ⟨hc, ha⟩ := (h.chained.compactIndexBlobs hf).finish fun _ => hok
    exact ⟨hc, ha⟩

lemma reach_intact (h : Runs.Reach (step cfg) (Orderly cfg) Empty s) : Intact s := by
  refine h.invariant (fun s h => ?_) fun _ _ _ h hok hs => h.step hok hs
  rw [h]
  exact ⟨⟨nofun, nofun, nofun, nodup_nil, nodup_nil⟩, rfl⟩

/-- As long as rounds of deletions end or go in the right order, they leave the view as it was. -/
theorem reach_view_kept (h : Runs.Reach (step cfg) (Orderly cfg) Empty s) (c : ID) :
    s.store.view c = s.before.view c := by
  rw [Store.view, Store.view, (reach_intact h).active]

end Reach

section Sample

instance (env : Env) (latest settle : ℤ) (st : Store) : Decidable (Safe env latest settle st) := by
  unfold Safe
  infer_instance

instance (cfg : Config) (s : State) : ∀ a, Decidable (Orderly cfg s a)
  | .write _ => isTrue trivial
  | .compact _ _ => by
    unfold Orderly
    infer_instance

def Env.sample (n : UInt8) (hour : ℤ) (deletes : Option ℕ) : Env where
  unreadable _ := false
  outputID k := [110, n, UInt8.ofNat k]
  outputLength _ := 1
  writes := none
  logID := [109, n]
  logTime := hour * (60 * minute)
  logFails := false
  order := List.reverse
  order_perm := List.reverse_perm
  deletes := deletes
  cleanupID := [108, n]
  cleanupTime := hour * (60 * minute)
  delayFails := false
  cleanupOrder := id
  cleanupOrder_perm _ := .refl _
  logDeletes := none
  cleanupDeletes := none

def sampleInfo (hash : UInt8) (time : ℤ) (deleted : Bool) : Info :=
  ⟨[112], time, 1, 1, 0, 0, ⟨0, [hash]⟩, deleted, 2, 0⟩

/-- Two blobs are compacted, one more deletes a content of theirs, the next compaction drops it, and
two hours later a third one deletes the inputs of both. -/
def sampleActions (deletes : Option ℕ) : List Action :=
  [.write ⟨[1], 1, [sampleInfo 7 1 false], none⟩, .write ⟨[2], 1, [sampleInfo 8 1 false], none⟩,
    .compact ⟨0, true, none, [], false⟩ (.sample 1 0 none),
    .write ⟨[3], 1, [sampleInfo 7 2 true], none⟩,
    .compact ⟨0, true, some (10 ^ 10), [], false⟩ (.sample 2 0 none),
    .write ⟨[4], 1, [sampleInfo 9 2 false], none⟩,
    .compact ⟨0, true, none, [], false⟩ (.sample 3 2 deletes)]

theorem reach_view_kept_sample : ∃ s, Runs.Reach (step .plain) (Orderly .plain) Empty s ∧
    s.store.indexBlobs ≠ s.before.indexBlobs ∧ s.store.view ⟨0, [7]⟩ = s.before.view ⟨0, [7]⟩ :=
  Runs.exists_reach_with (s := ⟨⟨[], [], []⟩, ⟨[], [], []⟩⟩) rfl (sampleActions none) (by decide)
    fun _ hreach _ => reach_view_kept hreach _

/-- The round breaks off when the output of the first compaction is deleted and its inputs are not:
the content that was deleted and dropped is there again. -/
theorem broken_round_resurrects : ∃ s, Runs.Reach (step .plain) Runs.Free Empty s ∧
    s.before.view ⟨0, [7]⟩ = none ∧ s.store.view ⟨0, [7]⟩ = some (sampleInfo 7 1 false) :=
  Runs.exists_reach (s := ⟨⟨[], [], []⟩, ⟨[], [], []⟩⟩) rfl (sampleActions (some 2)) (by decide)

end Sample

end Warphold.Content.ManagerV0
