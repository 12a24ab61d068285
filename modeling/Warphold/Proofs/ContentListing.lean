import Warphold.Proofs.CombinedIndexes
import Warphold.Proofs.Durability
import Warphold.Proofs.Unreferenced

/-!
# Listing contents and looking them up

`IterateContents` goes over a snapshot of the entries that are not committed and then over the
indexes, and takes the deletion of an ID from the snapshot where it has one.
-/

namespace Warphold.Content.Manager

open List Option

variable {cfg : Config} {t : RefreshClock} {s s' : Manager} {sources : List Source}

/-- The indexes listed are those in use after a refresh, and they can be read. -/
structure Lists (cfg : Config) (t : RefreshClock) (s : Manager) (sources : List Source)
    (s' : Manager) : Prop where
  refreshed : s.maybeRefreshIndexes cfg t = (s', true)
  readable : Readable sources
  merged : sources.map (fun x => x.shard.entries) = s'.merged
  untied : Untied ((sources.map Source.shard).flatMap Shard.entries)

section Visited

lemma foldlM_filter {σ ε : Type} (cb : σ → Info → Except ε σ) (p : Info → Bool) :
    ∀ (l : List Info) (a : σ),
      (l.filter p).foldlM cb a = l.foldlM (fun a i => if p i then cb a i else .ok a) a
  | [], _ => rfl
  | i :: l, a => by
    rw [filter_cons, foldlM_cons]
    by_cases hp : p i = true
    · rw [if_pos hp, if_pos hp, foldlM_cons]
      exact congrArg _ (funext fun b => foldlM_filter cb p l b)
    · rw [if_neg hp, if_neg hp, foldlM_filter cb p l a]
      rfl

lemma mem_collapse_iff {m : List Shard} (hu : Untied (m.flatMap Shard.entries)) {r : IDRange}
    {is : List Info} (hord : InOrder is)
    (his : ∀ i, i ∈ is ↔ (∃ ndx ∈ m, i ∈ ndx.entries) ∧ r.contains i.contentID = true) (i : Info) :
    i ∈ collapse none is ↔ r.contains i.contentID = true ∧
      Merged.getInfo (m.map Shard.entries) i.contentID = some i := by
  have hasc : Ascending (collapse none is) := collapse_none_ascending hord
  have hfind : i ∈ collapse none is ↔ resolve is i.contentID = some i := by
    rw [← find?_collapse_none _ hord, hasc.find?_eq_some_iff, and_iff_left rfl]
  have hget : ∀ c, Merged.getInfo (m.map Shard.entries) c = resolve (m.flatMap Shard.entries) c :=
    Merged.getInfo_eq_resolve m (fun _ => mem_flatMap) hu
  have hsub : ∀ j ∈ is, j ∈ m.flatMap Shard.entries := fun j hj => mem_flatMap.2 ((his j).1 hj).1
  rw [hfind, hget]
  constructor
  · intro h
    obtain ⟨hmem, -⟩ := mem_filter.1 (resolve_stands h).1
    have hr := ((his i).1 hmem).2
    refine ⟨hr, ?_⟩
    obtain ⟨p, hp⟩ := isSome_iff_exists.1 ((resolve_isSome _ i.contentID).2 ⟨i, hsub i hmem, rfl⟩)
    have hw := hu.winner hp
    have hpis : p ∈ is := (his p).2 ⟨mem_flatMap.1 hw.mem, hw.id ▸ hr⟩
    rw [hp, ← (hw.subset hsub hpis).resolve, h]
  · rintro ⟨hr, h⟩
    have hw := hu.winner h
    exact (hw.subset hsub ((his i).2 ⟨mem_flatMap.1 hw.mem, hr⟩)).resolve

lemma Lists.visited (hl : Lists cfg t s sources s') (r : IDRange) : ∃ visited : List Info,
    visited.Nodup ∧ (∀ i, i ∈ visited ↔ r.contains i.contentID = true ∧
      s'.committedContent i.contentID = some i) ∧
    ∀ {σ ε : Type} (cb : σ → Info → Except ε σ) (a : σ),
      listContents cb sources s'.deletionWatermark r a = visited.foldlM cb a := by
  obtain ⟨is, hord, his, hrun⟩ := Merged.iterate_range (sources.map Source.shard) r
  have hmap : (sources.map Source.shard).map Shard.entries = s'.merged := by
    rw [List.map_map]
    exact hl.merged
  have hasc : Ascending (collapse none is) := collapse_none_ascending hord
  refine ⟨(collapse none is).filter fun i => !shouldIgnore i s'.deletionWatermark,
    hasc.nodup.filter _, fun i => ?_, fun cb a => ?_⟩
  · rw [mem_filter, mem_collapse_iff hl.untied hord his, hmap, committedContent,
      filter_eq_some_iff, and_assoc]
  · rw [listContents, hl.readable.delivered, hrun]
    rw [foldlM_filter]
    refine congrArg (fun f => foldlM f a _) (funext fun b => funext fun i => ?_)
    cases shouldIgnore i s'.deletionWatermark <;> rfl

end Visited

section Told

variable {σ ε : Type} (opts : IterateOptions)

def given (opts : IterateOptions) (uncommitted : Builder) (i : Info) : Bool :=
  (opts.includeDeleted || !((uncommitted.lookup i.contentID).getD i).deleted) &&
    opts.range.contains i.contentID

lemma invokeCallback_eq (cb : σ → Info → Except ε σ) (uncommitted : Builder) (a : σ) (i : Info) :
    invokeCallback cb opts uncommitted a i = if given opts uncommitted i then cb a i else .ok a := by
  unfold invokeCallback given
  rcases uncommitted.lookup i.contentID with _ | u
  · cases opts.includeDeleted <;> cases opts.range.contains i.contentID <;>
      cases hi : i.deleted <;> simp [hi]
  · cases opts.includeDeleted <;> cases opts.range.contains i.contentID <;>
      cases hu : u.deleted <;> simp [hu]

/-- What `IterateContents` does: the given entries of the snapshot, with errors dropped, and the given
ones of the indexes. -/
lemma iterateContents_eq (hl : Lists cfg t s sources s') :
    ∃ visited : List Info, visited.Nodup ∧
      (∀ i, i ∈ visited ↔ s'.committedContent i.contentID = some i ∧
        given opts.withDefaults s.snapshotUncommittedItems i = true) ∧
      ∀ {σ ε : Type} (cb : σ → Info → Except ε σ) (a : σ),
        s.iterateContents cb cfg t sources opts a = some (visited.foldlM cb
          (overUncommitted (fun a i => if given opts.withDefaults s.snapshotUncommittedItems i then cb a i
            else .ok a) s.snapshotUncommittedItems a)) := by
  obtain ⟨visited, hnd, hmem, hrun⟩ := hl.visited opts.withDefaults.range
  refine ⟨visited.filter (given opts.withDefaults s.snapshotUncommittedItems), hnd.filter _, fun i => ?_,
    fun cb a => ?_⟩
  · rw [mem_filter, hmem]
    constructor
    · rintro ⟨⟨-, hc⟩, hg⟩
      exact ⟨hc, hg⟩
    · rintro ⟨hc, hg⟩
      exact ⟨⟨(Bool.and_eq_true_iff.1 hg).2, hc⟩, hg⟩
  · have hcb : (if s.snapshotUncommittedItems.infos = [] ∧
        opts.withDefaults.includeDeleted = true ∧ opts.withDefaults.range = .allIDs then cb
        else invokeCallback cb opts.withDefaults s.snapshotUncommittedItems)
        = fun a i => if given opts.withDefaults s.snapshotUncommittedItems i then cb a i else .ok a := by
      funext a i
      split_ifs with hfast hg hg
      · rfl
      · refine absurd ?_ hg
        rw [given, hfast.2.1, hfast.2.2, Merged.contains_allIDs]
        rfl
      · rw [invokeCallback_eq, if_pos hg]
      · rw [invokeCallback_eq, if_neg hg]
    simp only [iterateContents, hl.refreshed]
    rw [hcb, hrun, foldlM_filter]

end Told

section Agreement

variable (opts : IterateOptions)

def overlay (s : Manager) (c : ID) : Option Info := (s.getOverlayContentInfo c).map (·.2)

/-- An entry that a listing is to give: in the range, and what `ContentInfo` returns. -/
structure Asked (cfg : Config) (t : RefreshClock) (s : Manager) (opts : IterateOptions) (i : Info) :
    Prop where
  range : opts.withDefaults.range.contains i.contentID = true
  deleted : opts.withDefaults.includeDeleted = true ∨ i.deleted = false
  found : ∃ pp, (s.getContentInfo cfg t i.contentID).2 = .ok (pp, i)

lemma found_iff (h : s.maybeRefreshIndexes cfg t = (s', true)) (c : ID) (i : Info) :
    (∃ pp, (s.getContentInfo cfg t c).2 = .ok (pp, i)) ↔
      (s.overlay c).or (s'.committedContent c) = some i := by
  unfold getContentInfo overlay
  rcases s.getOverlayContentInfo c with _ | ⟨pp, o⟩
  · simp only [h, map_none, none_or]
    cases s'.committedContent c <;> simp
  · simp

variable {i : Info}

lemma committedContent_id {c : ID} (h : s.committedContent c = some i) : i.contentID = c := by
  obtain ⟨hget, -⟩ := filter_eq_some_iff.1 h
  obtain ⟨ndx, -, hfind⟩ := mem_filterMap.1 (foldl_newer_stands hget).1
  have hid := find?_some hfind
  exact of_decide_eq_true hid

lemma findItem_isSome {packs : List Pack} {q : Pack} {c : ID} (hq : q ∈ packs)
    (h : q.currentPackItems.lookup c = some i) : (findItem packs c).isSome := by
  rw [findItem, findSome?_isSome_iff]
  exact ⟨q, hq, by rw [h]; rfl⟩

lemma Keyed.overlay_eq_none_iff (hk : s.Keyed) (c : ID) :
    s.overlay c = none ↔ s.snapshotUncommittedItems.lookup c = none := by
  rw [hk.snapshot_eq, ← not_isSome_iff_eq_none, ← not_isSome_iff_eq_none,
    not_iff_not, resolve_isSome, overlay, isSome_map]
  constructor
  · intro h
    obtain ⟨⟨pp, i⟩, hi⟩ := isSome_iff_exists.1 h
    obtain ⟨hmem, hid⟩ := hk.mem_uncommitted hi
    exact ⟨i, hmem, hid⟩
  · rintro ⟨i, hi, rfl⟩
    unfold getOverlayContentInfo
    rcases hp : findItem s.pendingList i.contentID with _ | r
    · rcases hw : findItem s.writingPacks i.contentID with _ | r
      · rcases mem_append.1 hi with hb | hq
        · rw [hk.builder.mem_infos_iff] at hb
          simp [hb]
        · obtain ⟨q, hq, hmem⟩ := mem_flatMap.1 hq
          have hkq := hk.packs q hq
          rw [hkq.mem_infos_iff] at hmem
          rcases mem_append.1 hq with hq | hq
          · have := findItem_isSome hq hmem
            rw [hp] at this
            cases this
          · have := findItem_isSome hq hmem
            rw [hw] at this
            cases this
      · rfl
    · rfl

/-- No ID that is given is both in the snapshot and committed, and the snapshot has of each ID the
entry that lookups show. -/
def ListsAsShown (s s' : Manager) (opts : IterateOptions) : Prop :=
  ∀ c u, opts.withDefaults.range.contains c = true →
    s.snapshotUncommittedItems.lookup c = some u →
      if opts.withDefaults.includeDeleted = true ∨ u.deleted = false then
        s.overlay c = some u ∧ s'.committedContent c = none
      else ∃ o, s.overlay c = some o ∧ o.deleted = true

lemma Keyed.snapshot_keyed (hk : s.Keyed) : s.snapshotUncommittedItems.Keyed := by
  intro c i h
  rw [hk.snapshot_eq] at h
  exact of_decide_eq_true (mem_filter.1 (resolve_stands h).1).2

lemma given_eq_true_iff {o : IterateOptions} {u : Builder} :
    given o u i = true ↔ (o.includeDeleted = true ∨ ((u.lookup i.contentID).getD i).deleted = false) ∧
      o.range.contains i.contentID = true := by
  rw [given, Bool.and_eq_true_iff, Bool.or_eq_true_iff, Bool.not_eq_true']

lemma Keyed.mem_given (hk : s.Keyed) (o : IterateOptions) (i : Info) :
    i ∈ s.snapshotUncommittedItems.infos.filter (given o s.snapshotUncommittedItems) ↔
      s.snapshotUncommittedItems.lookup i.contentID = some i ∧
        (o.includeDeleted = true ∨ i.deleted = false) ∧ o.range.contains i.contentID = true := by
  rw [mem_filter, hk.snapshot_keyed.mem_infos_iff, given_eq_true_iff]
  constructor
  · rintro ⟨hl, hg⟩
    rw [hl] at hg
    exact ⟨hl, hg⟩
  · rintro ⟨hl, hg⟩
    refine ⟨hl, ?_⟩
    rw [hl]
    exact hg

variable {opts}

lemma ListsAsShown.snapshot_eq_none (hs : ListsAsShown s s' opts)
    (hc : s'.committedContent i.contentID = some i)
    (hg : given opts.withDefaults s.snapshotUncommittedItems i = true) :
    s.snapshotUncommittedItems.lookup i.contentID = none := by
  obtain ⟨hd, hrange⟩ := given_eq_true_iff.1 hg
  rcases hu : s.snapshotUncommittedItems.lookup i.contentID with _ | u
  · rfl
  · rw [hu, getD_some] at hd
    have := hs _ _ hrange hu
    rw [if_pos hd, hc] at this
    cases this.2

lemma asked_of_told (hk : s.Keyed) (hr : s.maybeRefreshIndexes cfg t = (s', true))
    (hs : ListsAsShown s s' opts)
    (hi : i ∈ s.snapshotUncommittedItems.infos.filter
        (given opts.withDefaults s.snapshotUncommittedItems) ∨
      (s'.committedContent i.contentID = some i ∧
        given opts.withDefaults s.snapshotUncommittedItems i = true)) : Asked cfg t s opts i := by
  rcases hi with hi | ⟨hc, hg⟩
  · obtain ⟨hl, hd, hrange⟩ := (hk.mem_given _ i).1 hi
    have := hs _ _ hrange hl
    rw [if_pos hd] at this
    refine ⟨hrange, hd, (found_iff hr _ i).2 ?_⟩
    rw [this.1, some_or]
  · have hu := hs.snapshot_eq_none hc hg
    obtain ⟨hd, hrange⟩ := given_eq_true_iff.1 hg
    rw [hu] at hd
    refine ⟨hrange, hd, (found_iff hr _ i).2 ?_⟩
    rw [(hk.overlay_eq_none_iff _).2 hu, none_or, hc]

lemma told_of_asked (hk : s.Keyed) (hr : s.maybeRefreshIndexes cfg t = (s', true))
    (hs : ListsAsShown s s' opts) (hi : Asked cfg t s opts i) :
    i ∈ s.snapshotUncommittedItems.infos.filter
        (given opts.withDefaults s.snapshotUncommittedItems) ∨
      (s'.committedContent i.contentID = some i ∧
        given opts.withDefaults s.snapshotUncommittedItems i = true) := by
  have hfound := (found_iff hr _ i).1 hi.found
  rcases hu : s.snapshotUncommittedItems.lookup i.contentID with _ | u
  · rw [(hk.overlay_eq_none_iff _).2 hu, none_or] at hfound
    refine .inr ⟨hfound, given_eq_true_iff.2 ⟨?_, hi.range⟩⟩
    rw [hu]
    exact hi.deleted
  · have hcond := hs _ _ hi.range hu
    split_ifs at hcond with hd
    · rw [hcond.1, some_or] at hfound
      cases hfound
      exact .inl ((hk.mem_given _ _).2 ⟨hu, hd, hi.range⟩)
    · obtain ⟨o, ho, hdel⟩ := hcond
      rw [ho, some_or] at hfound
      cases hfound
      rcases hi.deleted with hincl | hlive
      · exact absurd (.inl hincl) hd
      · rw [hdel] at hlive
        cases hlive

/-- A listing that gives what is asked for, each entry once, goes over an ID of the snapshot only if
lookups show that entry and no index has one. -/
lemma listsAsShown_of_told (hk : s.Keyed) (hr : s.maybeRefreshIndexes cfg t = (s', true))
    {visited : List Info}
    (hv : ∀ i, i ∈ visited ↔ s'.committedContent i.contentID = some i ∧
      given opts.withDefaults s.snapshotUncommittedItems i = true)
    (hnd : (s.snapshotUncommittedItems.infos.filter
      (given opts.withDefaults s.snapshotUncommittedItems) ++ visited).Nodup)
    (hmem : ∀ i, i ∈ s.snapshotUncommittedItems.infos.filter
      (given opts.withDefaults s.snapshotUncommittedItems) ++ visited ↔ Asked cfg t s opts i) :
    ListsAsShown s s' opts := by
  intro c u hrange hu
  obtain rfl := hk.snapshot_keyed c u hu
  obtain ⟨o, ho⟩ : ∃ o, s.overlay u.contentID = some o := by
    rw [← isSome_iff_exists, ← ne_none_iff_isSome, Ne, hk.overlay_eq_none_iff, hu]
    nofun
  have hfound : ∀ i, i.contentID = u.contentID → Asked cfg t s opts i → i = o := by
    intro i hid hi
    have := (found_iff hr _ i).1 hi.found
    rw [hid, ho, some_or] at this
    exact (some.inj this).symm
  split_ifs with hd
  · have hmemu := (hk.mem_given opts.withDefaults u).2 ⟨hu, hd, hrange⟩
    have huo := hfound u rfl ((hmem u).1 (mem_append_left _ hmemu))
    refine ⟨huo ▸ ho, ?_⟩
    rcases hc : s'.committedContent u.contentID with _ | i
    · rfl
    · have hid := committedContent_id hc
      have hiv : i ∈ visited := by
        rw [hv, hid, hc, given_eq_true_iff, hid, hu]
        exact ⟨rfl, hd, hrange⟩
      have hio := hfound i hid ((hmem i).1 (mem_append_right _ hiv))
      rw [hio, ← huo] at hiv
      exact absurd hiv (disjoint_of_nodup_append hnd hmemu)
  · refine ⟨o, ho, ?_⟩
    by_contra hlive
    rw [Bool.not_eq_true] at hlive
    have hid : o.contentID = u.contentID := by
      obtain ⟨⟨pp, o'⟩, ho', rfl⟩ := map_eq_some_iff.1 ho
      exact (hk.mem_uncommitted ho').2
    have hasked : Asked cfg t s opts o := by
      refine ⟨hid ▸ hrange, .inr hlive, (found_iff hr _ o).2 ?_⟩
      rw [hid, ho, some_or]
    rcases mem_append.1 ((hmem o).2 hasked) with hmemo | hmemo
    · have hlo := ((hk.mem_given _ o).1 hmemo).1
      rw [hid, hu] at hlo
      cases hlo
      exact hd (.inr hlive)
    · have hgo := (given_eq_true_iff.1 ((hv o).1 hmemo).2).1
      rw [hid, hu] at hgo
      exact hd hgo

lemma ListsAsShown.committed_iff (hk : s.Keyed) (hr : s.maybeRefreshIndexes cfg t = (s', true))
    (hs : ListsAsShown s s' opts) (i : Info) :
    (s'.committedContent i.contentID = some i ∧
      given opts.withDefaults s.snapshotUncommittedItems i = true) ↔
      Asked cfg t s opts i ∧ s.overlay i.contentID = none := by
  constructor
  · rintro ⟨hc, hg⟩
    exact ⟨asked_of_told hk hr hs (.inr ⟨hc, hg⟩),
      (hk.overlay_eq_none_iff _).2 (hs.snapshot_eq_none hc hg)⟩
  · rintro ⟨hi, ho⟩
    refine (told_of_asked hk hr hs hi).resolve_left fun hmem => ?_
    have := ((hk.mem_given _ i).1 hmem).1
    rw [(hk.overlay_eq_none_iff _).1 ho] at this
    cases this

def record {ε : Type} (a : List Info) (i : Info) : Except ε (List Info) := .ok (a ++ [i])

def failing {ε : Type} (fails : Info → Option ε) (_ : Unit) (i : Info) : Except ε Unit :=
  match fails i with
  | some e => .error e
  | none => .ok ()

lemma foldlM_record {ε : Type} : ∀ (l a : List Info),
    l.foldlM (record (ε := ε)) a = .ok (a ++ l)
  | [], a => by
    rw [append_nil]
    rfl
  | i :: l, a => by
    rw [foldlM_cons]
    exact (foldlM_record l (a ++ [i])).trans (by rw [append_assoc]; rfl)

lemma foldl_record {ε : Type} (p : Info → Bool) : ∀ (l a : List Info),
    l.foldl (fun a i => ((if p i then record a i else .ok a : Except ε _).toOption).getD a) a
      = a ++ l.filter p
  | [], a => (append_nil a).symm
  | i :: l, a => by
    rw [foldl_cons, foldl_record p l, filter_cons]
    by_cases hp : p i = true
    · rw [if_pos hp, if_pos hp]
      exact append_assoc a [i] _
    · rw [if_neg hp, if_neg hp]
      rfl

lemma foldlM_failing_error {ε : Type} (fails : Info → Option ε) : ∀ l : List Info,
    (∃ e, l.foldlM (failing fails) () = .error e) ↔ ∃ i ∈ l, (fails i).isSome
  | [] => by
    refine iff_of_false ?_ ?_
    · rintro ⟨e, he⟩
      cases he
    · simp
  | i :: l => by
    rw [foldlM_cons]
    rcases hf : fails i with _ | e
    · have : failing fails () i = .ok () := by rw [failing, hf]
      rw [this]
      refine (foldlM_failing_error fails l).trans ?_
      simp [hf]
    · have : failing fails () i = .error e := by rw [failing, hf]
      rw [this]
      refine iff_of_true ⟨e, rfl⟩ ⟨i, mem_cons_self, ?_⟩
      rw [hf]
      rfl

def calls (cfg : Config) : Manager → List (Call × Env) → Option Manager
  | s, [] => some s
  | s, (c, env) :: rest => (s.call cfg c env).bind fun r => calls cfg r.1 rest

def writtenEntry (time : ℤ) (deleted : Bool) : Info :=
  ⟨[112, 1], time, 1, 2, 0, 0, ⟨0, [5]⟩, deleted, 2, 0⟩

end Agreement

end Warphold.Content.Manager
