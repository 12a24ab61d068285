import Warphold.Snapshot.GC

/-!
# What snapshot garbage collection keeps

While no error has been reported, an object that was enqueued has an open task, or its contents are
in the used set and, for a directory, its entries are enqueued or still to come.
-/

namespace Warphold.Snapshot

open List Option Walker AList

open Content (ID)

section Objects

variable {st : Store} {index : Index} {fails : ObjectID → Bool}

structure Collects (st : Store) (index : Index) (oids : List ObjectID) (t t' : List ID) : Prop where
  grows : t ⊆ t'
  touched : ∀ oid ∈ oids, ∀ c, Touches st oid c → c ∈ t'
  present : ∀ c ∈ t', c ∈ t ∨ c ∈ index

lemma Collects.append {xs ys : List ObjectID} {t t₁ t₂ : List ID}
    (h₁ : Collects st index xs t t₁) (h₂ : Collects st index ys t₁ t₂) :
    Collects st index (xs ++ ys) t t₂ where
  grows := fun _ hc => h₂.grows (h₁.grows hc)
  touched oid hmem c hc := by
    rcases mem_append.1 hmem with hx | hy
    · exact h₂.grows (h₁.touched oid hx c hc)
    · exact h₂.touched oid hy c hc
  present c hc := by
    rcases h₂.present c hc with h | h
    · exact h₁.present c h
    · exact .inr h

lemma collects_foldlM {f : List ID → ObjectID → Option (List ID)}
    (hf : ∀ m t t', f t m = some t' → Collects st index [m] t t') :
    ∀ (ms : List ObjectID) {t t' : List ID}, ms.foldlM f t = some t' → Collects st index ms t t'
  | [], t, t', h => by
    simp only [List.foldlM_nil, Option.pure_def, Option.some.injEq] at h
    subst h
    exact ⟨fun _ hc => hc, fun _ hm => absurd hm List.not_mem_nil, fun _ hc => .inl hc⟩
  | m :: ms, t, t', h => by
    simp only [foldlM_cons, bind_eq_bind, bind_eq_some_iff] at h
    obtain ⟨t₁, h₁, h₂⟩ := h
    exact (hf m t t₁ h₁).append (collects_foldlM hf ms h₂)

lemma Collects.indirect {oid i : ObjectID} {t t' : List ID} (hi : oid.indexObjectID = some i)
    (h : Collects st index ([i] ++ st.seekTable i) t t') : Collects st index [oid] t t' where
  grows := h.grows
  touched o ho c hc := by
    rw [mem_singleton.1 ho] at hc
    cases hc with
    | content hn => rw [hi] at hn; cases hn
    | index hi' hc =>
      rw [hi, some.injEq] at hi'
      exact h.touched i (by simp) c (hi' ▸ hc)
    | part hi' hm hc =>
      rw [hi, some.injEq] at hi'
      exact h.touched _ (mem_append_right _ (hi' ▸ hm)) c hc
  present := h.present

lemma Collects.content {oid : ObjectID} {t : List ID} (hn : oid.indexObjectID = none)
    (hmem : oid.cid ∈ index) : Collects st index [oid] t (t.insert oid.cid) where
  grows := subset_insert _ _
  touched o ho c hc := by
    rw [mem_singleton.1 ho] at hc
    cases hc with
    | content _ => exact mem_insert_self
    | index hi _ => rw [hn] at hi; cases hi
    | part hi _ _ => rw [hn] at hi; cases hi
  present c hc := by
    rcases mem_insert_iff.1 hc with rfl | h
    · exact .inr hmem
    · exact .inl h

lemma collects_iterateBackingContents : ∀ (fuel : ℕ) {oid : ObjectID} {t t' : List ID},
    iterateBackingContents st index fails fuel oid t = some t' → Collects st index [oid] t t'
  | 0, _, _, _, h => by cases h
  | fuel + 1, oid, t, t', h => by
    rw [iterateBackingContents] at h
    split at h
    next i hi =>
      split at h
      next => cases h
      next t₁ h₁ =>
        split_ifs at h
        refine Collects.indirect hi ((collects_iterateBackingContents fuel h₁).append ?_)
        exact collects_foldlM (fun m t t' h => collects_iterateBackingContents fuel h) _ h
    next hn =>
      split at h
      next => cases h
      next e he =>
        cases h
        exact Collects.content hn (lookup_isSome.1 (by rw [he]; rfl))

end Objects

/-- The objects of the snapshots are of one kind each, and none of them is in a content of the
manifests. -/
structure Store.Sound (st : Store) : Prop where
  kinds : ∀ e e', Reachable st e → Reachable st e' → e.objectID = e'.objectID → e.isDir = e'.isDir
  contents : ∀ c, Referenced st c → c.prefixString ≠ contentPrefix

lemma Store.Sound.unique {st : Store} (h : st.Sound) {e e' : DirEntry} (he : Reachable st e)
    (he' : Reachable st e') (hoid : e.objectID = e'.objectID) : e = e' := by
  have hk := h.kinds e e' he he' hoid
  cases e
  cases e'
  simp only at hoid hk
  rw [hoid, hk]

def Task.subject : Task → DirEntry
  | .entry e => e
  | .dir e _ => e

namespace Walker

section Enqueue

variable {w : Walker} {e : DirEntry}

lemma mem_enqueue_enqueued (w : Walker) (e : DirEntry) {oid : ObjectID} :
    oid ∈ (w.enqueue e).enqueued ↔ oid = e.objectID ∨ oid ∈ w.enqueued := by
  rw [enqueue]
  split_ifs with h
  · constructor
    · exact .inr
    · rintro (rfl | h')
      · exact h
      · exact h'
  · exact mem_cons

lemma mem_tasks_of_enqueue {t : Task} (h : t ∈ (w.enqueue e).tasks) :
    t = .entry e ∨ t ∈ w.tasks := by
  rw [enqueue] at h
  split_ifs at h
  · exact .inr h
  · exact mem_cons.1 h

lemma tasks_subset_enqueue (w : Walker) (e : DirEntry) : w.tasks ⊆ (w.enqueue e).tasks := by
  rw [enqueue]
  split_ifs
  · exact fun _ h => h
  · exact subset_cons_self _ _

lemma entry_mem_enqueue (h : e.objectID ∉ w.enqueued) : .entry e ∈ (w.enqueue e).tasks := by
  rw [enqueue, if_neg h]
  exact mem_cons_self

@[simp] lemma used_enqueue (w : Walker) (e : DirEntry) : (w.enqueue e).used = w.used := by
  rw [enqueue]
  split_ifs <;> rfl

@[simp] lemma numErrors_enqueue (w : Walker) (e : DirEntry) :
    (w.enqueue e).numErrors = w.numErrors := by
  rw [enqueue]
  split_ifs <;> rfl

end Enqueue

/-- An entry waits, or its contents are used and its entries are enqueued or still to come. -/
def Covers (st : Store) (w : Walker) (e : DirEntry) : Prop :=
  .entry e ∈ w.tasks ∨ (∀ c, Touches st e.objectID c → c ∈ w.used) ∧ (e.isDir = true →
    ∃ rest, (.dir e rest ∈ w.tasks ∨ rest = []) ∧
      ∀ x ∈ st.entries e.objectID, x ∈ rest ∨ x.objectID ∈ w.enqueued)

lemma Covers.mono {st : Store} {w w' : Walker} {e : DirEntry} (h : w.Covers st e)
    (henq : w.enqueued ⊆ w'.enqueued) (hused : w.used ⊆ w'.used)
    (htasks : ∀ t ∈ w.tasks, t.subject = e → t ∈ w'.tasks) : w'.Covers st e := by
  rcases h with h | ⟨hc, hd⟩
  · exact .inl (htasks _ h rfl)
  · refine .inr ⟨fun c ht => hused (hc c ht), fun hdir => ?_⟩
    obtain ⟨rest, hrest, hx⟩ := hd hdir
    exact ⟨rest, hrest.imp (fun h => htasks _ h rfl) id, fun x hmem => (hx x hmem).imp id (henq ·)⟩

structure Inv (st : Store) (before : Index) (w : Walker) : Prop where
  subjects : ∀ t ∈ w.tasks, Reachable st t.subject
  rests : ∀ e rest, .dir e rest ∈ w.tasks → ∀ x ∈ rest, Reachable st x
  present : ∀ c ∈ w.used, c ∈ before
  covered : w.numErrors = 0 → ∀ e, Reachable st e → e.objectID ∈ w.enqueued → w.Covers st e

variable {st : Store} {before : Index} {w : Walker}

lemma inv_start : Inv st before start where
  subjects _ h := absurd h not_mem_nil
  rests _ _ h := absurd h not_mem_nil
  present _ h := absurd h not_mem_nil
  covered _ _ _ h := absurd h not_mem_nil

lemma Inv.enqueue (hst : st.Sound) (h : Inv st before w) {e : DirEntry} (he : Reachable st e) :
    Inv st before (w.enqueue e) where
  subjects t ht := by
    rcases mem_tasks_of_enqueue ht with rfl | ht
    · exact he
    · exact h.subjects t ht
  rests d rest hd := by
    rcases mem_tasks_of_enqueue hd with hd | hd
    · cases hd
    · exact h.rests d rest hd
  present c hc := h.present c (by rwa [used_enqueue] at hc)
  covered hz d hd hmem := by
    rw [numErrors_enqueue] at hz
    by_cases hold : d.objectID ∈ w.enqueued
    · refine (h.covered hz d hd hold).mono (fun _ hx => (mem_enqueue_enqueued w e).2 (.inr hx)) ?_
        fun t ht _ => tasks_subset_enqueue w e ht
      rw [used_enqueue]
      exact fun _ hx => hx
    · have hoid : d.objectID = e.objectID := ((mem_enqueue_enqueued w e).1 hmem).resolve_right hold
      rw [hst.unique hd he hoid]
      exact .inl (entry_mem_enqueue (hoid ▸ hold))

lemma Inv.drop (h : Inv st before w) {ts : List Task} (hts : ts ⊆ w.tasks) {n : ℕ} (hn : n ≠ 0) :
    Inv st before { w with tasks := ts, numErrors := n } where
  subjects t ht := h.subjects t (hts ht)
  rests e rest hd := h.rests e rest (hts hd)
  present := h.present
  covered hz := absurd hz hn

section Tasks

variable {ts : List Task} {e : DirEntry}

lemma Inv.processEntry (h : Inv st before w) (hmem : .entry e ∈ w.tasks) (hts : ts ⊆ w.tasks)
    (hsplit : ∀ t ∈ w.tasks, t = .entry e ∨ t ∈ ts) {verified : Option (List ID)}
    (hv : ∀ ids, verified = some ids → Collects st before [e.objectID] [] ids) (ok : Bool) :
    Inv st before ({ w with tasks := ts }.processEntry st e verified ok) := by
  have he : Reachable st e := h.subjects _ hmem
  cases verified with
  | none => exact h.drop hts (Nat.succ_ne_zero _)
  | some ids =>
    have hids := hv ids rfl
    have hpresent : ∀ c ∈ ids ++ w.used, c ∈ before := by
      intro c hc
      rcases mem_append.1 hc with hc | hc
      · exact (hids.present c hc).resolve_left not_mem_nil
      · exact h.present c hc
    -- the other entries keep the task they have
    have hother : ∀ {w' : Walker} {d : DirEntry}, d ≠ e → w.Covers st d → w.enqueued = w'.enqueued →
        ids ++ w.used = w'.used → ts ⊆ w'.tasks → w'.Covers st d := by
      intro w' d hne hd henq hused htasks
      refine hd.mono (by rw [henq]; exact fun _ hx => hx) ?_ fun t ht hsubj => ?_
      · rw [← hused]
        exact subset_append_right _ _
      · rcases hsplit t ht with rfl | ht
        · exact absurd hsubj.symm hne
        · exact htasks ht
    simp only [Walker.processEntry]
    split_ifs with hdir hok
    · refine ⟨fun t ht => ?_, fun d rest hd => ?_, hpresent, fun hz d hd henq => ?_⟩
      · rcases mem_cons.1 ht with rfl | ht
        · exact he
        · exact h.subjects t (hts ht)
      · rcases mem_cons.1 hd with hd | hd
        · cases hd
          exact fun x hx => .child he hdir hx
        · exact h.rests d rest (hts hd)
      · by_cases hne : d = e
        · subst hne
          refine .inr ⟨fun c hc => ?_, fun _ => ?_⟩
          · exact mem_append_left _ (hids.touched _ mem_cons_self c hc)
          · exact ⟨_, .inl mem_cons_self, fun x hx => .inl hx⟩
        · exact hother hne (h.covered hz d hd henq) rfl rfl (subset_cons_self _ _)
    · have hdrop := h.drop hts (Nat.succ_ne_zero w.numErrors)
      exact ⟨hdrop.subjects, hdrop.rests, hpresent, fun hz => absurd hz (Nat.succ_ne_zero _)⟩
    · refine ⟨fun t ht => h.subjects t (hts ht), fun d rest hd => h.rests d rest (hts hd), hpresent,
        fun hz d hd henq => ?_⟩
      by_cases hne : d = e
      · subst hne
        refine .inr ⟨fun c hc => ?_, fun h => absurd h hdir⟩
        exact mem_append_left _ (hids.touched _ mem_cons_self c hc)
      · exact hother hne (h.covered hz d hd henq) rfl rfl fun _ hx => hx

lemma Inv.nextEntry (hst : st.Sound) (h : Inv st before w) {ent : DirEntry} {rest : List DirEntry}
    (hmem : .dir e (ent :: rest) ∈ w.tasks) (hts : ts ⊆ w.tasks)
    (hsplit : ∀ t ∈ w.tasks, t = .dir e (ent :: rest) ∨ t ∈ ts) :
    Inv st before ({ w with tasks := .dir e rest :: ts }.enqueue ent) := by
  have hrest := h.rests e _ hmem
  have hent : Reachable st ent := hrest ent mem_cons_self
  set w' := { w with tasks := .dir e rest :: ts } with hw'
  have henq : w.enqueued ⊆ (w'.enqueue ent).enqueued := fun _ hx =>
    (mem_enqueue_enqueued w' ent).2 (.inr hx)
  have hused : w.used ⊆ (w'.enqueue ent).used := by
    rw [used_enqueue]
    exact fun _ hx => hx
  have htasks : ∀ t ∈ ts, t ∈ (w'.enqueue ent).tasks := fun t ht =>
    tasks_subset_enqueue w' ent (mem_cons_of_mem _ ht)
  refine ⟨fun t ht => ?_, fun d rest' hd => ?_, ?_, fun hz d hd hmem' => ?_⟩
  · rcases mem_tasks_of_enqueue ht with rfl | ht
    · exact hent
    · rcases mem_cons.1 ht with rfl | ht
      · exact h.subjects (.dir e (ent :: rest)) hmem
      · exact h.subjects t (hts ht)
  · rcases mem_tasks_of_enqueue hd with hd | hd
    · cases hd
    · rcases mem_cons.1 hd with hd | hd
      · cases hd
        exact fun x hx => hrest x (mem_cons_of_mem _ hx)
      · exact h.rests d rest' (hts hd)
  · rw [used_enqueue]
    exact h.present
  · rw [numErrors_enqueue] at hz
    by_cases hold : d.objectID ∈ w.enqueued
    · rcases h.covered hz d hd hold with hwait | ⟨hc, hdir⟩
      · exact .inl (htasks _ ((hsplit _ hwait).resolve_left Task.noConfusion))
      · refine .inr ⟨fun c ht => hused (hc c ht), fun hisDir => ?_⟩
        obtain ⟨rest', hrest', hx⟩ := hdir hisDir
        rcases hrest' with hopen | rfl
        · rcases hsplit _ hopen with heq | hopen
          · cases heq
            refine ⟨rest, .inl (tasks_subset_enqueue w' ent mem_cons_self), fun x hmemx => ?_⟩
            rcases hx x hmemx with hx | hx
            · rcases mem_cons.1 hx with rfl | hx
              · exact .inr ((mem_enqueue_enqueued w' x).2 (.inl rfl))
              · exact .inl hx
            · exact .inr (henq hx)
          · exact ⟨rest', .inl (htasks _ hopen), fun x hm => (hx x hm).imp id (henq ·)⟩
        · exact ⟨[], .inr rfl, fun x hm => (hx x hm).imp id (henq ·)⟩
    · have hoid : d.objectID = ent.objectID :=
        ((mem_enqueue_enqueued w' ent).1 hmem').resolve_right hold
      rw [hst.unique hd hent hoid]
      exact .inl (entry_mem_enqueue (hoid ▸ hold))

lemma Inv.processDirEntry (hst : st.Sound) (h : Inv st before w) {rest : List DirEntry}
    (hmem : .dir e rest ∈ w.tasks) (hts : ts ⊆ w.tasks)
    (hsplit : ∀ t ∈ w.tasks, t = .dir e rest ∨ t ∈ ts) (ok : Bool) :
    Inv st before ({ w with tasks := ts }.processDirEntry e rest ok) := by
  rw [processDirEntry.eq_def]
  split
  · exact h.drop hts (Nat.succ_ne_zero _)
  · cases rest with
    | nil =>
      refine ⟨fun t ht => h.subjects t (hts ht), fun d rest hd => h.rests d rest (hts hd), h.present,
        fun hz d hd henq => ?_⟩
      rcases h.covered hz d hd henq with hwait | ⟨hc, hdir⟩
      · exact .inl ((hsplit _ hwait).resolve_left Task.noConfusion)
      · refine .inr ⟨hc, fun hd => ?_⟩
        obtain ⟨rest, hrest, hx⟩ := hdir hd
        refine ⟨rest, ?_, hx⟩
        rcases hrest with hrest | hrest
        · rcases hsplit _ hrest with heq | hrest
          · cases heq
            exact .inr rfl
          · exact .inl hrest
        · exact .inr hrest
    | cons ent rest =>
      have hent : Reachable st ent := h.rests e _ hmem ent mem_cons_self
      simp only []
      split_ifs with hmany
      · have hn : w.numErrors ≠ 0 := by
          simp only [tooManyErrors, maxErrors] at hmany
          exact Nat.one_le_iff_ne_zero.1 (of_decide_eq_true hmany)
        exact h.drop hts hn
      · exact h.nextEntry hst hmem hts hsplit

end Tasks

end Walker

lemma eq_or_mem_eraseIdx {α : Type*} {l : List α} {i : ℕ} {t x : α} (ht : l[i]? = some t)
    (hx : x ∈ l) : x = t ∨ x ∈ l.eraseIdx i := by
  obtain ⟨hi, rfl⟩ := List.getElem?_eq_some_iff.1 ht
  have hperm := List.getElem_cons_eraseIdx_perm hi
  exact List.mem_cons.1 (hperm.mem_iff.2 hx)

section Sweep

variable {st : Store} {cfg : Config} {before : Index}

/-- What a run does to one content. -/
structure Settled (cfg : Config) (used : List ID) (before after : Index) (c : ID) : Prop where
  live : c ∈ used → c.prefixString ≠ contentPrefix →
    ∃ e, after.lookup c = some e ∧ e.deleted = false
  deleted : ∀ e e', before.lookup c = some e → e.deleted = false → after.lookup c = some e' →
    e'.deleted = true → c ∉ used ∧ c.prefixString ≠ contentPrefix ∧
      cfg.minContentAgeSubjectToGC ≤ cfg.maintenanceStartTime - e.timestampSeconds * 10 ^ 9

structure Swept (cfg : Config) (used : List ID) (before after : Index)
    (todo : List (Sigma fun _ : ID => Entry)) : Prop where
  nodup : (todo.map Sigma.fst).Nodup
  pending : ∀ x ∈ todo, before.lookup x.1 = some x.2 ∧ after.lookup x.1 = some x.2
  settled : ∀ c, c ∉ todo.map Sigma.fst → Settled cfg used before after c

lemma swept_entries {used : List ID} (hused : ∀ c ∈ used, c ∈ before) :
    Swept cfg used before before before.entries where
  nodup := before.nodupKeys
  pending x hx := by
    have := mem_lookup_iff.2 (show Sigma.mk x.1 x.2 ∈ before.entries from hx)
    exact ⟨this, this⟩
  settled c hc := by
    have hnone : before.lookup c = none := lookup_eq_none.2 hc
    refine ⟨fun hu => absurd (hused c hu) hc, fun e e' he => ?_⟩
    rw [hnone] at he
    cases he

lemma settled_of_lookup_eq {used : List ID} {after : Index} {c : ID} {e : Entry}
    (hb : before.lookup c = some e) (ha : after.lookup c = some e)
    (hlive : c ∈ used → c.prefixString ≠ contentPrefix → e.deleted = false) :
    Settled cfg used before after c where
  live hu hp := ⟨e, ha, hlive hu hp⟩
  deleted e₁ e₂ h₁ hl h₂ hd := by
    rw [hb, some.injEq] at h₁
    rw [ha, some.injEq] at h₂
    rw [← h₁, h₂, hd] at hl
    cases hl

namespace GC

lemma visit_spec {s s' : GC} {c : ID} {ci : Entry} {ok flushOk : Bool} {now : ℤ}
    (h : s.visit cfg c ci ok flushOk now = (s', true)) (hb : before.lookup c = some ci)
    (hc : s.index.lookup c = some ci) :
    s'.walker = s.walker ∧ (∀ d, d ≠ c → s'.index.lookup d = s.index.lookup d) ∧
      Settled cfg s.walker.used before s'.index c := by
  rw [visit] at h
  split_ifs at h with hpre hused hdel hok hage hgc hok
  · cases h
    exact ⟨rfl, fun _ _ => rfl, settled_of_lookup_eq hb hc fun _ hp => absurd hpre hp⟩
  · rw [Index.undeleteContent, hc, map_some, if_pos hdel] at h
    cases h
    refine ⟨rfl, fun d hd => lookup_insert_ne hd, fun _ _ => ⟨_, lookup_insert _, rfl⟩,
      fun e e' _ _ ha hd => ?_⟩
    rw [lookup_insert, some.injEq] at ha
    rw [← ha] at hd
    cases hd
  · cases h
  · cases h
    exact ⟨rfl, fun _ _ => rfl,
      settled_of_lookup_eq hb hc fun _ _ => Bool.eq_false_of_not_eq_true hdel⟩
  · cases h
    exact ⟨rfl, fun _ _ => rfl, settled_of_lookup_eq hb hc fun hu => absurd hu hused⟩
  · simp only [Index.deleteContent, hc, map_some, Prod.mk.injEq] at h
    obtain ⟨rfl, -⟩ := h
    refine ⟨rfl, fun d hd => ?_, fun hu => absurd hu hused, fun e e' he _ _ _ => ?_⟩
    · show lookup d (if ci.deleted then s.index else s.index.insert c _) = _
      split_ifs
      · rfl
      · exact lookup_insert_ne hd
    · rw [hb, some.injEq] at he
      exact ⟨hused, hpre, he ▸ not_lt.1 hage⟩
  · cases h
  · cases h
    exact ⟨rfl, fun _ _ => rfl, settled_of_lookup_eq hb hc fun hu => absurd hu hused⟩

end GC

end Sweep

namespace GC

section Runs

variable {st : Store} {cfg : Config} {before : Index} {s s' : GC}

/-- The walk has found every content the snapshots refer to. -/
def Complete (st : Store) (used : List ID) : Prop := ∀ c, Referenced st c → c ∈ used

def Inv (st : Store) (cfg : Config) (before : Index) (s : GC) : Prop :=
  match s.phase with
  | .load todo manifests =>
    s.index = before ∧ s.walker = .start ∧ manifests ++ todo.map st.root = st.ids.map st.root
  | .walk manifests =>
    s.index = before ∧ s.walker.Inv st before ∧ (∀ m ∈ manifests, Reachable st m) ∧
      ∀ id ∈ st.ids, st.root id ∈ manifests ∨ (st.root id).objectID ∈ s.walker.enqueued
  | .sweep todo =>
    Complete st s.walker.used ∧ Swept cfg s.walker.used before s.index todo
  | .done => Kept st cfg before s.index
  | .failed => True

lemma inv_start : Inv st cfg before (start st before) := ⟨rfl, rfl, rfl⟩

def Loads (_ : GC) : Action → Prop
  | .load ok => ok = true
  | _ => True

instance (s : GC) (a : Action) : Decidable (Loads s a) := by
  cases a <;> simp only [Loads] <;> infer_instance

lemma Inv.stepLoad (h : Inv st cfg before s) (hs : s.stepLoad st true = some s') :
    Inv st cfg before s' := by
  rw [GC.stepLoad] at hs
  split at hs
  next manifests hp =>
    cases hs
    rw [Inv, hp] at h
    obtain ⟨hi, hw, hm⟩ := h
    rw [map_nil, append_nil] at hm
    refine ⟨hi, hw ▸ Walker.inv_start, fun m hmem => ?_, fun id hid => .inl ?_⟩
    · rw [hm] at hmem
      obtain ⟨id, hid, rfl⟩ := mem_map.1 hmem
      exact .root hid
    · rw [hm]
      exact mem_map_of_mem hid
  next id todo manifests hp =>
    cases hs
    rw [Inv, hp] at h
    obtain ⟨hi, hw, hm⟩ := h
    refine ⟨hi, hw, ?_⟩
    rw [if_pos rfl, append_assoc]
    exact hm
  next => cases hs

lemma enqueued_of_reachable (h : s.walker.Inv st before) (htasks : s.walker.tasks = [])
    (hz : s.walker.numErrors = 0)
    (hroots : ∀ id ∈ st.ids, (st.root id).objectID ∈ s.walker.enqueued) {e : DirEntry}
    (he : Reachable st e) : e.objectID ∈ s.walker.enqueued := by
  induction he with
  | root hid => exact hroots _ hid
  | child hd hdir hmem ih =>
    rcases h.covered hz _ hd ih with hwait | ⟨-, hrest⟩
    · rw [htasks] at hwait
      cases hwait
    · obtain ⟨rest, hopen | rfl, hx⟩ := hrest hdir
      · rw [htasks] at hopen
        cases hopen
      · exact (hx _ hmem).resolve_left not_mem_nil

lemma complete_of_tasks_eq_nil (h : s.walker.Inv st before) (htasks : s.walker.tasks = [])
    (hz : s.walker.numErrors = 0)
    (hroots : ∀ id ∈ st.ids, (st.root id).objectID ∈ s.walker.enqueued) :
    Complete st s.walker.used := by
  rintro c ⟨e, he, hc⟩
  rcases h.covered hz e he (enqueued_of_reachable h htasks hz hroots he) with hwait | ⟨hused, -⟩
  · rw [htasks] at hwait
    cases hwait
  · exact hused c hc

lemma Inv.stepRoot (hst : st.Sound) (h : Inv st cfg before s) (hs : s.stepRoot = some s') :
    Inv st cfg before s' := by
  rw [GC.stepRoot] at hs
  split at hs
  next manifests hp =>
    rw [Inv, hp] at h
    obtain ⟨hi, hw, hreach, hroots⟩ := h
    split_ifs at hs with htasks hz
    · cases hs
      trivial
    · rw [not_not] at htasks
      cases manifests with
      | nil =>
        cases hs
        refine ⟨complete_of_tasks_eq_nil hw htasks (Nat.eq_zero_of_not_pos hz) fun id hid => ?_, ?_⟩
        · exact (hroots id hid).resolve_left not_mem_nil
        · show Swept cfg s.walker.used before s.index s.index.entries
          rw [hi]
          exact swept_entries hw.present
      | cons m manifests =>
        simp only [] at hs
        split_ifs at hs
        · cases hs
          trivial
        · cases hs
          refine ⟨hi, hw.enqueue hst (hreach m mem_cons_self),
            fun x hx => hreach x (mem_cons_of_mem _ hx), fun id hid => ?_⟩
          rw [mem_enqueue_enqueued]
          rcases hroots id hid with hmem | hmem
          · rcases mem_cons.1 hmem with heq | hmem
            · exact .inr (.inl (by rw [heq]))
            · exact .inl hmem
          · exact .inr (.inr hmem)
  next => cases hs

lemma enqueued_processEntry (w : Walker) (e : DirEntry) (v : Option (List ID)) (ok : Bool) :
    (w.processEntry st e v ok).enqueued = w.enqueued := by
  cases v with
  | none => rfl
  | some ids =>
    simp only [processEntry]
    split_ifs <;> rfl

lemma enqueued_processDirEntry (w : Walker) (e : DirEntry) (rest : List DirEntry) (ok : Bool) :
    w.enqueued ⊆ (w.processDirEntry e rest ok).enqueued := by
  rw [processDirEntry.eq_def]
  split
  · exact fun _ h => h
  · cases rest with
    | nil => exact fun _ h => h
    | cons ent rest =>
      simp only []
      split_ifs
      · exact fun _ h => h
      · exact fun _ h => (mem_enqueue_enqueued _ _).2 (.inr h)

lemma Inv.stepTask (hst : st.Sound) (h : Inv st cfg before s) {i fuel : ℕ}
    {fails : ObjectID → Bool} {ok : Bool} (hs : s.stepTask st i fuel fails ok = some s') :
    Inv st cfg before s' := by
  rw [GC.stepTask] at hs
  split at hs
  next manifests t hp ht =>
    rw [Inv, hp] at h
    obtain ⟨hi, hw, hreach, hroots⟩ := h
    have hmem : t ∈ s.walker.tasks := mem_of_getElem? ht
    have hts : s.walker.tasks.eraseIdx i ⊆ s.walker.tasks := eraseIdx_subset
    have hsplit := fun x hx => eq_or_mem_eraseIdx (x := x) ht hx
    cases hs
    rw [Inv]
    simp only [hp]
    cases t with
    | entry e =>
      refine ⟨hi, hw.processEntry hmem hts hsplit (fun ids hids => ?_) ok, hreach, fun id hid => ?_⟩
      · rw [verifyObject, hi] at hids
        exact collects_iterateBackingContents fuel hids
      · rw [enqueued_processEntry]
        exact hroots id hid
    | dir e rest =>
      refine ⟨hi, hw.processDirEntry hst hmem hts hsplit ok, hreach, fun id hid => ?_⟩
      exact (hroots id hid).imp_right (enqueued_processDirEntry _ _ _ _ ·)
  next => cases hs

lemma Inv.stepSweep (h : Inv st cfg before s) {ok flushOk : Bool} {now : ℤ}
    (hs : s.stepSweep cfg ok flushOk now = some s') : Inv st cfg before s' := by
  rw [GC.stepSweep] at hs
  split at hs
  next c ci todo hp =>
    rw [Inv, hp] at h
    obtain ⟨hcomplete, hswept⟩ := h
    split at hs
    next s₁ hv =>
      cases hs
      obtain ⟨hb, hc⟩ := hswept.pending _ mem_cons_self
      obtain ⟨hw, hother, hsettled⟩ := visit_spec hv hb hc
      have hnodup := nodup_cons.1 (show (c :: todo.map Sigma.fst).Nodup from hswept.nodup)
      refine ⟨hw ▸ hcomplete, ?_⟩
      show Swept cfg s₁.walker.used before s₁.index todo
      rw [hw]
      refine ⟨hnodup.2, fun x hx => ?_, fun d hd => ?_⟩
      · have hne : x.1 ≠ c := fun heq => hnodup.1 (heq ▸ mem_map_of_mem hx)
        rw [hother _ hne]
        exact hswept.pending x (mem_cons_of_mem _ hx)
      · by_cases hne : d = c
        · rw [hne]
          exact hsettled
        · have hd' := hswept.settled d (by simp [hne, hd])
          exact ⟨by rw [hother d hne]; exact hd'.live, by rw [hother d hne]; exact hd'.deleted⟩
    next =>
      cases hs
      trivial
  next => cases hs

lemma Inv.stepFlush (hst : st.Sound) (h : Inv st cfg before s) {ok : Bool}
    (hs : s.stepFlush cfg ok = some s') : Inv st cfg before s' := by
  rw [GC.stepFlush] at hs
  split at hs
  next hp =>
    rw [Inv, hp] at h
    obtain ⟨hcomplete, hswept⟩ := h
    split_ifs at hs
    · cases hs
      trivial
    · cases hs
      trivial
    · cases hs
      have hsettled := fun c => hswept.settled c not_mem_nil
      refine ⟨fun c hc => (hsettled c).live (hcomplete c hc) (hst.contents c hc), ?_⟩
      intro c e e' he hl he' hd
      obtain ⟨hu, hrest⟩ := (hsettled c).deleted e e' he hl he' hd
      exact ⟨fun href => hu (hcomplete c href), hrest⟩
  next => cases hs

lemma Inv.step (hst : st.Sound) {a : Action} (h : Inv st cfg before s) (hok : Loads s a)
    (hs : s.step cfg st a = some s') : Inv st cfg before s' := by
  cases a with
  | load ok =>
    have hok : ok = true := hok
    subst hok
    exact h.stepLoad hs
  | root => exact h.stepRoot hst hs
  | task i fuel fails ok => exact h.stepTask hst hs
  | sweep ok flushOk now => exact h.stepSweep hs
  | flush ok => exact h.stepFlush hst hs

/-- When every manifest loads, a run that succeeds keeps all that the snapshots refer to. -/
theorem reach_done_kept (hst : st.Sound)
    (h : Runs.Reach (step cfg st) Loads (· = start st before) s) (hd : s.phase = .done) :
    Kept st cfg before s.index := by
  have hinv : Inv st cfg before s :=
    h.invariant (fun _ h => h ▸ inv_start) fun _ _ _ h hok hs => h.step hst hok hs
  rw [Inv, hd] at hinv
  exact hinv

end Runs

section Samples

def sampleStore : Store where
  ids := [[1]]
  root _ := ⟨true, ⟨0, false, ⟨107, [1]⟩⟩⟩
  entries oid := if oid = ⟨0, false, ⟨107, [1]⟩⟩ then [⟨false, ⟨0, false, ⟨0, [2]⟩⟩⟩] else []
  seekTable _ := []

def sampleIndex : Index :=
  ((AList.insert ⟨107, [1]⟩ ⟨0, false⟩ ∅).insert ⟨0, [2]⟩ ⟨0, true⟩).insert ⟨0, [3]⟩ ⟨0, false⟩

def sampleConfig : Config := ⟨true, 10 ^ 9, 5 * 10 ^ 9⟩

def sampleRun (loaded : Bool) : List Action :=
  let walk : List Action := if loaded then List.replicate 4 (.task 0 1 (fun _ => false) true) else []
  let roots : List Action := if loaded then [.root] else []
  let sweep : List Action := List.replicate 3 (.sweep true true 5000000000)
  .load loaded :: .load true :: .root :: List.flatten [walk, roots, sweep, [.flush true]]

lemma reachable_sample {e : DirEntry} (h : Reachable sampleStore e) :
    e = ⟨true, ⟨0, false, ⟨107, [1]⟩⟩⟩ ∨ e = ⟨false, ⟨0, false, ⟨0, [2]⟩⟩⟩ := by
  induction h with
  | root _ => exact .inl rfl
  | child _ hdir hmem ih =>
    rcases ih with rfl | rfl
    · exact .inr (by simpa [sampleStore] using hmem)
    · cases hdir

lemma touches_sample {oid : ObjectID} {c : ID} (h : Touches sampleStore oid c)
    (h0 : oid.indirection = 0) : c = oid.cid := by
  have hn : oid.indexObjectID = none := by rw [ObjectID.indexObjectID, h0]; rfl
  cases h with
  | content _ => rfl
  | index hi _ => rw [hn] at hi; cases hi
  | part hi _ _ => rw [hn] at hi; cases hi

lemma sound_sample : sampleStore.Sound where
  kinds e e' he he' hoid := by
    rcases reachable_sample he with rfl | rfl <;> rcases reachable_sample he' with rfl | rfl
    · rfl
    · cases hoid
    · cases hoid
    · rfl
  contents c hc := by
    obtain ⟨e, he, ht⟩ := hc
    rcases reachable_sample he with rfl | rfl
    · rw [touches_sample ht rfl]
      decide
    · rw [touches_sample ht rfl]
      decide

theorem reach_done_kept_sample : ∃ s, Runs.Reach (step sampleConfig sampleStore) Loads
    (· = start sampleStore sampleIndex) s ∧ s.phase = .done ∧
    s.index.lookup ⟨0, [3]⟩ = some ⟨5, true⟩ ∧
    Kept sampleStore sampleConfig sampleIndex s.index := by
  obtain ⟨s, hreach, hd, hl⟩ : ∃ s, Runs.Reach (step sampleConfig sampleStore) Loads
      (· = start sampleStore sampleIndex) s ∧ s.phase = .done ∧
      s.index.lookup ⟨0, [3]⟩ = some ⟨5, true⟩ := Runs.exists_reach rfl (sampleRun true) (by decide)
  exact ⟨s, hreach, hd, hl, reach_done_kept sound_sample hreach hd⟩

/-- The manifest cannot be read: the run succeeds and deletes the snapshot's directory. -/
theorem manifest_skipped : ∃ s, Runs.Reach (step sampleConfig sampleStore) Runs.Free
    (· = start sampleStore sampleIndex) s ∧ s.phase = .done ∧
    Referenced sampleStore ⟨107, [1]⟩ ∧ s.index.lookup ⟨107, [1]⟩ = some ⟨5, true⟩ ∧
    ¬ Kept sampleStore sampleConfig sampleIndex s.index := by
  obtain ⟨s, hs, hd, hl⟩ : ∃ s ∈ Runs.run (step sampleConfig sampleStore) Runs.Free
      (start sampleStore sampleIndex) (sampleRun false), s.phase = .done ∧
      s.index.lookup ⟨107, [1]⟩ = some ⟨5, true⟩ := by decide
  have href : Referenced sampleStore ⟨107, [1]⟩ :=
    ⟨_, .root (mem_singleton_self [1]), .content rfl⟩
  refine ⟨s, Runs.reach_of_run _ (.init rfl) hs, hd, href, hl, fun hk => ?_⟩
  obtain ⟨e, he, hlive⟩ := hk.live _ href
  rw [hl, some.injEq] at he
  rw [← he] at hlive
  cases hlive

end Samples

end GC

end Warphold.Snapshot
