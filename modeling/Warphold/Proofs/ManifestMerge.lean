import Warphold.Manifest.Manager

/-!
# Merging manifest entries

Of the entries of one manifest the one with the latest time counts, wherever the copies of it are.
What loading, flushing and compacting do to a set of contents is said by what they do to that entry.
-/

namespace Warphold.Manifest

open List EntryMap Client AList

namespace EntryMap

variable {m : EntryMap} {e : Entry} {id : ID}

lemma mem_values : e ∈ m.values ↔ ∃ id, m.lookup id = some e := by
  simp only [values, mem_map, Sigma.exists, exists_eq_right]
  exact exists_congr fun id => mem_lookup_iff.symm

lemma lookup_filter (p : Entry → Bool) (m : EntryMap) (id : ID) :
    (m.filter p).lookup id = (m.lookup id).filter p := by
  refine Option.ext fun e => ?_
  rw [Option.filter_eq_some_iff]
  constructor
  · intro h
    obtain ⟨hm, hp⟩ := mem_filter.1 (mem_lookup_iff.1 h)
    exact ⟨mem_lookup_iff.2 hm, hp⟩
  · rintro ⟨h, hp⟩
    exact mem_lookup_iff.2 (mem_filter.2 ⟨mem_lookup_iff.1 h, hp⟩)

lemma lookup_insert_eq (m : EntryMap) (id id' : ID) (e : Entry) :
    (m.insert id e).lookup id' = if id' = id then some e else m.lookup id' := by
  split_ifs with h
  · rw [h]
    exact lookup_insert m
  · exact lookup_insert_ne h

lemma lookup_mergeEntry (m : EntryMap) (e : Entry) (id : ID) :
    (m.mergeEntry e).lookup id = if id = e.id then
      (match m.lookup id with
      | none => some e
      | some prev => if prev.modTime < e.modTime then some e else some prev)
      else m.lookup id := by
  unfold mergeEntry
  rcases eq_or_ne id e.id with rfl | hid
  · rw [if_pos rfl]
    cases h : m.lookup e.id with
    | none => exact lookup_insert m
    | some prev =>
      simp only
      split_ifs
      · exact lookup_insert m
      · exact h
  · rw [if_neg hid]
    cases m.lookup e.id with
    | none => exact lookup_insert_ne hid
    | some prev =>
      simp only
      split_ifs
      · exact lookup_insert_ne hid
      · rfl

end EntryMap

/-- Every entry is kept under its id. -/
def EntryMap.Keyed (m : EntryMap) : Prop := ∀ id e, m.lookup id = some e → e.id = id

namespace EntryMap

variable {m : EntryMap} {e : Entry} {id : ID}

lemma Keyed.mem_values (h : m.Keyed) : e ∈ m.values ↔ m.lookup e.id = some e := by
  rw [EntryMap.mem_values]
  refine ⟨fun ⟨id, hid⟩ => ?_, fun he => ⟨_, he⟩⟩
  rwa [h id e hid]

lemma Keyed.nodup_ids (h : m.Keyed) : (m.values.map (·.id)).Nodup := by
  have hkeys : m.values.map (·.id) = m.keys := by
    rw [values, map_map]
    exact map_congr_left fun x hx => h x.1 x.2 (mem_lookup_iff.2 hx)
  rw [hkeys]
  exact m.keys_nodup

lemma Keyed.insert (h : m.Keyed) (e : Entry) : Keyed (m.insert e.id e) := by
  intro id x hx
  rw [lookup_insert_eq] at hx
  split_ifs at hx with hid
  · cases hx
    exact hid.symm
  · exact h id x hx

lemma lookup_foldl_insert : ∀ (c : List Entry) (m : EntryMap), (c.map (·.id)).Nodup →
    (∀ e ∈ c, (c.foldl (fun m e => m.insert e.id e) m).lookup e.id = some e)
      ∧ ∀ id, (∀ e ∈ c, e.id ≠ id) →
        (c.foldl (fun m e => m.insert e.id e) m).lookup id = m.lookup id
  | [], m, _ => ⟨nofun, fun _ _ => rfl⟩
  | x :: c, m, hnd => by
    obtain ⟨hx, hnd⟩ := nodup_cons.1 hnd
    obtain ⟨hin, hout⟩ := lookup_foldl_insert c (m.insert x.id x) hnd
    refine ⟨fun e he => ?_, fun id hid => ?_⟩
    · rcases mem_cons.1 he with rfl | he
      · have hne : ∀ e' ∈ c, e'.id ≠ e.id := fun e' he' heq =>
          hx (mem_map.2 ⟨e', he', heq⟩)
        rw [foldl_cons, hout _ hne]
        exact lookup_insert m
      · exact hin e he
    · rw [foldl_cons, hout id fun e he => hid e (mem_cons_of_mem _ he)]
      exact lookup_insert_ne fun heq => hid x mem_cons_self heq.symm

end EntryMap

def live (o : Option Entry) : Option Entry := o.filter fun e => !e.deleted

def Newest (l : List Entry) (id : ID) : Option Entry → Prop
  | none => ∀ e ∈ l, e.id ≠ id
  | some e => e ∈ l ∧ e.id = id ∧ ∀ e' ∈ l, e'.id = id → e'.modTime < e.modTime ∨ e' = e

section Newest

variable {l l' : List Entry} {id : ID} {o o' : Option Entry} {e : Entry}

lemma Newest.unique (h : Newest l id o) (h' : Newest l id o') : o = o' := by
  cases o with
  | none =>
    cases o' with
    | none => rfl
    | some e' => exact absurd h'.2.1 (h e' h'.1)
  | some e =>
    cases o' with
    | none => exact absurd h.2.1 (h' e h.1)
    | some e' =>
      rcases h.2.2 e' h'.1 h'.2.1 with hlt | rfl
      · rcases h'.2.2 e h.1 h.2.1 with hlt' | rfl
        · omega
        · rfl
      · rfl

lemma Newest.subset (h : Newest l id o) (hsub : ∀ e ∈ l', e.id = id → e ∈ l)
    (htop : ∀ e, o = some e → e ∈ l') : Newest l' id o := by
  cases o with
  | none => exact fun e he hid => h e (hsub e he hid) hid
  | some e => exact ⟨htop e rfl, h.2.1, fun e' he' hid => h.2.2 e' (hsub e' he' hid) hid⟩

lemma Newest.congr (h : Newest l id o) (hmem : ∀ e, e.id = id → (e ∈ l ↔ e ∈ l')) :
    Newest l' id o :=
  h.subset (fun e he hid => (hmem e hid).2 he) fun e he => by
    subst he
    exact (hmem e h.2.1).1 h.1

lemma Newest.drop {a b : Entry} (h : Newest (a :: b :: l) id o) (ha : a.id = id)
    (hb : b.id = id) : Newest ((if a.modTime < b.modTime then b else a) :: l) id o := by
  refine h.subset (fun e he _ => ?_) fun t ht => ?_
  · rcases mem_cons.1 he with rfl | he
    · split_ifs <;> simp
    · exact mem_cons_of_mem _ (mem_cons_of_mem _ he)
  · subst ht
    obtain ⟨hmem, -, htop⟩ := h
    have hta := htop a mem_cons_self ha
    have htb := htop b (mem_cons_of_mem _ mem_cons_self) hb
    rcases mem_cons.1 hmem with rfl | hmem
    · rw [if_neg]
      · exact mem_cons_self
      · rcases htb with hlt | rfl <;> omega
    · rcases mem_cons.1 hmem with rfl | hmem
      · rcases hta with hlt | rfl
        · rw [if_pos hlt]
          exact mem_cons_self
        · rw [ite_self]
          exact mem_cons_self
      · exact mem_cons_of_mem _ hmem

lemma lookup_foldl_mergeEntry : ∀ (l : List Entry) (m : EntryMap) {o : Option Entry},
    (∀ e, m.lookup id = some e → e.id = id) → Newest ((m.lookup id).toList ++ l) id o →
    (l.foldl mergeEntry m).lookup id = o
  | [], m, o, hm, h => by
    rw [append_nil] at h
    cases hl : m.lookup id with
    | none =>
      rw [hl] at h
      cases o with
      | none => exact hl
      | some e => exact absurd h.1 (not_mem_nil)
    | some e =>
      rw [hl] at h
      cases o with
      | none => exact absurd (hm e hl) (h e (mem_singleton_self e))
      | some e' =>
        have := mem_singleton.1 h.1
        rw [foldl_nil, hl, this]
  | e :: l, m, o, hm, h => by
    rw [foldl_cons]
    refine lookup_foldl_mergeEntry l _ (fun x hx => ?_) ?_
    · rw [lookup_mergeEntry] at hx
      split_ifs at hx with hid
      · cases hl : m.lookup id with
        | none =>
          simp only [hl, Option.some.injEq] at hx
          rw [← hx, hid]
        | some prev =>
          simp only [hl] at hx
          split_ifs at hx <;> cases hx
          · exact hid.symm
          · exact hm _ hl
      · exact hm x hx
    · rw [lookup_mergeEntry]
      split_ifs with hid
      · cases hl : m.lookup id with
        | none =>
          rw [hl] at h
          exact h
        | some prev =>
          rw [hl] at h
          have hdrop := Newest.drop h (hm prev hl) hid.symm
          simp only
          split_ifs at hdrop ⊢ <;> exact hdrop
      · refine h.subset (fun x hx _ => ?_) fun x hx => ?_
        · rcases mem_append.1 hx with hx | hx
          · exact mem_append_left _ hx
          · exact mem_append_right _ (mem_cons_of_mem _ hx)
        · subst hx
          rcases mem_append.1 h.1 with hx | hx
          · exact mem_append_left _ hx
          · rcases mem_cons.1 hx with rfl | hx
            · exact absurd h.2.1.symm hid
            · exact mem_append_right _ hx

lemma lookup_load {contents : List Content} (h : Newest contents.flatten id o) :
    (load contents).lookup id = live o := by
  rw [load, lookup_filter, lookup_foldl_mergeEntry _ _ (by simp) (by simpa using h)]
  rfl

lemma Newest.override {new : Entry} (hid : new.id = id)
    (h : ∀ e ∈ l, e.id = id → e.modTime < new.modTime)
    (hmem : ∀ e, e.id = id → (e ∈ l' ↔ e = new ∨ e ∈ l)) : Newest l' id (some new) :=
  ⟨(hmem new hid).2 (.inl rfl), hid, fun e he heq =>
    ((hmem e heq).1 he).elim .inr fun he => .inl (h e he heq)⟩

end Newest

section Contents

def Client.Sees (cl : Client) (stored : List Content) : Prop :=
  ∀ c, c ∈ cl.contents ↔ c ∈ cl.added ∨ c ∈ stored ∧ c ∉ cl.removed

variable {cl : Client} {c c' : Content} {stored : List Content}

lemma mem_flatten_congr {cs cs' : List Content} (h : ∀ c, c ∈ cs ↔ c ∈ cs') (e : Entry) :
    e ∈ cs.flatten ↔ e ∈ cs'.flatten := by
  simp only [mem_flatten, h]

variable {e : Entry}

lemma mem_flatten_mono {cs cs' : List Content} (h : ∀ c ∈ cs, c ∈ cs')
    (he : e ∈ cs.flatten) : e ∈ cs'.flatten := by
  obtain ⟨c, hc, he⟩ := mem_flatten.1 he
  exact mem_flatten.2 ⟨c, h c hc, he⟩

lemma World.mem_applied {w : World} : c ∈ w.applied cl
    ↔ c ∈ cl.added ∨ c ∈ w.stored ∧ c ∉ cl.removed := by
  simp only [World.applied, mem_append, mem_filter, Bool.decide_and, Bool.and_eq_true,
    decide_eq_true_eq]
  tauto

lemma mem_writeContent : c' ∈ (cl.writeContent c).contents ↔ c' = c ∨ c' ∈ cl.contents := by
  unfold writeContent
  split_ifs with h
  · refine ⟨.inr, ?_⟩
    rintro (rfl | h')
    · exact h
    · exact h'
  · exact mem_cons

lemma Client.Sees.writeContent (h : cl.Sees stored) : (cl.writeContent c).Sees stored := by
  unfold Client.writeContent
  split_ifs with hc
  · exact h
  · intro c'
    have := h c'
    simp only [mem_cons]
    tauto

lemma Client.Sees.deleteContent (h : cl.Sees stored) : (cl.deleteContent c).Sees stored := by
  intro c'
  have := h c'
  simp only [Client.deleteContent, List.mem_cons, List.mem_filter, decide_eq_true_eq]
  tauto

lemma mem_foldl_deleteContent : ∀ (old : List Content) {cl : Client},
    c ∈ (old.foldl deleteContent cl).contents ↔ c ∈ cl.contents ∧ c ∉ old
  | [], cl => by simp
  | c' :: old, cl => by
    rw [foldl_cons, mem_foldl_deleteContent old]
    simp only [deleteContent, mem_filter, decide_eq_true_eq, mem_cons]
    tauto

lemma Client.Sees.foldl_deleteContent : ∀ (old : List Content) {cl : Client}, cl.Sees stored →
    (old.foldl Client.deleteContent cl).Sees stored
  | [], _, h => h
  | _ :: old, _, h => foldl_deleteContent old h.deleteContent

lemma foldl_deleteContent_rest : ∀ (old : List Content) (cl : Client),
    (old.foldl deleteContent cl).pendingEntries = cl.pendingEntries
      ∧ (old.foldl deleteContent cl).committedEntries = cl.committedEntries
      ∧ ((old.foldl deleteContent cl).stale = false → old = [] ∧ cl.stale = false)
  | [], _ => ⟨rfl, rfl, fun h => ⟨rfl, h⟩⟩
  | c :: old, cl => by
    obtain ⟨hp, hc, hs⟩ := foldl_deleteContent_rest old (cl.deleteContent c)
    exact ⟨hp, hc, fun h => absurd (hs h).2 nofun⟩

lemma Client.Sees.writeEntries (h : cl.Sees stored) : (cl.writeEntries c).Sees stored := by
  unfold Client.writeEntries
  split_ifs
  · exact h
  · exact h.writeContent

lemma mem_writeEntries : c' ∈ (cl.writeEntries c).contents
    ↔ c ≠ [] ∧ c' = c ∨ c' ∈ cl.contents := by
  unfold writeEntries
  split_ifs with h
  · simp [h]
  · simp [h, mem_writeContent]

lemma mem_writeEntries_ids : c' ∈ (cl.writeEntries c).committedContentIDs
    ↔ c ≠ [] ∧ c' = c ∨ c' ∈ cl.committedContentIDs := by
  unfold writeEntries
  split_ifs with h
  · simp [h]
  · simp [h]

lemma mem_flatten_of_added {l l' : List (List Entry)}
    (h : ∀ c', c' ∈ l' ↔ (c ≠ [] ∧ c' = c) ∨ c' ∈ l) : e ∈ l'.flatten ↔ e ∈ c ∨ e ∈ l.flatten := by
  simp only [mem_flatten, h]
  constructor
  · rintro ⟨c', ⟨-, rfl⟩ | hc', he⟩
    · exact .inl he
    · exact .inr ⟨c', hc', he⟩
  · rintro (he | ⟨c', hc', he⟩)
    · exact ⟨c, .inl ⟨ne_nil_of_mem he, rfl⟩, he⟩
    · exact ⟨c', .inr hc', he⟩

lemma mem_flatten_writeEntries : e ∈ (cl.writeEntries c).contents.flatten
    ↔ e ∈ c ∨ e ∈ cl.contents.flatten :=
  mem_flatten_of_added fun _ => mem_writeEntries

lemma mem_flatten_writeEntries_ids : e ∈ (cl.writeEntries c).committedContentIDs.flatten
      ↔ e ∈ c ∨ e ∈ cl.committedContentIDs.flatten :=
  mem_flatten_of_added fun _ => mem_writeEntries_ids

lemma writeEntries_committed :
    (cl.writeEntries c).committedEntries
      = c.foldl (fun m e => m.insert e.id e) cl.committedEntries := by
  unfold writeEntries
  split_ifs with h
  · rw [h]
    rfl
  · rfl

lemma lookup_writeEntries {m : EntryMap} (hkeyed : m.Keyed) (hperm : c.Perm m.values) (id : ID) :
    (cl.writeEntries c).committedEntries.lookup id
      = (m.lookup id).or (cl.committedEntries.lookup id) := by
  have hc : ∀ {e}, e ∈ c ↔ m.lookup e.id = some e := fun {e} =>
    hperm.mem_iff.trans hkeyed.mem_values
  have hnd : (c.map (·.id)).Nodup := (hperm.map _).nodup_iff.2 hkeyed.nodup_ids
  obtain ⟨hin, hout⟩ := lookup_foldl_insert c cl.committedEntries hnd
  rw [writeEntries_committed]
  cases hl : m.lookup id with
  | some e =>
    have hid := hkeyed id e hl
    rw [← hid]
    exact hin e (hc.2 (hid ▸ hl))
  | none =>
    refine hout id fun e he heq => ?_
    rw [hc, heq, hl] at he
    cases he

lemma writeEntries_pending : (cl.writeEntries c).pendingEntries = cl.pendingEntries := by
  unfold writeEntries writeContent
  split_ifs <;> rfl

lemma writeEntries_changes : (cl.writeEntries c).removed = cl.removed
    ∧ ∀ c' ∈ (cl.writeEntries c).added, c' ∈ cl.added ∨ c ≠ [] ∧ c' = c := by
  unfold writeEntries writeContent
  split_ifs with hne hmem
  · exact ⟨rfl, fun c' hc' => .inl hc'⟩
  · exact ⟨rfl, fun c' hc' => .inl hc'⟩
  · exact ⟨rfl, fun c' hc' => (mem_cons.1 hc').symm.imp_right (⟨hne, ·⟩)⟩

lemma writeEntries_stale (h : (cl.writeEntries c).stale = false) :
    cl.stale = false ∧ (c ≠ [] → c ∈ cl.contents) := by
  unfold writeEntries writeContent at h
  split_ifs at h with hc hmem
  · exact ⟨h, fun hne => absurd hc hne⟩
  · exact ⟨h, fun _ => hmem⟩

lemma mem_compact (hlen : cl.committedContentIDs.length ≠ 1) :
    c' ∈ (cl.compact c).contents
      ↔ (c ≠ [] ∧ c' = c ∨ c' ∈ cl.contents) ∧ (c' ∈ cl.committedContentIDs → c' = c) := by
  simp only [compact, if_neg hlen, mem_foldl_deleteContent, mem_writeEntries,
    mem_filter, decide_eq_true_eq]
  tauto

lemma mem_compact_ids (hlen : cl.committedContentIDs.length ≠ 1) :
    c' ∈ (cl.compact c).committedContentIDs
      ↔ c' = c ∧ (c ≠ [] ∨ c' ∈ cl.committedContentIDs) := by
  simp only [compact, if_neg hlen, mem_filter, mem_writeEntries_ids, decide_eq_true_eq]
  tauto

lemma mem_flatten_compact (hlen : cl.committedContentIDs.length ≠ 1) :
    e ∈ (cl.compact c).contents.flatten
      ↔ e ∈ c ∨ ∃ c' ∈ cl.contents, c' ∉ cl.committedContentIDs ∧ e ∈ c' := by
  simp only [mem_flatten, mem_compact hlen]
  constructor
  · rintro ⟨c', ⟨hc', hold⟩, he⟩
    rcases eq_or_ne c' c with rfl | hne
    · exact .inl he
    · exact .inr ⟨c', hc'.resolve_left fun h => hne h.2, fun h => hne (hold h), he⟩
  · rintro (he | ⟨c', hc', hnew, he⟩)
    · exact ⟨c, ⟨.inl ⟨ne_nil_of_mem he, rfl⟩, fun _ => rfl⟩, he⟩
    · exact ⟨c', ⟨.inr hc', fun h => absurd h hnew⟩, he⟩

lemma mem_flatten_compact_ids (hlen : cl.committedContentIDs.length ≠ 1) :
    e ∈ (cl.compact c).committedContentIDs.flatten ↔ e ∈ c := by
  simp only [mem_flatten, mem_compact_ids hlen]
  constructor
  · rintro ⟨c', ⟨rfl, -⟩, he⟩
    exact he
  · exact fun he => ⟨c, ⟨rfl, .inl (ne_nil_of_mem he)⟩, he⟩

lemma compact_pending : (cl.compact c).pendingEntries = cl.pendingEntries := by
  unfold compact
  split_ifs
  · rfl
  · exact (foldl_deleteContent_rest _ _).1.trans writeEntries_pending

lemma lookup_compact (hkeyed : cl.committedEntries.Keyed)
    (hperm : c.Perm cl.committedEntries.values) (id : ID) :
    (cl.compact c).committedEntries.lookup id = cl.committedEntries.lookup id := by
  unfold compact
  split_ifs
  · rfl
  · simp only [(foldl_deleteContent_rest _ _).2.1, lookup_writeEntries hkeyed hperm]
    cases cl.committedEntries.lookup id <;> rfl

lemma compact_stale (h : (cl.compact c).stale = false) : cl.stale = false := by
  unfold compact at h
  split_ifs at h
  · exact h
  · exact (writeEntries_stale ((foldl_deleteContent_rest _ _).2.2 h).2).1

lemma Client.Sees.compact (h : cl.Sees stored) : (cl.compact c).Sees stored := by
  unfold Client.compact
  split_ifs
  · exact h
  · exact Sees.foldl_deleteContent _ h.writeEntries

lemma newest_values {m : EntryMap} (hkeyed : m.Keyed) (hperm : c.Perm m.values) (id : ID) :
    Newest c id (m.lookup id) := by
  have hc : ∀ {e}, e ∈ c ↔ m.lookup e.id = some e := fun {e} =>
    hperm.mem_iff.trans hkeyed.mem_values
  cases hl : m.lookup id with
  | none =>
    intro e he heq
    rw [hc, heq, hl] at he
    cases he
  | some e =>
    have hid := hkeyed id e hl
    refine ⟨hc.2 (hid ▸ hl), hid, fun e' he' heq => .inr ?_⟩
    rw [hc, heq, hl] at he'
    exact (Option.some.inj he').symm

end Contents

section Find

variable {cl : Client} {labels : Labels} {e : Entry}

lemma matchesLabels_nil : matchesLabels [] labels = true ↔ labels = [] := by
  cases labels with
  | nil => simp [matchesLabels]
  | cons kv labels => simp [matchesLabels]

lemma mem_find (hp : cl.pendingEntries.Keyed) (hc : cl.committedEntries.Keyed) :
    e ∈ cl.find labels ↔ matchesLabels e.labels labels = true
      ∧ (cl.pendingEntries.lookup e.id).or (cl.committedEntries.lookup e.id) = some e := by
  simp only [find, mem_append, mem_filter, hp.mem_values, hc.mem_values,
    Bool.and_eq_true, Option.isNone_iff_eq_none, Option.or_eq_some_iff]
  tauto

end Find

end Warphold.Manifest
