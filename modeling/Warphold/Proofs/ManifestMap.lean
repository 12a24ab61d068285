import Warphold.Proofs.ManifestMerge

/-!
# The manifest manager of a single client is a map

The map has three copies: with all operations, with those that were flushed to contents, and with
those whose contents are stored, which is what is left after reopening.
-/

namespace Warphold.Manifest

open Option List Client EntryMap

/-- What the manager is for: a map with all operations, with the flushed ones and with the stored
ones. -/
structure Abs where
  cur : EntryMap
  written : EntryMap
  stored : EntryMap

def Abs.step (a : Abs) (now : ℤ) : ManifestAction → Abs
  | .put _ id labels content =>
    { a with cur := a.cur.insert id ⟨id, labels, now, false, content⟩ }
  | .delete _ id _ => { a with cur := a.cur.erase id }
  | .flush _ _ => { a with written := a.cur }
  | .flushContents _ => { a with stored := a.written }
  | .reopen _ => { a with cur := a.stored, written := a.stored }
  | _ => a

def stepBoth (s : World × Abs) (action : ManifestAction) : Option (World × Abs) :=
  (s.1.step action).map (·, s.2.step (s.1.now 0) action)

def ManifestAction.alone : ManifestAction → Bool
  | .tick _ _ => true
  | .refresh c | .load c _ | .put c _ _ _ | .delete c _ _ | .flush c _ | .compact c _
  | .flushContents c | .reopen c => c = 0

def Later (w : World) : ManifestAction → Prop
  | .put c id _ _ | .delete c id _ =>
    ∀ e ∈ (w.clients c).contents.flatten, e.id = id → e.modTime < w.now c
  | _ => True

instance (w : World) : ∀ action, Decidable (Later w action)
  | .tick .. | .refresh .. | .load .. | .put .. | .delete ..
  | .flush .. | .compact .. | .flushContents .. | .reopen .. => by unfold Later; infer_instance

def Holds (l : List Entry) (m : EntryMap) : Prop := ∀ id, ∃ o, Newest l id o ∧ m.lookup id = live o

structure Inv (cl : Client) (stored : List Content) (a : Abs) : Prop where
  view : Holds cl.contents.flatten a.written
  kept : Holds stored.flatten a.stored
  sees : cl.Sees stored
  known : ∀ c ∈ cl.committedContentIDs, c ∈ cl.contents
  memory : ∀ id, ∃ o, Newest cl.committedContentIDs.flatten id o
    ∧ (cl.committedEntries.lookup id = o
      ∨ cl.committedEntries.lookup id = none ∧ live o = none
        ∧ ∀ c ∈ cl.contents, c ∈ cl.committedContentIDs)
  sync : cl.stale = false → ∀ c ∈ cl.contents, c ∈ cl.committedContentIDs
  pending : ∀ id e, cl.pendingEntries.lookup id = some e → e.id = id
    ∧ ∀ e' ∈ cl.contents.flatten, e'.id = id → e'.modTime < e.modTime
  cur : ∀ id, a.cur.lookup id = live ((cl.pendingEntries.lookup id).or (a.written.lookup id))
  marks : ∀ id e, cl.pendingEntries.lookup id = some e ∨ cl.committedEntries.lookup id = some e →
    e.deleted = true → e.labels = []

section Lemmas

variable {l l' : List Entry} {m : EntryMap} {o : Option Entry} {e : Entry} {id : ID}

lemma live_eq_some : live o = some e ↔ o = some e ∧ e.deleted = false := by
  simp [live, filter_eq_some_iff]

lemma live_live : live (live o) = live o := by
  simp [live, Option.filter_filter]

lemma Holds.congr (h : Holds l m) (hmem : ∀ e, e ∈ l ↔ e ∈ l') : Holds l' m := fun id => by
  obtain ⟨o, ho, heq⟩ := h id
  exact ⟨o, ho.congr fun e _ => hmem e, heq⟩

lemma Holds.live_lookup (h : Holds l m) : live (m.lookup id) = m.lookup id := by
  obtain ⟨o, -, heq⟩ := h id
  rw [heq, live_live]

end Lemmas

namespace Inv

variable {cl : Client} {stored : List Content} {a : Abs} {id : ID} {e : Entry} {c : Content}

variable (h : Inv cl stored a)
include h

lemma keyed_pending : cl.pendingEntries.Keyed := fun id e he =>
  (h.pending id e he).1

lemma mem_known (he : cl.committedEntries.lookup id = some e) :
    e.id = id ∧ e ∈ cl.committedContentIDs.flatten := by
  obtain ⟨o, ho, heq | ⟨hnone, -, -⟩⟩ := h.memory id
  · rw [he] at heq
    subst heq
    exact ⟨ho.2.1, ho.1⟩
  · rw [he] at hnone
    cases hnone

lemma keyed_committed : cl.committedEntries.Keyed := fun _ _ he =>
  (h.mem_known he).1

lemma live_committed
    (hsync : ∀ c ∈ cl.contents, c ∈ cl.committedContentIDs) (id : ID) :
    live (cl.committedEntries.lookup id) = a.written.lookup id := by
  obtain ⟨o, ho, hmem⟩ := h.memory id
  obtain ⟨o', ho', heq⟩ := h.view id
  have hsame : o = o' := ho.unique (ho'.congr fun e _ =>
    mem_flatten_congr (fun c => ⟨hsync c, h.known c⟩) e)
  rw [heq, ← hsame]
  rcases hmem with hmem | ⟨hnone, hlive, -⟩
  · rw [hmem]
  · rw [hnone, hlive]
    rfl

lemma ensureInitialized {order : List Content}
    (hperm : order.Perm cl.contents) : Inv (cl.ensureInitialized order) stored a := by
  unfold Client.ensureInitialized
  split_ifs
  · have hmem : ∀ c, c ∈ cl.contents ↔ c ∈ order := fun c => hperm.mem_iff.symm
    refine ⟨h.view, h.kept, h.sees, fun c => (hmem c).2, fun id => ?_, fun _ c => (hmem c).1,
      h.pending, h.cur, fun id e he hdel => ?_⟩
    · obtain ⟨o, ho, -⟩ := h.view id
      have ho : Newest order.flatten id o := ho.congr fun e _ => mem_flatten_congr hmem e
      have hload := lookup_load ho
      refine ⟨o, ho, ?_⟩
      cases hl : live o with
      | none => exact .inr ⟨hload.trans hl, rfl, fun c => (hmem c).1⟩
      | some e => exact .inl (hload.trans (hl.trans (live_eq_some.1 hl).1.symm))
    · rcases he with he | he
      · exact h.marks id e (.inl he) hdel
      · have he : (load order).lookup id = some e := he
        rw [load, lookup_filter, filter_eq_some_iff] at he
        rw [hdel] at he
        simp at he
  · exact h

lemma sync_ensureInitialized {order : List Content}
    (hperm : order.Perm cl.contents) : ∀ c ∈ (cl.ensureInitialized order).contents,
      c ∈ (cl.ensureInitialized order).committedContentIDs := by
  refine (h.ensureInitialized hperm).sync ?_
  unfold Client.ensureInitialized
  split_ifs with hstale
  · rfl
  · simpa using hstale

lemma pend {cur : EntryMap}
    (hlater : ∀ e' ∈ cl.contents.flatten, e'.id = e.id → e'.modTime < e.modTime)
    (hlabels : e.deleted = true → e.labels = []) (hat : cur.lookup e.id = live (some e))
    (hother : ∀ id, id ≠ e.id → cur.lookup id = a.cur.lookup id) :
    Inv { cl with pendingEntries := cl.pendingEntries.insert e.id e } stored
      { a with cur := cur } := by
  refine { h with pending := fun id x hx => ?_, cur := fun id => ?_, marks := fun id x hx hdel => ?_ }
  · rw [lookup_insert_eq] at hx
    split_ifs at hx with hid
    · cases hx
      exact ⟨hid.symm, fun e' he' heq => hlater e' he' (heq.trans hid)⟩
    · exact h.pending id x hx
  · simp only [lookup_insert_eq]
    split_ifs with hid
    · rw [hid]
      exact hat
    · rw [hother id hid]
      exact h.cur id
  · rw [lookup_insert_eq] at hx
    rcases hx with hx | hx
    · split_ifs at hx with hid
      · cases hx
        exact hlabels hdel
      · exact h.marks id x (.inl hx) hdel
    · exact h.marks id x (.inr hx) hdel

lemma delete (hsync : ∀ c ∈ cl.contents, c ∈ cl.committedContentIDs)
    {now : ℤ} (hlater : ∀ e ∈ cl.contents.flatten, e.id = id → e.modTime < now) :
    Inv (cl.delete id now) stored { a with cur := a.cur.erase id } := by
  unfold Client.delete
  split_ifs with hnone
  · obtain ⟨hp, hc⟩ := hnone
    rw [isNone_iff_eq_none] at hp hc
    refine { h with cur := fun id' => ?_ }
    rcases eq_or_ne id' id with rfl | hid
    · rw [AList.lookup_erase, hp, none_or, ← h.live_committed hsync, hc]
      rfl
    · rw [AList.lookup_erase_ne hid]
      exact h.cur id'
  · exact h.pend (e := ⟨id, [], now, true, []⟩) hlater (fun _ => rfl) (AList.lookup_erase ..)
      fun id' hid => AList.lookup_erase_ne hid

lemma flush (hperm : c.Perm cl.pendingEntries.values) :
    Inv (cl.flush c) stored { a with written := a.cur } := by
  have hc : ∀ {e}, e ∈ c ↔ cl.pendingEntries.lookup e.id = some e := fun {e} =>
    hperm.mem_iff.trans h.keyed_pending.mem_values
  have hlookup : ∀ id, (cl.writeEntries c).committedEntries.lookup id
      = (cl.pendingEntries.lookup id).or (cl.committedEntries.lookup id) :=
    lookup_writeEntries h.keyed_pending hperm
  have hnew : ∀ id e, cl.pendingEntries.lookup id = some e → ∀ x, x.id = id →
      (x ∈ c ↔ x = e) := fun id e he x hx => by
    rw [hc, hx, he, some.injEq, eq_comm]
  have hold : ∀ id, cl.pendingEntries.lookup id = none → ∀ x ∈ c, x.id ≠ id :=
    fun id hid x hx heq => by
      rw [hc, heq, hid] at hx
      cases hx
  have hview : Holds (cl.writeEntries c).contents.flatten a.cur := fun id => by
    cases hp : cl.pendingEntries.lookup id with
    | some e =>
      obtain ⟨hid, hlater⟩ := h.pending id e hp
      refine ⟨some e, Newest.override hid hlater fun x hx => ?_, ?_⟩
      · rw [mem_flatten_writeEntries, hnew id e hp x hx]
      · rw [h.cur, hp, some_or]
    | none =>
      obtain ⟨o, ho, heq⟩ := h.view id
      refine ⟨o, ho.congr fun x hx => ?_, ?_⟩
      · rw [mem_flatten_writeEntries]
        exact ⟨.inr, fun hx' => hx'.resolve_left fun hx' => hold id hp x hx' hx⟩
      · rw [h.cur, hp, none_or, heq, live_live]
  refine ⟨hview, h.kept, h.sees.writeEntries, fun c' hc' => ?_, fun id => ?_, fun hstale => ?_,
    fun id e he => ?_, fun id => ?_, fun id e he hdel => ?_⟩
  · rw [Client.flush, mem_writeEntries_ids] at hc'
    exact mem_writeEntries.2 (hc'.imp_right (h.known c'))
  · simp only [Client.flush, hlookup]
    obtain ⟨o, ho, hmem⟩ := h.memory id
    cases hp : cl.pendingEntries.lookup id with
    | some e =>
      obtain ⟨hid, hlater⟩ := h.pending id e hp
      refine ⟨some e, Newest.override hid (fun x hx => hlater x (mem_flatten_mono h.known hx))
        fun x hx => ?_, .inl rfl⟩
      rw [mem_flatten_writeEntries_ids, hnew id e hp x hx]
    | none =>
      rw [none_or]
      refine ⟨o, ho.congr fun x hx => ?_, ?_⟩
      · rw [mem_flatten_writeEntries_ids]
        exact ⟨.inr, fun hx' => hx'.resolve_left fun hx' => hold id hp x hx' hx⟩
      · refine hmem.imp_right fun ⟨hnone, hlive, hsync⟩ => ⟨hnone, hlive, fun c' hc' => ?_⟩
        exact mem_writeEntries_ids.2 ((mem_writeEntries.1 hc').imp_right (hsync c'))
  · intro c' hc'
    exact mem_writeEntries_ids.2
      ((mem_writeEntries.1 hc').imp_right (h.sync (writeEntries_stale hstale).1 c'))
  · cases he
  · exact (Holds.live_lookup hview).symm
  · rcases he with he | he
    · cases he
    · simp only [Client.flush, hlookup] at he
      exact h.marks id e ((or_eq_some_iff.1 he).imp_right And.right) hdel

/-- The entry that counts is written by a compaction, or is in a content that is not known, unless
it is marked as deleted and there is nothing else to know. -/
lemma holds_compact (hperm : c.Perm cl.committedEntries.values)
    (hlen : cl.committedContentIDs.length ≠ 1) : Holds (cl.compact c).contents.flatten a.written := by
  intro id
  obtain ⟨ov, hov, heq⟩ := h.view id
  obtain ⟨o, ho, hmem⟩ := h.memory id
  have hc := newest_values h.keyed_committed hperm id
  rcases hmem with hmem | ⟨hnone, hlive, hsync⟩
  · refine ⟨ov, hov.subset (fun e he hid => ?_) fun e he => ?_, heq⟩
    · rcases (mem_flatten_compact hlen).1 he with he | ⟨c', hc', -, he⟩
      · exact mem_flatten_mono h.known
          (h.mem_known (h.keyed_committed.mem_values.1 (hperm.mem_iff.1 he))).2
      · exact mem_flatten.2 ⟨c', hc', he⟩
    · subst he
      obtain ⟨c', hc', he⟩ := mem_flatten.1 hov.1
      refine (mem_flatten_compact hlen).2 ?_
      by_cases hknown : c' ∈ cl.committedContentIDs
      · have hsub : Newest cl.committedContentIDs.flatten id (some e) :=
          hov.subset (fun x hx _ => mem_flatten_mono h.known hx) fun x hx => by
            cases hx
            exact mem_flatten.2 ⟨c', hknown, he⟩
        rw [hmem, ho.unique hsub] at hc
        exact .inl hc.1
      · exact .inr ⟨c', hc', hknown, he⟩
  · have hsame : o = ov := ho.unique (hov.congr fun e _ =>
      mem_flatten_congr (fun c => ⟨hsync c, h.known c⟩) e)
    refine ⟨none, fun e he hid => ?_, by rw [heq, ← hsame, hlive]; rfl⟩
    rw [hnone] at hc
    rcases (mem_flatten_compact hlen).1 he with he | ⟨c', hc', hnew, -⟩
    · exact hc e he hid
    · exact hnew (hsync c' hc')

lemma compact (hperm : c.Perm cl.committedEntries.values) :
    Inv (cl.compact c) stored a := by
  by_cases hlen : cl.committedContentIDs.length = 1
  · rw [Client.compact, if_pos hlen]
    exact h
  have hlookup := lookup_compact h.keyed_committed hperm
  refine ⟨h.holds_compact hperm hlen, h.kept, h.sees.compact, fun c' hc' => ?_, fun id => ?_,
    fun hstale c' hc' => ?_, fun id e he => ?_, ?_, fun id e he hdel => ?_⟩
  · obtain ⟨rfl, hc'⟩ := (mem_compact_ids hlen).1 hc'
    exact (mem_compact hlen).2 ⟨hc'.imp (⟨·, rfl⟩) (h.known c'), fun _ => rfl⟩
  · refine ⟨_, (newest_values h.keyed_committed hperm id).congr fun e _ => ?_,
      .inl (hlookup id)⟩
    exact (mem_flatten_compact_ids hlen).symm
  · obtain ⟨hc', hold⟩ := (mem_compact hlen).1 hc'
    refine (mem_compact_ids hlen).2 ?_
    rcases hc' with ⟨hne, rfl⟩ | hc'
    · exact ⟨rfl, .inl hne⟩
    · have hknown := h.sync (compact_stale hstale) c' hc'
      exact ⟨hold hknown, .inr hknown⟩
  · rw [compact_pending] at he
    obtain ⟨hid, hlater⟩ := h.pending id e he
    refine ⟨hid, fun x hx => hlater x ?_⟩
    rcases (mem_flatten_compact hlen).1 hx with hx | ⟨c', hc', -, hx⟩
    · exact mem_flatten_mono h.known
        (h.mem_known (h.keyed_committed.mem_values.1 (hperm.mem_iff.1 hx))).2
    · exact mem_flatten.2 ⟨c', hc', hx⟩
  · rw [compact_pending]
    exact h.cur
  · rw [compact_pending, hlookup] at he
    exact h.marks id e he hdel

lemma move {contents added removed stored' : List Content} {stale : Bool}
    {m : EntryMap}
    (hmem : ∀ c, c ∈ contents ↔ c ∈ cl.contents) (hstale : stale = false → cl.stale = false)
    (hkept : Holds stored'.flatten m)
    (hsees : ({ cl with
      contents := contents, added := added, removed := removed, stale := stale } : Client).Sees
        stored') :
    Inv { cl with contents := contents, added := added, removed := removed, stale := stale }
      stored' { a with stored := m } where
  view := h.view.congr fun e => mem_flatten_congr (fun c => (hmem c).symm) e
  kept := hkept
  sees := hsees
  known c hc := (hmem c).2 (h.known c hc)
  memory id := by
    obtain ⟨o, ho, hor⟩ := h.memory id
    exact ⟨o, ho, hor.imp_right fun ⟨hnone, hlive, hsync⟩ =>
      ⟨hnone, hlive, fun c hc => hsync c ((hmem c).1 hc)⟩⟩
  sync hs c hc := h.sync (hstale hs) c ((hmem c).1 hc)
  pending id e he := by
    obtain ⟨hid, hlater⟩ := h.pending id e he
    exact ⟨hid, fun x hx => hlater x ((mem_flatten_congr hmem x).1 hx)⟩
  cur := h.cur
  marks := h.marks

lemma new :
    Inv (.new stored) stored { a with cur := a.stored, written := a.stored } where
  view := h.kept
  kept := h.kept
  sees c := by simp [Client.new]
  known c hc := absurd hc not_mem_nil
  memory id := ⟨none, fun e he => absurd he not_mem_nil, .inl rfl⟩
  sync hs := absurd hs nofun
  pending id e he := by cases he
  cur id := h.kept.live_lookup.symm
  marks id e he := by rcases he with he | he <;> cases he

end Inv

def Abs.empty : Abs := ⟨∅, ∅, ∅⟩

/-- An empty repository and an empty map. -/
def Initial (s : World × Abs) : Prop := ∃ now, s = (World.empty now, Abs.empty)

/-- One client, which puts and deletes manifests after the clock has moved on. -/
def Alone (s : World × Abs) (action : ManifestAction) : Prop :=
  action.alone = true ∧ Later s.1 action

instance (s : World × Abs) (action : ManifestAction) : Decidable (Alone s action) :=
  inferInstanceAs (Decidable (_ ∧ _))

lemma Inv.empty (now : ℕ → ℤ) : Inv ((World.empty now).clients 0) [] Abs.empty where
  view id := ⟨none, fun e he => absurd he not_mem_nil, rfl⟩
  kept id := ⟨none, fun e he => absurd he not_mem_nil, rfl⟩
  sees c := by simp [World.empty, Client.new]
  known c hc := absurd hc not_mem_nil
  memory id := ⟨none, fun e he => absurd he not_mem_nil, .inl rfl⟩
  sync hs := absurd hs nofun
  pending id e he := by cases he
  cur id := rfl
  marks id e he := by rcases he with he | he <;> cases he

lemma Inv.step {w w' : World} {a a' : Abs} {action : ManifestAction}
    (h : Inv (w.clients 0) w.stored a) (hok : Alone (w, a) action)
    (hstep : stepBoth (w, a) action = some (w', a')) : Inv (w'.clients 0) w'.stored a' := by
  obtain ⟨halone, hlater⟩ := hok
  obtain ⟨w₁, hw, heq⟩ := map_eq_some_iff.1 hstep
  cases heq
  have happlied : ∀ c, c ∈ w.applied (w.clients 0) ↔ c ∈ (w.clients 0).contents := fun c =>
    World.mem_applied.trans (h.sees c).symm
  cases action
  case tick c d =>
    cases hw
    exact h
  all_goals
    obtain rfl := of_decide_eq_true halone
    simp only [World.step] at hw
  case refresh =>
    cases hw
    refine h.move happlied (fun hs => (Bool.or_eq_false_iff.1 hs).1) h.kept fun c => ?_
    exact World.mem_applied
  case load order =>
    split_ifs at hw with hperm
    cases hw
    exact h.ensureInitialized hperm
  case put id labels content =>
    split_ifs at hw
    cases hw
    exact h.pend (e := ⟨id, labels, w.now 0, false, content⟩) hlater nofun
      (AList.lookup_insert _) fun id' hid => AList.lookup_insert_ne hid
  case delete id order =>
    split_ifs at hw with hperm
    cases hw
    refine (h.ensureInitialized hperm).delete (h.sync_ensureInitialized hperm) fun e he => ?_
    refine hlater e ?_
    unfold Client.ensureInitialized at he
    split_ifs at he <;> exact he
  case flush entries =>
    split_ifs at hw with hperm
    cases hw
    exact h.flush hperm
  case compact entries =>
    split_ifs at hw with hperm
    cases hw
    exact h.compact hperm
  case flushContents =>
    cases hw
    have hview : Holds (w.applied (w.clients 0)).flatten a.written :=
      h.view.congr (mem_flatten_congr fun c => (happlied c).symm)
    refine h.move (fun c => Iff.rfl) (fun hs => (Bool.or_eq_false_iff.1 hs).1) hview fun c => ?_
    simp [happlied]
  case reopen =>
    cases hw
    exact h.new

lemma Inv.reach {s : World × Abs} (h : Runs.Reach stepBoth Alone Initial s) :
    Inv (s.1.clients 0) s.1.stored s.2 := by
  induction h with
  | init hs =>
    obtain ⟨now, rfl⟩ := hs
    exact .empty now
  | step _ hok hstep ih => exact ih.step hok hstep

/-- No marker is found where a manifest is looked for. Loading drops those that were committed. -/
def Client.Unmarked (cl : Client) : Prop :=
  ∀ id e, (cl.pendingEntries.lookup id).or
    (if cl.stale then none else cl.committedEntries.lookup id) = some e → e.deleted = false

section Find

variable {cl : Client} {stored : List Content} {a : Abs} {order : List Content} {labels : Labels}

lemma unmarked_iff (order : List Content) : cl.Unmarked
    ↔ ∀ id e, ((cl.ensureInitialized order).pendingEntries.lookup id).or
      ((cl.ensureInitialized order).committedEntries.lookup id) = some e → e.deleted = false := by
  unfold Unmarked ensureInitialized
  split_ifs with hstale
  · refine forall₂_congr fun id e => ?_
    cases cl.pendingEntries.lookup id with
    | some x => rfl
    | none =>
      simp only [none_or]
      refine ⟨fun _ he => ?_, fun _ => nofun⟩
      rw [load, lookup_filter, filter_eq_some_iff] at he
      simpa using he.2
  · rfl

lemma Inv.get_eq (h : Inv cl stored a) (hperm : order.Perm cl.contents) (id : ID) :
    (cl.ensureInitialized order).get id = a.cur.lookup id := by
  have h' := h.ensureInitialized hperm
  have hcommitted := h'.live_committed (h.sync_ensureInitialized hperm) id
  rw [h'.cur, Client.get]
  cases (cl.ensureInitialized order).pendingEntries.lookup id with
  | some e => rfl
  | none =>
    rw [none_or, none_or, ← hcommitted, live_live]
    rfl

lemma Inv.keyed_cur (h : Inv cl stored a) : a.cur.Keyed := by
  intro id e he
  rw [h.cur, live_eq_some] at he
  rcases or_eq_some_iff.1 he.1 with hp | ⟨-, hw⟩
  · exact (h.pending id e hp).1
  · obtain ⟨o, ho, heq⟩ := h.view id
    rw [hw] at heq
    rw [(live_eq_some.1 heq.symm).1] at ho
    exact ho.2.1

lemma Inv.nodup_find (h : Inv cl stored a) : (cl.find labels).Nodup := by
  refine Nodup.append (h.keyed_pending.nodup_ids.of_map.filter _)
    (h.keyed_committed.nodup_ids.of_map.filter _) fun e hp hc => ?_
  simp only [mem_filter, h.keyed_pending.mem_values, Bool.and_eq_true,
    isNone_iff_eq_none] at hp hc
  rw [hp.1] at hc
  exact absurd hc.2.2 nofun

end Find

end Warphold.Manifest
