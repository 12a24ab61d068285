import Warphold.Proofs.ManifestMerge

/-!
# Manifests whose deletion is stored

A marker is newer than the manifest, so a manifest with a stored marker is gone, however many copies
of it there are.
-/

namespace Warphold.Manifest

open List EntryMap Client World Function

/-- The manifests that were put, those whose deletion was stored, for each client those of them whose
deletion was stored before its view, and the clients with a compaction that is not stored. -/
structure History where
  puts : List Entry
  deleted : List ID
  seen : ℕ → List ID
  compacting : List ℕ

def markers (cs : List Content) : List ID := (cs.flatten.filter (·.deleted)).map (·.id)

def History.step (h : History) (w w' : World) : ManifestAction → History
  | .put c id labels content => { h with puts := ⟨id, labels, w.now c, false, content⟩ :: h.puts }
  | .refresh c => { h with seen := Function.update h.seen c h.deleted }
  | .compact c _ => { h with compacting := c :: h.compacting }
  | .flushContents c =>
    { h with
      deleted := markers w'.stored ++ h.deleted
      seen := Function.update h.seen c (markers (w.clients c).added ++ h.seen c)
      compacting := h.compacting.filter (· ≠ c) }
  | .reopen c =>
    { h with
      seen := Function.update h.seen c h.deleted
      compacting := h.compacting.filter (· ≠ c) }
  | _ => h

def stepHistory (s : World × History) (action : ManifestAction) : Option (World × History) :=
  (s.1.step action).map fun w' => (w', s.2.step s.1 w' action)

def Fresh (s : World × History) : Prop := ∃ now, s = (World.empty now, ⟨[], [], fun _ => [], []⟩)

/-- No id is made twice, and a manifest is deleted at a later time than it was put. A compaction is
made by a client that knows all it sees and sees what is stored, and nothing is stored by others
before it is. -/
def Orderly (s : World × History) : ManifestAction → Prop
  | .put _ id _ _ => ∀ e ∈ s.2.puts, e.id ≠ id
  | .delete c id _ => ∀ e ∈ s.2.puts, e.id = id → e.modTime < s.1.now c
  | .compact c _ =>
    ((∀ x ∈ (s.1.clients c).contents, x ∈ (s.1.clients c).committedContentIDs)
      ∧ ∀ x ∈ (s.1.clients c).committedContentIDs, x ∈ (s.1.clients c).contents)
    ∧ (∀ x ∈ (s.1.clients c).contents, x ∈ s.1.applied (s.1.clients c))
      ∧ ∀ x ∈ s.1.applied (s.1.clients c), x ∈ (s.1.clients c).contents
  | .flushContents c => ∀ b ∈ s.2.compacting, b = c
  | _ => True

instance (s : World × History) : ∀ action, Decidable (Orderly s action)
  | .tick .. | .refresh .. | .load .. | .put .. | .delete ..
  | .flush .. | .compact .. | .flushContents .. | .reopen .. => by unfold Orderly; infer_instance

def Good (puts : List Entry) (e : Entry) : Prop :=
  ∃ p ∈ puts, p.id = e.id
    ∧ if e.deleted then e.labels = [] ∧ p.modTime < e.modTime else e = p

def Dead (l : List Entry) (id : ID) : Prop :=
  (∃ e ∈ l, e.id = id ∧ e.deleted = false) → ∃ m ∈ l, m.id = id ∧ m.deleted = true

def Client.known (cl : Client) : List Entry :=
  cl.contents.flatten ++ cl.committedContentIDs.flatten ++ cl.pendingEntries.values

structure Own (w : World) (deleted : List ID) (b : ℕ) (id : ID) : Prop where
  deleted : id ∉ deleted
  stored : ∀ e ∈ w.stored.flatten, e.id ≠ id
  others : ∀ a, a ≠ b → ∀ e ∈ (w.clients a).known, e.id ≠ id

/-- What holds of each client. -/
structure Local (w : World) (h : History) (b : ℕ) (cl : Client) : Prop where
  good : ∀ e ∈ cl.known, Good h.puts e
  added : ∀ c ∈ cl.added, c ∈ cl.contents
  keyed : cl.pendingEntries.Keyed
  memory : ∀ id e, cl.committedEntries.lookup id = some e → e.id = id
    ∧ e ∈ cl.committedContentIDs.flatten
    ∧ (e.deleted = false → ∀ m ∈ cl.committedContentIDs.flatten, m.id = id → m.deleted = false)
  sync : cl.stale = false → ∀ c, c ∈ cl.contents ↔ c ∈ cl.committedContentIDs
  fresh : ∀ id e, cl.pendingEntries.lookup id = some e → e.deleted = false → Own w h.deleted b id
    ∧ (∀ x ∈ cl.contents.flatten, x.id ≠ id) ∧ ∀ x ∈ cl.committedContentIDs.flatten, x.id ≠ id
  own : b ∉ h.compacting → cl.removed = []
    ∧ ∀ e ∈ cl.added.flatten, e.deleted = false → Own w h.deleted b e.id
  current : b ∈ h.compacting → cl.Sees w.stored ∧ ∀ id ∈ h.deleted, Dead cl.contents.flatten id
  seen : ∀ id ∈ h.seen b, id ∈ h.deleted ∧ Dead cl.contents.flatten id

structure Sound (w : World) (h : History) : Prop where
  unique : h.puts.Pairwise fun e e' => e.id ≠ e'.id
  stored : ∀ e ∈ w.stored.flatten, Good h.puts e
  deleted : ∀ id ∈ h.deleted, ∃ p ∈ h.puts, p.id = id
  dead : ∀ id ∈ h.deleted, Dead w.stored.flatten id
  clients : ∀ b, Local w h b (w.clients b)

section Entries

variable {puts l l' c : List Entry} {e m : Entry} {id : ID}

lemma Good.mono {puts' : List Entry} (h : Good puts e) (hsub : ∀ p ∈ puts, p ∈ puts') :
    Good puts' e := by
  obtain ⟨p, hp, h⟩ := h
  exact ⟨p, hsub p hp, h⟩

lemma Good.put (h : Good puts e) : ∃ p ∈ puts, p.id = e.id := by
  obtain ⟨p, hp, hid, -⟩ := h
  exact ⟨p, hp, hid⟩

lemma Good.labels (h : Good puts e) (hdel : e.deleted = true) : e.labels = [] := by
  obtain ⟨p, -, -, h⟩ := h
  rw [if_pos hdel] at h
  exact h.1

lemma Good.lt (hu : puts.Pairwise fun e e' => e.id ≠ e'.id) (he : Good puts e)
    (hlive : e.deleted = false) (hm : Good puts m) (hdel : m.deleted = true) (hid : m.id = e.id) :
    e.modTime < m.modTime := by
  obtain ⟨p, hp, hpe, he⟩ := he
  obtain ⟨q, hq, hqm, hm⟩ := hm
  rw [if_neg (by simp [hlive])] at he
  rw [if_pos hdel] at hm
  have hpq : p = q := by
    by_contra hne
    have hsymm : Std.Symm fun e e' : Entry => e.id ≠ e'.id := ⟨fun _ _ => Ne.symm⟩
    exact hu.forall hp hq hne (by rw [hpe, hqm, hid])
  rw [he, hpq]
  exact hm.2

lemma Dead.congr (h : Dead l id) (hmem : ∀ e, e ∈ l ↔ e ∈ l') : Dead l' id := by
  simpa only [Dead, hmem] using h

lemma Dead.add (h : Dead l id) (hc : ∀ e ∈ c, e.deleted = false → e.id ≠ id)
    (hmem : ∀ e, e ∈ l' ↔ e ∈ c ∨ e ∈ l) : Dead l' id := by
  rintro ⟨e, he, hid, hlive⟩
  rcases (hmem e).1 he with he | he
  · exact absurd hid (hc e he hlive)
  · obtain ⟨m, hm, hmid, hdel⟩ := h ⟨e, he, hid, hlive⟩
    exact ⟨m, (hmem m).2 (.inr hm), hmid, hdel⟩

lemma mem_markers {cs : List Content} : id ∈ markers cs
    ↔ ∃ m ∈ cs.flatten, m.deleted = true ∧ m.id = id := by
  simp only [markers, mem_map, mem_filter]
  exact exists_congr fun m => and_assoc

lemma foldl_mergeEntry_newest : ∀ (l : List Entry) (m : EntryMap) {e : Entry},
    (l.foldl mergeEntry m).lookup id = some e →
    (m.lookup id = some e ∨ e ∈ l ∧ e.id = id)
      ∧ (∀ x, m.lookup id = some x → x.modTime ≤ e.modTime)
      ∧ ∀ x ∈ l, x.id = id → x.modTime ≤ e.modTime
  | [], m, e, h => ⟨.inl h, fun x hx => by
      rw [foldl_nil, hx] at h
      cases h
      exact le_rfl, nofun⟩
  | y :: l, m, e, h => by
    obtain ⟨hin, hle, hall⟩ := foldl_mergeEntry_newest l _ h
    rw [lookup_mergeEntry] at hin hle
    split_ifs at hin hle with hid
    · have key : (m.lookup id = some e ∨ e ∈ y :: l ∧ e.id = id)
          ∧ (∀ x, m.lookup id = some x → x.modTime ≤ e.modTime) ∧ y.modTime ≤ e.modTime := by
        cases hm : m.lookup id with
        | none =>
          simp only [hm, Option.some.injEq] at hin hle
          refine ⟨.inr ?_, nofun, hle y rfl⟩
          rcases hin with rfl | ⟨hin, heq⟩
          · exact ⟨mem_cons_self, hid.symm⟩
          · exact ⟨mem_cons_of_mem _ hin, heq⟩
        | some prev =>
          simp only [hm] at hin hle
          split_ifs at hin hle with hlt
          · have hy := hle y rfl
            refine ⟨.inr ?_, fun x hx => ?_, hy⟩
            · rcases hin with hin | ⟨hin, heq⟩
              · cases hin
                exact ⟨mem_cons_self, hid.symm⟩
              · exact ⟨mem_cons_of_mem _ hin, heq⟩
            · cases hx
              omega
          · have hp := hle prev rfl
            refine ⟨hin.imp_right fun ⟨h, heq⟩ => ⟨mem_cons_of_mem _ h, heq⟩, fun x hx => ?_,
              by omega⟩
            cases hx
            exact hp
      refine ⟨key.1, key.2.1, fun x hx hxid => ?_⟩
      rcases mem_cons.1 hx with rfl | hx
      · exact key.2.2
      · exact hall x hx hxid
    · refine ⟨hin.imp_right fun ⟨h, heq⟩ => ⟨mem_cons_of_mem _ h, heq⟩, hle,
        fun x hx hxid => ?_⟩
      rcases mem_cons.1 hx with rfl | hx
      · exact absurd hxid.symm hid
      · exact hall x hx hxid

lemma mem_load {contents : List Content} (h : (load contents).lookup id = some e) :
    e.deleted = false ∧ e ∈ contents.flatten ∧ e.id = id
      ∧ ∀ x ∈ contents.flatten, x.id = id → x.modTime ≤ e.modTime := by
  rw [load, lookup_filter, Option.filter_eq_some_iff] at h
  obtain ⟨hin, -, hall⟩ := foldl_mergeEntry_newest _ _ h.1
  rcases hin with hin | hin
  · cases hin
  · exact ⟨by simpa using h.2, hin.1, hin.2, hall⟩

end Entries

section Clients

variable {w : World} {h h' : History} {b c : ℕ} {cl cl' : Client} {id : ID} {x : Content}
  {deleted : List ID}

variable {e : Entry}

lemma Client.mem_known : e ∈ cl.known ↔ e ∈ cl.contents.flatten
    ∨ e ∈ cl.committedContentIDs.flatten ∨ e ∈ cl.pendingEntries.values := by
  simp only [known, mem_append, or_assoc]

lemma Own.setClient (ho : Own w deleted b id)
    (hknown : c ≠ b → ∀ e ∈ cl'.known, e.id ≠ id) : Own (w.setClient c cl') deleted b id := by
  refine ⟨ho.deleted, ho.stored, fun a ha => ?_⟩
  rcases eq_or_ne a c with rfl | hac
  · simpa only [setClient, update_self] using hknown ha
  · simpa only [World.setClient, Function.update_of_ne hac] using ho.others a ha

lemma Local.other {w' : World} (hl : Local w h b cl) (hputs : ∀ p ∈ h.puts, p ∈ h'.puts)
    (hdel : ∀ id ∈ h.deleted, id ∈ h'.deleted)
    (hkept : ∀ id, (∃ p ∈ h.puts, p.id = id) → Own w h.deleted b id → Own w' h'.deleted b id)
    (hcomp : b ∈ h.compacting → b ∈ h'.compacting)
    (hcur : b ∈ h'.compacting →
      b ∈ h.compacting ∧ w'.stored = w.stored ∧ h'.deleted = h.deleted)
    (hseen : h'.seen b = h.seen b) : Local w' h' b cl := by
  refine ⟨fun e he => (hl.good e he).mono hputs, hl.added, hl.keyed, hl.memory, hl.sync,
    fun id e he hlive => ?_, fun hb => ?_, fun hb => ?_, fun id hid => ?_⟩
  · have hput := (hl.good e (mem_known.2 (.inr (.inr
      (mem_values.2 ⟨id, he⟩))))).put
    rw [hl.keyed id e he] at hput
    exact (hl.fresh id e he hlive).imp_left (hkept id hput)
  · obtain ⟨hrem, hown⟩ := hl.own fun hb' => hb (hcomp hb')
    refine ⟨hrem, fun e he hlive => hkept e.id ?_ (hown e he hlive)⟩
    exact (hl.good e (mem_known.2 (.inl (mem_flatten_mono hl.added he)))).put
  · obtain ⟨hb, hstored, hdeleted⟩ := hcur hb
    rw [hstored, hdeleted]
    exact hl.current hb
  · rw [hseen] at hid
    exact (hl.seen id hid).imp_left (hdel id)

lemma Sound.setClient (hs : Sound w h) (hunique : h'.puts.Pairwise fun e e' => e.id ≠ e'.id)
    (hputs : ∀ p ∈ h.puts, p ∈ h'.puts) (hdel : h'.deleted = h.deleted)
    (hother : ∀ b, b ≠ c → (b ∈ h'.compacting ↔ b ∈ h.compacting) ∧ h'.seen b = h.seen b)
    (hknown : ∀ e ∈ cl'.known, (∃ x ∈ (w.clients c).known, x.id = e.id)
      ∨ (∃ x ∈ w.stored.flatten, x.id = e.id) ∨ ∀ p ∈ h.puts, p.id ≠ e.id)
    (hlocal : Local w h' c cl') : Sound (w.setClient c cl') h' := by
  refine ⟨hunique, fun e he => (hs.stored e he).mono hputs, fun id hid => ?_, fun id hid => ?_,
    fun b => ?_⟩
  · rw [hdel] at hid
    obtain ⟨p, hp, heq⟩ := hs.deleted id hid
    exact ⟨p, hputs p hp, heq⟩
  · rw [hdel] at hid
    exact hs.dead id hid
  rcases eq_or_ne b c with rfl | hbc
  · have hself : ∀ {id}, Own w h'.deleted b id → Own (w.setClient b cl') h'.deleted b id :=
      fun ho => ho.setClient fun hne => absurd rfl hne
    simp only [setClient, update_self]
    exact { hlocal with
      fresh := fun id e he hlive => (hlocal.fresh id e he hlive).imp_left hself
      own := fun hc => ⟨(hlocal.own hc).1, fun e he hlive => hself ((hlocal.own hc).2 e he hlive)⟩ }
  · obtain ⟨hcomp, hseen⟩ := hother b hbc
    simp only [World.setClient, Function.update_of_ne hbc]
    refine (hs.clients b).other hputs (fun id hid => hdel ▸ hid) (fun id hput ho => ?_) hcomp.2
      (fun hb => ⟨hcomp.1 hb, rfl, hdel⟩) hseen
    obtain ⟨p, hp, rfl⟩ := hput
    rw [hdel]
    refine ho.setClient fun hne e he heq => ?_
    rcases hknown e he with ⟨x, hx, hxe⟩ | ⟨x, hx, hxe⟩ | hnew
    · exact ho.others c hne x hx (hxe.trans heq)
    · exact ho.stored x hx (hxe.trans heq)
    · exact hnew p hp heq.symm

lemma Local.dead_applied (hs : Sound w h) (hl : Local w h c cl) (hid : id ∈ h.deleted) :
    Dead (w.applied cl).flatten id := by
  by_cases hc : c ∈ h.compacting
  · obtain ⟨hsees, hdead⟩ := hl.current hc
    exact (hdead id hid).congr (mem_flatten_congr fun x => (hsees x).trans mem_applied.symm)
  · obtain ⟨hrem, hown⟩ := hl.own hc
    refine (hs.dead id hid).add (c := cl.added.flatten) (fun e he hlive heq => ?_) fun e => ?_
    · exact (hown e he hlive).deleted (heq ▸ hid)
    · simp only [mem_flatten, mem_applied, hrem, not_mem_nil, not_false_eq_true,
        and_true, or_and_right, exists_or]

lemma Local.mem_applied (hl : Local w h c cl)
    (he : e ∈ (w.applied cl).flatten) : e ∈ cl.contents.flatten ∨ e ∈ w.stored.flatten := by
  obtain ⟨x, hx, he⟩ := mem_flatten.1 he
  rcases World.mem_applied.1 hx with hx | ⟨hx, -⟩
  · exact .inl (List.mem_flatten.2 ⟨x, hl.added x hx, he⟩)
  · exact .inr (List.mem_flatten.2 ⟨x, hx, he⟩)

lemma Local.refresh (hs : Sound w h) (hl : Local w h c cl) :
    Local w { h with seen := update h.seen c h.deleted } c
      { cl with
        contents := w.applied cl
        stale := cl.stale || !(w.applied cl).Perm cl.contents } where
  __ := hl
  good e he := by
    rcases mem_known.1 he with he | he
    · rcases hl.mem_applied he with he | he
      · exact hl.good e (mem_known.2 (.inl he))
      · exact hs.stored e he
    · exact hl.good e (mem_known.2 (.inr he))
  added x hx := World.mem_applied.2 (.inl hx)
  sync hstale x := by
    obtain ⟨hstale, hperm⟩ := Bool.or_eq_false_iff.1 hstale
    have hperm : (w.applied cl).Perm cl.contents := by simpa using hperm
    exact hperm.mem_iff.trans (hl.sync hstale x)
  fresh id e he hlive := by
    obtain ⟨hown, hcontents, hids⟩ := hl.fresh id e he hlive
    exact ⟨hown, fun x hx => (hl.mem_applied hx).elim (hcontents x) (hown.stored x), hids⟩
  current hc := ⟨fun _ => World.mem_applied, fun id (hid : id ∈ h.deleted) =>
    hl.dead_applied hs hid⟩
  seen id hid := by
    have hid : id ∈ h.deleted := by simpa using hid
    exact ⟨hid, hl.dead_applied hs hid⟩

lemma Local.ensureInitialized (hs : Sound w h) (hl : Local w h c cl) {order : List Content}
    (hperm : order.Perm cl.contents) : Local w h c (cl.ensureInitialized order) := by
  unfold Client.ensureInitialized
  split_ifs
  · have hmem : ∀ e, e ∈ order.flatten ↔ e ∈ cl.contents.flatten :=
      mem_flatten_congr fun x => hperm.mem_iff
    have hgood : ∀ e ∈ order.flatten, Good h.puts e := fun e he =>
      hl.good e (mem_known.2 (.inl ((hmem e).1 he)))
    refine ⟨fun e he => ?_, hl.added, hl.keyed, fun id e he => ?_, fun _ x => hperm.mem_iff.symm,
      fun id e he hlive => ?_, hl.own, hl.current, hl.seen⟩
    · rcases mem_known.1 he with he | he | he
      · exact hl.good e (mem_known.2 (.inl he))
      · exact hgood e he
      · exact hl.good e (mem_known.2 (.inr (.inr he)))
    · obtain ⟨hlive, hin, hid, hmax⟩ := mem_load he
      refine ⟨hid, hin, fun _ m hm hmid => ?_⟩
      by_contra hdel
      rw [Bool.not_eq_false] at hdel
      have hlt := (hgood e hin).lt hs.unique hlive (hgood m hm) hdel (hmid.trans hid.symm)
      exact absurd (hmax m hm hmid) (by omega)
    · obtain ⟨hown, hcontents, -⟩ := hl.fresh id e he hlive
      exact ⟨hown, hcontents, fun x hx => hcontents x ((hmem x).1 hx)⟩
  · exact hl

lemma Client.mem_known_ensureInitialized {order : List Content}
    (hperm : order.Perm cl.contents) (he : e ∈ (cl.ensureInitialized order).known) :
    e ∈ cl.known := by
  unfold ensureInitialized at he
  split_ifs at he
  · rcases mem_known.1 he with he | he | he
    · exact mem_known.2 (.inl he)
    · exact mem_known.2 (.inl ((mem_flatten_congr (fun x => hperm.mem_iff) e).1 he))
    · exact mem_known.2 (.inr (.inr he))
  · exact he

lemma Local.put (hs : Sound w h) (hl : Local w h c cl) {now : ℤ} {labels : Labels}
    {content : Str} (hnew : ∀ p ∈ h.puts, p.id ≠ id) :
    Local w { h with puts := ⟨id, labels, now, false, content⟩ :: h.puts } c
      (cl.put id now labels content) := by
  have hunknown : ∀ e, Good h.puts e → e.id ≠ id := fun e he => by
    obtain ⟨p, hp, hid⟩ := he.put
    exact hid ▸ hnew p hp
  have hown : Own w h.deleted c id := by
    refine ⟨fun hid => ?_, fun e he => hunknown e (hs.stored e he), fun a _ e he =>
      hunknown e ((hs.clients a).good e he)⟩
    obtain ⟨p, hp, heq⟩ := hs.deleted id hid
    exact hnew p hp heq
  refine ⟨fun e he => ?_, hl.added, hl.keyed.insert ⟨id, labels, now, false, content⟩,
    hl.memory, hl.sync, fun id' e he hlive => ?_, hl.own, hl.current, hl.seen⟩
  · have hold : ∀ e ∈ cl.known, Good (⟨id, labels, now, false, content⟩ :: h.puts) e := fun e he =>
      (hl.good e he).mono fun p hp => mem_cons_of_mem _ hp
    rcases mem_known.1 he with he | he | he
    · exact hold e (mem_known.2 (.inl he))
    · exact hold e (mem_known.2 (.inr (.inl he)))
    · obtain ⟨id', hid'⟩ := mem_values.1 he
      simp only [Client.put, EntryMap.lookup_insert_eq] at hid'
      split_ifs at hid'
      · cases hid'
        exact ⟨_, mem_cons_self, rfl, rfl⟩
      · exact hold e (mem_known.2 (.inr (.inr (mem_values.2 ⟨id', hid'⟩))))
  · simp only [Client.put, EntryMap.lookup_insert_eq] at he
    split_ifs at he with hid
    · rw [hid]
      refine ⟨hown, fun x hx => hunknown x (hl.good x (mem_known.2 (.inl hx))),
        fun x hx => hunknown x (hl.good x (mem_known.2 (.inr (.inl hx))))⟩
    · exact hl.fresh id' e he hlive

lemma Local.known_of_delete (hl : Local w h c cl)
    (hsome : ¬((cl.pendingEntries.lookup id).isNone = true
      ∧ (cl.committedEntries.lookup id).isNone = true)) : ∃ x ∈ cl.known, x.id = id := by
  cases hp : cl.pendingEntries.lookup id with
  | some e =>
    exact ⟨e, mem_known.2 (.inr (.inr (mem_values.2 ⟨id, hp⟩))),
      hl.keyed id e hp⟩
  | none =>
    cases hm : cl.committedEntries.lookup id with
    | some e =>
      obtain ⟨hid, hin, -⟩ := hl.memory id e hm
      exact ⟨e, mem_known.2 (.inr (.inl hin)), hid⟩
    | none => simp [hp, hm] at hsome

lemma Client.mem_known_delete {now : ℤ} (he : e ∈ (cl.delete id now).known) :
    e ∈ cl.known ∨ e = ⟨id, [], now, true, []⟩ ∧ ¬((cl.pendingEntries.lookup id).isNone = true
      ∧ (cl.committedEntries.lookup id).isNone = true) := by
  unfold delete at he
  split_ifs at he with hnone
  · exact .inl he
  · rcases mem_known.1 he with he | he | he
    · exact .inl (mem_known.2 (.inl he))
    · exact .inl (mem_known.2 (.inr (.inl he)))
    · obtain ⟨id', hid'⟩ := mem_values.1 he
      rw [lookup_insert_eq] at hid'
      split_ifs at hid'
      · cases hid'
        exact .inr ⟨rfl, hnone⟩
      · exact .inl (mem_known.2 (.inr (.inr (mem_values.2 ⟨id', hid'⟩))))

lemma Local.delete (hl : Local w h c cl) {now : ℤ}
    (hlater : ∀ p ∈ h.puts, p.id = id → p.modTime < now) : Local w h c (cl.delete id now) := by
  have hgood : ∀ e ∈ (cl.delete id now).known, Good h.puts e := fun e he => by
    rcases mem_known_delete he with he | ⟨rfl, hsome⟩
    · exact hl.good e he
    · obtain ⟨x, hx, hid⟩ := hl.known_of_delete hsome
      obtain ⟨p, hp, hpx⟩ := (hl.good x hx).put
      exact ⟨p, hp, hpx.trans hid, rfl, hlater p hp (hpx.trans hid)⟩
  unfold Client.delete at hgood ⊢
  split_ifs at hgood ⊢
  · exact hl
  · refine ⟨hgood, hl.added, hl.keyed.insert ⟨id, [], now, true, []⟩, hl.memory, hl.sync,
      fun id' e he hlive => ?_, hl.own, hl.current, hl.seen⟩
    rw [lookup_insert_eq] at he
    split_ifs at he
    · cases he
      cases hlive
    · exact hl.fresh id' e he hlive

lemma Local.flush (hl : Local w h c cl) (hperm : x.Perm cl.pendingEntries.values) :
    Local w h c (cl.flush x) := by
  have hx : ∀ {e}, e ∈ x ↔ cl.pendingEntries.lookup e.id = some e := fun {e} =>
    hperm.mem_iff.trans hl.keyed.mem_values
  have hlookup : ∀ id, (cl.writeEntries x).committedEntries.lookup id
      = (cl.pendingEntries.lookup id).or (cl.committedEntries.lookup id) :=
    lookup_writeEntries hl.keyed hperm
  have hnew : ∀ e ∈ x, e.deleted = false → ∀ id ∈ h.deleted, e.id ≠ id := fun e he hlive id hid heq =>
    (hl.fresh _ e (hx.1 he) hlive).1.deleted (heq ▸ hid)
  have hgood : ∀ e ∈ x, Good h.puts e := fun e he =>
    hl.good e (mem_known.2 (.inr (.inr (hperm.mem_iff.1 he))))
  obtain ⟨hremoved, hadded⟩ : (cl.writeEntries x).removed = cl.removed
      ∧ ∀ y ∈ (cl.writeEntries x).added, y ∈ cl.added ∨ x ≠ [] ∧ y = x := writeEntries_changes
  refine ⟨fun e he => ?_, fun y hy => ?_, nofun, fun id e he => ?_, fun hstale y => ?_, nofun,
    fun hc => ⟨hremoved.trans (hl.own hc).1, fun e he hlive => ?_⟩, fun hc => ?_, fun id hid => ?_⟩
  · rcases mem_known.1 he with he | he | he
    · rcases mem_flatten_writeEntries.1 he with he | he
      · exact hgood e he
      · exact hl.good e (mem_known.2 (.inl he))
    · rcases mem_flatten_writeEntries_ids.1 he with he | he
      · exact hgood e he
      · exact hl.good e (mem_known.2 (.inr (.inl he)))
    · exact absurd he not_mem_nil
  · exact mem_writeEntries.2 ((hadded y hy).symm.imp_right (hl.added y))
  · simp only [Client.flush, hlookup] at he
    simp only [Client.flush, mem_flatten_writeEntries_ids]
    rcases Option.or_eq_some_iff.1 he with hp | ⟨hp, hm⟩
    · have hid := hl.keyed id e hp
      refine ⟨hid, .inl (hx.2 (hid ▸ hp)), fun hlive m hm hmid => ?_⟩
      rcases hm with hm | hm
      · rw [hx, hmid, hp] at hm
        cases hm
        exact hlive
      · exact absurd hmid ((hl.fresh id e hp hlive).2.2 m hm)
    · obtain ⟨hid, hin, hnone⟩ := hl.memory id e hm
      refine ⟨hid, .inr hin, fun hlive m hm hmid => ?_⟩
      rcases hm with hm | hm
      · rw [hx, hmid, hp] at hm
        cases hm
      · exact hnone hlive m hm hmid
  · rw [Client.flush, mem_writeEntries, mem_writeEntries_ids,
      hl.sync (writeEntries_stale hstale).1 y]
  · obtain ⟨y, hy, hin⟩ := List.mem_flatten.1 he
    rcases hadded y hy with hy | ⟨-, rfl⟩
    · exact (hl.own hc).2 e (mem_flatten.2 ⟨y, hy, hin⟩) hlive
    · exact (hl.fresh _ e (hx.1 hin) hlive).1
  · obtain ⟨hsees, hdead⟩ := hl.current hc
    exact ⟨hsees.writeEntries, fun id hid => (hdead id hid).add
      (fun e he hlive => hnew e he hlive id hid) fun e => mem_flatten_writeEntries⟩
  · obtain ⟨hid, hdead⟩ := hl.seen id hid
    exact ⟨hid, hdead.add (fun e he hlive => hnew e he hlive id hid) fun e =>
      mem_flatten_writeEntries⟩

lemma Local.keyed_committed (hl : Local w h c cl) : cl.committedEntries.Keyed := fun id e he =>
  (hl.memory id e he).1

lemma Local.dead_compact (hl : Local w h c cl)
    (hknow : ∀ y, y ∈ cl.contents ↔ y ∈ cl.committedContentIDs)
    (hperm : x.Perm cl.committedEntries.values) (hlen : cl.committedContentIDs.length ≠ 1)
    (hdead : Dead cl.contents.flatten id) : Dead (cl.compact x).contents.flatten id := by
  rintro ⟨e, he, hid, hlive⟩
  rcases (mem_flatten_compact hlen).1 he with he | ⟨y, hy, hnew, -⟩
  · have hm := hl.keyed_committed.mem_values.1 (hperm.mem_iff.1 he)
    obtain ⟨-, hin, hnone⟩ := hl.memory e.id e hm
    obtain ⟨m, hm, hmid, hdel⟩ :=
      hdead ⟨e, (mem_flatten_congr hknow e).2 hin, hid, hlive⟩
    have := hnone hlive m ((mem_flatten_congr hknow m).1 hm) (hmid.trans hid.symm)
    rw [hdel] at this
    cases this
  · exact absurd ((hknow y).1 hy) hnew

lemma Local.mem_of_mem_compact (hl : Local w h c cl) (hperm : x.Perm cl.committedEntries.values)
    (he : e ∈ x) : e ∈ cl.committedContentIDs.flatten :=
  (hl.memory _ e (hl.keyed_committed.mem_values.1 (hperm.mem_iff.1 he))).2.1

lemma Local.mem_known_compact (hl : Local w h c cl)
    (hperm : x.Perm cl.committedEntries.values) (he : e ∈ (cl.compact x).known) :
    e ∈ cl.known := by
  by_cases hlen : cl.committedContentIDs.length = 1
  · rwa [compact, if_pos hlen] at he
  · rcases mem_known.1 he with he | he | he
    · rcases (mem_flatten_compact hlen).1 he with he | ⟨y, hy, -, he⟩
      · exact mem_known.2 (.inr (.inl (hl.mem_of_mem_compact hperm he)))
      · exact mem_known.2 (.inl (mem_flatten.2 ⟨y, hy, he⟩))
    · exact mem_known.2 (.inr (.inl
        (hl.mem_of_mem_compact hperm ((mem_flatten_compact_ids hlen).1 he))))
    · rw [compact_pending] at he
      exact mem_known.2 (.inr (.inr he))

lemma Local.compact (hs : Sound w h) (hl : Local w h c cl)
    (hknow : ∀ y, y ∈ cl.contents ↔ y ∈ cl.committedContentIDs) (hsees : cl.Sees w.stored)
    (hperm : x.Perm cl.committedEntries.values) :
    Local w { h with compacting := c :: h.compacting } c (cl.compact x) := by
  have hdead : ∀ id ∈ h.deleted, Dead cl.contents.flatten id := fun id hid =>
    (hl.dead_applied hs hid).congr
      (mem_flatten_congr fun y => World.mem_applied.trans (hsees y).symm)
  by_cases hlen : cl.committedContentIDs.length = 1
  · rw [Client.compact, if_pos hlen]
    exact { hl with
      own := fun hc => absurd List.mem_cons_self hc
      current := fun _ => ⟨hsees, hdead⟩ }
  refine ⟨fun e he => hl.good e (hl.mem_known_compact hperm he),
    fun y hy => (hsees.compact y).2 (.inl hy), ?_, fun id e he => ?_, fun _ y => ?_,
    fun id e he hlive => ?_, fun hc => absurd mem_cons_self hc,
    fun _ => ⟨hsees.compact, fun id hid => hl.dead_compact hknow hperm hlen (hdead id hid)⟩,
    fun id hid => (hl.seen id hid).imp_right (hl.dead_compact hknow hperm hlen)⟩
  · rw [compact_pending]
    exact hl.keyed
  · rw [lookup_compact hl.keyed_committed hperm] at he
    have hx : ∀ {m}, m ∈ x ↔ cl.committedEntries.lookup m.id = some m := fun {m} =>
      hperm.mem_iff.trans hl.keyed_committed.mem_values
    have hid := hl.keyed_committed id e he
    simp only [mem_flatten_compact_ids hlen]
    refine ⟨hid, hx.2 (hid ▸ he), fun hlive m hm hmid => ?_⟩
    rw [hx, hmid, he] at hm
    cases hm
    exact hlive
  · have := hknow y
    rw [mem_compact hlen, mem_compact_ids hlen]
    tauto
  · rw [compact_pending] at he
    obtain ⟨hown, hcontents, hids⟩ := hl.fresh id e he hlive
    refine ⟨hown, fun z hz => ?_, fun z hz => ?_⟩
    · rcases (mem_flatten_compact hlen).1 hz with hz | ⟨y, hy, -, hz⟩
      · exact hids z (hl.mem_of_mem_compact hperm hz)
      · exact hcontents z (mem_flatten.2 ⟨y, hy, hz⟩)
    · exact hids z (hl.mem_of_mem_compact hperm ((mem_flatten_compact_ids hlen).1 hz))

lemma Local.new (hs : Sound w h) : Local w
    { h with
      seen := update h.seen c h.deleted
      compacting := h.compacting.filter (· ≠ c) } c (.new w.stored) where
  good e he := by
    rcases mem_known.1 he with he | he | he
    · exact hs.stored e he
    · exact absurd he not_mem_nil
    · exact absurd he not_mem_nil
  added := nofun
  keyed := nofun
  memory := nofun
  sync := nofun
  fresh := nofun
  own _ := ⟨rfl, nofun⟩
  current hc := by simp at hc
  seen id hid := by
    have hid : id ∈ h.deleted := by simpa using hid
    exact ⟨hid, hs.dead id hid⟩

lemma Sound.flushContents (hs : Sound w h) (halone : ∀ b ∈ h.compacting, b = c) :
    Sound { w.setClient c (w.clients c).flushed with stored := w.applied (w.clients c) }
      { h with
        deleted := markers (w.applied (w.clients c)) ++ h.deleted
        seen := update h.seen c (markers (w.clients c).added ++ h.seen c)
        compacting := h.compacting.filter (· ≠ c) } := by
  have hl := hs.clients c
  have hgood : ∀ e ∈ (w.applied (w.clients c)).flatten, Good h.puts e := fun e he =>
    (hl.mem_applied he).elim (fun he => hl.good e (mem_known.2 (.inl he))) (hs.stored e)
  -- A manifest of which neither the client's changes nor the stored contents know stays unknown.
  have hkept : ∀ b id, (∀ e ∈ (w.applied (w.clients c)).flatten, e.id ≠ id) →
      Own w h.deleted b id →
      Own { w.setClient c (w.clients c).flushed with stored := w.applied (w.clients c) }
        (markers (w.applied (w.clients c)) ++ h.deleted) b id := by
    refine fun b id hnone ho => ⟨fun hid => ?_, hnone, fun a ha => ?_⟩
    · rcases mem_append.1 hid with hid | hid
      · obtain ⟨m, hm, -, heq⟩ := mem_markers.1 hid
        exact hnone m hm heq
      · exact ho.deleted hid
    · rcases eq_or_ne a c with rfl | hac
      · simp only [World.setClient, Function.update_self]
        exact ho.others a ha
      · simp only [World.setClient, Function.update_of_ne hac]
        exact ho.others a ha
  refine ⟨hs.unique, hgood, fun id hid => ?_, fun id hid => ?_, fun b => ?_⟩
  · rcases List.mem_append.1 hid with hid | hid
    · obtain ⟨m, hm, -, rfl⟩ := mem_markers.1 hid
      exact (hgood m hm).put
    · exact hs.deleted id hid
  · rcases mem_append.1 hid with hid | hid
    · obtain ⟨m, hm, hdel, heq⟩ := mem_markers.1 hid
      exact fun _ => ⟨m, hm, heq, hdel⟩
    · exact hl.dead_applied hs hid
  rcases eq_or_ne b c with rfl | hbc
  · simp only [World.setClient, Function.update_self]
    refine ⟨hl.good, nofun, hl.keyed, hl.memory, fun hstale => hl.sync (Bool.or_eq_false_iff.1 hstale).1,
      fun id e he hlive => ?_, fun _ => ⟨rfl, nofun⟩, fun hb => absurd hb (by simp), fun id hid => ?_⟩
    · obtain ⟨hown, hcontents, hids⟩ := hl.fresh id e he hlive
      refine ⟨hkept b id (fun z hz => ?_) hown, hcontents, hids⟩
      exact (hl.mem_applied hz).elim (hcontents z) (hown.stored z)
    · simp only [update_self, mem_append] at hid
      rcases hid with hid | hid
      · obtain ⟨m, hm, hdel, heq⟩ := mem_markers.1 hid
        have happlied : m ∈ (w.applied (w.clients b)).flatten :=
          mem_flatten_mono (fun y hy => mem_applied.2 (.inl hy)) hm
        exact ⟨mem_append_left _ (mem_markers.2 ⟨m, happlied, hdel, heq⟩),
          fun _ => ⟨m, mem_flatten_mono hl.added hm, heq, hdel⟩⟩
      · exact (hl.seen id hid).imp_left (mem_append_right _)
  · simp only [World.setClient, Function.update_of_ne hbc]
    refine (hs.clients b).other (fun p hp => hp) (fun id hid => List.mem_append_right _ hid)
      (fun id _ ho => hkept b id (fun z hz => ?_) ho) (fun hb => absurd (halone b hb) hbc)
      (fun hb => absurd (halone b (List.mem_filter.1 hb).1) hbc) (Function.update_of_ne hbc _ _)
    exact (hl.mem_applied hz).elim
      (fun hz => ho.others c hbc.symm z (Client.mem_known.2 (.inl hz))) (ho.stored z)

end Clients

lemma Sound.step {w w' : World} {h h' : History} {action : ManifestAction} (hs : Sound w h)
    (hok : Orderly (w, h) action) (hstep : stepHistory (w, h) action = some (w', h')) :
    Sound w' h' := by
  obtain ⟨w₁, hw, heq⟩ := Option.map_eq_some_iff.1 hstep
  cases heq
  have hsame : ∀ {c : ℕ} {cl : Client}, (∀ e ∈ cl.known, e ∈ (w.clients c).known) →
      Local w h c cl → Sound (w.setClient c cl) h := fun hknown hl =>
    hs.setClient hs.unique (fun _ => id) rfl (fun _ _ => ⟨Iff.rfl, rfl⟩)
      (fun e he => .inl ⟨e, hknown e he, rfl⟩) hl
  cases action <;> simp only [World.step] at hw
  case tick c d =>
    cases hw
    exact ⟨hs.unique, hs.stored, hs.deleted, hs.dead, fun b =>
      (hs.clients b).other (fun _ => id) (fun _ => id) (fun _ _ ho => ⟨ho.1, ho.2, ho.3⟩) id
        (fun hb => ⟨hb, rfl, rfl⟩) rfl⟩
  case refresh c =>
    cases hw
    refine hs.setClient hs.unique (fun _ => id) rfl
      (fun b hb => ⟨Iff.rfl, update_of_ne hb _ _⟩) (fun e he => ?_)
      ((hs.clients c).refresh hs)
    rcases mem_known.1 he with he | he
    · rcases (hs.clients c).mem_applied he with he | he
      · exact .inl ⟨e, mem_known.2 (.inl he), rfl⟩
      · exact .inr (.inl ⟨e, he, rfl⟩)
    · exact .inl ⟨e, mem_known.2 (.inr he), rfl⟩
  case load c order =>
    split_ifs at hw with hperm
    cases hw
    exact hsame (fun e => Client.mem_known_ensureInitialized hperm)
      ((hs.clients c).ensureInitialized hs hperm)
  case put c id labels content =>
    split_ifs at hw
    cases hw
    refine hs.setClient (List.pairwise_cons.2 ⟨fun p hp => (hok p hp).symm, hs.unique⟩)
      (fun _ => mem_cons_of_mem _) rfl (fun _ _ => ⟨Iff.rfl, rfl⟩) (fun e he => ?_)
      ((hs.clients c).put hs hok)
    rcases mem_known.1 he with he | he | he
    · exact .inl ⟨e, mem_known.2 (.inl he), rfl⟩
    · exact .inl ⟨e, mem_known.2 (.inr (.inl he)), rfl⟩
    · obtain ⟨id', hid'⟩ := mem_values.1 he
      simp only [put, lookup_insert_eq] at hid'
      split_ifs at hid'
      · cases hid'
        exact .inr (.inr hok)
      · exact .inl ⟨e, mem_known.2 (.inr (.inr
          (mem_values.2 ⟨id', hid'⟩))), rfl⟩
  case delete c id order =>
    split_ifs at hw with hperm
    cases hw
    have hl := (hs.clients c).ensureInitialized hs hperm
    refine hs.setClient hs.unique (fun _ hp => hp) rfl (fun _ _ => ⟨Iff.rfl, rfl⟩)
      (fun e he => .inl ?_) (hl.delete hok)
    rcases mem_known_delete he with he | ⟨rfl, hsome⟩
    · exact ⟨e, mem_known_ensureInitialized hperm he, rfl⟩
    · obtain ⟨x, hx, hid⟩ := hl.known_of_delete hsome
      exact ⟨x, mem_known_ensureInitialized hperm hx, hid⟩
  case flush c entries =>
    split_ifs at hw with hperm
    cases hw
    refine hsame (fun e he => ?_) ((hs.clients c).flush hperm)
    have hentries : e ∈ entries → e ∈ (w.clients c).known := fun he =>
      mem_known.2 (.inr (.inr (hperm.mem_iff.1 he)))
    rcases mem_known.1 he with he | he | he
    · exact (mem_flatten_writeEntries.1 he).elim hentries fun he => mem_known.2 (.inl he)
    · exact (mem_flatten_writeEntries_ids.1 he).elim hentries fun he =>
        mem_known.2 (.inr (.inl he))
    · exact absurd he not_mem_nil
  case compact c entries =>
    split_ifs at hw with hperm
    cases hw
    obtain ⟨⟨hknow, hknow'⟩, hsees, hsees'⟩ := hok
    refine hs.setClient hs.unique (fun _ => id) rfl
      (fun b hb => ⟨by simp [History.step, hb], rfl⟩)
      (fun e he => .inl ⟨e, (hs.clients c).mem_known_compact hperm he, rfl⟩)
      ((hs.clients c).compact hs (fun y => ⟨hknow y, hknow' y⟩)
        (fun y => ⟨fun hy => mem_applied.1 (hsees y hy), fun hy =>
          hsees' y (mem_applied.2 hy)⟩) hperm)
  case flushContents c =>
    cases hw
    exact hs.flushContents hok
  case reopen c =>
    cases hw
    refine hs.setClient hs.unique (fun _ => id) rfl
      (fun b hb => ⟨by simp [History.step, hb], update_of_ne hb _ _⟩) (fun e he => ?_)
      (.new hs)
    rcases mem_known.1 he with he | he | he
    · exact .inr (.inl ⟨e, he, rfl⟩)
    · exact absurd he not_mem_nil
    · exact absurd he not_mem_nil

lemma Sound.reach {s : World × History} (h : Runs.Reach stepHistory Orderly Fresh s) :
    Sound s.1 s.2 := by
  induction h with
  | init hs =>
    obtain ⟨now, rfl⟩ := hs
    exact ⟨.nil, nofun, nofun, nofun, fun b => ⟨nofun, nofun, nofun, nofun, nofun, nofun,
      fun _ => ⟨rfl, nofun⟩, nofun, nofun⟩⟩
  | step _ hok hstep ih => exact ih.step hok hstep

lemma ensureInitialized_stale (cl : Client) (order : List Content) :
    (cl.ensureInitialized order).stale = false := by
  unfold ensureInitialized
  split_ifs with hstale
  · rfl
  · simpa using hstale

lemma Local.marker_of_seen {w : World} {h : History} {c : ℕ} {cl : Client} {id : ID} {e : Entry}
    (hl : Local w h c cl) (hstale : cl.stale = false) (hseen : id ∈ h.seen c)
    (he : (cl.pendingEntries.lookup id).or (cl.committedEntries.lookup id) = some e) :
    e.deleted = true := by
  obtain ⟨hdel, hdead⟩ := hl.seen id hseen
  by_contra hlive
  rw [Bool.not_eq_true] at hlive
  rcases Option.or_eq_some_iff.1 he with hp | ⟨-, hm⟩
  · exact (hl.fresh id e hp hlive).1.deleted hdel
  · obtain ⟨hid, hin, hnone⟩ := hl.memory id e hm
    have hmem := mem_flatten_congr (hl.sync hstale)
    obtain ⟨m, hm, hmid, hmdel⟩ := hdead ⟨e, (hmem e).2 hin, hid, hlive⟩
    have := hnone hlive m ((hmem m).1 hm) hmid
    rw [hmdel] at this
    cases this

section Runs

def sampleManifest (n : UInt8) : Entry := ⟨[n], [(typeLabelKey, str "snapshot")], 0, false, [7]⟩

def sampleDeletion : Entry := ⟨[1], [], 1, true, []⟩

/-- Two manifests are stored and client 1 loads them; client 0 deletes the first and compacts. -/
def deleting : List ManifestAction :=
  [.put 0 [1] [(typeLabelKey, str "snapshot")] [7], .flush 0 [sampleManifest 1],
    .put 0 [2] [(typeLabelKey, str "snapshot")] [7], .flush 0 [sampleManifest 2], .flushContents 0,
    .refresh 1, .load 1 [[sampleManifest 1], [sampleManifest 2]], .tick 0 1,
    .delete 0 [1] [[sampleManifest 1], [sampleManifest 2]], .flush 0 [sampleDeletion],
    .flushContents 0, .load 0 [[sampleDeletion], [sampleManifest 1], [sampleManifest 2]],
    .compact 0 [sampleManifest 2], .flushContents 0]

end Runs

end Warphold.Manifest
