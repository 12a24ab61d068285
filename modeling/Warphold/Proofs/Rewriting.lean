import Warphold.Snapshot.Rewriter

/-!
# Rewriting in parallel

Without workers a rewrite has one outcome, and an entry that fails anywhere in the tree fails it.
-/

namespace Warphold.Rewriting

open List Option

variable (rw : Rewriter)

/-- A finite tree in which every directory that is rewritten has a summary. -/
inductive Summarised : DirEntry → Prop where
  | dropped {e : DirEntry} : (rw.rewriteEntry e).1 = none → Summarised e
  | leaf {e d : DirEntry} : (rw.rewriteEntry e).1 = some d → d.type ≠ .directory → Summarised e
  | unreadable {e d : DirEntry} : (rw.rewriteEntry e).1 = some d → d.type = .directory →
      rw.readDirEntries d.objectID = none → Summarised e
  | directory {e d : DirEntry} {entries : List DirEntry} : (rw.rewriteEntry e).1 = some d →
      d.type = .directory → rw.readDirEntries d.objectID = some entries → d.dirSummary.isSome →
      (∀ c ∈ entries, Summarised c) → Summarised e

inductive Reached (e : DirEntry) : DirEntry → Prop where
  | refl : Reached e e
  | entry {c d : DirEntry} {err : Bool} {entries : List DirEntry} {c' : DirEntry} : Reached e c →
      rw.rewriteEntry c = (some d, err) → d.type = .directory →
      rw.readDirEntries d.objectID = some entries → c' ∈ entries → Reached e c'

/-- Some entry of the tree cannot be rewritten, also on its own and without workers. -/
def Fails (root : DirEntry) : Prop :=
  ∃ c, Reached rw root c ∧ Rewrites rw false c .failed

variable {rw}

section Results

variable {o : Outcome} {l : Listing}

lemma addShared_of_ne (h : o ≠ .failed) (l : Listing) : l.addShared o = l.addInline o := by
  cases o <;> first | rfl | exact absurd rfl h

lemma finish_ne_panicked {d : DirEntry} (hd : d.dirSummary.isSome)
    (hl : l ≠ .panicked) : rw.finish d l ≠ .panicked := by
  obtain ⟨s, hs⟩ := isSome_iff_exists.mp hd
  rcases l with m | _ | _
  · simp only [Rewriter.finish, hs]
    rcases rw.writeDirManifest (buildSummary d.modTime s.incompleteReason m) m with _ | oid <;> simp
  · simp [Rewriter.finish]
  · exact absurd rfl hl

lemma ofCallback_ne_panicked (r : Option DirEntry × Bool) : ofCallback r ≠ .panicked := by
  rcases r with ⟨_ | e, _ | _⟩ <;> simp [ofCallback]

lemma addInline_ne_panicked (ho : o ≠ .panicked)
    (hl : l ≠ .panicked) : l.addInline o ≠ .panicked := by
  cases o <;> cases l <;> simp_all [Listing.addInline]

lemma addInline_failed (ho : o ≠ .panicked) : Listing.addInline o .failed = .failed := by
  cases o <;> simp_all [Listing.addInline]

lemma addShared_ne_panicked (ho : o ≠ .panicked)
    (hl : l ≠ .panicked) : l.addShared o ≠ .panicked := by
  cases o <;> cases l <;> simp_all [Listing.addShared]

lemma rewriteSnapshotManifest_ne_panicked {root : DirEntry} (ho : o ≠ .panicked) :
    rw.rewriteSnapshotManifest root o ≠ .panicked := by
  rcases o with e | _ | _ | _
  · simp [Rewriter.rewriteSnapshotManifest]
  · rcases h : rw.onDirectoryReadFailure root with ⟨e, _ | _⟩ <;>
      simp [Rewriter.rewriteSnapshotManifest, h]
  · simp [Rewriter.rewriteSnapshotManifest]
  · exact absurd rfl ho

end Results

section Inversion

variable {share : Bool} {e d : DirEntry} {err : Bool} {o : Outcome}

lemma rewrites_dropped_iff (hr : rw.rewriteEntry e = (none, err)) :
    Rewrites rw share e o ↔ o = ofCallback (none, err) := by
  constructor
  · intro h
    cases h with
    | dropped hr' => rw [hr] at hr'; cases hr'; rfl
    | leaf hr' | unreadable hr' | directory hr' => rw [hr] at hr'; cases hr'
  · rintro rfl
    exact .dropped hr

lemma rewrites_leaf_iff (hr : rw.rewriteEntry e = (some d, err)) (hd : d.type ≠ .directory) :
    Rewrites rw share e o ↔ o = .replaced d := by
  constructor
  · intro h
    cases h with
    | dropped hr' => rw [hr] at hr'; cases hr'
    | leaf hr' => rw [hr] at hr'; cases hr'; rfl
    | unreadable hr' hd' | directory hr' hd' => rw [hr] at hr'; cases hr'; exact absurd hd' hd
  · rintro rfl
    exact .leaf hr hd

lemma rewrites_unreadable_iff (hr : rw.rewriteEntry e = (some d, err)) (hd : d.type = .directory)
    (hn : rw.readDirEntries d.objectID = none) :
    Rewrites rw share e o ↔ o = ofCallback (rw.onDirectoryReadFailure d) := by
  constructor
  · intro h
    cases h with
    | dropped hr' => rw [hr] at hr'; cases hr'
    | leaf hr' hd' => rw [hr] at hr'; cases hr'; exact absurd hd hd'
    | unreadable hr' => rw [hr] at hr'; cases hr'; rfl
    | directory hr' _ hn' => rw [hr] at hr'; cases hr'; rw [hn] at hn'; cases hn'
  · rintro rfl
    exact .unreadable hr hd hn

lemma rewrites_directory_iff {entries : List DirEntry} (hr : rw.rewriteEntry e = (some d, err))
    (hd : d.type = .directory) (hn : rw.readDirEntries d.objectID = some entries) :
    Rewrites rw share e o ↔ ∃ l, Lists rw share entries l ∧ o = rw.finish d l := by
  constructor
  · intro h
    cases h with
    | dropped hr' => rw [hr] at hr'; cases hr'
    | leaf hr' hd' => rw [hr] at hr'; cases hr'; exact absurd hd hd'
    | unreadable hr' _ hn' => rw [hr] at hr'; cases hr'; rw [hn] at hn'; cases hn'
    | directory hr' _ hn' hl =>
      rw [hr] at hr'
      cases hr'
      rw [hn] at hn'
      cases hn'
      exact ⟨_, hl, rfl⟩
  · rintro ⟨l, hl, rfl⟩
    exact .directory hr hd hn hl

lemma callback_eq {r : Option DirEntry} (h : (rw.rewriteEntry e).1 = r) :
    rw.rewriteEntry e = (r, (rw.rewriteEntry e).2) := Prod.ext h rfl

end Inversion

section Plain

mutual

lemma Rewrites.unique {e : DirEntry} {o o' : Outcome} (h : Rewrites rw false e o)
    (h' : Rewrites rw false e o') : o = o' := by
  match h with
  | .dropped hr => exact ((rewrites_dropped_iff hr).mp h').symm
  | .leaf hr hd => exact ((rewrites_leaf_iff hr hd).mp h').symm
  | .unreadable hr hd hn => exact ((rewrites_unreadable_iff hr hd hn).mp h').symm
  | .directory hr hd hn hl =>
    obtain ⟨l', hl', rfl⟩ := (rewrites_directory_iff hr hd hn).mp h'
    rw [Lists.unique hl hl']

lemma Lists.unique {es : List DirEntry} {l l' : Listing} (h : Lists rw false es l)
    (h' : Lists rw false es l') : l = l' := by
  match h with
  | .nil => cases h'; rfl
  | .inline hc hf hp hl =>
    cases h' with
    | inline hc' _ _ hl' => rw [Rewrites.unique hc hc', Lists.unique hl hl']
    | inlineStops hc' hs => rw [← Rewrites.unique hc hc'] at hs; exact absurd hs (by simp [hf, hp])
    | shared hs => cases hs
  | .inlineStops hc hs =>
    cases h' with
    | inline hc' hf hp => rw [Rewrites.unique hc hc'] at hs; exact absurd hs (by simp [hf, hp])
    | inlineStops hc' => rw [Rewrites.unique hc hc']
    | shared hs => cases hs
  | .shared hs _ _ => cases hs

end

mutual

lemma Rewrites.share {e : DirEntry} {o : Outcome} (share : Bool) (h : Rewrites rw false e o) :
    Rewrites rw share e o := by
  match h with
  | .dropped hr => exact .dropped hr
  | .leaf hr hd => exact .leaf hr hd
  | .unreadable hr hd ho => exact .unreadable hr hd ho
  | .directory hr hd ho hl => exact .directory hr hd ho (Lists.share share hl)

lemma Lists.share {es : List DirEntry} {l : Listing} (share : Bool) (h : Lists rw false es l) :
    Lists rw share es l := by
  match h with
  | .nil => exact .nil
  | .inline hc hf hp hl => exact .inline (Rewrites.share share hc) hf hp (Lists.share share hl)
  | .inlineStops hc hs => exact .inlineStops (Rewrites.share share hc) hs
  | .shared hs _ _ => cases hs

end

lemma exists_lists {es : List DirEntry} (h : ∀ c ∈ es, ∃ o, Rewrites rw false c o) :
    ∃ l, Lists rw false es l := by
  induction es with
  | nil => exact ⟨_, .nil⟩
  | cons c rest ih =>
    obtain ⟨o, ho⟩ := h c mem_cons_self
    obtain ⟨l, hl⟩ := ih fun c' hc' => h c' (mem_cons_of_mem _ hc')
    by_cases hs : o = .failed ∨ o = .panicked
    · exact ⟨_, .inlineStops ho hs⟩
    · rw [not_or] at hs
      exact ⟨_, .inline ho hs.1 hs.2 hl⟩

lemma Summarised.exists_rewrites {e : DirEntry} (h : Summarised rw e) :
    ∃ o, Rewrites rw false e o := by
  induction h with
  | dropped hr => exact ⟨_, .dropped (callback_eq hr)⟩
  | leaf hr hd => exact ⟨_, .leaf (callback_eq hr) hd⟩
  | unreadable hr hd ho => exact ⟨_, .unreadable (callback_eq hr) hd ho⟩
  | directory hr hd ho _ _ ih =>
    obtain ⟨l, hl⟩ := exists_lists ih
    exact ⟨_, .directory (callback_eq hr) hd ho hl⟩

end Plain

section Panics

lemma Lists.ne_panicked {share : Bool} {es : List DirEntry} {l : Listing}
    (h : Lists rw share es l)
    (hes : ∀ c ∈ es, ∀ o, Rewrites rw share c o → o ≠ .panicked) : l ≠ .panicked := by
  induction es generalizing l with
  | nil => cases h; simp
  | cons c rest ih =>
    have hrest := fun l hl => ih (l := l) hl fun c' hc' => hes c' (mem_cons_of_mem _ hc')
    have hc := hes c mem_cons_self
    cases h with
    | inline ho _ _ hl => exact addInline_ne_panicked (hc _ ho) (hrest _ hl)
    | inlineStops ho _ => exact addInline_ne_panicked (hc _ ho) (by simp)
    | shared _ ho hl => exact addShared_ne_panicked (hc _ ho) (hrest _ hl)

lemma Summarised.ne_panicked {share : Bool} {e : DirEntry} (h : Summarised rw e) {o : Outcome}
    (ho : Rewrites rw share e o) : o ≠ .panicked := by
  induction h generalizing o with
  | dropped hr =>
    rw [(rewrites_dropped_iff (callback_eq hr)).mp ho]
    exact ofCallback_ne_panicked _
  | leaf hr hd =>
    rw [(rewrites_leaf_iff (callback_eq hr) hd).mp ho]
    simp
  | unreadable hr hd hn =>
    rw [(rewrites_unreadable_iff (callback_eq hr) hd hn).mp ho]
    exact ofCallback_ne_panicked _
  | directory hr hd hn hsum _ ih =>
    obtain ⟨l, hl, rfl⟩ := (rewrites_directory_iff (callback_eq hr) hd hn).mp ho
    exact finish_ne_panicked hsum (hl.ne_panicked fun c hc o ho => ih c hc ho)

end Panics

section Failures

lemma Summarised.entries {e d : DirEntry} {err : Bool} {entries : List DirEntry}
    (h : Summarised rw e) (hr : rw.rewriteEntry e = (some d, err)) (hd : d.type = .directory)
    (hn : rw.readDirEntries d.objectID = some entries) : ∀ c ∈ entries, Summarised rw c := by
  cases h with
  | dropped hr' => simp [hr] at hr'
  | leaf hr' hd' => simp only [hr, some.injEq] at hr'; exact absurd (hr' ▸ hd) hd'
  | unreadable hr' _ hn' =>
    simp only [hr, some.injEq] at hr'
    rw [← hr', hn] at hn'
    cases hn'
  | directory hr' _ hn' _ hes =>
    simp only [hr, some.injEq] at hr'
    rw [← hr', hn] at hn'
    cases hn'
    exact hes

lemma Summarised.reached {root c : DirEntry} (h : Summarised rw root) (hc : Reached rw root c) :
    Summarised rw c := by
  induction hc with
  | refl => exact h
  | entry _ hr hd hn hm ih => exact ih.entries hr hd hn _ hm

lemma Reached.head {e d c c' : DirEntry} {err : Bool} {entries : List DirEntry}
    (hr : rw.rewriteEntry e = (some d, err)) (hd : d.type = .directory)
    (hn : rw.readDirEntries d.objectID = some entries) (hc : c ∈ entries)
    (h : Reached rw c c') : Reached rw e c' := by
  induction h with
  | refl => exact .entry .refl hr hd hn hc
  | entry _ hr' hd' hn' hm ih => exact .entry ih hr' hd' hn' hm

lemma Lists.failed_of_mem {es : List DirEntry} {l : Listing} (h : Lists rw false es l)
    (hes : ∀ c ∈ es, ∀ o, Rewrites rw false c o → o ≠ .panicked) {c : DirEntry} (hc : c ∈ es)
    (hf : Rewrites rw false c .failed) : l = .failed := by
  induction es generalizing l with
  | nil => cases hc
  | cons c' rest ih =>
    have hp := hes c' mem_cons_self
    cases h with
    | inline ho hne _ hl =>
      rcases mem_cons.mp hc with rfl | hc
      · exact absurd (ho.unique hf) hne
      · rw [ih hl (fun c'' hc'' => hes c'' (mem_cons_of_mem _ hc'')) hc]
        exact addInline_failed (hp _ ho)
    | inlineStops ho hs => rw [hs.resolve_right (hp _ ho)]; rfl
    | shared hs => cases hs

lemma Summarised.failed_of_reached {root c : DirEntry} (h : Summarised rw root)
    (hc : Reached rw root c) (hf : Rewrites rw false c .failed) : Rewrites rw false root .failed := by
  induction hc with
  | refl => exact hf
  | @entry c d err entries c' hc hr hd hn hm ih =>
    refine ih ?_
    have hes := (h.reached hc).entries hr hd hn
    obtain ⟨l, hl⟩ := exists_lists fun c hc => (hes c hc).exists_rewrites
    have hl' := hl.failed_of_mem (fun c hc o ho => (hes c hc).ne_panicked ho) hm hf
    subst hl'
    exact .directory hr hd hn hl

lemma Summarised.not_fails {root : DirEntry} {o : Outcome} (h : Summarised rw root)
    (ho : Rewrites rw false root o) (hne : o ≠ .failed) : ¬ Fails rw root := by
  rintro ⟨c, hc, hf⟩
  exact hne (ho.unique (h.failed_of_reached hc hf))

mutual

lemma Rewrites.plain {share : Bool} {e : DirEntry} {o : Outcome} (h : Rewrites rw share e o)
    (hf : ¬ Fails rw e) : Rewrites rw false e o := by
  match h with
  | .dropped hr => exact .dropped hr
  | .leaf hr hd => exact .leaf hr hd
  | .unreadable hr hd hn => exact .unreadable hr hd hn
  | .directory hr hd hn hl =>
    refine .directory hr hd hn (Lists.plain hl fun c hc hfc => hf ?_)
    obtain ⟨c', hc', hfail⟩ := hfc
    exact ⟨c', .head hr hd hn hc hc', hfail⟩

lemma Lists.plain {share : Bool} {es : List DirEntry} {l : Listing} (h : Lists rw share es l)
    (hf : ∀ c ∈ es, ¬ Fails rw c) : Lists rw false es l := by
  match h with
  | .nil => exact .nil
  | .inline hc hfail hp hl =>
    have hrest := Lists.plain hl fun c' hc' => hf c' (mem_cons_of_mem _ hc')
    exact .inline (Rewrites.plain hc (hf _ mem_cons_self)) hfail hp hrest
  | .inlineStops hc hs => exact .inlineStops (Rewrites.plain hc (hf _ mem_cons_self)) hs
  | .shared (o := o) (l := l) _ hc hl =>
    have hrest := Lists.plain hl fun c' hc' => hf c' (mem_cons_of_mem _ hc')
    have hc' := Rewrites.plain hc (hf _ mem_cons_self)
    have hfail : o ≠ .failed := by
      rintro rfl
      exact hf _ mem_cons_self ⟨_, .refl, hc'⟩
    rw [addShared_of_ne hfail]
    by_cases hp : o = .panicked
    · subst hp
      exact .inlineStops hc' (.inr rfl)
    · exact .inline hc' hfail hp hrest

end

end Failures

section OneFile

def oneFile : DirEntry := ⟨[97], .file, 5, 7, [1], none⟩

def oneFileRoot : DirEntry := ⟨[114], .directory, 3, 0, [2], some {}⟩

def oneFileRewriter (r : Option DirEntry × Bool) : Rewriter where
  rewriteEntry e := if e.type = .directory then (some e, false) else r
  onDirectoryReadFailure _ := (none, true)
  readDirEntries oid := if oid = [2] then some [oneFile] else none
  writeDirManifest _ _ := some [3]

lemma oneFileRoot_kept : Rewrites (oneFileRewriter (some oneFile, false)) false oneFileRoot
    ((oneFileRewriter (some oneFile, false)).finish oneFileRoot (.kept {oneFile})) :=
  .directory rfl rfl rfl
    (.inline (.leaf rfl (by decide)) (by decide) (by decide) .nil : Lists _ false [oneFile] _)

end OneFile

end Warphold.Rewriting
