import Warphold.Lib.Chunks
import Warphold.Snapshot.Upload

/-!
# Uploaded snapshots read back as their source

The parts of a file are the file, whatever their size, unless the size is zero: the division then
panics.
-/

namespace Warphold.Upload

open List Source

variable {u : Uploader} {path : List Str} {prev : List Snap} {s c : Source} {cs : List Source}
  {n : Str} {md : Metadata} {k : Kind}

section Parts

lemma flatten_fileParts (content : Str) (k n : ℕ) :
    (fileParts content k n).flatten = content := by
  have hfull : ∀ i ∈ range n, uploadFileData content (i * k)
      (if i = n then none else some k) = Chunks.slice content (i * k) k := by
    intro i hi
    rw [if_neg (mem_range.mp hi).ne]
    rfl
  rw [fileParts, range_succ, map_append, flatten_append,
    map_congr_left hfull, Chunks.flatten_slices]
  simp [uploadFileData]

lemma uploadFileInternal_of_ne_zero {chunk : Option Int} {c : Str}
    (h : chunk = some 0 → md.size ≤ 0) :
    uploadFileInternal chunk n md c = some (.leaf n false { md with size := c.length } c) := by
  have hlen : ∀ k m, ((fileParts c k m).map length).sum = c.length := by
    intro k m
    rw [← length_flatten, flatten_fileParts]
  simp only [uploadFileInternal]
  split_ifs with h1 h2
  · simp [uploadFileData]
  · refine absurd ?_ h1
    rcases chunk with _ | v
    · exact .inl (by decide)
    · simp only [Option.getD_some] at h2 ⊢
      subst h2
      exact .inr (h rfl)
  · rw [hlen, flatten_fileParts]

end Parts

section Lookup

lemma Source.child_of_mem (hn : (cs.map name).Nodup) (hc : c ∈ cs) :
    (dir n md cs).child c.name = some c := by
  simp only [child]
  induction cs with
  | nil => cases hc
  | cons c' rest ih =>
    rw [map_cons, nodup_cons] at hn
    rcases mem_cons.mp hc with rfl | hc
    · simp
    · have hne : c'.name ≠ c.name := fun h => hn.1 (h ▸ mem_map_of_mem hc)
      rw [find?_cons_of_neg (by simpa using hne)]
      exact ih hn.2 hc

lemma find_name_perm {l l' : List Snap} (h : l.Perm l') (hn : (l'.map Snap.name).Nodup) (n : Str) :
    l.find? (fun c => c.name == n) = l'.find? fun c => c.name == n := by
  rcases hf : l'.find? fun c => c.name == n with _ | c
  · rw [hf, find?_eq_none]
    rw [find?_eq_none] at hf
    exact fun c hc => hf c (h.mem_iff.mp hc)
  · rcases hf' : l.find? fun c => c.name == n with _ | c'
    · rw [find?_eq_none] at hf'
      exact absurd (find?_some hf) (hf' c (h.mem_iff.mpr (mem_of_find?_eq_some hf)))
    · have hc := mem_of_find?_eq_some hf
      have hc' := h.mem_iff.mp (mem_of_find?_eq_some hf')
      have he := find?_some hf
      have he' := find?_some hf'
      simp only [beq_iff_eq] at he he'
      rw [hf, hf', inj_on_of_nodup_map hn hc' hc (he'.trans he.symm)]

def ReadsAs (s : Source) (e : Snap) : Prop :=
  e.name = s.name ∧ ∀ p, e.readAt p = s.readAt p

lemma names_of_readsAs {es : List Snap} (h : Forall₂ ReadsAs cs es) :
    es.map Snap.name = cs.map name := by
  induction h with
  | nil => rfl
  | cons hc _ ih => rw [map_cons, map_cons, hc.1, ih]

lemma find_of_readsAs {es : List Snap} (h : Forall₂ ReadsAs cs es)
    (n : Str) (p : List Str) :
    ((es.find? fun e => e.name == n).bind (Snap.at p)).map Snap.view =
      ((cs.find? fun c => c.name == n).bind (Source.at p)).map Source.view := by
  induction h with
  | nil => rfl
  | @cons c e cs es hc _ ih =>
    by_cases hname : c.name = n
    · rw [find?_cons_of_pos (by simpa [hc.1] using hname),
        find?_cons_of_pos (by simpa using hname)]
      exact hc.2 p
    · rw [find?_cons_of_neg (by simpa [hc.1] using hname),
        find?_cons_of_neg (by simpa using hname)]
      exact ih

lemma readsAs_dir {added entries : List Snap}
    (h : Forall₂ ReadsAs cs added) (hperm : entries.Perm added)
    (hn : (cs.map name).Nodup) (oid : Str) :
    ReadsAs (.dir n md cs) (.dir n md oid entries) := by
  refine ⟨rfl, fun p => ?_⟩
  rcases p with _ | ⟨m, p⟩
  · rfl
  · have hfind := find_name_perm hperm (by rw [names_of_readsAs h]; exact hn) m
    simp only [Snap.readAt, Source.readAt, Snap.at, Source.at, Snap.child, Source.child, hfind]
    exact find_of_readsAs h m p

lemma readsAs_leaf {md' : Metadata} {c : Str} :
    ReadsAs (.leaf n k md c) (.leaf n (decide (k = .symlink)) md' c) := by
  refine ⟨rfl, fun p => ?_⟩
  rcases p with _ | ⟨m, p⟩
  · cases k <;> rfl
  · rfl

end Lookup

section Hypotheses

/-- Entries of previous snapshots that look like the source's entry at their path are it. -/
def Agree (looks : Kind → Metadata → Snap → Prop) (prev : List Snap) (pre : List Str) (s : Source) :
    Prop :=
  ∀ q n k md c, s.at q = some (.leaf n k md c) →
    ∀ d ∈ prev, ∀ ent, d.at (pre ++ q) = some ent → looks k md ent → ent.objectID = c

/-- Entries of equal name, modification time, mode, owner and size have equal content. -/
def SameWhenEqual (prev : List Snap) (s : Source) : Prop :=
  Agree (fun k md ent => ∃ n oid, ent = .leaf n (decide (k = .symlink)) md oid) prev [] s

/-- Streaming files have the content of previous entries that differ from them at most in size. -/
def StreamsAgree (prev : List Snap) (s : Source) : Prop :=
  Agree (fun k md ent => k = .streamingFile ∧ metadataEquals k md ent) prev [] s

/-- No directory of a tree has two entries of one name. -/
def DistinctNames (s : Source) : Prop :=
  ∀ q n md cs, s.at q = some (.dir n md cs) → (cs.map Source.name).Nodup

/-- Where the policy's size for parallel uploads is zero, files are empty. -/
def PartsSized (u : Uploader) (path : List Str) (s : Source) : Prop :=
  ∀ q n md c, s.at q = some (.leaf n .file md c) →
    u.parallelUploadAboveSize (path ++ q) = some 0 → md.size ≤ 0

structure Ready (u : Uploader) (path : List Str) (prev : List Snap) (pre : List Str) (s : Source) :
    Prop where
  names : DistinctNames s
  parts : PartsSized u path s
  agree : Agree (fun k md ent => metadataEquals k md ent) prev pre s

lemma agree_of_sameWhenEqual (h : SameWhenEqual prev s)
    (hs : StreamsAgree prev s) : Agree (fun k md ent => metadataEquals k md ent) prev [] s := by
  intro q n k md c hq d hd ent hent hlooks
  by_cases hk : k = .streamingFile
  · exact hs q n k md c hq d hd ent hent ⟨hk, hlooks⟩
  · refine h q n k md c hq d hd ent hent ?_
    rcases ent with ⟨n', symlink, md', oid⟩ | _
    · simp only [metadataEquals, Bool.and_eq_true, beq_iff_eq, Bool.or_eq_true, decide_eq_true_eq, hk,
        false_or] at hlooks
      obtain ⟨⟨⟨⟨hsym, hmod⟩, hperm⟩, howner⟩, hsize⟩ := hlooks
      refine ⟨n', oid, ?_⟩
      rcases md with ⟨a, b, c, d⟩
      rcases md' with ⟨a', b', c', d'⟩
      simp only at hmod hperm howner hsize
      subst hmod hperm howner hsize hsym
      rfl
    · simp [metadataEquals] at hlooks

lemma Source.at_child (hn : (cs.map name).Nodup) (hc : c ∈ cs) (q : List Str) :
    (Source.dir n md cs).at (c.name :: q) = c.at q := by
  rw [Source.at, Source.child_of_mem hn hc]
  rfl

lemma Ready.child (h : Ready u path prev [] (.dir n md cs)) (hc : c ∈ cs) :
    Ready u (path ++ [c.name]) prev [c.name] c := by
  have hn := h.names [] n md cs rfl
  refine ⟨fun q => ?_, fun q => ?_, fun q => ?_⟩
  · rw [← at_child hn hc]
    exact h.names _
  · rw [← at_child hn hc, append_assoc]
    exact h.parts _
  · rw [← at_child hn hc]
    exact h.agree _

lemma Ready.mono {pre : List Str} {prev' : List Snap} (h : Ready u path prev pre s)
    (hsub : ∀ d ∈ prev', d ∈ prev) : Ready u path prev' pre s :=
  ⟨h.names, h.parts, fun q n k md c hq d hd => h.agree q n k md c hq d (hsub d hd)⟩

end Hypotheses

section Previous

lemma mem_of_mem_lastOfEach {d : Snap} {dirs : List Snap} (h : d ∈ lastOfEach dirs) : d ∈ dirs := by
  induction dirs with
  | nil => cases h
  | cons d' rest ih =>
    simp only [lastOfEach] at h
    split_ifs at h
    · exact mem_cons_of_mem _ (ih h)
    · rcases mem_cons.mp h with rfl | h
      · exact mem_cons_self
      · exact mem_cons_of_mem _ (ih h)

lemma UniqueDirectories.mem {dirs result : List Snap} (h : UniqueDirectories dirs result) :
    ∀ d ∈ result, d ∈ dirs := by
  intro d hd
  simp only [UniqueDirectories] at h
  split_ifs at h
  · exact h ▸ hd
  · exact mem_of_mem_lastOfEach (h.mem_iff.mp hd)

lemma exists_uniqueDirectories (dirs : List Snap) : ∃ result, UniqueDirectories dirs result := by
  simp only [UniqueDirectories]
  split_ifs
  · exact ⟨_, rfl⟩
  · exact ⟨_, .refl _⟩

lemma exists_prevDirs (prev : List Snap) (s : Source) : ∃ result, PrevDirs prev s result := by
  cases s with
  | leaf => exact ⟨_, rfl⟩
  | dir n => exact exists_uniqueDirectories _

lemma mem_childDirectories {e : Snap} (h : e ∈ childDirectories prev n) : ∃ d ∈ prev, d.child n = some e := by
  rw [childDirectories, mem_filter, mem_filterMap] at h
  exact h.1

end Previous

section Runs

def Source.key : Source → List Str
  | .leaf n _ _ _ => [n]
  | .dir _ _ _ => []

lemma Ready.prevDirs {prev' : List Snap} (h : Ready u path prev [c.name] c) (hp : PrevDirs prev c prev') :
    Ready u path prev' c.key c := by
  cases c with
  | leaf n k md c =>
    simp only [PrevDirs] at hp
    subst hp
    exact h
  | dir n md cs =>
    refine ⟨h.names, h.parts, fun q m k md' c hq e he ent hent => ?_⟩
    obtain ⟨d, hd, hchild⟩ := mem_childDirectories (hp.mem e he)
    refine h.agree q m k md' c hq d hd ent ?_
    simpa [Snap.at, name, hchild, key] using hent

lemma readsAs_cached {c : Str} {ent : Snap} (h : Ready u path prev [n] (.leaf n k md c))
    (hent : findCachedEntry prev n k md = some ent) :
    ReadsAs (.leaf n k md c) (newCachedDirEntry n k md ent) := by
  have hlooks := find?_some hent
  obtain ⟨d, hd, hchild⟩ := mem_filterMap.mp (mem_of_find?_eq_some hent)
  have hoid := h.agree [] n k md c rfl d hd ent (by simp [Snap.at, hchild]) hlooks
  rcases ent with ⟨n', symlink, md', oid⟩ | _
  · simp only [Snap.objectID] at hoid
    subst hoid
    have hsym : symlink = decide (k = .symlink) := by
      simp only [metadataEquals, Bool.and_eq_true, beq_iff_eq] at hlooks
      exact hlooks.1.1.1.1
    simp only [newCachedDirEntry, hsym]
    split_ifs
    · exact readsAs_leaf
    · exact readsAs_leaf
  · simp [metadataEquals] at hlooks

mutual

lemma Uploads.readsAs {path : List Str} {prev : List Snap} {s : Source} {r : Option Snap}
    (h : Uploads u path prev s r) (hs : Ready u path prev s.key s) :
    ∃ e, r = some e ∧ ReadsAs s e := by
  match h with
  | .cached hent => exact ⟨_, rfl, readsAs_cached hs hent⟩
  | .symlink => exact ⟨_, rfl, readsAs_leaf⟩
  | .streamingFile => exact ⟨_, rfl, readsAs_leaf⟩
  | .file =>
    have hsize := hs.parts [] _ _ _ rfl
    rw [append_nil] at hsize
    exact ⟨_, uploadFileInternal_of_ne_zero hsize, readsAs_leaf⟩
  | .dir hprev hall hperm =>
    obtain ⟨es, hes, hreads⟩ := UploadsAll.readsAs hall fun c hc => (hs.mono hprev.mem).child hc
    cases hes
    exact ⟨_, rfl, readsAs_dir hreads hperm (hs.names [] _ _ _ rfl) _⟩
  | .dirPanics hprev hall =>
    obtain ⟨es, hes, -⟩ := UploadsAll.readsAs hall fun c hc => (hs.mono hprev.mem).child hc
    cases hes

lemma UploadsAll.readsAs {path : List Str} {prev : List Snap} {cs : List Source}
    {r : Option (List Snap)} (h : UploadsAll u path prev cs r)
    (hcs : ∀ c ∈ cs, Ready u (path ++ [c.name]) prev [c.name] c) :
    ∃ es, r = some es ∧ Forall₂ ReadsAs cs es := by
  match h with
  | .nil => exact ⟨_, rfl, .nil⟩
  | .cons hprev hc hall =>
    obtain ⟨e, rfl, he⟩ := Uploads.readsAs hc ((hcs _ mem_cons_self).prevDirs hprev)
    obtain ⟨es, rfl, hes⟩ := UploadsAll.readsAs hall fun c hc => hcs c (mem_cons_of_mem _ hc)
    exact ⟨_, rfl, .cons he hes⟩

end

mutual

lemma exists_uploads : ∀ (s : Source) (path : List Str) (prev : List Snap),
    ∃ r, Uploads u path prev s r
  | .leaf _ .file _ _, _, _ => ⟨_, .file⟩
  | .leaf _ .streamingFile _ _, _, _ => ⟨_, .streamingFile⟩
  | .leaf _ .symlink _ _, _, _ => ⟨_, .symlink⟩
  | .dir n md cs, path, prev => by
    obtain ⟨prev', hprev⟩ := exists_uniqueDirectories prev
    obtain ⟨_ | es, hes⟩ := exists_uploadsAll cs path prev'
    · exact ⟨_, .dirPanics hprev hes⟩
    · exact ⟨_, .dir hprev hes (.refl _)⟩

lemma exists_uploadsAll : ∀ (cs : List Source) (path : List Str) (prev : List Snap),
    ∃ r, UploadsAll u path prev cs r
  | [], _, _ => ⟨_, .nil⟩
  | c :: cs, path, prev => by
    obtain ⟨prev', hprev⟩ := exists_prevDirs prev c
    obtain ⟨r, hr⟩ := exists_uploads c (path ++ [c.name]) prev'
    obtain ⟨rs, hrs⟩ := exists_uploadsAll cs path prev
    exact ⟨_, .cons hprev hr hrs⟩

end

end Runs

section Root

lemma exists_uploaded (hroot : s.isRoot) (prev : List Snap) :
    ∃ r, Uploaded u prev s r := by
  rcases s with ⟨n, k, md, c⟩ | ⟨n, md, cs⟩
  · cases k with
    | file => exact ⟨_, rfl⟩
    | streamingFile | symlink => simp [isRoot] at hroot
  · exact exists_uploads _ _ _

lemma Uploaded.readsAs {r : Option Snap}
    (h : Uploaded u prev s r) (hs : Ready u [] prev [] s) : ∃ e, r = some e ∧ ReadsAs s e := by
  rcases s with ⟨n, k, md, c⟩ | ⟨n, md, cs⟩
  · cases k with
    | file =>
      have hsize : u.parallelUploadAboveSize [] = some 0 → md.size ≤ 0 := hs.parts [] _ _ _ rfl
      simp only [Uploaded] at h
      rw [uploadFileInternal_of_ne_zero hsize] at h
      exact ⟨_, h, readsAs_leaf⟩
    | streamingFile | symlink => exact h.elim
  · exact Uploads.readsAs h hs

end Root

section OneLeaf

def oneLeaf (k : Kind) (size : Int) : Source :=
  .dir [114] ⟨1, 493, (0, 0), 0⟩ [.leaf [97] k ⟨5, 420, (0, 0), size⟩ [7, 8, 9]]

def oneLeafSnap (content : Str) : Snap :=
  .dir [114] ⟨1, 493, (0, 0), 0⟩ [1] [.leaf [97] false ⟨5, 420, (0, 0), content.length⟩ content]

def sized (v : Option Int) : Uploader := ⟨fun _ => v, fun _ => [2]⟩

lemma at_oneLeaf {size : Int} {q : List Str} {t : Source}
    (h : (oneLeaf k size).at q = some t) :
    q = [] ∧ t = oneLeaf k size ∨
      q = [[97]] ∧ t = .leaf [97] k ⟨5, 420, (0, 0), size⟩ [7, 8, 9] := by
  rcases q with _ | ⟨m, q⟩
  · exact .inl ⟨rfl, (Option.some.inj h).symm⟩
  · by_cases hm : m = [97]
    · subst hm
      rcases q with _ | ⟨m', q⟩
      · exact .inr ⟨rfl, (Option.some.inj h).symm⟩
      · cases h
    · have hchild : (oneLeaf k size).child m = none := by
        simp [oneLeaf, Source.child, Source.name, Ne.symm hm]
      simp [Source.at, hchild] at h

lemma distinctNames_oneLeaf (k : Kind) (size : Int) : DistinctNames (oneLeaf k size) := by
  intro q n md cs h
  rcases at_oneLeaf h with ⟨-, ht⟩ | ⟨-, ht⟩
  · cases ht
    simp
  · cases ht

lemma agree_oneLeaf {looks : Kind → Metadata → Snap → Prop} {size : Int} {content : Str}
    (h : looks k ⟨5, 420, (0, 0), size⟩ (.leaf [97] false ⟨5, 420, (0, 0), content.length⟩ content) →
      content = [7, 8, 9]) : Agree looks [oneLeafSnap content] [] (oneLeaf k size) := by
  intro q n k' md c hq d hd ent hent hlooks
  rw [mem_singleton] at hd
  subst hd
  rcases at_oneLeaf hq with ⟨-, ht⟩ | ⟨rfl, ht⟩
  · cases ht
  · cases ht
    cases hent
    exact h hlooks

lemma Uploads.single {c : Str} {r : Option Snap} (h : Uploads u [n] prev (.leaf n k md c) r) :
    UploadsAll u [] prev [.leaf n k md c] (r.bind fun e => some [e]) := by
  have hprev : PrevDirs prev (.leaf n k md c) prev := rfl
  exact UploadsAll.cons hprev h .nil

end OneLeaf

end Warphold.Upload
