import Warphold.Restore.LocalOutput

/-!
# A restore stays in its target

If every name is `Plain`, joining names into a path is appending them (`pathAt_eq`), so every entry
has a path of its own below the target, and a link's path leads to no other entry
(`not_link_of_prefix`).
-/

namespace Warphold.Restore

open List Strings

section Clean

variable {cs : List Str} {name : Str}

lemma cleanStack_plain (rooted : Bool) : ∀ (stack cs : List Str), (∀ c ∈ cs, Plain c) →
    cleanStack rooted stack cs = stack.reverse ++ cs
  | stack, [], _ => by simp [cleanStack]
  | stack, c :: cs, h => by
    obtain ⟨hne, -, hdot, hdotdot⟩ := h c (mem_cons_self)
    unfold cleanStack
    rw [if_neg (by simp [hne, hdot]), if_neg hdotdot,
      cleanStack_plain rooted (c :: stack) cs fun x hx => h x (mem_cons_of_mem c hx)]
    simp

section Plain

variable (hne : cs ≠ []) (h : ∀ c ∈ cs, Plain c)
include hne h

lemma split_join : split (join cs [slash]) slash = cs :=
  splitOn_intercalate slash (fun c hc => (h c hc).2.1) hne

lemma split_render : split (render cs) slash = [] :: cs := by
  have hrender : render cs = join ([] :: cs) [slash] := by
    obtain ⟨c, rest, rfl⟩ := exists_cons_of_ne_nil hne
    simp [render, join]
  rw [hrender]
  refine splitOn_intercalate slash (fun c hc => ?_) (by simp)
  rcases mem_cons.mp hc with rfl | hc
  · simp
  · exact (h c hc).2.1

lemma join_ne_nil : join cs [slash] ≠ [] := by
  intro hc
  have hs := split_join hne h
  rw [hc] at hs
  have hcs : cs = [[]] := hs ▸ rfl
  exact (h [] (by simp [hcs])).1 rfl

lemma head_join : (join cs [slash]).head? ≠ some slash := by
  obtain ⟨c, rest, rfl⟩ := exists_cons_of_ne_nil hne
  obtain ⟨hcne, hslash, -⟩ := h c (mem_cons_self)
  obtain ⟨b, c', rfl⟩ := exists_cons_of_ne_nil hcne
  have hb : b ≠ slash := fun hc => hslash (by simp [hc])
  rcases rest with _ | ⟨d, rest⟩
  · simpa [join] using hb
  · simpa [join, intercalate_cons_cons] using hb

lemma clean_join : clean (join cs [slash]) = join cs [slash] := by
  unfold clean
  simp only [head_join hne h, decide_false, split_join hne h, cleanStack_plain false [] cs h,
    reverse_nil, nil_append, if_false, join_ne_nil hne h]

lemma clean_render : clean (render cs) = render cs := by
  have hhead : (render cs).head? = some slash := rfl
  have hstack : cleanStack true [] ([] :: cs) = cs := by
    rw [cleanStack, if_pos (.inl rfl), cleanStack_plain true [] cs h]
    rfl
  unfold clean
  simp only [hhead, decide_true, split_render hne h, hstack, if_true]
  rw [if_neg (by simp)]
  rfl

end Plain

lemma join_concat (hne : cs ≠ []) (name : Str) :
    join (cs ++ [name]) [slash] = join cs [slash] ++ slash :: name := by
  induction cs with
  | nil => exact absurd rfl hne
  | cons c rest ih =>
    rcases rest with _ | ⟨d, rest⟩
    · simp [join, intercalate_cons_cons]
    · have := ih (by simp)
      simp only [join, cons_append, intercalate_cons_cons] at this ⊢
      rw [this]
      simp

lemma joinPath_plain (h : ∀ c ∈ cs, Plain c) (hname : Plain name) :
    joinPath (join cs [slash]) name = join (cs ++ [name]) [slash] := by
  have hall : ∀ c ∈ cs ++ [name], Plain c := by
    intro c hc
    rcases mem_append.mp hc with hc | hc
    · exact h c hc
    · exact mem_singleton.mp hc ▸ hname
  have hclean := clean_join (by simp) hall
  unfold joinPath
  by_cases hcs : cs = []
  · subst hcs
    have hnil : join [] [slash] = [] := rfl
    rw [if_neg fun hc => hname.1 hc.2, if_pos hnil]
    simpa [join] using hclean
  · rw [if_neg fun hc => hname.1 hc.2, if_neg (join_ne_nil hcs h), if_neg hname.1, ← join_concat hcs,
      hclean]

lemma render_append (hne : cs ≠ []) {ds : List Str} (hds : ds ≠ []) :
    render cs ++ slash :: join ds [slash] = render (cs ++ ds) := by
  induction ds using reverseRecOn with
  | nil => exact absurd rfl hds
  | append_singleton ds d ih =>
    by_cases hd : ds = []
    · subst hd
      simp only [nil_append, render, join_concat hne]
      simp [join]
    · have hcd : cs ++ ds ≠ [] := by simp [hne]
      rw [join_concat hd, ← append_assoc cs ds [d]]
      have := ih hd
      unfold render at this ⊢
      rw [join_concat hcd, ← cons_append, ← cons_append, ← this]
      simp

lemma fullPath_plain {target ds : List Str} (hne : target ≠ []) (ht : ∀ c ∈ target, Plain c)
    (hds : ∀ c ∈ ds, Plain c) : fullPath target (join ds [slash]) = target ++ ds := by
  have hall : ∀ c ∈ target ++ ds, Plain c := by
    intro c hc
    rcases mem_append.mp hc with hc | hc
    · exact ht c hc
    · exact hds c hc
  have hjoin : joinPath (render target) (join ds [slash]) = render (target ++ ds) := by
    have hr : render target ≠ [] := by simp [render]
    unfold joinPath
    rw [if_neg fun hc => hr hc.1, if_neg hr]
    by_cases hd : ds = []
    · subst hd
      rw [if_pos (by simp [join]), append_nil, clean_render hne ht]
    · rw [if_neg (join_ne_nil hd hds), render_append hne hd, clean_render (by simp [hne]) hall]
  unfold fullPath
  rw [hjoin, split_render (by simp [hne]) hall, cleanStack, if_pos (.inl rfl),
    cleanStack_plain true [] _ hall]
  rfl

end Clean

/-- Directories all the way down whose names are plain, each once, with no link in the place of a
placeholder. -/
structure SafeTree (root : Entry) : Prop where
  dir : ∃ name es, root = .dir name es
  plain : ∀ i p e, root.at (i :: p) = some e → Plain e.name
  distinct : ∀ i k p e e', root.at (i :: p) = some e → root.at (k :: p) = some e' →
    e.name = e'.name → i = k
  links : ∀ p name target, root.at p = some (.symlink name target) → ¬shallowEntrySuffix <:+ name

/-- The target's parents are there, no placeholder of the target is, and the root is restored itself. -/
structure SafeTarget (l : Local) : Prop where
  parents : ∀ q, q <+: l.target → q ≠ l.target → l.present q = true
  placeholder : l.present (suffixed l.target) = false
  depth : 0 ≤ l.restoreDirEntryAtDepth

section Names

variable {root : Entry}

def nameAt (root : Entry) (p : Pos) : Str := ((root.at p).map Entry.name).getD []

def namesAt (root : Entry) : Pos → Path
  | [] => []
  | i :: p => namesAt root p ++ [nameAt root (i :: p)]

variable {p : Pos} {e : Entry}

lemma at_parent {i : Nat} (h : root.at (i :: p) = some e) :
    ∃ name es, root.at p = some (.dir name es) := by
  unfold Entry.at at h
  split at h
  · rename_i name es hp
    exact ⟨name, es, hp⟩
  · cases h

lemma nameAt_eq (h : root.at p = some e) : nameAt root p = e.name := by
  simp [nameAt, h]

variable (hsafe : SafeTree root)

include hsafe

lemma namesAt_plain : ∀ {p : Pos} {e : Entry}, root.at p = some e → ∀ c ∈ namesAt root p, Plain c
  | [], _, _, c, hc => by cases hc
  | i :: p, e, h, c, hc => by
    obtain ⟨name, es, hp⟩ := at_parent h
    rcases mem_append.mp hc with hc | hc
    · exact namesAt_plain hp c hc
    · rw [mem_singleton.mp hc, nameAt_eq h]
      exact hsafe.plain i p e h

lemma relativePath_eq : ∀ {p : Pos} {e : Entry}, root.at p = some e →
    root.relativePath p = join (namesAt root p) [slash]
  | [], _, _ => rfl
  | i :: p, e, h => by
    obtain ⟨name, es, hp⟩ := at_parent h
    have hname : Plain (nameAt root (i :: p)) := by
      rw [nameAt_eq h]
      exact hsafe.plain i p e h
    unfold Entry.relativePath namesAt
    rw [relativePath_eq hp]
    exact joinPath_plain (namesAt_plain hsafe hp) hname

lemma pathAt_eq (l : Local) (h : root.at p = some e) :
    pathAt l root p = l.target ++ namesAt root p := by
  unfold pathAt
  rw [relativePath_eq hsafe h]
  exact fullPath_plain l.target_ne_nil l.target_plain (namesAt_plain hsafe h)

lemma namesAt_inj : ∀ {p q : Pos} {e e' : Entry}, root.at p = some e → root.at q = some e' →
    namesAt root p = namesAt root q → p = q
  | [], [], _, _, _, _, _ => rfl
  | [], k :: q, _, _, _, _, h => by simp [namesAt] at h
  | i :: p, [], _, _, _, _, h => by simp [namesAt] at h
  | i :: p, k :: q, e, e', hp, hq, h => by
    obtain ⟨_, _, hp'⟩ := at_parent hp
    obtain ⟨_, _, hq'⟩ := at_parent hq
    obtain ⟨hnames, hlast⟩ := append_inj' h rfl
    have hpq := namesAt_inj hp' hq' hnames
    subst hpq
    simp only [cons.injEq, and_true] at hlast
    rw [nameAt_eq hp, nameAt_eq hq] at hlast
    rw [hsafe.distinct i k p e e' hp hq hlast]

lemma suffix_of_prefix_namesAt (hp : root.at p = some e) :
    ∀ {q : Pos} {e' : Entry}, root.at q = some e' → namesAt root p <+: namesAt root q → p <:+ q
  | [], e', hq, h => by
    have hnil : namesAt root p = namesAt root [] := prefix_nil.mp h
    rw [namesAt_inj hsafe hp hq hnil]
  | k :: q, e', hq, h => by
    obtain ⟨_, _, hq'⟩ := at_parent hq
    rcases prefix_concat_iff.mp h with h | h
    · have hnames : namesAt root p = namesAt root (k :: q) := h
      rw [namesAt_inj hsafe hp hq hnames]
    · exact (suffix_of_prefix_namesAt hp hq' h).trans (suffix_cons k q)

omit hsafe in
lemma dir_of_suffix : ∀ {q : Pos} {e : Entry}, root.at q = some e → p <:+ q → p ≠ q →
    ∃ name es, root.at p = some (.dir name es)
  | [], _, _, hs, hne => absurd (suffix_nil.mp hs) hne
  | k :: q, e, hq, hs, hne => by
    obtain ⟨name, es, hq'⟩ := at_parent hq
    rcases suffix_cons_iff.mp hs with rfl | hs
    · exact absurd rfl hne
    · by_cases hpq : p = q
      · exact ⟨name, es, hpq ▸ hq'⟩
      · exact dir_of_suffix hq' hs hpq

end Names

section Links

variable {l : Local} {root : Entry}

def NoLink (l : Local) (root : Entry) (path : Path) : Prop := ∀ p q, Links l root p q → ¬p <+: path

/-- The path is below the target and a link of the restore is at most at its end, and not followed. -/
def Inside (l : Local) (root : Entry) (t : Touch) : Prop :=
  l.target <+: t.path ∧ ∀ p q, Links l root p q → p <+: t.path → p = t.path ∧ t.op.follows = false

variable (hsafe : SafeTree root)

include hsafe

lemma links_at {p q : Path} (h : Links l root p q) : ∃ pos name target,
    root.at pos = some (.symlink name target) ∧ p = l.target ++ namesAt root pos := by
  obtain ⟨pos, name, target, hat, rfl, -⟩ := h
  exact ⟨pos, name, target, hat, pathAt_eq hsafe l hat⟩

lemma link_above {p q : Path} (h : Links l root p q) {pos : Pos} {e : Entry}
    (hat : root.at pos = some e) (hp : p <+: l.target ++ namesAt root pos) :
    p = l.target ++ namesAt root pos ∧ ∃ name target, e = .symlink name target := by
  obtain ⟨pos', name, target, hat', rfl⟩ := links_at hsafe h
  rw [prefix_append_right_inj] at hp
  have hs := suffix_of_prefix_namesAt hsafe hat' hat hp
  by_cases hpos : pos' = pos
  · subst hpos
    rw [hat'] at hat
    exact ⟨rfl, name, target, (Option.some.inj hat).symm⟩
  · obtain ⟨_, _, hdir⟩ := dir_of_suffix hat hs hpos
    rw [hat'] at hdir
    cases hdir

lemma noLink_at {pos : Pos} {e : Entry} (hat : root.at pos = some e)
    (he : ∀ name target, e ≠ .symlink name target) : NoLink l root (l.target ++ namesAt root pos) := by
  intro p q h hp
  obtain ⟨-, name, target, rfl⟩ := link_above hsafe h hat hp
  exact he name target rfl

variable {path : Path}

lemma noLink_concat (h : NoLink l root path) {c : Str} (hc : shallowEntrySuffix <:+ c) :
    NoLink l root (path ++ [c]) := by
  intro p q hl hp
  rcases prefix_concat_iff.mp hp with rfl | hp
  · obtain ⟨pos, name, target, hat, heq⟩ := links_at hsafe hl
    rcases pos with _ | ⟨i, pos⟩
    · obtain ⟨n, es, hroot⟩ := hsafe.dir
      rw [hroot] at hat
      cases hat
    · unfold namesAt at heq
      rw [← append_assoc, nameAt_eq hat] at heq
      have hlast := (append_inj' heq rfl).2
      simp only [cons.injEq, and_true] at hlast
      have hname : c = name := hlast
      exact hsafe.links _ name target hat (hname ▸ hc)
  · exact h p q hl hp

omit hsafe in
lemma inside_of_noLink {t : Touch} (ht : l.target <+: t.path) (h : NoLink l root t.path) :
    Inside l root t :=
  ⟨ht, fun p q hl hp => absurd hp (h p q hl)⟩

omit hsafe in
lemma inside_concat {c : Str} {o : Op} (ht : l.target <+: path)
    (h : NoLink l root path) (ho : o.follows = false) : Inside l root ⟨o, path ++ [c]⟩ := by
  refine ⟨ht.trans (prefix_append path [c]), fun p q hl hp => ?_⟩
  rcases prefix_concat_iff.mp hp with hp | hp
  · exact ⟨hp, ho⟩
  · exact absurd hp (h p q hl)

omit hsafe in
lemma NoLink.of_prefix {path' : Path} (h : NoLink l root path) (hp : path' <+: path) :
    NoLink l root path' :=
  fun p q hl hc => h p q hl (hc.trans hp)

omit hsafe in
lemma eq_of_resolves {t : Touch} (h : Inside l root t) {r : Path}
    (hr : Resolves l root t.op.follows t.path r) : r = t.path := by
  generalize hp : t.path = path at hr
  cases hr with
  | done => rfl
  | @link p q rest _ hl hor _ =>
    obtain ⟨heq, hf⟩ := h.2 p q hl (hp ▸ prefix_append p rest)
    rcases hor with hrest | hfollow
    · rw [hp] at heq
      exact absurd (append_right_eq_self.mp heq.symm) hrest
    · simp [hf] at hfollow

end Links

section Touched

variable {l : Local} {root : Entry} {path : Path} {t : Touch}

lemma suffixed_concat (path : Path) (c : Str) :
    suffixed (path ++ [c]) = path ++ [c ++ shallowEntrySuffix] := by
  simp [suffixed]

lemma safeRemoveAll_target (htarget : SafeTarget l) : safeRemoveAll l l.target = [] := by
  unfold safeRemoveAll removeAll
  rw [htarget.placeholder]
  simp

section Clear

variable (ht : l.target <+: path) (h : NoLink l root path)
include ht h

lemma mkdirAll_inside (htarget : SafeTarget l) (hmem : t ∈ mkdirAll l path) :
    Inside l root t := by
  unfold mkdirAll at hmem
  simp only [mem_map, mem_filter, mem_inits, Bool.not_eq_eq_eq_not, Bool.not_true] at hmem
  obtain ⟨q, ⟨hq, hpresent⟩, rfl⟩ := hmem
  refine inside_of_noLink ?_ (h.of_prefix hq)
  rcases prefix_or_prefix_of_prefix ht hq with hc | hc
  · exact hc
  · by_cases hne : q = l.target
    · rw [hne]
    · rw [htarget.parents q hc hne] at hpresent
      cases hpresent

lemma atomicWrite_inside {c temp : Str} (hmem : t ∈ atomicWrite (path ++ [c]) temp) :
    Inside l root t := by
  simp only [atomicWrite, dropLast_concat, mem_cons, not_mem_nil, or_false] at hmem
  rcases hmem with rfl | rfl
  · exact inside_concat ht h rfl
  · exact inside_concat ht h rfl

lemma safeRemoveAll_inside {c : Str} (hmem : t ∈ safeRemoveAll l (path ++ [c])) :
    Inside l root t := by
  unfold safeRemoveAll removeAll at hmem
  rw [suffixed_concat] at hmem
  split_ifs at hmem
  · rw [mem_singleton.mp hmem]
    exact inside_concat ht h rfl
  all_goals cases hmem

lemma writeFile_inside {c temp : Str} (hc : NoLink l root (path ++ [c]))
    (hmem : t ∈ writeFile l (path ++ [c]) temp) : Inside l root t := by
  have htc := ht.trans (prefix_append path [c])
  unfold writeFile at hmem
  rcases mem_append.mp hmem with hmem | hmem
  · split_ifs at hmem
    · exact atomicWrite_inside ht h hmem
    · rw [mem_singleton.mp hmem]
      exact inside_of_noLink htc hc
  · rcases mem_cons.mp hmem with rfl | hmem
    · exact inside_of_noLink htc hc
    · exact safeRemoveAll_inside ht h hmem

lemma shallowFile_inside (hsafe : SafeTree root) {c temp : Str}
    (hmem : t ∈ shallowFile (path ++ [c]) temp) : Inside l root t := by
  have hsuffix := noLink_concat hsafe h (c := c ++ shallowEntrySuffix) (suffix_append _ _)
  unfold shallowFile at hmem
  rw [suffixed_concat] at hmem
  rcases mem_append.mp hmem with hmem | hmem
  · exact atomicWrite_inside ht h hmem
  · rw [mem_singleton.mp hmem]
    exact inside_of_noLink (ht.trans (prefix_append path _)) hsuffix

lemma shallowDir_inside (hsafe : SafeTree root) (htarget : SafeTarget l) {c temp : Str}
    (hmem : t ∈ shallowDir l (path ++ [c]) temp) : Inside l root t := by
  have hsuffix := noLink_concat hsafe h (c := c ++ shallowEntrySuffix) (suffix_append _ _)
  have hinner := noLink_concat hsafe hsuffix (suffix_refl _)
  have hts := ht.trans (prefix_append path [c ++ shallowEntrySuffix])
  unfold shallowDir at hmem
  rw [suffixed_concat] at hmem
  rcases mem_append.mp hmem with hmem | hmem
  · rcases mem_append.mp hmem with hmem | hmem
    · exact mkdirAll_inside hts hsuffix htarget hmem
    · exact atomicWrite_inside hts hsuffix hmem
  · rw [mem_singleton.mp hmem]
    exact inside_of_noLink (hts.trans (prefix_append _ _)) hinner

lemma writeDir_inside (htarget : SafeTarget l)
    (hremove : ∀ t ∈ safeRemoveAll l path, Inside l root t) (hmem : t ∈ writeDir l path) :
    Inside l root t := by
  unfold writeDir at hmem
  rcases mem_append.mp hmem with hmem | hmem
  · rcases mem_append.mp hmem with hmem | hmem
    · exact mkdirAll_inside ht h htarget hmem
    · unfold deleteExtraFilesInDir at hmem
      split_ifs at hmem
      · obtain ⟨name, -, hmem⟩ := mem_flatMap.mp hmem
        simp only [mem_cons, not_mem_nil, or_false] at hmem
        rcases hmem with rfl | rfl
        · exact inside_concat ht h rfl
        · exact inside_concat ht h rfl
      · cases hmem
  · rcases mem_cons.mp hmem with rfl | hmem
    · exact inside_of_noLink ht h
    · exact hremove t hmem

end Clear

lemma createSymlink_inside (hsafe : SafeTree root) {pos : Pos} {e : Entry} (hat : root.at pos = some e)
    (hmem : t ∈ createSymlink (l.target ++ namesAt root pos)) : Inside l root t := by
  have hend : ∀ o : Op, o.follows = false → Inside l root ⟨o, l.target ++ namesAt root pos⟩ :=
    fun o ho => ⟨prefix_append _ _, fun p q hl hp => ⟨(link_above hsafe hl hat hp).1, ho⟩⟩
  simp only [createSymlink, mem_cons, not_mem_nil, or_false] at hmem
  rcases hmem with rfl | rfl | rfl
  · exact hend _ rfl
  · exact hend _ rfl
  · exact hend _ rfl

lemma touches_inside (hsafe : SafeTree root) (htarget : SafeTarget l) (h : Touches l root t) :
    Inside l root t := by
  obtain ⟨pos, e, temp, hat, -, hmem⟩ := h
  rw [pathAt_eq hsafe l hat] at hmem
  rcases pos with _ | ⟨i, pos⟩
  · obtain ⟨name, es, hroot⟩ := hsafe.dir
    have he : e = .dir name es := by
      rw [hroot] at hat
      exact (Option.some.inj hat).symm
    have hno : NoLink l root l.target := by
      have := noLink_at (l := l) hsafe hat (by simp [he])
      rwa [namesAt, append_nil] at this
    rw [he] at hmem
    have hdeep : isShallowDir l (root.relativePath []) ([] : Pos).length = false := by
      have := htarget.depth
      simp [isShallowDir]
      omega
    simp only [touchesOf, hdeep, Bool.false_eq_true, if_false, namesAt, append_nil] at hmem
    refine writeDir_inside (prefix_refl _) hno htarget ?_ hmem
    rw [safeRemoveAll_target htarget]
    simp
  · obtain ⟨name, es, hparent⟩ := at_parent hat
    have hno : NoLink l root (l.target ++ namesAt root pos) := noLink_at hsafe hparent (by simp)
    have ht : l.target <+: l.target ++ namesAt root pos := prefix_append _ _
    have hpath : l.target ++ namesAt root (i :: pos) =
        l.target ++ namesAt root pos ++ [nameAt root (i :: pos)] := by
      rw [namesAt, append_assoc]
    rcases e with ⟨name, size⟩ | ⟨name, target⟩ | ⟨name, es⟩ | name
    · have hself := noLink_at (l := l) hsafe hat (by simp)
      rw [hpath] at hmem hself
      simp only [touchesOf] at hmem
      split_ifs at hmem
      · exact shallowFile_inside ht hno hsafe hmem
      · exact writeFile_inside ht hno hself hmem
    · exact createSymlink_inside hsafe hat hmem
    · have hself := noLink_at (l := l) hsafe hat (by simp)
      rw [hpath] at hmem hself
      simp only [touchesOf] at hmem
      split_ifs at hmem
      · exact shallowDir_inside ht hno hsafe htarget hmem
      · exact writeDir_inside (ht.trans (prefix_append _ _)) hself htarget
          (fun t ht' => safeRemoveAll_inside ht hno ht') hmem
    · cases hmem

def emptyTarget : Local where
  target := [str "t"]
  target_ne_nil := by simp
  target_plain := by decide
  listing := fun _ => []
  listing_plain := by simp
  present := fun q => q.isEmpty

def linkTree : Entry := .dir [] [.symlink (str "a") (str "/etc")]

lemma linkTree_at : ∀ {i : Nat} {p : Pos} {e : Entry}, linkTree.at (i :: p) = some e →
    i = 0 ∧ p = [] ∧ e = .symlink (str "a") (str "/etc")
  | i, [], e, h => by
    rcases i with _ | i
    · exact ⟨rfl, rfl, (Option.some.inj h).symm⟩
    · simp [linkTree, Entry.at] at h
  | i, k :: p, e, h => by
    obtain ⟨name, es, h'⟩ := at_parent h
    obtain ⟨-, -, he⟩ := linkTree_at h'
    cases he

/-- A file whose name leads out of its directory, and one whose name leads through a link. -/
def dotdotTree : Entry := .dir [] [.file (str "../x") 3]

def throughTree : Entry := .dir [] [.symlink (str "a") (str "/etc"), .file (str "a/passwd") 3]

end Touched

end Warphold.Restore
