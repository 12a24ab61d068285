import Warphold.Proofs.Mirroring

/-!
# A mirror run against live devices

A listed object that is deleted before the copy loop comes to it makes `Get` fail, and `device`
returns there: the objects of the device listed after it are not copied
(`vanished_marker_abandons`).
-/

namespace Warphold.Fleet.Mirror

open List Function Gateway
open Std (ExtTreeSet ExtTreeMap)

def Frame.later (f : Frame) : List Str :=
  match f.ret with
  | none => []
  | some (w, page, _) => keysOf w.objs ++ keysOf page

def Pc.pending : Pc → List Str
  | .list w => keysOf w.objs
  | .mirrored f _ _ => keysOf f.objs ++ f.later
  | .copy f _ todo _ => keysOf todo ++ f.later
  | .hide f _ _ | .record f _ => f.later
  | .idle | .targets => []

/-- The stores report no failures, and no session marker is deleted while it is pending. -/
def Undisturbed (s : State) : Action → Prop
  | .next o => o = .ok
  | .put i device name obj => Quiet s (.put i device name obj) ∧ device ≠ Cloud.probeName
  | .delete i device name => i = s.cur → device ++ [47] ++ name ∉ s.pc.pending
  | .start .. | .change .. => False

instance (s : State) : ∀ a, Decidable (Undisturbed s a)
  | .start .. | .next .. | .put .. | .delete .. | .change .. => by unfold Undisturbed; infer_instance

lemma Undisturbed.quiet {s : State} {a : Action} (h : Undisturbed s a) : Quiet s a := by
  cases a with
  | next o => trivial
  | put i device name obj => exact h.1
  | delete i device name => trivial
  | start => exact h
  | change => exact h

/-- A tree whose objects both stores take. -/
structure Storable (t : Tree) : Prop where
  dirs : ∀ d ∈ t, d ≠ tmpDir → d.length ≤ 255
  objs : ∀ d n obj, d ≠ tmpDir → t.entry d n = some (.file obj) →
    checkKey (d ++ 47 :: n) = none ∧ n.length ≤ 255 ∧ d ≠ Cloud.probeName
      ∧ (obj.bytes.length : ℤ) ≤ defaultMaxObjectSize

def Present (t : Tree) (k : Str) : Prop :=
  ∃ d n obj, d ≠ tmpDir ∧ k = d ++ [47] ++ n ∧ t.entry d n = some (.file obj)

structure Live (s : State) : Prop where
  storable : ∀ i, Storable (s.sites i).tree
  soft : Errs.soft s.errs
  present : ∀ k ∈ s.pc.pending, Present s.site.tree k

variable {k : Str}

lemma pending_callDevice {w : Walk} {ret : Option (Walk × List ObjectInfo × Bool)} {pc : Pc}
    (h : k ∈ (callDevice w ret pc).pending) :
    k ∈ pc.pending ∨ k ∈ keysOf w.objs ∨ k ∈ (⟨w.device, w.objs, ret⟩ : Frame).later := by
  unfold callDevice at h
  split_ifs at h
  · exact .inl h
  · exact .inr (mem_append.1 h)

lemma pending_scan (truncated : Bool) : ∀ (w : Walk) (page : List ObjectInfo),
    k ∈ (scan truncated w page).pending → k ∈ keysOf w.objs ++ keysOf page
  | w, [], h => by
    simp only [scan] at h
    rw [mem_append]
    split_ifs at h
    · exact .inl h
    · rcases pending_callDevice h with h | h | h
      · exact absurd h not_mem_nil
      · exact .inl h
      · exact absurd h not_mem_nil
  | w, o :: page, h => by
    simp only [scan] at h
    rw [keysOf, keysOf, map_cons, mem_append, mem_cons]
    split_ifs at h
    · have := mem_append.1 (pending_scan truncated _ page h)
      tauto
    · rcases pending_callDevice h with h | h | h
      · have := mem_append.1 (pending_scan truncated _ page h)
        simp only [map_cons, map_nil, mem_singleton] at this
        tauto
      · exact .inl h
      · have := mem_append.1 h
        simp only [map_cons, map_nil, mem_singleton] at this
        tauto
    · have := mem_append.1 (pending_scan truncated _ page h)
      simp only [map_append, map_cons, map_nil, mem_append,
        mem_singleton] at this
      tauto

lemma pending_resume {f : Frame} (h : k ∈ (resume f).pending) : k ∈ f.later := by
  unfold Frame.later
  rcases hret : f.ret with _ | ⟨w, page, truncated⟩ <;> simp only [resume, hret] at h
  · exact absurd h not_mem_nil
  · exact pending_scan _ _ _ h

lemma Present.copied {t : Tree} (hs : Storable t) (h : Present t k) (now : ℤ) (b : Bucket)
    (plain : Bool) : ∃ body info, Local.get (.healthy now) t k 0 (-1) = .ok (body, info)
      ∧ ∀ e, (Cloud.put b k info.size plain).2 = .error e → e = .errExists := by
  obtain ⟨d, n, obj, htmp, rfl, hentry⟩ := h
  obtain ⟨hkey, hn, hprobe, hsize⟩ := hs.objs d n obj htmp hentry
  have hd := hs.dirs d (mem_of_entry hentry) htmp
  have hcut : Strings.cut (d ++ [47] ++ n) 47 = (d, n, true) := by
    rw [append_assoc]
    exact Strings.cut_append (checkKey_append hkey).1 n
  have hkey' : checkKey (d ++ [47] ++ n) = none := by
    rw [append_assoc]
    exact hkey
  have hlong : ∀ x : Str, x.length ≤ 255 → (Faults.healthy now).nameTooLong x = false :=
    fun x hx => decide_eq_false (Nat.not_lt.2 hx)
  have hstat : Local.lstatObject (.healthy now) t (d ++ [47] ++ n) = .ok obj := by
    simp only [Local.lstatObject, hcut, hlong d hd, hlong n hn, hentry, Bool.false_eq_true, or_self,
      ↓reduceIte]
  have hopen : Local.openObject (.healthy now) t (d ++ [47] ++ n) = .ok obj := by
    simp only [Local.openObject, hkey', hstat]
    rfl
  have hname : Cloud.objectName (d ++ [47] ++ n) = .ok (d ++ [47] ++ n) := by
    simp only [Cloud.objectName, hkey', hcut, hprobe, ne_eq, not_true_eq_false, ↓reduceIte]
  refine ⟨?_, ⟨d ++ [47] ++ n, obj.bytes.length, [], obj.modTime⟩, ?_, ?_⟩
  rotate_left
  · simp only [Local.get, hopen]
    rfl
  · intro e he
    simp only [Cloud.put, hname] at he
    rw [if_neg (not_lt.2 hsize)] at he
    split_ifs at he
    cases he
    rfl

lemma listLoop_ok {now : ℤ} {t : Tree} {after : Str} {max : ℕ} : ∀ (dirs : List Str)
    {objs : List ObjectInfo}, objs.length ≤ max → (∀ d ∈ dirs, d.length ≤ 255) →
      ∃ r, Local.listLoop (.healthy now) t [] after max dirs objs = .ok r
  | [], objs, _, _ => ⟨_, rfl⟩
  | d :: dirs, objs, hmax, hd => by
    have hlong : (Faults.healthy now).nameTooLong d = false :=
      decide_eq_false (Nat.not_lt.2 (hd d mem_cons_self))
    have hread : (Faults.healthy now).readDir = false := rfl
    have hrest : ∀ e ∈ dirs, e.length ≤ 255 := fun e he => hd e (.tail _ he)
    simp only [Local.listLoop, hlong, hread, Bool.or_self, Bool.false_eq_true, ↓reduceIte]
    split
    · exact listLoop_ok dirs hmax hrest
    · rw [Local.listEnts_all d _ hmax]
      split_ifs with hfull
      · exact ⟨_, rfl⟩
      · exact listLoop_ok dirs (Nat.not_lt.1 hfull) hrest

lemma Storable.list {t : Tree} (hs : Storable t) (now : ℤ) (after : Str) :
    ∃ r, Local.list (.healthy now) t [] after listPage = .ok r := by
  refine listLoop_ok _ (Nat.zero_le maxKeys) fun d hd => ?_
  rw [mem_filter, ExtTreeMap.mem_keys, Bool.and_eq_true, decide_eq_true_eq] at hd
  exact hs.dirs d hd.1 hd.2.1

section Live
variable {s s' : State} {b₀ : ℕ → Bucket} {b : Bucket}

lemma Live.move (hl : Live s) (hm : Moves b s s') (hsoft : Errs.soft s'.errs)
    (hpend : ∀ k ∈ s'.pc.pending, k ∈ s.pc.pending ∨ Present s.site.tree k) : Live s' := by
  refine ⟨fun i => ?_, hsoft, fun k hk => ?_⟩
  · by_cases hic : i = s.cur
    · rw [hic, ← hm.cur]
      show Storable s'.site.tree
      rw [hm.tree]
      exact hl.storable s.cur
    · rw [hm.others i hic]
      exact hl.storable i
  · rw [hm.tree]
    exact (hpend k hk).elim (hl.present k) id

lemma Errs.soft.fail {errs : Errs} (h : Errs.soft errs) {what : Str} {e : Failure}
    (he : e.soft = true) : Errs.soft (errs ++ [(what, e)]) := by
  intro x hx
  rcases mem_append.1 hx with hx | hx
  · exact h x hx
  · rw [mem_singleton.1 hx]
    exact he

lemma Live.nextTarget (hl : Live s) (hpc : s.pc = .targets) : Live (nextTarget s .ok) := by
  have hnone : ∀ k ∈ s.pc.pending, False := fun k hk => by
    rw [hpc] at hk
    exact absurd hk not_mem_nil
  unfold Mirror.nextTarget
  split
  · exact ⟨hl.storable, hl.soft, fun _ hk => absurd hk not_mem_nil⟩
  · simp only [reduceCtorEq, ↓reduceIte]
    split_ifs
    · exact ⟨hl.storable, hl.soft, fun k hk => (hnone k hk).elim⟩
    · exact ⟨hl.storable, hl.soft.fail rfl, fun k hk => (hnone k hk).elim⟩
    · exact ⟨hl.storable, hl.soft, fun _ hk => absurd hk not_mem_nil⟩

lemma Live.listLocal (hl : Live s) {w : Walk} (hpc : s.pc = .list w)
    (hm : Moves b s (listLocal s .ok w)) : Live (listLocal s .ok w) := by
  obtain ⟨⟨page, truncated⟩, hlist⟩ := (hl.storable s.cur).list s.now w.after
  have hobjs : ∀ k ∈ keysOf page, Present s.site.tree k := fun k hk => by
    obtain ⟨x, hx, rfl⟩ := mem_map.1 hk
    rw [(Local.list_all hlist).1] at hx
    obtain ⟨d, n, obj, htmp, hentry, rfl⟩ :=
      mem_objects.1 (mem_of_mem_filter (mem_of_mem_take hx))
    exact ⟨d, n, obj, htmp, rfl, hentry⟩
  unfold Mirror.listLocal at hm ⊢
  rewrite [if_pos rfl, show s.site.tree = (s.sites s.cur).tree from rfl, hlist] at hm ⊢
  dsimp only at hm ⊢
  rcases hlast : page.getLast? with _ | last <;> rw [hlast] at hm
  · refine hl.move hm hl.soft fun k hk => .inl ?_
    rw [hpc]
    rcases pending_callDevice hk with hk | hk | hk
    · exact absurd hk not_mem_nil
    · exact hk
    · exact absurd hk not_mem_nil
  · refine hl.move hm hl.soft fun k hk => ?_
    rw [hpc]
    rcases mem_append.1 (pending_scan _ _ _ hk) with hk | hk
    · exact .inl hk
    · exact .inr (hobjs k hk)

lemma Live.copyOne (hl : Live s) {f : Frame} {held : ExtTreeSet Str} {x : ObjectInfo}
    {todo : List ObjectInfo} {offsite : ℤ} (hpc : s.pc = .copy f held (x :: todo) offsite)
    (hm : Moves b s (copyOne s .ok f held x todo offsite)) :
    Live (copyOne s .ok f held x todo offsite) := by
  have hx : Present s.site.tree x.key := hl.present _ (by rw [hpc]; exact mem_cons_self)
  obtain ⟨body, info, hget, hput⟩ := hx.copied (hl.storable s.cur) s.now s.site.bucket s.site.plain
  have hgoto : ∃ s₁ offsite', Mirror.copyOne s .ok f held x todo offsite
      = State.goto s₁ (.copy f held todo offsite') ∧ s₁.errs = s.errs := by
    unfold Mirror.copyOne
    rw [if_neg Outcome.noConfusion]
    by_cases hin : held.contains x.key = true
    · rw [if_pos hin]
      exact ⟨_, _, rfl, rfl⟩
    · rw [if_neg hin, show s.site.tree = (s.sites s.cur).tree from rfl, hget]
      simp only [reduceCtorEq, ↓reduceIte]
      rcases hr : (Cloud.put s.site.bucket x.key info.size s.site.plain).2 with e | n
      · obtain rfl := hput e hr
        exact ⟨_, _, rfl, rfl⟩
      · exact ⟨_, _, rfl, rfl⟩
  obtain ⟨s₁, offsite', heq, herrs⟩ := hgoto
  rw [heq] at hm ⊢
  refine hl.move hm ?_ fun k hk => .inl ?_
  · show Errs.soft s₁.errs
    rw [herrs]
    exact hl.soft
  · rw [hpc]
    exact .tail _ hk

lemma Live.next (hl : Live s) (hi : Inv b₀ s) (h : next s .ok = some s') : Live s' := by
  by_cases hpc : s.pc = .targets
  · rw [next_targets hpc h]
    exact hl.nextTarget hpc
  have hm := next_moves hi hpc h
  unfold Mirror.next at h
  split at h <;> rename_i heq <;> cases h
  · exact absurd heq hpc
  · exact hl.listLocal heq hm
  · rename_i f held after
    have hkeep : ∀ pc : Pc, pc.pending = keysOf f.objs ++ f.later →
        ∀ k ∈ pc.pending, k ∈ s.pc.pending ∨ Present s.site.tree k := fun pc hp k hk => by
      rw [hp] at hk
      rw [heq]
      exact .inl hk
    unfold listMirror at hm ⊢
    simp only [ne_eq, not_true_eq_false, ↓reduceIte] at hm ⊢
    split at hm
    · exact hl.move hm hl.soft (hkeep _ rfl)
    · exact hl.move hm hl.soft (hkeep _ rfl)
  · exact hl.copyOne heq hm
  · rename_i f held offsite
    have hgoto : ∃ s₁ pc, hideBegin s .ok f held offsite = State.goto s₁ pc
        ∧ Errs.soft s₁.errs ∧ pc.pending = f.later := by
      unfold hideBegin
      simp only [reduceCtorEq, ↓reduceIte]
      split_ifs
      · exact ⟨_, _, rfl, hl.soft, rfl⟩
      · exact ⟨_, _, rfl, hl.soft.fail rfl, rfl⟩
      · exact ⟨_, _, rfl, hl.soft.fail rfl, rfl⟩
      · exact ⟨_, _, rfl, hl.soft, rfl⟩
    obtain ⟨s₁, pc, hs₁, hsoft, hp⟩ := hgoto
    rw [hs₁] at hm ⊢
    refine hl.move hm hsoft fun k hk => .inl ?_
    rw [State.goto_pc, hp] at hk
    rw [heq]
    exact hk
  · rename_i f k todo offsite
    have hgoto : ∃ s₁ pc, hideOne s .ok f k todo offsite = State.goto s₁ pc
        ∧ Errs.soft s₁.errs ∧ pc.pending = f.later := by
      unfold hideOne
      simp only [reduceCtorEq, ↓reduceIte]
      split
      · exact ⟨_, _, rfl, hl.soft, rfl⟩
      · exact ⟨_, _, rfl, hl.soft.fail rfl, rfl⟩
      · exact ⟨_, _, rfl, hl.soft, rfl⟩
    obtain ⟨s₁, pc, hs₁, hsoft, hp⟩ := hgoto
    rw [hs₁] at hm ⊢
    refine hl.move hm hsoft fun k hk => .inl ?_
    rw [State.goto_pc, hp] at hk
    rw [heq]
    exact hk
  · refine hl.move hm hl.soft fun k hk => .inl ?_
    rw [heq]
    exact hk
  · rename_i f offsite
    have hback : ∃ s₁, recordDevice s .ok f offsite = State.back s₁ f ∧ s₁.errs = s.errs := by
      unfold recordDevice
      simp only [ne_eq, not_true_eq_false, ↓reduceIte]
      split_ifs
      · exact ⟨_, rfl, rfl⟩
      · exact ⟨_, rfl, rfl⟩
    obtain ⟨s₁, hs₁, herrs⟩ := hback
    rw [hs₁] at hm ⊢
    refine hl.move hm ?_ fun k hk => .inl ?_
    · show Errs.soft s₁.errs
      rw [herrs]
      exact hl.soft
    · rw [heq]
      exact pending_resume hk

lemma Live.setTree (hl : Live s) {i : ℕ} {t' : Tree} (hs : Storable t')
    (hp : i = s.cur → ∀ k ∈ s.pc.pending, Present s.site.tree k → Present t' k) :
    Live (s.setTree i t') := by
  refine ⟨fun j => ?_, hl.soft, fun k hk => ?_⟩
  · by_cases hj : j = i
    · rw [hj, show (s.setTree i t').sites i = _ from update_self i _ s.sites]
      exact hs
    · rw [show (s.setTree i t').sites j = _ from update_of_ne hj _ s.sites]
      exact hl.storable j
  · have hk' := hl.present k hk
    show Present ((s.setTree i t').sites s.cur).tree k
    by_cases hc : s.cur = i
    · rw [hc, show (s.setTree i t').sites i = _ from update_self i _ s.sites]
      exact hp hc.symm k hk hk'
    · rw [show (s.setTree i t').sites s.cur = _ from update_of_ne hc _ s.sites]
      exact hk'

lemma Live.step (hl : Live s) (hi : Inv b₀ s) {a : Action} (hok : Undisturbed s a)
    (h : Mirror.step s a = some s') : Live s' := by
  cases a with
  | start => exact hok.elim
  | change => exact hok.elim
  | next o =>
    rw [show o = .ok from hok] at h
    exact hl.next hi h
  | put i device name obj =>
    simp only [Mirror.step] at h
    split_ifs at h with hput
    cases h
    obtain ⟨hkey, hdlen, hnlen, hfree, hsize⟩ := hput
    refine hl.setTree ⟨fun d hd htmp => ?_, fun d n o htmp he => ?_⟩ fun heq k hk => ?_
    · rcases ExtTreeMap.mem_insert.1 hd with hd | hd
      · rw [← Std.LawfulEqCmp.eq_of_compare hd]
        exact hdlen
      · exact (hl.storable i).dirs d hd htmp
    · rw [Tree.entry_setEntry] at he
      split_ifs at he with hdn
      · obtain ⟨rfl, rfl⟩ := hdn
        cases he
        exact ⟨hkey, hnlen, hok.2, hsize⟩
      · exact (hl.storable i).objs d n o htmp he
    · rintro ⟨d, n, o, htmp, rfl, he⟩
      have htree : s.site.tree = (s.sites i).tree := by rw [heq]; rfl
      refine ⟨d, n, o, htmp, rfl, ?_⟩
      rw [Tree.entry_setEntry, if_neg, ← htree]
      · exact he
      · rintro ⟨rfl, rfl⟩
        rw [htree, hfree] at he
        cases he
  | delete i device name =>
    simp only [Mirror.step] at h
    split_ifs at h
    cases h
    rcases localDelete_cases s.now (s.sites i).tree device name with heq | ⟨⟨o, ho⟩, heq⟩
    · rw [heq]
      refine hl.setTree (hl.storable i) fun hcur k hk hp => ?_
      rw [hcur]
      exact hp
    · rw [heq]
      refine hl.setTree ⟨fun d hd htmp => ?_, fun d n o' htmp he => ?_⟩ fun hcur k hk => ?_
      · rcases ExtTreeMap.mem_insert.1 hd with hd | hd
        · rw [← Std.LawfulEqCmp.eq_of_compare hd] at htmp ⊢
          exact (hl.storable i).dirs device (mem_of_entry ho) htmp
        · exact (hl.storable i).dirs d hd htmp
      · rw [Tree.entry_removeEntry] at he
        split_ifs at he
        exact (hl.storable i).objs d n o' htmp he
      · rintro ⟨d, n, o', htmp, rfl, he⟩
        refine ⟨d, n, o', htmp, rfl, ?_⟩
        rw [Tree.entry_removeEntry, if_neg, hcur]
        · exact he
        · rintro ⟨rfl, rfl⟩
          exact hok hcur hk

end Live

def Guarded (s₀ s : State) : Prop := Inv (fun i => (s₀.sites i).bucket) s ∧ Live s

/-- As long as the stores report no failures and no marker is deleted between being listed and being
copied, all that a run lists is in the mirror when it ends. -/
theorem reach_listed_mirrored {s₀ s : State} (h₀ : Started s₀)
    (hst : ∀ i, Storable (s₀.sites i).tree) (h : Runs.Reach step Undisturbed (· = s₀) s)
    (hidle : s.pc = .idle) (i : ℕ) : ∀ k ∈ (s.sites i).listed, k ∈ (s.sites i).bucket := by
  have hinv : Guarded s₀ s := by
    refine h.invariant ?_ fun s a s' hs hok hstep => ?_
    · rintro s rfl
      refine ⟨h₀.inv, hst, ?_, ?_⟩
      · rw [h₀.errs]
        exact fun _ he => absurd he not_mem_nil
      · rw [h₀.pc]
        exact fun _ hk => absurd hk not_mem_nil
    · exact ⟨hs.1.step hok.quiet hstep, hs.2.step hs.1 hok hstep⟩
  obtain ⟨hsite, hfin⟩ := hinv.1.rested hidle i
  have hfin := hfin hinv.2.soft
  intro k hk
  obtain ⟨c, hc, hck⟩ := mem_map.1 (hfin.among k hk)
  refine hsite.kept hinv.2.soft c hc k ?_
  rw [hfin.complete c hc, mem_filter]
  exact ⟨hk, by simpa using hck.symm⟩

def sampleMarker : String := "s0123456789abcdef"

/-- A target with a pack, a session marker and an index blob, none of them mirrored yet. -/
def raceStart : State :=
  start (.sample (.sample (sampleTree [("a", "p1"), ("a", sampleMarker), ("a", "xn0")]) ∅)) 0 [] [] [0]

lemma raceStart_started : Started raceStart := by
  have hdev : ∀ d ∈ sampleTree [("a", "p1"), ("a", sampleMarker), ("a", "xn0")], d = str "a" := by
    intro d hd
    have hkeys : (sampleTree [("a", "p1"), ("a", sampleMarker), ("a", "xn0")]).keys = [str "a"] := by
      decide
    have := ExtTreeMap.mem_keys.2 hd
    rw [hkeys] at this
    simpa using this
  refine ⟨rfl, rfl, by decide, fun i => ⟨fun d hd _ => ?_, fun d hd e he _ _ _ => ?_⟩,
    fun i => ⟨rfl, rfl, rfl⟩⟩
  · rw [hdev d hd]
    decide
  · rw [hdev d hd, hdev e he]

lemma raceStart_storable (i : ℕ) : Storable (raceStart.sites i).tree := by
  have hall : ((raceStart.sites 0).tree.toList.all fun p => p.1.length ≤ 255 && p.1 ≠ Cloud.probeName
      && p.2.toList.all fun q => checkKey (p.1 ++ 47 :: q.1) = none && q.1.length ≤ 255
        && Entry.casesOn (motive := fun _ => Bool) q.2
          (fun o => decide ((o.bytes.length : ℤ) ≤ defaultMaxObjectSize)) fun _ => true) = true := by
    decide
  rw [all_eq_true] at hall
  have hdir : ∀ d ents, (raceStart.sites 0).tree[d]? = some ents → (d, ents)
      ∈ (raceStart.sites 0).tree.toList := fun d ents h =>
    ExtTreeMap.mem_toList_iff_getElem?_eq_some.2 h
  refine ⟨fun d hd _ => ?_, fun d n obj _ he => ?_⟩
  · rw [ExtTreeMap.mem_iff_isSome_getElem?, Option.isSome_iff_exists] at hd
    obtain ⟨ents, hents⟩ := hd
    have := hall _ (hdir d ents hents)
    simp only [Bool.and_eq_true, decide_eq_true_eq] at this
    exact this.1.1
  · unfold Tree.entry at he
    obtain ⟨ents, hents, he⟩ := Option.bind_eq_some_iff.1 he
    have := hall _ (hdir d ents hents)
    simp only [Bool.and_eq_true, decide_eq_true_eq, all_eq_true] at this
    have hn := this.2 (n, .file obj) (ExtTreeMap.mem_toList_iff_getElem?_eq_some.2 he)
    exact ⟨hn.1.1, hn.1.2, this.1.2, of_decide_eq_true hn.2⟩

/-- A marker deleted after it was copied, and an object created meanwhile. -/
theorem reach_listed_mirrored_sample : ∃ s, Runs.Reach step Undisturbed (· = raceStart) s
    ∧ (s.sites 0).listed = [str "a/p1", str ("a/" ++ sampleMarker), str "a/xn0"]
    ∧ (s.sites 0).tree.entry (str "a") (str sampleMarker) = none
    ∧ ∀ k ∈ (s.sites 0).listed, k ∈ (s.sites 0).bucket := by
  obtain ⟨s, hs, hidle, hlisted, hgone⟩ : ∃ s ∈ Runs.run step Undisturbed raceStart
      (replicate 5 (.next .ok)
        ++ [.delete 0 (str "a") (str sampleMarker), .put 0 (str "b") (str "p") ⟨[0], 0, none⟩]
        ++ replicate 4 (.next .ok)),
      s.pc.isIdle = true ∧ (s.sites 0).listed = [str "a/p1", str ("a/" ++ sampleMarker), str "a/xn0"]
        ∧ (s.sites 0).tree.entry (str "a") (str sampleMarker) = none := by
    decide
  have hidle : s.pc = .idle := by
    rcases hpc : s.pc <;> rw [hpc] at hidle <;> first | rfl | cases hidle
  have hreach : Runs.Reach step Undisturbed (· = raceStart) s := Runs.reach_of_run _ (.init rfl) hs
  exact ⟨s, hreach, hlisted, hgone,
    reach_listed_mirrored raceStart_started raceStart_storable hreach hidle 0⟩

/-- No store fails, but a marker is deleted between being listed and being copied: the index blob
listed after it is still there when the run ends, and is not in the mirror. -/
theorem vanished_marker_abandons : ∃ s, Runs.Reach step Quiet (· = raceStart) s
    ∧ s.pc.isIdle = true
    ∧ (∃ actions, Runs.run step Quiet raceStart actions = some s
      ∧ ∀ o, Action.next o ∈ actions → o = .ok)
    ∧ str "a/xn0" ∈ (s.sites 0).listed
    ∧ ((s.sites 0).tree.entry (str "a") (str "xn0")).isSome = true
    ∧ str "a/xn0" ∉ (s.sites 0).bucket := by
  obtain ⟨s, hs, h⟩ : ∃ s ∈ Runs.run step Quiet raceStart
      ([.next .ok, .next .ok, .delete 0 (str "a") (str sampleMarker)] ++ replicate 4 (.next .ok)),
      s.pc.isIdle = true ∧ str "a/xn0" ∈ (s.sites 0).listed
        ∧ ((s.sites 0).tree.entry (str "a") (str "xn0")).isSome = true
        ∧ str "a/xn0" ∉ (s.sites 0).bucket := by
    decide
  refine ⟨s, Runs.reach_of_run _ (.init rfl) hs, h.1, ⟨_, hs, fun o ho => ?_⟩, h.2⟩
  simp only [cons_append, nil_append, mem_cons, mem_replicate] at ho
  simpa using ho

lemma idle_of_isIdle {pc : Pc} (h : pc.isIdle = true) : pc = .idle := by
  cases pc <;> first | rfl | cases h

end Warphold.Fleet.Mirror
