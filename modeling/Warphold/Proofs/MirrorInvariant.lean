import Warphold.Proofs.AppendOnly
import Warphold.Proofs.MirrorWalk

/-!
# What a mirror run has done

At a target the run is not in, every listed key was handed to a call of `device`, and what the calls
did to the bucket stays (`Rested`). At the target it is in, the bucket agrees with how far the
current call has come (`Position`).
-/

namespace Warphold.Fleet.Mirror

open List Strings Option Function State Gateway
open Std (ExtTreeSet ExtTreeMap)

def Failure.soft : Failure → Bool
  | .cancelled | .listingRoot | .listingMirror | .reading .. | .uploading .. => false
  | _ => true

abbrev Errs := List (Str × Failure)

def Errs.soft (errs : Errs) : Prop := ∀ e ∈ errs, e.2.soft = true

lemma Errs.soft.mono {errs errs' : Errs} (hle : errs <+: errs') (h : Errs.soft errs') :
    Errs.soft errs := fun e he => h e (hle.subset he)

lemma Errs.not_soft {errs : Errs} {what : Str} {e : Failure} (he : e.soft = false) :
    ¬ Errs.soft (errs ++ [(what, e)]) := fun h => by
  have := h (what, e) (by simp)
  rw [he] at this
  exact Bool.noConfusion this

/-- What the calls of `device` have done to a target's bucket, which held `b₀` at first. -/
structure SiteInv (b₀ : Bucket) (t : Site) (calls : List (Str × List Str)) (errs : Errs) : Prop where
  untouched : ∀ k, (∀ c ∈ calls, ¬ Under c.1 k) → (k ∈ t.bucket ↔ k ∈ b₀)
  hid : ∀ k ∈ t.hidden, ∃ c ∈ calls, Under c.1 k ∧ k ∉ c.2
  kept : errs.soft → ∀ c ∈ t.processed, ∀ k ∈ c.2, k ∈ t.bucket
  exact : errs = [] → ∀ c ∈ t.processed, ∀ k ∈ t.bucket, Under c.1 k → k ∈ c.2

def Position (b : Bucket) (errs : Errs) : Pc → Prop
  | .mirrored f held after => (∀ k ∈ held, k ∈ b ∧ Under f.device k)
      ∧ ∀ k ∈ b, Under f.device k → k ∈ held ∨ Strings.lt after k = true
  | .copy f held todo _ => (∀ k ∈ held, k ∈ b ∧ Under f.device k)
      ∧ ∃ copied, f.objs = copied ++ todo ∧ (∀ k ∈ keysOf copied, k ∈ b)
        ∧ ∀ k ∈ b, Under f.device k → k ∈ held ∨ k ∈ keysOf copied
  | .hide f todo _ => (∀ k ∈ keysOf f.objs, k ∈ b)
      ∧ (∀ k ∈ todo, Under f.device k ∧ k ∉ keysOf f.objs)
      ∧ ∀ k ∈ b, Under f.device k → k ∈ keysOf f.objs ∨ k ∈ todo
  | .record f _ => (∀ k ∈ keysOf f.objs, k ∈ b)
      ∧ (errs = [] → ∀ k ∈ b, Under f.device k → k ∈ keysOf f.objs)
  | _ => True

def Pc.frame : Pc → Option Frame
  | .mirrored f _ _ | .copy f _ _ _ | .hide f _ _ | .record f _ => some f
  | _ => none

def Rested (b₀ : Bucket) (t : Site) (errs : Errs) : Prop :=
  SiteInv b₀ t t.processed errs ∧ (errs.soft → Finished t.listed t.processed)

def Active (b₀ : Bucket) (t : Site) (errs : Errs) : Pc → Prop
  | .idle | .targets => Rested b₀ t errs
  | .list w => SiteInv b₀ t t.processed errs ∧ Walked t.tree t.listed t.processed w []
  | pc => ∃ f, pc.frame = some f ∧ SiteInv b₀ t (t.processed ++ [f.call]) errs
      ∧ Called t.tree t.listed t.processed f ∧ Position t.bucket errs pc

section Site
variable {b₀ : Bucket} {t : Site} {calls : List (Str × List Str)} {errs errs' : Errs}

lemma SiteInv.mono (hle : errs <+: errs') (h : SiteInv b₀ t calls errs) :
    SiteInv b₀ t calls errs' :=
  ⟨h.untouched, h.hid, fun hs => h.kept (hs.mono hle),
    fun hnil => h.exact (prefix_nil.1 (hnil ▸ hle))⟩

lemma SiteInv.more (c : Str × List Str) (h : SiteInv b₀ t calls errs) :
    SiteInv b₀ t (calls ++ [c]) errs :=
  ⟨fun k hk => h.untouched k fun c' hc' => hk c' (mem_append_left _ hc'),
    fun k hk => by
      obtain ⟨c', hc', hck⟩ := h.hid k hk
      exact ⟨c', mem_append_left _ hc', hck⟩,
    h.kept, h.exact⟩

lemma Rested.mono (hle : errs <+: errs') (h : Rested b₀ t errs) : Rested b₀ t errs' :=
  ⟨h.1.mono hle, fun hs => h.2 (hs.mono hle)⟩

lemma Under.ne_nil {d k : Str} (h : Under d k) : k ≠ [] := by
  obtain ⟨n, rfl⟩ := h
  simp

lemma Arrived.active {pc : Pc} (h : Arrived t.tree t.listed t.processed pc)
    (hs : SiteInv b₀ t t.processed errs) : Active b₀ t errs pc := by
  cases pc with
  | idle => exact h.elim
  | targets => exact ⟨hs, fun _ => h⟩
  | list w => exact ⟨hs, h⟩
  | mirrored f held after =>
    obtain ⟨hcalled, rfl, rfl⟩ := h
    refine ⟨f, rfl, hs.more _, hcalled, fun k hk => absurd hk ExtTreeSet.not_mem_empty, ?_⟩
    exact fun k _ hu => .inr (nil_lt hu.ne_nil)
  | copy f held todo offsite => exact h.elim
  | hide f todo offsite => exact h.elim
  | record f offsite => exact h.elim

lemma Active.back (hd : t.tree.Devices) {f : Frame} (hs : SiteInv b₀ t (t.processed ++ [f.call]) errs)
    (hc : Called t.tree t.listed t.processed f)
    (hkept : errs.soft → ∀ k ∈ keysOf f.objs, k ∈ t.bucket)
    (hexact : errs = [] → ∀ k ∈ t.bucket, Under f.device k → k ∈ keysOf f.objs) :
    Active b₀ { t with processed := t.processed ++ [f.call] } errs (resume f) := by
  have hs' : SiteInv b₀ { t with processed := t.processed ++ [f.call] }
      (t.processed ++ [f.call]) errs := by
    refine ⟨hs.untouched, hs.hid, fun hsoft c hmem => ?_, fun hnil c hmem => ?_⟩
    · rcases mem_append.1 hmem with hmem | hmem
      · exact hs.kept hsoft c hmem
      · rw [mem_singleton.1 hmem]
        exact hkept hsoft
    · rcases mem_append.1 hmem with hmem | hmem
      · exact hs.exact hnil c hmem
      · rw [mem_singleton.1 hmem]
        exact hexact hnil
  rcases hret : f.ret with _ | ⟨w, page, truncated⟩ <;> simp only [Called, resume, hret] at hc ⊢
  · exact ⟨hs', fun _ => hc⟩
  · exact Arrived.active (t := { t with processed := t.processed ++ [f.call] }) (hc.scan hd _) hs'

lemma Active.abandon (hd : t.tree.Devices) {f : Frame} {what : Str} {e : Failure}
    (he : e.soft = false) (hs : SiteInv b₀ t (t.processed ++ [f.call]) errs)
    (hc : Called t.tree t.listed t.processed f) :
    Active b₀ { t with processed := t.processed ++ [f.call] } (errs ++ [(what, e)]) (resume f) :=
  Active.back hd (hs.mono (prefix_append _ _)) hc (fun h => absurd h (Errs.not_soft he))
    fun h => absurd h (by simp)

lemma SiteInv.insert {c : Str × List Str} {k : Str} {n : ℤ} (hc : Calls (t.processed ++ [c]))
    (hk : Under c.1 k) (h : SiteInv b₀ t (t.processed ++ [c]) errs) :
    SiteInv b₀ { t with bucket := t.bucket.insert k n } (t.processed ++ [c]) errs := by
  have hmem : ∀ k', k' ∈ t.bucket.insert k n ↔ k = k' ∨ k' ∈ t.bucket := fun k' => by
    rw [ExtTreeMap.mem_insert, Std.LawfulEqCmp.compare_eq_iff_eq]
  refine ⟨fun k' hk' => ?_, h.hid, fun hsoft c' hc' k' hk' => (hmem k').2 (.inr ?_),
    fun hnil c' hc' k' hk' hu => ?_⟩
  · rw [hmem, ← h.untouched k' hk']
    refine or_iff_right fun heq => ?_
    exact hk' c (by simp) (heq ▸ hk)
  · exact h.kept hsoft c' hc' k' hk'
  · rcases (hmem k').1 hk' with rfl | hk'
    · exact absurd hu (hc.other hc' hk)
    · exact h.exact hnil c' hc' k' hk' hu

lemma SiteInv.erase {c : Str × List Str} {k : Str} (hc : Calls (t.processed ++ [c]))
    (hk : Under c.1 k) (hgone : k ∉ c.2) (h : SiteInv b₀ t (t.processed ++ [c]) errs) :
    SiteInv b₀ { t with bucket := t.bucket.erase k, hidden := t.hidden ++ [k] }
      (t.processed ++ [c]) errs := by
  have hmem : ∀ k', k' ∈ t.bucket.erase k ↔ k ≠ k' ∧ k' ∈ t.bucket := fun k' => by
    rw [ExtTreeMap.mem_erase, ne_eq, Std.LawfulEqCmp.compare_eq_iff_eq]
  refine ⟨fun k' hk' => ?_, fun k' hk' => ?_, fun hsoft c' hc' k' hk' => (hmem k').2 ⟨?_, ?_⟩,
    fun hnil c' hc' k' hk' => h.exact hnil c' hc' k' ((hmem k').1 hk').2⟩
  · rw [hmem, ← h.untouched k' hk']
    refine and_iff_right fun heq => ?_
    exact hk' c (by simp) (heq ▸ hk)
  · rcases mem_append.1 hk' with hk' | hk'
    · exact h.hid k' hk'
    · rw [mem_singleton.1 hk']
      exact ⟨c, by simp, hk, hgone⟩
  · rintro rfl
    exact hc.other hc' hk (hc.under c' (mem_append_left _ hc') _ hk')
  · exact h.kept hsoft c' hc' k' hk'

end Site

structure Moves (b₀ : Bucket) (s s' : State) : Prop where
  others : ∀ i, i ≠ s.cur → s'.sites i = s.sites i
  cur : s'.cur = s.cur
  rest : s'.rest = s.rest
  errs : s.errs <+: s'.errs
  tree : s'.site.tree = s.site.tree
  active : Active b₀ s'.site s'.errs s'.pc

namespace State

open List Strings
variable (s : State) (t : Site)

@[simp] lemma setSite_site : (s.setSite t).site = t := update_self _ _ _

@[simp] lemma goto_site (pc : Pc) : (s.goto pc).site = s.site := rfl

@[simp] lemma goto_pc (pc : Pc) : (s.goto pc).pc = pc := rfl

@[simp] lemma goto_sites (pc : Pc) : (s.goto pc).sites = s.sites := rfl

@[simp] lemma count_site (f : Counters → Counters) : (s.count f).site = s.site := rfl

@[simp] lemma failAt_site (f : Frame) (e : Failure) : (s.failAt f e).site = s.site := rfl

lemma setSite_other {i : ℕ} (h : i ≠ s.cur) : (s.setSite t).sites i = s.sites i :=
  update_of_ne h _ _

@[simp] lemma back_site (f : Frame) :
    (s.back f).site = { s.site with processed := s.site.processed ++ [f.call] } :=
  update_self s.cur _ s.sites

end State

section Steps
variable {b₀ : Bucket} {s : State} {f : Frame} {held : ExtTreeSet Str}

lemma Moves.goto (s s' : State) (hsites : s'.sites = s.sites) (hcur : s'.cur = s.cur)
    (hrest : s'.rest = s.rest) (herrs : s.errs <+: s'.errs) {pc : Pc}
    (hact : Active b₀ s.site s'.errs pc) : Moves b₀ s (s'.goto pc) := by
  have hsite : (s'.goto pc).site = s.site := by
    show s'.sites s'.cur = s.sites s.cur
    rw [hsites, hcur]
  refine ⟨fun i _ => congrFun hsites i, hcur, hrest, herrs, by rw [hsite], ?_⟩
  rw [hsite]
  exact hact

lemma Moves.back {s' : State} (hothers : ∀ i, i ≠ s.cur → s'.sites i = s.sites i)
    (hcur : s'.cur = s.cur) (hrest : s'.rest = s.rest) (herrs : s.errs <+: s'.errs)
    (htree : s'.site.tree = s.site.tree)
    (hact : Active b₀ { s'.site with processed := s'.site.processed ++ [f.call] } s'.errs (resume f)) :
    Moves b₀ s (s'.back f) := by
  refine ⟨fun i hi => ?_, hcur, hrest, herrs, ?_, ?_⟩
  · exact (s'.setSite_other _ (hcur ▸ hi)).trans (hothers i hi)
  · rw [back_site]
    exact htree
  · rw [back_site]
    exact hact

lemma Moves.abandon (hd : s.site.tree.Devices) {e : Failure} (he : e.soft = false)
    (hs : SiteInv b₀ s.site (s.site.processed ++ [f.call]) s.errs)
    (hc : Called s.site.tree s.site.listed s.site.processed f) :
    Moves b₀ s ((s.failAt f e).back f) :=
  .back (fun _ _ => rfl) rfl rfl (prefix_append _ _) rfl (Active.abandon hd he hs hc)

lemma listLocal_moves (hd : s.site.tree.Devices) {w : Walk} (o : Outcome)
    (h : Active b₀ s.site s.errs (.list w)) : Moves b₀ s (listLocal s o w) := by
  obtain ⟨hs, hw⟩ := h
  unfold listLocal
  split
  · have hle : s.errs <+: (s.fail s.site.name .listingRoot).errs := prefix_append _ _
    have hact : Active b₀ s.site (s.fail s.site.name .listingRoot).errs .targets :=
      ⟨hs.mono hle, fun hsoft => absurd hsoft (Errs.not_soft rfl)⟩
    exact Moves.goto s (s.fail _ _) rfl rfl rfl hle hact
  · rename_i page truncated hlist
    have hok : o = .ok := by
      by_contra hne
      rw [if_neg hne] at hlist
      cases hlist
    rw [if_pos hok] at hlist
    obtain ⟨hpage, -⟩ := Local.list_all hlist
    have hs' : SiteInv b₀ { s.site with listed := s.site.listed ++ page.map (·.key) }
        s.site.processed s.errs := { hs with }
    have harrive : ∀ pc, Arrived s.site.tree (s.site.listed ++ page.map (·.key)) s.site.processed pc →
        Moves b₀ s ((s.setSite { s.site with listed := s.site.listed ++ page.map (·.key) }).goto pc) := by
      intro pc hpc
      refine ⟨fun i hi => s.setSite_other _ hi, rfl, rfl, prefix_rfl, ?_, ?_⟩
      · rw [goto_site, setSite_site]
      · rw [goto_site, setSite_site]
        exact Arrived.active (t := { s.site with listed := s.site.listed ++ page.map (·.key) }) hpc hs'
    simp only
    split
    · rename_i hlast
      refine harrive _ ?_
      rw [getLast?_eq_none_iff.1 hlast, map_nil, append_nil]
      exact hw.finished
    · rename_i last hlast
      exact harrive _ ((hw.nextPage hd hpage hlast).scan hd truncated)

lemma cloudList_spec (b : Bucket) (pre after : Str) (k : Str) :
    let r := Cloud.list b pre after listPage
    (k ∈ r.1 → k ∈ b ∧ hasPrefix k pre = true)
      ∧ (k ∈ b → hasPrefix k pre = true → lt after k = true →
        k ∈ r.1 ∨ r.2 = true ∧ ∃ last, r.1.getLast? = some last ∧ lt last k = true) := by
  intro r
  obtain ⟨rest, hrest⟩ : ∃ rest, b.keys.filter
      (fun k => hasPrefix k pre && lt after k) = rest := ⟨_, rfl⟩
  have hr : r = (rest.take maxKeys, decide (maxKeys < rest.length)) := by
    rw [← hrest]
    rfl
  have hmem : ∀ k, k ∈ rest ↔ k ∈ b ∧ hasPrefix k pre = true ∧ lt after k = true := by
    intro k
    rw [← hrest, mem_filter, ExtTreeMap.mem_keys, Bool.and_eq_true]
  have hsorted : rest.Pairwise fun a b => lt a b = true := by
    rw [← hrest]
    exact (ExtTreeMap.ordered_keys.imp fun h => lt_iff.2 h).filter _
  rw [hr]
  refine ⟨fun hk => ?_, fun hk hp ha => ?_⟩
  · obtain ⟨hkb, hkp, -⟩ := (hmem k).1 (mem_of_mem_take hk)
    exact ⟨hkb, hkp⟩
  · have hkr := (hmem k).2 ⟨hk, hp, ha⟩
    rcases mem_page id (by decide : maxKeys ≠ 0) hsorted hkr with hkr | ⟨hlong, hlast⟩
    · exact .inl hkr
    · exact .inr ⟨decide_eq_true hlong, hlast⟩

lemma listMirror_moves (hd : s.site.tree.Devices) {after : Str} (o : Outcome)
    (h : Active b₀ s.site s.errs (.mirrored f held after)) :
    Moves b₀ s (listMirror s o f held after) := by
  obtain ⟨f', hf', hs, hc, hheld, hrest⟩ := h
  cases hf'
  unfold listMirror
  split_ifs
  · exact Moves.abandon hd rfl hs hc
  have hspec := cloudList_spec s.site.bucket (f.device ++ [47]) after
  simp only at hspec ⊢
  generalize Cloud.list s.site.bucket (f.device ++ [47]) after listPage = r at hspec ⊢
  have hin : ∀ k, k ∈ held.insertMany r.1 ↔ k ∈ held ∨ k ∈ r.1 := fun k => by
    rw [ExtTreeSet.mem_insertMany_list, contains_iff_mem]
  have hheld' : ∀ k ∈ held.insertMany r.1, k ∈ s.site.bucket ∧ Under f.device k := fun k hk => by
    rcases (hin k).1 hk with hk | hk
    · exact hheld k hk
    · exact ⟨((hspec k).1 hk).1, hasPrefix_under.1 ((hspec k).1 hk).2⟩
  have hleft : ∀ k ∈ s.site.bucket, Under f.device k → k ∈ held.insertMany r.1
      ∨ r.2 = true ∧ ∃ last, r.1.getLast? = some last ∧ lt last k = true := fun k hk hu => by
    rcases hrest k hk hu with hk' | hlt
    · exact .inl ((hin k).2 (.inl hk'))
    · rcases (hspec k).2 hk (hasPrefix_under.2 hu) hlt with hk' | hmore
      · exact .inl ((hin k).2 (.inr hk'))
      · exact .inr hmore
  split
  · rename_i last _ hlast htr
    refine .goto s s rfl rfl rfl prefix_rfl ⟨f, rfl, hs, hc, hheld', fun k hk hu => ?_⟩
    rcases hleft k hk hu with hk | ⟨-, last', hlast', hlt⟩
    · exact .inl hk
    · rw [hlast, some.injEq] at hlast'
      exact .inr (hlast' ▸ hlt)
  · rename_i hstop
    refine .goto s s rfl rfl rfl prefix_rfl ⟨f, rfl, hs, hc, hheld', [], rfl, ?_, fun k hk hu => ?_⟩
    · exact fun k hk => absurd hk not_mem_nil
    · rcases hleft k hk hu with hk | ⟨htr, last, hlast, -⟩
      · exact .inl hk
      · exact absurd htr (hstop last hlast)

lemma objectName_cases (key : Str) :
    Cloud.objectName key = .error .errBadKey ∨ Cloud.objectName key = .ok key := by
  unfold Cloud.objectName
  split_ifs
  · exact .inl rfl
  · exact .inl rfl
  · exact .inr rfl

lemma cloudPut_cases {b b' : Bucket} {key : Str} {size : ℤ} {overwrite : Bool}
    {r : Except StoreErr ℤ} (h : Cloud.put b key size overwrite = (b', r)) :
    (b' = b ∧ (r = .error .errExists ∧ key ∈ b ∨ ∃ e, r = .error e ∧ e ≠ .errExists))
      ∨ (b' = b.insert key size ∧ r = .ok size) := by
  unfold Cloud.put at h
  rcases objectName_cases key with hn | hn <;> simp only [hn] at h
  · cases h
    exact .inl ⟨rfl, .inr ⟨_, rfl, by decide⟩⟩
  · split_ifs at h with hsize hex
    · cases h
      exact .inl ⟨rfl, .inr ⟨_, rfl, by decide⟩⟩
    · cases h
      rw [Bool.and_eq_true] at hex
      exact .inl ⟨rfl, .inl ⟨rfl, ExtTreeMap.contains_iff_mem.1 hex.2⟩⟩
    · cases h
      exact .inr ⟨rfl, rfl⟩

variable {offsite : ℤ}

lemma copyOne_moves (hd : s.site.tree.Devices) {x : ObjectInfo} {todo : List ObjectInfo}
    (o : Outcome) (h : Active b₀ s.site s.errs (.copy f held (x :: todo) offsite)) :
    Moves b₀ s (copyOne s o f held x todo offsite) := by
  obtain ⟨f', hf', hs, hc, hheld, copied, hobjs, hcopied, hrest⟩ := h
  cases hf'
  have hobjs' : f.objs = (copied ++ [x]) ++ todo := by rw [hobjs, append_assoc]; rfl
  have hcalls := hc.calls
  have hunder : Under f.device x.key := by
    refine hcalls.under f.call (by simp) x.key ?_
    show x.key ∈ keysOf f.objs
    rw [hobjs]
    simp
  have hnext : ∀ {b : Bucket}, x.key ∈ b → (∀ k, k ∈ s.site.bucket → k ∈ b) →
      (∀ k ∈ b, k = x.key ∨ k ∈ s.site.bucket) → ∀ offsite,
      Position b s.errs (.copy f held todo offsite) := by
    intro b hx hsub hsup offsite
    refine ⟨fun k hk => ⟨hsub k (hheld k hk).1, (hheld k hk).2⟩, copied ++ [x], hobjs', ?_, ?_⟩
    · intro k hk
      rw [keysOf, map_append, mem_append] at hk
      rcases hk with hk | hk
      · exact hsub k (hcopied k hk)
      · rw [mem_singleton.1 hk]
        exact hx
    · intro k hk hu
      rw [keysOf, map_append, mem_append]
      rcases hsup k hk with rfl | hk
      · exact .inr (.inr (by simp))
      · exact (hrest k hk hu).imp_right .inl
  have hstay : x.key ∈ s.site.bucket → ∀ offsite,
      Active b₀ s.site s.errs (.copy f held todo offsite) := fun hx offsite =>
    ⟨f, rfl, hs, hc, hnext hx (fun _ hk => hk) (fun _ hk => .inr hk) offsite⟩
  unfold copyOne
  split
  · exact Moves.abandon hd rfl hs hc
  split
  · rename_i hin
    exact Moves.goto s (s.count _) rfl rfl rfl prefix_rfl
      (hstay (hheld _ (ExtTreeSet.contains_iff_mem.1 hin)).1 _)
  split
  · exact Moves.abandon hd rfl hs hc
  rename_i info _
  simp only
  rcases hput : Cloud.put s.site.bucket x.key info.size s.site.plain with ⟨b, r⟩
  have hset : s.setBucket s.site.bucket = s := by
    show ({ s with sites := update s.sites s.cur (s.sites s.cur) } : State) = s
    rw [update_eq_self]
  rcases cloudPut_cases hput with ⟨rfl, hr⟩ | ⟨rfl, rfl⟩
  · simp only [hset]
    split
    · exact Moves.abandon hd rfl hs hc
    · rcases hr with ⟨rfl, hx⟩ | ⟨e, rfl, he⟩
      · exact Moves.goto s (s.count _) rfl rfl rfl prefix_rfl (hstay hx _)
      · split
        · rename_i heq
          cases heq
          exact absurd rfl he
        · exact Moves.abandon hd rfl hs hc
        · rename_i heq
          cases heq
  · have hs' := hs.insert (n := info.size) hcalls hunder
    have hsite : (s.setBucket (s.site.bucket.insert x.key info.size)).site
        = { s.site with bucket := s.site.bucket.insert x.key info.size } := s.setSite_site _
    have hothers : ∀ i, i ≠ s.cur →
        (s.setBucket (s.site.bucket.insert x.key info.size)).sites i = s.sites i :=
      fun i hi => s.setSite_other _ hi
    split
    · refine .back hothers rfl rfl (prefix_append _ _) (by rw [failAt_site, hsite]) ?_
      rw [failAt_site, hsite]
      exact Active.abandon (t := { s.site with bucket := s.site.bucket.insert x.key info.size }) hd rfl
        hs' hc
    · refine ⟨hothers, rfl, rfl, prefix_rfl, ?_, ?_⟩
      · rw [goto_site, count_site, hsite]
      · rw [goto_site, count_site, hsite]
        refine ⟨f, rfl, hs', hc, hnext ExtTreeMap.mem_insert_self (fun k hk => ?_) (fun k hk => ?_) _⟩
        · exact ExtTreeMap.mem_insert.2 (.inr hk)
        · rw [ExtTreeMap.mem_insert, Std.LawfulEqCmp.compare_eq_iff_eq] at hk
          exact hk.imp_left Eq.symm

lemma mem_goneKeys {k : Str} : k ∈ goneKeys f held ↔ k ∈ held ∧ k ∉ keysOf f.objs := by
  unfold goneKeys
  rw [mem_filter, ExtTreeSet.mem_toList, Bool.not_eq_true', ← Bool.not_eq_true,
    contains_iff_mem]

lemma hideBegin_moves (o : Outcome) (h : Active b₀ s.site s.errs (.copy f held [] offsite)) :
    Moves b₀ s (hideBegin s o f held offsite) := by
  obtain ⟨f', hf', hs, hc, hheld, copied, hobjs, hcopied, hrest⟩ := h
  cases hf'
  obtain rfl : copied = f.objs := by simpa using hobjs.symm
  have hfail : ∀ e : Failure, Active b₀ s.site (s.failAt f e).errs (.record f offsite) := fun e =>
    ⟨f, rfl, hs.mono (prefix_append _ _), hc, hcopied, fun hnil => absurd hnil (by
      simp [failAt, fail])⟩
  have hfail' : ∀ e : Failure, Moves b₀ s ((s.failAt f e).goto (.record f offsite)) := fun e =>
    Moves.goto s (s.failAt f e) rfl rfl rfl (prefix_append _ _) (hfail e)
  unfold hideBegin
  extract_lets gone limit r made s₁
  split_ifs with hnone
  · refine Moves.goto s s rfl rfl rfl prefix_rfl ⟨f, rfl, hs, hc, hcopied, fun _ k hk hu => ?_⟩
    by_contra hkeys
    have hgone : k ∈ gone := mem_goneKeys.2 ⟨(hrest k hk hu).resolve_right hkeys, hkeys⟩
    rw [hnone] at hgone
    exact absurd hgone not_mem_nil
  · exact hfail' _
  · exact hfail' _
  · exact hfail' _
  · exact Moves.goto s (s₁.failAt f .reserving) rfl rfl rfl (prefix_append _ _)
      (hfail .reserving)
  · refine Moves.goto s s₁ rfl rfl rfl prefix_rfl ⟨f, rfl, hs, hc, hcopied, ?_, ?_⟩
    · exact fun k hk => ⟨(hheld k (mem_goneKeys.1 hk).1).2, (mem_goneKeys.1 hk).2⟩
    · intro k hk hu
      by_cases hkeys : k ∈ keysOf f.objs
      · exact .inl hkeys
      · exact .inr (mem_goneKeys.2 ⟨(hrest k hk hu).resolve_right hkeys, hkeys⟩)

lemma cloudDelete_cases {b b' : Bucket} {key : Str} {r : Except StoreErr Unit}
    (h : Cloud.delete b key = (b', r)) :
    (b' = b ∧ (r = .error .errNotFound ∧ key ∉ b ∨ r = .error .errBadKey))
      ∨ (b' = b.erase key ∧ r = .ok ()) := by
  unfold Cloud.delete at h
  rcases objectName_cases key with hn | hn <;> simp only [hn] at h
  · cases h
    exact .inl ⟨rfl, .inr rfl⟩
  · split_ifs at h with hin
    · cases h
      exact .inr ⟨rfl, rfl⟩
    · cases h
      exact .inl ⟨rfl, .inl ⟨rfl, fun hmem => hin (ExtTreeMap.contains_iff_mem.2 hmem)⟩⟩

lemma hideOne_moves {k : Str} {todo : List Str} (o : Outcome)
    (h : Active b₀ s.site s.errs (.hide f (k :: todo) offsite)) :
    Moves b₀ s (hideOne s o f k todo offsite) := by
  obtain ⟨f', hf', hs, hc, hkeys, htodo, hrest⟩ := h
  cases hf'
  have hcalls := hc.calls
  obtain ⟨hunder, hgone⟩ := htodo k mem_cons_self
  have htodo' : ∀ k' ∈ todo, Under f.device k' ∧ k' ∉ keysOf f.objs :=
    fun k' hk' => htodo k' (.tail _ hk')
  have hfail : ∀ e : Failure, Moves b₀ s ((s.failAt f e).goto (.record f offsite)) := fun e =>
    Moves.goto s (s.failAt f e) rfl rfl rfl (prefix_append _ _)
      ⟨f, rfl, hs.mono (prefix_append _ _), hc, hkeys, fun hnil => absurd hnil (by
        simp [failAt, fail])⟩
  unfold hideOne
  split
  · exact hfail _
  simp only
  rcases hdel : Cloud.delete s.site.bucket k with ⟨b, r⟩
  rcases cloudDelete_cases hdel with ⟨rfl, ⟨rfl, hk⟩ | rfl⟩ | ⟨rfl, rfl⟩
  · refine Moves.goto s s rfl rfl rfl prefix_rfl ⟨f, rfl, hs, hc, hkeys, htodo', ?_⟩
    intro k' hk' hu
    rcases hrest k' hk' hu with hin | hin
    · exact .inl hin
    · rcases mem_cons.1 hin with rfl | hin
      · exact absurd hk' hk
      · exact .inr hin
  · exact hfail _
  · have hs' := hs.erase hcalls hunder hgone
    have hmem : ∀ k', k' ∈ s.site.bucket.erase k ↔ k ≠ k' ∧ k' ∈ s.site.bucket := fun k' => by
      rw [ExtTreeMap.mem_erase, ne_eq, Std.LawfulEqCmp.compare_eq_iff_eq]
    have hkeys' : ∀ k' ∈ keysOf f.objs, k' ∈ s.site.bucket.erase k := fun k' hk' =>
      (hmem k').2 ⟨fun heq => hgone (heq ▸ hk'), hkeys k' hk'⟩
    have ht : ∀ t, (s.setSite t).addHid.site = t := s.setSite_site
    have hothers : ∀ t i, i ≠ s.cur → (s.setSite t).addHid.sites i = s.sites i :=
      fun t i hi => s.setSite_other t hi
    dsimp only
    split
    · refine ⟨hothers _, rfl, rfl, prefix_append _ _, ?_, ?_⟩
      · rw [goto_site, failAt_site, ht]
      · rw [goto_site, failAt_site, ht]
        exact ⟨f, rfl, hs'.mono (prefix_append _ _), hc, hkeys', fun hnil => absurd hnil (by
          simp [failAt, fail, goto])⟩
    · refine ⟨hothers _, rfl, rfl, prefix_rfl, ?_, ?_⟩
      · rw [goto_site, count_site, ht]
      · rw [goto_site, count_site, ht]
        refine ⟨f, rfl, hs', hc, hkeys', htodo', fun k' hk' hu => ?_⟩
        obtain ⟨hne, hk'⟩ := (hmem k').1 hk'
        rcases hrest k' hk' hu with hin | hin
        · exact .inl hin
        · exact .inr ((mem_cons.1 hin).resolve_left (Ne.symm hne))

lemma recordDevice_moves (hd : s.site.tree.Devices) (o : Outcome)
    (h : Active b₀ s.site s.errs (.record f offsite)) :
    Moves b₀ s (recordDevice s o f offsite) := by
  obtain ⟨f', hf', hs, hc, hkeys, hexact⟩ := h
  cases hf'
  unfold recordDevice
  split_ifs
  · refine .back (fun _ _ => rfl) rfl rfl (prefix_append _ _) rfl ?_
    exact Active.back hd (hs.mono (prefix_append _ _)) hc (fun _ => hkeys)
      fun hnil => absurd hnil (by simp [failAt, fail])
  · exact .back (fun _ _ => rfl) rfl rfl prefix_rfl rfl
      (Active.back hd hs hc (fun _ => hkeys) hexact)
  · exact .back (fun _ _ => rfl) rfl rfl prefix_rfl rfl
      (Active.back hd hs hc (fun _ => hkeys) hexact)

end Steps

/-- Devices create objects and delete session markers during a run, and no device's name is a prefix
of another's. -/
def Quiet (s : State) : Action → Prop
  | .next _ | .delete .. => True
  | .put i device _ _ =>
    ∀ d ∈ (s.sites i).tree.keys, d ≠ tmpDir → d <+: device ∨ device <+: d → d = device
  | .start .. | .change .. => False

instance (s : State) : ∀ a, Decidable (Quiet s a)
  | .start .. | .next .. | .put .. | .delete .. | .change .. => by unfold Quiet; infer_instance

/-- A run that has just started. -/
structure Started (s : State) : Prop where
  pc : s.pc = .targets
  errs : s.errs = []
  nodup : s.rest.Nodup
  devices : ∀ i, (s.sites i).tree.Devices
  fresh : ∀ i, (s.sites i).listed = [] ∧ (s.sites i).processed = [] ∧ (s.sites i).hidden = []

structure Inv (b₀ : ℕ → Bucket) (s : State) : Prop where
  devices : ∀ i, (s.sites i).tree.Devices
  others : ∀ i, i ≠ s.cur → Rested (b₀ i) (s.sites i) s.errs
  here : Active (b₀ s.cur) s.site s.errs s.pc
  nodup : s.rest.Nodup
  fresh : ∀ i ∈ s.rest, (s.sites i).listed = [] ∧ (s.sites i).processed = []
  apart : s.pc ≠ .targets → s.cur ∉ s.rest

lemma Started.rested {s : State} (h : Started s) (i : ℕ) :
    Rested (s.sites i).bucket (s.sites i) s.errs := by
  obtain ⟨hl, hp, hh⟩ := h.fresh i
  refine ⟨⟨fun _ _ => Iff.rfl, ?_, ?_, ?_⟩, fun _ => ?_⟩
  · rw [hh]
    exact fun _ hk => absurd hk not_mem_nil
  · rw [hp]
    exact fun _ _ hc => absurd hc not_mem_nil
  · rw [hp]
    exact fun _ _ hc => absurd hc not_mem_nil
  · rw [hl, hp]
    exact ⟨fun _ hk => absurd hk not_mem_nil, fun _ hc => absurd hc not_mem_nil,
      nodup_nil, fun _ hc => absurd hc not_mem_nil,
      fun _ hc => absurd hc not_mem_nil, fun _ hk => absurd hk not_mem_nil⟩

lemma Started.inv {s : State} (h : Started s) : Inv (fun i => (s.sites i).bucket) s where
  devices := h.devices
  others := fun i _ => h.rested i
  here := by
    rw [h.pc]
    exact h.rested s.cur
  nodup := h.nodup
  fresh := fun i _ => ⟨(h.fresh i).1, (h.fresh i).2.1⟩
  apart := fun hpc => absurd h.pc hpc

section Run
variable {b₀ : ℕ → Bucket} {s s' : State}

lemma Inv.move (hi : Inv b₀ s) (hpc : s.pc ≠ .targets) (hm : Moves (b₀ s.cur) s s') : Inv b₀ s' := by
  have hother : ∀ i ∈ s.rest, i ≠ s.cur := fun i hmem heq => hi.apart hpc (heq ▸ hmem)
  refine ⟨fun i => ?_, fun i hne => ?_, ?_, hm.rest ▸ hi.nodup, fun i hmem => ?_, fun _ => ?_⟩
  · by_cases hic : i = s.cur
    · rw [hic, ← hm.cur]
      show s'.site.tree.Devices
      rw [hm.tree]
      exact hi.devices s.cur
    · rw [hm.others i hic]
      exact hi.devices i
  · rw [hm.cur] at hne
    rw [hm.others i hne]
    exact (hi.others i hne).mono hm.errs
  · rw [hm.cur]
    exact hm.active
  · rw [hm.rest] at hmem
    rw [hm.others i (hother i hmem)]
    exact hi.fresh i hmem
  · rw [hm.cur, hm.rest]
    exact hi.apart hpc

lemma Inv.nextTarget (hi : Inv b₀ s) (hpc : s.pc = .targets) (o : Outcome) :
    Inv b₀ (nextTarget s o) := by
  have hall : ∀ i, Rested (b₀ i) (s.sites i) s.errs := fun i => by
    by_cases hic : i = s.cur
    · have := hi.here
      rw [hpc] at this
      rw [hic]
      exact this
    · exact hi.others i hic
  unfold Mirror.nextTarget
  split
  · rename_i hrest
    refine { hi with here := hall s.cur, apart := fun _ => ?_ }
    show s.cur ∉ s.rest
    rw [hrest]
    exact not_mem_nil
  · rename_i t rest hrest
    have hnodup := hi.nodup
    rw [hrest, nodup_cons] at hnodup
    have hfresh : ∀ i ∈ rest, (s.sites i).listed = [] ∧ (s.sites i).processed = [] :=
      fun i hmem => hi.fresh i (hrest ▸ .tail _ hmem)
    have hle : ∀ what e, s.errs <+: (s.fail what e).errs := fun _ _ => prefix_append _ _
    simp only
    split_ifs
    · exact ⟨hi.devices, fun i _ => (hall i).mono (hle _ _), (hall _).mono (hle _ _), nodup_nil,
        fun _ hmem => absurd hmem not_mem_nil, fun _ => not_mem_nil⟩
    · refine ⟨hi.devices, fun i _ => hall i, ?_, hnodup.2, hfresh, fun hne => absurd hpc hne⟩
      show Active _ (s.sites t) s.errs s.pc
      rw [hpc]
      exact hall t
    · refine ⟨hi.devices, fun i _ => (hall i).mono (hle _ _), ?_, hnodup.2, hfresh,
        fun hne => absurd hpc hne⟩
      show Active _ (s.sites t) (s.fail _ _).errs s.pc
      rw [hpc]
      exact (hall t).mono (hle _ _)
    · refine ⟨hi.devices, fun i _ => (hall i).mono (hle _ _), ?_, hnodup.2, hfresh,
        fun hne => absurd hpc hne⟩
      show Active _ (s.sites t) (s.fail _ _).errs s.pc
      rw [hpc]
      exact (hall t).mono (hle _ _)
    · refine ⟨hi.devices, fun i _ => hall i, ⟨(hall t).1, ?_⟩, hnodup.2, hfresh, fun _ => hnodup.1⟩
      obtain ⟨hl, hp⟩ := hi.fresh t (hrest ▸ mem_cons_self)
      show Walked (s.sites t).tree (s.sites t).listed (s.sites t).processed ⟨[], [], []⟩ []
      rw [hl, hp]
      exact ⟨.nil, fun _ hk => absurd hk not_mem_nil, fun _ hk => absurd hk not_mem_nil,
        [], rfl, .start⟩

lemma next_moves (hi : Inv b₀ s) (hpc : s.pc ≠ .targets) {o : Outcome}
    (h : next s o = some s') : Moves (b₀ s.cur) s s' := by
  have hd : s.site.tree.Devices := hi.devices s.cur
  have hhere := hi.here
  unfold Mirror.next at h
  split at h <;> rename_i heq <;> cases h <;> try rw [heq] at hhere
  · exact absurd heq hpc
  · exact listLocal_moves hd o hhere
  · exact listMirror_moves hd o hhere
  · exact copyOne_moves hd o hhere
  · exact hideBegin_moves o hhere
  · exact hideOne_moves o hhere
  · obtain ⟨f, hf, hs, hc, hkeys, -, hrest⟩ := hhere
    cases hf
    refine Moves.goto s s rfl rfl rfl prefix_rfl ⟨_, rfl, hs, hc, hkeys, ?_⟩
    exact fun _ k hk hu => (hrest k hk hu).resolve_right not_mem_nil
  · exact recordDevice_moves hd o hhere

lemma next_targets (hpc : s.pc = .targets) {o : Outcome} (h : next s o = some s') :
    s' = nextTarget s o := by
  unfold Mirror.next at h
  rw [hpc] at h
  exact (some.inj h).symm

lemma Inv.next (hi : Inv b₀ s) {o : Outcome} (h : next s o = some s') : Inv b₀ s' := by
  by_cases hpc : s.pc = .targets
  · rw [next_targets hpc h]
    exact hi.nextTarget hpc o
  · exact hi.move hpc (next_moves hi hpc h)

lemma Active.grow {b : Bucket} {t : Site} {errs : Errs} {pc : Pc} {t' : Tree}
    (hsub : ∀ d ∈ t.tree, d ∈ t') (h : Active b t errs pc) :
    Active b { t with tree := t' } errs pc := by
  have hcalled : ∀ f, Called t.tree t.listed t.processed f → Called t' t.listed t.processed f := by
    intro f hf
    unfold Called at hf ⊢
    split at hf
    · exact hf
    · exact hf.grow hsub
  have hsite : ∀ calls, SiteInv b t calls errs → SiteInv b { t with tree := t' } calls errs :=
    fun _ hs => { hs with }
  cases pc with
  | idle => exact ⟨hsite _ h.1, h.2⟩
  | targets => exact ⟨hsite _ h.1, h.2⟩
  | list w => exact ⟨hsite _ h.1, h.2.grow hsub⟩
  | mirrored f held after =>
    obtain ⟨f, hf, hs, hc, hp⟩ := h
    exact ⟨f, hf, hsite _ hs, hcalled f hc, hp⟩
  | copy f held todo offsite =>
    obtain ⟨f, hf, hs, hc, hp⟩ := h
    exact ⟨f, hf, hsite _ hs, hcalled f hc, hp⟩
  | hide f todo offsite =>
    obtain ⟨f, hf, hs, hc, hp⟩ := h
    exact ⟨f, hf, hsite _ hs, hcalled f hc, hp⟩
  | record f offsite =>
    obtain ⟨f, hf, hs, hc, hp⟩ := h
    exact ⟨f, hf, hsite _ hs, hcalled f hc, hp⟩

lemma Inv.setTree (hi : Inv b₀ s) {i : ℕ} {t' : Tree} (hsub : ∀ d ∈ (s.sites i).tree, d ∈ t')
    (hd : t'.Devices) : Inv b₀ (s.setTree i t') := by
  have hsite : ∀ j, (s.setTree i t').sites j
      = if j = i then { s.sites i with tree := t' } else s.sites j := fun j => by
    by_cases hj : j = i
    · subst hj
      rw [if_pos rfl]
      exact update_self _ _ _
    · rw [if_neg hj]
      exact update_of_ne hj _ _
  refine ⟨fun j => ?_, fun j hne => ?_, ?_, hi.nodup, fun j hmem => ?_, hi.apart⟩
  · rw [hsite]
    split_ifs
    · exact hd
    · exact hi.devices j
  · rw [hsite]
    split_ifs with hj
    · subst hj
      have := hi.others j hne
      exact ⟨⟨this.1.untouched, this.1.hid, this.1.kept, this.1.exact⟩, this.2⟩
    · exact hi.others j hne
  · show Active (b₀ s.cur) ((s.setTree i t').sites s.cur) s.errs s.pc
    rw [hsite]
    split_ifs with hj
    · subst hj
      exact hi.here.grow hsub
    · exact hi.here
  · rw [hsite]
    split_ifs with hj
    · subst hj
      exact hi.fresh j hmem
    · exact hi.fresh j hmem

lemma localDelete_cases (now : ℤ) (t : Tree) (device name : Str) :
    (Local.delete (.healthy now) t (device ++ 47 :: name)).1 = t
      ∨ (∃ o, t.entry device name = some (.file o))
        ∧ (Local.delete (.healthy now) t (device ++ 47 :: name)).1 = t.removeEntry device name := by
  by_cases hkey : checkKey (device ++ 47 :: name) = none
  · rcases hdel : Local.delete (.healthy now) t (device ++ 47 :: name) with ⟨t', e⟩
    exact Local.delete_cases rfl (checkKey_append hkey).1 hdel
  · left
    have hctx : (Faults.healthy now).ctxErr = false := rfl
    simp only [Local.delete, hctx, Bool.false_eq_true, ↓reduceIte, ne_eq, hkey, not_false_eq_true]

lemma Inv.step (hi : Inv b₀ s) {a : Action} (hok : Quiet s a) (h : Mirror.step s a = some s') :
    Inv b₀ s' := by
  have hins : ∀ {t : Tree} {d device : Str} {x}, d ∈ t.insert device x ↔ d = device ∨ d ∈ t := by
    intro t d device x
    rw [ExtTreeMap.mem_insert, Std.LawfulEqCmp.compare_eq_iff_eq, eq_comm]
  cases a with
  | start => exact hok.elim
  | next o => exact hi.next h
  | put i device name obj =>
    simp only [Mirror.step] at h
    split_ifs at h with hput
    cases h
    obtain ⟨hslash, -, -⟩ := checkKey_append hput.1
    have hne : device ≠ [] := by
      rintro rfl
      have := hput.1
      revert this
      simp [checkKey]
      split_ifs <;> simp
    refine hi.setTree (fun d hd => hins.2 (.inr hd)) ⟨fun d hd htmp => ?_, fun d hd e he htd hte hp => ?_⟩
    · rcases hins.1 hd with rfl | hd
      · exact ⟨hslash, hne⟩
      · exact (hi.devices i).named d hd htmp
    · rcases hins.1 hd with rfl | hd' <;> rcases hins.1 he with rfl | he'
      · rfl
      · exact (hok e (ExtTreeMap.mem_keys.2 he') hte (.inr hp)).symm
      · exact hok d (ExtTreeMap.mem_keys.2 hd') htd (.inl hp)
      · exact (hi.devices i).free d hd' e he' htd hte hp
  | delete i device name =>
    simp only [Mirror.step] at h
    split_ifs at h
    cases h
    rcases localDelete_cases s.now (s.sites i).tree device name with heq | ⟨⟨o, ho⟩, heq⟩
    · rw [heq]
      exact hi.setTree (fun d hd => hd) (hi.devices i)
    · rw [heq]
      have hmem : ∀ d, d ∈ (s.sites i).tree.removeEntry device name ↔ d ∈ (s.sites i).tree := by
        intro d
        refine hins.trans (or_iff_right_of_imp ?_)
        rintro rfl
        exact mem_of_entry ho
      exact hi.setTree (fun d hd => (hmem d).2 hd)
        ⟨fun d hd => (hi.devices i).named d ((hmem d).1 hd),
          fun d hd e he => (hi.devices i).free d ((hmem d).1 hd) e ((hmem e).1 he)⟩
  | change => exact hok.elim

end Run

end Warphold.Fleet.Mirror
