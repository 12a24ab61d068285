import Warphold.Proofs.MirrorInvariant

/-!
# A mirror run converges

While the local stores stay as they are, what is left to list at a target is what lies beyond the
cursor of its walk (`Listing.all`); so a run without failures has listed everything, and each device
was handed to `device` with all its keys.
-/

namespace Warphold.Fleet.Mirror

open Strings List State Gateway
open Std (ExtTreeSet ExtTreeMap)

def Frame.more (f : Frame) : Option Str :=
  match f.ret with
  | none => none
  | some (w, _, truncated) => if truncated then some w.after else none

def Pc.more : Pc → Option Str
  | .list w => some w.after
  | .mirrored f _ _ | .copy f _ _ _ | .hide f _ _ | .record f _ => f.more
  | .idle | .targets => none

lemma callDevice_more {w : Walk} {ret : Option (Walk × List ObjectInfo × Bool)} {pc : Pc}
    (h : (⟨w.device, w.objs, ret⟩ : Frame).more = pc.more) : (callDevice w ret pc).more = pc.more := by
  unfold callDevice
  split_ifs
  · rfl
  · exact h

lemma scan_more (truncated : Bool) : ∀ (w : Walk) (page : List ObjectInfo),
    (scan truncated w page).more = if truncated then some w.after else none
  | w, [] => by
    simp only [scan]
    split_ifs
    · rfl
    · exact callDevice_more rfl
  | w, o :: page => by
    simp only [scan, apply_ite Pc.more]
    rw [callDevice_more (by rw [scan_more]; rfl), scan_more truncated _ page,
      scan_more truncated _ page, scan_more truncated _ page, ite_self, ite_self]

lemma scan_ne_idle (truncated : Bool) : ∀ (w : Walk) (page : List ObjectInfo),
    scan truncated w page ≠ .idle
  | w, [] => by
    simp only [scan, callDevice]
    split_ifs <;> exact Pc.noConfusion
  | w, o :: page => by
    simp only [scan, callDevice]
    split_ifs
    · exact scan_ne_idle truncated _ page
    · exact scan_ne_idle truncated _ page
    · exact Pc.noConfusion
    · exact scan_ne_idle truncated _ page

lemma resume_ne_idle (f : Frame) : resume f ≠ .idle := by
  unfold resume
  split
  · exact Pc.noConfusion
  · exact scan_ne_idle _ _ _

lemma resume_more (f : Frame) : (resume f).more = f.more := by
  rcases hret : f.ret with _ | ⟨w, page, truncated⟩ <;> simp only [resume, Frame.more, hret]
  · rfl
  · exact scan_more _ _ _

def SameSite (t t' : Site) : Prop :=
  ∃ b p h, t' = { t with bucket := b, processed := p, hidden := h }

lemma SameSite.refl (t : Site) : SameSite t t := ⟨_, _, _, rfl⟩

structure Stays (f : Frame) (s s' : State) : Prop where
  site : SameSite s.site s'.site
  more : s'.pc.more = f.more
  busy : s'.pc ≠ .idle

section Stays
variable {s : State} {f : Frame} {held : ExtTreeSet Str}

lemma Stays.goto (s s' : State) {pc : Pc} (hs : SameSite s.site s'.site)
    (hpc : pc.frame = some f) : Stays f s (s'.goto pc) := by
  refine ⟨hs, ?_, ?_⟩
  · cases pc <;> cases hpc <;> rfl
  · rintro hidle
    rw [show pc = .idle from hidle] at hpc
    cases hpc

lemma Stays.back (s s' : State) (hs : SameSite s.site s'.site) : Stays f s (s'.back f) := by
  obtain ⟨b, p, h, hs⟩ := hs
  refine ⟨⟨b, p ++ [f.call], h, ?_⟩, resume_more f, resume_ne_idle f⟩
  rw [back_site, hs]

lemma listMirror_stays (o : Outcome) (after : Str) : Stays f s (listMirror s o f held after) := by
  unfold listMirror
  split_ifs
  · exact .back s _ (.refl s.site)
  · simp only
    split
    · exact .goto s s (.refl s.site) rfl
    · exact .goto s s (.refl s.site) rfl

lemma copyOne_stays (o : Outcome) (x : ObjectInfo) (todo : List ObjectInfo) (offsite : ℤ) :
    Stays f s (copyOne s o f held x todo offsite) := by
  have hput : ∀ b, SameSite s.site (s.setBucket b).site := fun b => ⟨b, _, _, s.setSite_site _⟩
  unfold copyOne
  split
  · exact .back s _ (.refl s.site)
  split
  · exact .goto s _ (.refl s.site) rfl
  split
  · exact .back s _ (.refl s.site)
  rename_i info _
  simp only
  generalize Cloud.put s.site.bucket x.key info.size s.site.plain = r
  split
  · exact .back s _ (hput r.1)
  split
  · exact .goto s _ (hput r.1) rfl
  · exact .back s _ (hput r.1)
  · exact .goto s _ (hput r.1) rfl

lemma hideBegin_stays (o : Outcome) (offsite : ℤ) : Stays f s (hideBegin s o f held offsite) := by
  unfold hideBegin
  simp only
  split_ifs
  all_goals exact .goto s _ (.refl s.site) rfl

lemma hideOne_stays (o : Outcome) (k : Str) (todo : List Str) (offsite : ℤ) :
    Stays f s (hideOne s o f k todo offsite) := by
  have hdel : ∀ b h, SameSite s.site (s.setSite { s.site with bucket := b, hidden := h }).addHid.site :=
    fun b h => ⟨b, s.site.processed, h, Function.update_self s.cur _ s.sites⟩
  unfold hideOne
  split
  · exact .goto s _ (.refl s.site) rfl
  simp only
  generalize Cloud.delete s.site.bucket k = r
  split
  · exact .goto s s (.refl s.site) rfl
  · exact .goto s _ (.refl s.site) rfl
  split
  · exact .goto s _ (hdel r.1 (s.site.hidden ++ [k])) rfl
  · exact .goto s _ (hdel r.1 (s.site.hidden ++ [k])) rfl

lemma recordDevice_stays (o : Outcome) (offsite : ℤ) : Stays f s (recordDevice s o f offsite) := by
  unfold recordDevice
  split_ifs
  · exact .back s _ (.refl s.site)
  · exact .back s _ (.refl s.site)
  · exact .back s _ (.refl s.site)

lemma next_stays {o : Outcome} {s' : State} (hf : s.pc.frame = some f)
    (h : next s o = some s') : Stays f s s' := by
  unfold next at h
  split at h <;> rename_i hpc <;> rw [hpc] at hf <;> cases h <;> cases hf
  · exact listMirror_stays o _
  · exact copyOne_stays o _ _ _
  · exact hideBegin_stays o _
  · exact hideOne_stays o _ _ _
  · exact .goto s s (.refl s.site) rfl
  · exact recordDevice_stays o _

end Stays

def RunOnly (_ : State) : Action → Prop
  | .next _ => True
  | _ => False

instance (s : State) : ∀ a, Decidable (RunOnly s a)
  | .start .. | .next .. | .put .. | .delete .. | .change .. => by unfold RunOnly; infer_instance

def Pc.isIdle : Pc → Bool
  | .idle => true
  | _ => false

/-- How the listings of a run stand, while nothing else changes the stores. -/
structure Listing (s₀ s : State) : Prop where
  site : ∀ i, ∃ l b p h,
    s.sites i = { s₀.sites i with listed := l, bucket := b, processed := p, hidden := h }
  sub : ∀ i, ∀ k ∈ (s.sites i).listed, k ∈ keysOf (s₀.sites i).tree.objects
  all : s.errs = [] → ∀ i ∈ s₀.rest, (s₀.sites i).mirrors = true → i ∈ s.rest
    ∨ ∀ k ∈ keysOf (s₀.sites i).tree.objects, k ∈ (s.sites i).listed
      ∨ i = s.cur ∧ ∃ a, s.pc.more = some a ∧ Strings.lt a k = true
  done : s.errs = [] → s.pc = .idle → s.rest = []

lemma list_all_mem {t : Tree} (hd : t.Devices) {now : ℤ} {after : Str} {page : List ObjectInfo}
    {truncated : Bool} (h : Local.list (.healthy now) t [] after listPage = .ok (page, truncated))
    {k : Str} (hk : k ∈ keysOf t.objects) (hlt : lt after k = true) :
    k ∈ keysOf page
      ∨ truncated = true ∧ ∃ last, page.getLast? = some last ∧ lt last.key k = true := by
  obtain ⟨hpage, htr⟩ := Local.list_all h
  obtain ⟨o, ho, rfl⟩ := mem_map.1 hk
  have hrest : o ∈ t.objects.filter fun o => lt after o.key := mem_filter.2 ⟨ho, hlt⟩
  have hsorted := hd.pairwise_objects.filter fun o => lt after o.key
  generalize t.objects.filter (fun o => lt after o.key) = rest at hpage htr hrest hsorted
  rcases mem_page ObjectInfo.key (by decide : maxKeys ≠ 0) hsorted hrest with hmem | ⟨hlong, hlast⟩
  · rw [← hpage] at hmem
    exact .inl (mem_map_of_mem hmem)
  · rw [← hpage] at hlast
    exact .inr ⟨by rw [htr]; simpa using hlong, hlast⟩

section Listing
variable {s₀ s s' : State}

lemma Listing.tree (hl : Listing s₀ s) (i : ℕ) : (s.sites i).tree = (s₀.sites i).tree := by
  obtain ⟨l, b, p, h, heq⟩ := hl.site i
  rw [heq]

lemma Listing.failed (hl : Listing s₀ s) (hs : s'.sites = s.sites) (herrs : s'.errs ≠ []) :
    Listing s₀ s' :=
  ⟨hs ▸ hl.site, hs ▸ hl.sub, fun h => absurd h herrs, fun h => absurd h herrs⟩

lemma Listing.nextTarget (hl : Listing s₀ s) (hd : ∀ i, (s₀.sites i).tree.Devices)
    (hpc : s.pc = .targets) (o : Outcome) : Listing s₀ (nextTarget s o) := by
  have hall : s.errs = [] → ∀ i ∈ s₀.rest, (s₀.sites i).mirrors = true → i ∈ s.rest
      ∨ ∀ k ∈ keysOf (s₀.sites i).tree.objects, k ∈ (s.sites i).listed := by
    intro herrs i hi hm
    refine (hl.all herrs i hi hm).imp_right fun h k hk => (h k hk).resolve_right ?_
    rintro ⟨-, a, ha, -⟩
    rw [hpc] at ha
    cases ha
  have hfailed : ∀ {what e}, (s.fail what e).errs ≠ [] := by simp [fail]
  unfold Mirror.nextTarget
  split
  · rename_i hrest
    refine ⟨hl.site, hl.sub, fun herrs i hi hm => ?_, fun _ _ => hrest⟩
    exact (hall herrs i hi hm).imp_right fun h k hk => .inl (h k hk)
  · rename_i t rest hrest
    have hmirrors : (s.sites t).mirrors = (s₀.sites t).mirrors := by
      obtain ⟨l, b, p, h, heq⟩ := hl.site t
      rw [heq]
      rfl
    -- a target that was not taken off the list stands where it stood
    have hother : s.errs = [] → ∀ i ∈ s₀.rest, (s₀.sites i).mirrors = true → i ≠ t → i ∈ rest
        ∨ ∀ k ∈ keysOf (s₀.sites i).tree.objects, k ∈ (s.sites i).listed := by
      intro herrs i hi hm hne
      refine (hall herrs i hi hm).imp_left fun hmem => ?_
      rw [hrest] at hmem
      exact (mem_cons.1 hmem).resolve_left hne
    simp only
    split_ifs with h₁ h₂
    · exact hl.failed rfl hfailed
    · refine ⟨hl.site, hl.sub, fun herrs i hi hm => ?_, fun _ hidle => ?_⟩
      · refine (hother herrs i hi hm ?_).imp_right fun h k hk => .inl (h k hk)
        rintro rfl
        rw [show State.site _ = s.sites i from rfl, hmirrors, hm] at h₂
        exact absurd h₂ (by decide)
      · exact absurd (hpc.symm.trans hidle) Pc.noConfusion
    · exact hl.failed rfl hfailed
    · exact hl.failed rfl hfailed
    · refine ⟨hl.site, hl.sub, fun herrs i hi hm => ?_, fun _ hidle => Pc.noConfusion hidle⟩
      by_cases hne : i = t
      · subst hne
        refine .inr fun k hk => .inr ⟨rfl, [], rfl, ?_⟩
        obtain ⟨x, hx, rfl⟩ := mem_map.1 hk
        exact nil_lt (mem_objects_known (hd i) hx).2.2.ne_nil
      · exact (hother herrs i hi hm hne).imp_right fun h k hk => .inl (h k hk)

lemma Listing.listLocal (hl : Listing s₀ s) (hd : ∀ i, (s₀.sites i).tree.Devices) {w : Walk}
    (hpc : s.pc = .list w) (o : Outcome) : Listing s₀ (listLocal s o w) := by
  unfold Mirror.listLocal
  split
  · have hfailed : (s.fail s.site.name .listingRoot).errs ≠ [] := by simp [fail]
    exact hl.failed rfl hfailed
  · rename_i page truncated hlist
    have hok : o = .ok := by
      by_contra hne
      rw [if_neg hne] at hlist
      cases hlist
    rw [if_pos hok, show s.site.tree = (s₀.sites s.cur).tree from hl.tree s.cur] at hlist
    have hpage := (Local.list_all hlist).1
    have hgoto : ∀ pc : Pc, pc ≠ .idle → (∀ k ∈ keysOf (s₀.sites s.cur).tree.objects,
        lt w.after k = true → k ∈ keysOf page ∨ ∃ a, pc.more = some a
          ∧ lt a k = true) →
        Listing s₀ ((s.setSite { s.site with listed := s.site.listed ++ page.map (·.key) }).goto pc) := by
      intro pc hidle hmore
      have hsites : ∀ i, i ≠ s.cur → (s.setSite
          { s.site with listed := s.site.listed ++ page.map (·.key) }).sites i = s.sites i :=
        fun i hi => s.setSite_other _ hi
      have hcur : (s.setSite { s.site with listed := s.site.listed ++ page.map (·.key) }).sites s.cur
          = { s.site with listed := s.site.listed ++ page.map (·.key) } := s.setSite_site _
      refine ⟨fun i => ?_, fun i => ?_, fun herrs i hi hm => ?_, fun _ h => absurd h hidle⟩
      · by_cases hi : i = s.cur
        · subst hi
          obtain ⟨l, b, p, h, heq⟩ := hl.site s.cur
          refine ⟨s.site.listed ++ page.map (·.key), b, p, h, hcur.trans ?_⟩
          rw [show s.site = _ from heq]
        · obtain ⟨l, b, p, h, heq⟩ := hl.site i
          exact ⟨l, b, p, h, (hsites i hi).trans heq⟩
      · intro k hk
        by_cases hi : i = s.cur
        · subst hi
          rw [goto_sites, hcur, mem_append] at hk
          rcases hk with hk | hk
          · exact hl.sub s.cur k hk
          · obtain ⟨x, hx, rfl⟩ := mem_map.1 hk
            rw [hpage] at hx
            exact mem_map_of_mem (mem_of_mem_filter (mem_of_mem_take hx))
        · rw [goto_sites, hsites i hi] at hk
          exact hl.sub i k hk
      · refine (hl.all herrs i hi hm).imp_right fun h k hk => ?_
        by_cases hi : i = s.cur
        · subst hi
          rw [goto_sites, hcur, mem_append]
          rcases h k hk with hk' | ⟨-, a, ha, hlt⟩
          · exact .inl (.inl hk')
          · rw [hpc] at ha
            cases ha
            exact (hmore k hk hlt).imp .inr fun hm => ⟨rfl, hm⟩
        · rw [goto_sites, hsites i hi]
          exact .inl ((h k hk).resolve_right fun h => hi h.1)
    simp only
    split
    · rename_i hlast
      refine hgoto _ ?_ fun k hk hlt => ?_
      · unfold callDevice
        split_ifs <;> exact Pc.noConfusion
      · rcases list_all_mem (hd s.cur) hlist hk hlt with hmem | ⟨-, last, hlast', -⟩
        · exact .inl hmem
        · rw [hlast] at hlast'
          cases hlast'
    · rename_i last hlast
      refine hgoto _ ?_ fun k hk hlt => ?_
      · exact scan_ne_idle _ _ _
      · refine (list_all_mem (hd s.cur) hlist hk hlt).imp_right ?_
        rintro ⟨htr, last', hlast', hlt'⟩
        rw [hlast, Option.some.injEq] at hlast'
        subst hlast'
        exact ⟨last.key, by rw [scan_more, if_pos htr], hlt'⟩

lemma Listing.stay (hl : Listing s₀ s) {f : Frame} (hf : s.pc.frame = some f) {b : Bucket}
    (hm : Moves b s s') (hst : Stays f s s') : Listing s₀ s' := by
  obtain ⟨b, p, hh, hsite⟩ := hst.site
  have hmore : s.pc.more = f.more := by
    rcases hpc : s.pc with _ | _ | _ | _ | _ | _ | _ <;> rw [hpc] at hf <;> cases hf <;> rfl
  have hcur : s'.sites s.cur = { s.site with bucket := b, processed := p, hidden := hh } := by
    rw [← hsite, State.site, hm.cur]
  have hlisted : ∀ i, (s'.sites i).listed = (s.sites i).listed := fun i => by
    by_cases hic : i = s.cur
    · rw [hic, hcur]
      rfl
    · rw [hm.others i hic]
  refine ⟨fun i => ?_, fun i => hlisted i ▸ hl.sub i, fun herrs i hmem hmir => ?_,
    fun _ h => absurd h hst.busy⟩
  · by_cases hic : i = s.cur
    · subst hic
      obtain ⟨l, b', p', h', heq⟩ := hl.site s.cur
      refine ⟨l, b, p, hh, hcur.trans ?_⟩
      rw [show s.site = _ from heq]
    · rw [hm.others i hic]
      exact hl.site i
  · have hnil : s.errs = [] := prefix_nil.1 (herrs ▸ hm.errs)
    rw [hm.rest, hm.cur, hst.more, hlisted, ← hmore]
    exact hl.all hnil i hmem hmir

lemma Listing.next (hl : Listing s₀ s) (hd : ∀ i, (s₀.sites i).tree.Devices) {b₀ : ℕ → Bucket}
    (hi : Inv b₀ s) {o : Outcome} (h : next s o = some s') : Listing s₀ s' := by
  by_cases hpc : s.pc = .targets
  · rw [next_targets hpc h]
    exact hl.nextTarget hd hpc o
  have hm := next_moves hi hpc h
  rcases hlist : s.pc with _ | _ | w | _ | _ | _ | _
  · unfold Mirror.next at h
    rw [hlist] at h
    cases h
  · exact absurd hlist hpc
  · unfold Mirror.next at h
    rw [hlist] at h
    rw [← Option.some.inj h]
    exact hl.listLocal hd hlist o
  all_goals
    exact hl.stay (by rw [hlist]; rfl) hm (next_stays (by rw [hlist]; rfl) h)

end Listing

lemma Inv.rested {b₀ : ℕ → Bucket} {s : State} (hi : Inv b₀ s) (hidle : s.pc = .idle) (i : ℕ) :
    Rested (b₀ i) (s.sites i) s.errs := by
  by_cases hic : i = s.cur
  · have hhere := hi.here
    rw [hidle] at hhere
    rw [hic]
    exact hhere
  · exact hi.others i hic

def Proceeds (s₀ s : State) : Prop := Inv (fun i => (s₀.sites i).bucket) s ∧ Listing s₀ s

/-- A run that ends without failures handed every device with local objects to `device` once, with
all its keys. The mirror then has of those devices what the local store has; only keys that are not
there were hidden; and nothing of another device was touched. -/
theorem reach_converged {s₀ s : State} (h₀ : Started s₀)
    (h : Runs.Reach step RunOnly (· = s₀) s) (hidle : s.pc = .idle) (herrs : s.errs = []) {i : ℕ}
    (hi : i ∈ s₀.rest) (hm : (s₀.sites i).mirrors = true) :
    let keys := keysOf (s₀.sites i).tree.objects
    let calls := (s.sites i).processed
    ((calls.map Prod.fst).Nodup ∧ (∀ d, d ∈ calls.map Prod.fst ↔ ∃ k ∈ keys, deviceOf k = d)
        ∧ ∀ c ∈ calls, ∀ k, k ∈ c.2 ↔ k ∈ keys ∧ deviceOf k = c.1)
      ∧ (∀ d ∈ calls.map Prod.fst, ∀ k, Under d k → (k ∈ (s.sites i).bucket ↔ k ∈ keys))
      ∧ (∀ k ∈ (s.sites i).hidden, k ∉ keys)
      ∧ ∀ k, (∀ k' ∈ keys, ¬ Under (deviceOf k') k) →
        (k ∈ (s.sites i).bucket ↔ k ∈ (s₀.sites i).bucket) := by
  have hinv : Proceeds s₀ s := by
    refine h.invariant ?_ fun s a s' hs hok hstep => ?_
    · rintro s rfl
      refine ⟨h₀.inv, fun i => ⟨_, _, _, _, rfl⟩, fun i k hk => ?_, fun _ i hi _ => .inl hi, fun _ hp => ?_⟩
      · rw [(h₀.fresh i).1] at hk
        exact absurd hk not_mem_nil
      · rw [h₀.pc] at hp
        exact Pc.noConfusion hp
    · cases a with
      | next o => exact ⟨hs.1.next hstep, hs.2.next h₀.devices hs.1 hstep⟩
      | start => exact hok.elim
      | put => exact hok.elim
      | delete => exact hok.elim
      | change => exact hok.elim
  obtain ⟨hinv, hl⟩ := hinv
  obtain ⟨hsite, hfin⟩ := hinv.rested hidle i
  have hsoft : Errs.soft s.errs := herrs ▸ fun _ he => absurd he not_mem_nil
  have hfin := hfin hsoft
  have hlisted : ∀ k, k ∈ (s.sites i).listed ↔ k ∈ keysOf (s₀.sites i).tree.objects := by
    refine fun k => ⟨hl.sub i k, fun hk => ?_⟩
    rcases hl.all herrs i hi hm with hrest | hall
    · rw [hl.done herrs hidle] at hrest
      exact absurd hrest not_mem_nil
    · refine (hall k hk).resolve_right ?_
      rintro ⟨-, a, ha, -⟩
      rw [hidle] at ha
      cases ha
  have hmem : ∀ c ∈ (s.sites i).processed, ∀ k, k ∈ c.2
      ↔ k ∈ keysOf (s₀.sites i).tree.objects ∧ deviceOf k = c.1 := fun c hc k => by
    rw [hfin.complete c hc, mem_filter, hlisted, decide_eq_true_eq]
  have hdev : ∀ d, d ∈ (s.sites i).processed.map Prod.fst
      ↔ ∃ k ∈ keysOf (s₀.sites i).tree.objects, deviceOf k = d := fun d => by
    constructor
    · intro hd
      obtain ⟨c, hc, rfl⟩ := mem_map.1 hd
      obtain ⟨k, hk⟩ := exists_mem_of_ne_nil _ (hfin.nonempty c hc)
      exact ⟨k, (hmem c hc k).1 hk⟩
    · rintro ⟨k, hk, rfl⟩
      exact hfin.among k ((hlisted k).2 hk)
  refine ⟨⟨hfin.nodup, hdev, hmem⟩, fun d hd k hu => ?_, fun k hk hin => ?_, fun k hk => ?_⟩
  · obtain ⟨c, hc, rfl⟩ := mem_map.1 hd
    have hk := hmem c hc k
    rw [hu.deviceOf (hfin.slash c hc), and_iff_left rfl] at hk
    rw [← hk]
    exact ⟨fun h => hsite.exact herrs c hc k h hu, fun h => hsite.kept hsoft c hc k h⟩
  · obtain ⟨c, hc, hu, hnot⟩ := hsite.hid k hk
    exact hnot ((hmem c hc k).2 ⟨hin, hu.deviceOf (hfin.slash c hc)⟩)
  · refine hsite.untouched k fun c hc hu => ?_
    obtain ⟨k', hk', hd⟩ := (hdev c.1).1 (mem_map_of_mem hc)
    exact hk k' hk' (hd ▸ hu)

/-- Two devices, one with an object to upload and one to hide, and a third without local objects. -/
theorem reach_converged_sample : ∃ s₀ s, Started s₀ ∧ Runs.Reach step RunOnly (· = s₀) s
    ∧ s.pc = .idle ∧ s.errs = [] ∧ (s.sites 0).hidden = [str "a/p1"]
    ∧ ∀ k, Under (str "a") k →
      (k ∈ (s.sites 0).bucket ↔ k ∈ keysOf (sampleTree [("a", "p2"), ("a", "q"), ("b", "p")]).objects) := by
  let t := sampleTree [("a", "p2"), ("a", "q"), ("b", "p")]
  let s₀ := start (.sample (.sample t (sampleBucket ["a/p1", "a/p2", "c/p"]))) 0 [] [] [0]
  have hdev : ∀ d ∈ t, d = str "a" ∨ d = str "b" := by
    intro d hd
    have hkeys : t.keys = [str "a", str "b"] := by decide
    have := ExtTreeMap.mem_keys.2 hd
    rw [hkeys] at this
    simpa using this
  have h₀ : Started s₀ := by
    refine ⟨rfl, rfl, by decide, fun i => ⟨fun d hd _ => ?_, fun d hd e he _ _ hp => ?_⟩,
      fun i => ⟨rfl, rfl, rfl⟩⟩
    · rcases hdev d hd with rfl | rfl <;> decide
    · rcases hdev d hd with rfl | rfl <;> rcases hdev e he with rfl | rfl
      · rfl
      · exact absurd (hasPrefix_iff.2 hp) (by decide)
      · exact absurd (hasPrefix_iff.2 hp) (by decide)
      · rfl
  obtain ⟨s, hs, hidle, herrs, hhid⟩ : ∃ s ∈ Runs.run step RunOnly s₀ (replicate 14 (.next .ok)),
      s.pc.isIdle = true ∧ s.errs = [] ∧ (s.sites 0).hidden = [str "a/p1"] := by
    decide +kernel
  have hidle : s.pc = .idle := by
    rcases hpc : s.pc <;> rw [hpc] at hidle <;> first | rfl | cases hidle
  have hreach : Runs.Reach step RunOnly (· = s₀) s := Runs.reach_of_run _ (.init rfl) hs
  have hconv := reach_converged h₀ hreach hidle herrs (i := 0) (by decide) rfl
  refine ⟨s₀, s, h₀, hreach, hidle, herrs, hhid, fun k hk => ?_⟩
  refine hconv.2.1 (str "a") ?_ k hk
  rw [hconv.1.2.1]
  exact ⟨str "a/q", by decide, by decide⟩

end Warphold.Fleet.Mirror
