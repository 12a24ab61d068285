import Warphold.Proofs.HideGuard
import Warphold.Proofs.Listing

/-!
# The walk of a mirror run

The keys a run lists are in the order of keys, so the devices they belong to come one after the
other and each is handed to `device` once, with all its listed keys (`Grouped`, `Walked.scan`).
-/

namespace Warphold.Fleet.Mirror

open Strings List Gateway
open Std (ExtTreeSet ExtTreeMap)

abbrev keysOf (objs : List ObjectInfo) : List Str := objs.map (·.key)

/-- A key in the directory of a device. -/
def Under (d k : Str) : Prop := ∃ n, k = d ++ [47] ++ n

lemma Under.deviceOf {d k : Str} (h : Under d k) (hd : 47 ∉ d) : deviceOf k = d := by
  obtain ⟨n, rfl⟩ := h
  exact deviceOf_append hd n

lemma hasPrefix_under {d k : Str} : hasPrefix k (d ++ [47]) = true ↔ Under d k := by
  rw [hasPrefix_iff]
  exact ⟨fun ⟨n, h⟩ => ⟨n, h.symm⟩, fun ⟨n, h⟩ => ⟨n, h.symm⟩⟩

def Known (t : Tree) (k : Str) : Prop := deviceOf k ∈ t ∧ deviceOf k ≠ tmpDir ∧ Under (deviceOf k) k

section Order
variable {t : Tree} {k k' : Str}

lemma Known.deviceOf_lt (h : t.Devices) (hk : Known t k) (hk' : Known t k')
    (hlt : lt k k' = true) :
    deviceOf k = deviceOf k' ∨ lt (deviceOf k) (deviceOf k') = true := by
  by_contra hne
  rw [not_or, Bool.not_eq_true] at hne
  have hgt : lt (deviceOf k') (deviceOf k) = true := by
    by_contra hge
    exact hne.1 (eq_of_not_lt hne.2 (by simpa using hge))
  obtain ⟨hmem, htmp, n, hkey⟩ := hk
  obtain ⟨hmem', htmp', n', hkey'⟩ := hk'
  have hback : lt k' k = true := by
    rw [hkey, hkey', append_assoc, append_assoc]
    refine lt_append hgt (fun hpre => ?_) _ _
    exact hne.1 (h.free _ hmem' _ hmem htmp' htmp hpre).symm
  rw [lt_asymm hlt] at hback
  exact Bool.noConfusion hback

lemma mem_objects_known {t : Tree} (h : t.Devices) {o : ObjectInfo} (ho : o ∈ t.objects) :
    Known t o.key := by
  obtain ⟨d, n, obj, htmp, hentry, rfl⟩ := mem_objects.1 ho
  have hmem : d ∈ t := by
    rw [ExtTreeMap.mem_iff_isSome_getElem?]
    unfold Tree.entry at hentry
    rcases ht : t[d]? with _ | ents <;> rw [ht] at hentry
    · cases hentry
    · rfl
  have hdev : deviceOf (d ++ [47] ++ n) = d := deviceOf_append (h.named d hmem htmp).1 n
  show Known t (d ++ [47] ++ n)
  unfold Known
  rw [hdev]
  exact ⟨hmem, htmp, n, rfl⟩

lemma Known.cut (h : t.Devices) (hk : Known t k) :
    (cut k 47).2.2 = true ∧ deviceOf k ≠ [] := by
  obtain ⟨hmem, htmp, n, hkey⟩ := hk
  obtain ⟨hslash, hne⟩ := h.named _ hmem htmp
  refine ⟨?_, hne⟩
  rw [hkey, append_assoc, singleton_append, cut_append hslash]

end Order

/-- The keys seen so far are those of the calls of `device` and those collected for the next one;
each has all the keys of its device. -/
structure Grouped (calls : List (Str × List Str)) (w : Walk) (seen : List Str) : Prop where
  objs : keysOf w.objs = seen.filter fun k => deviceOf k = w.device
  among : ∀ k ∈ seen, deviceOf k = w.device ∨ deviceOf k ∈ calls.map Prod.fst
  earlier : ∀ c ∈ calls, Strings.lt c.1 w.device = true
  complete : ∀ c ∈ calls, c.2 = seen.filter fun k => deviceOf k = c.1
  nodup : (calls.map Prod.fst).Nodup
  slash : 47 ∉ w.device ∧ ∀ c ∈ calls, 47 ∉ c.1
  nonempty : ∀ c ∈ calls, c.2 ≠ []
  under : ∀ k ∈ seen, Under (deviceOf k) k
  fresh : seen = [] → calls = [] ∧ w.objs = []
  started : seen ≠ [] → w.device ≠ [] ∧ w.objs ≠ []

structure Finished (listed : List Str) (calls : List (Str × List Str)) : Prop where
  among : ∀ k ∈ listed, deviceOf k ∈ calls.map Prod.fst
  complete : ∀ c ∈ calls, c.2 = listed.filter fun k => deviceOf k = c.1
  nodup : (calls.map Prod.fst).Nodup
  slash : ∀ c ∈ calls, 47 ∉ c.1
  nonempty : ∀ c ∈ calls, c.2 ≠ []
  under : ∀ k ∈ listed, Under (deviceOf k) k

namespace Grouped
variable {t : Tree} {calls : List (Str × List Str)} {w : Walk} {seen : List Str} {o : ObjectInfo}

lemma start : Grouped [] ⟨[], [], []⟩ [] where
  objs := rfl
  among := fun _ hk => absurd hk not_mem_nil
  earlier := fun _ hc => absurd hc not_mem_nil
  complete := fun _ hc => absurd hc not_mem_nil
  nodup := nodup_nil
  slash := ⟨not_mem_nil, fun _ hc => absurd hc not_mem_nil⟩
  nonempty := fun _ hc => absurd hc not_mem_nil
  under := fun _ hk => absurd hk not_mem_nil
  fresh := fun _ => ⟨rfl, rfl⟩
  started := fun h => absurd rfl h

lemma after (h : Grouped calls w seen) (after : Str) : Grouped calls { w with after := after } seen :=
  { h with }

lemma finish (h : Grouped calls w seen) (hne : seen ≠ []) :
    Finished seen (calls ++ [(w.device, keysOf w.objs)]) where
  among := fun k hk => by
    rw [map_append, mem_append]
    rcases h.among k hk with hk | hk
    · exact .inr (by simp [hk])
    · exact .inl hk
  complete := fun c hc => by
    rcases mem_append.1 hc with hc | hc
    · exact h.complete c hc
    · rw [mem_singleton] at hc
      rw [hc]
      exact h.objs
  nodup := by
    rw [map_append, nodup_append]
    refine ⟨h.nodup, nodup_singleton _, ?_⟩
    intro a ha b hb hab
    rw [map_singleton, mem_singleton] at hb
    obtain ⟨c, hc, rfl⟩ := mem_map.1 ha
    have hlt := h.earlier c hc
    rw [hab, hb, lt_irrefl] at hlt
    exact Bool.noConfusion hlt
  slash := fun c hc => by
    rcases mem_append.1 hc with hc | hc
    · exact h.slash.2 c hc
    · rw [mem_singleton.1 hc]
      exact h.slash.1
  nonempty := fun c hc => by
    rcases mem_append.1 hc with hc | hc
    · exact h.nonempty c hc
    · rw [mem_singleton.1 hc]
      simpa using (h.started hne).2
  under := h.under

lemma under_append (h : Grouped calls w seen) (ho : Under (deviceOf o.key) o.key) :
    ∀ k ∈ seen ++ [o.key], Under (deviceOf k) k := by
  intro k hk
  rcases mem_append.1 hk with hk | hk
  · exact h.under k hk
  · rw [mem_singleton.1 hk]
    exact ho

lemma same (h : Grouped calls w seen) (ho : Under (deviceOf o.key) o.key)
    (hdev : deviceOf o.key = w.device) (hne : w.device ≠ []) : Grouped calls { w with objs := w.objs ++ [o] } (seen ++ [o.key]) where
  __ := h
  objs := by
    show keysOf (w.objs ++ [o]) = _
    rw [keysOf, map_append, filter_append, ← h.objs]
    simp [hdev]
  among := fun k hk => by
    rcases mem_append.1 hk with hk | hk
    · exact h.among k hk
    · rw [mem_singleton.1 hk]
      exact .inl hdev
  complete := fun c hc => by
    have hc' : deviceOf o.key ≠ c.1 := by
      intro heq
      have hlt := h.earlier c hc
      rw [← heq, hdev, lt_irrefl] at hlt
      exact Bool.noConfusion hlt
    rw [filter_append, ← h.complete c hc]
    simp [hc']
  under := h.under_append ho
  fresh := fun hnil => absurd hnil (by simp)
  started := fun _ => ⟨hne, by simp⟩

lemma later (h : Grouped calls w seen) (ho : Under (deviceOf o.key) o.key)
    (hlt : lt w.device (deviceOf o.key) = true) (hne : seen ≠ []) :
    Grouped (calls ++ [(w.device, keysOf w.objs)]) { w with device := deviceOf o.key, objs := [o] }
      (seen ++ [o.key]) := by
  have hf := h.finish hne
  have hlater : ∀ c ∈ calls ++ [(w.device, keysOf w.objs)],
      lt c.1 (deviceOf o.key) = true := by
    intro c hc
    rcases mem_append.1 hc with hc | hc
    · exact lt_trans (h.earlier c hc) hlt
    · rw [mem_singleton.1 hc]
      exact hlt
  have hother : ∀ c ∈ calls ++ [(w.device, keysOf w.objs)], deviceOf o.key ≠ c.1 := by
    intro c hc heq
    have := hlater c hc
    rw [← heq, lt_irrefl] at this
    exact Bool.noConfusion this
  refine ⟨?_, ?_, hlater, ?_, hf.nodup, ⟨cut_fst_notMem _ _, hf.slash⟩,
    hf.nonempty, h.under_append ho, fun hnil => absurd hnil (by simp), fun _ => ⟨?_, by simp⟩⟩
  · have hnone : seen.filter (fun k => deviceOf k = deviceOf o.key) = [] := by
      rw [filter_eq_nil_iff]
      intro k hk heq
      obtain ⟨c, hc, hck⟩ := mem_map.1 (hf.among k hk)
      exact hother c hc (by rw [hck]; exact (of_decide_eq_true heq).symm)
    show keysOf [o] = _
    rw [filter_append, hnone]
    simp
  · intro k hk
    rcases mem_append.1 hk with hk | hk
    · exact .inr (hf.among k hk)
    · rw [mem_singleton.1 hk]
      exact .inl rfl
  · intro c hc
    rw [filter_append, ← hf.complete c hc]
    simp [hother c hc]
  · intro hnil
    rw [show ({ w with device := deviceOf o.key, objs := [o] } : Walk).device = deviceOf o.key from rfl]
      at hnil
    rw [hnil] at hlt
    have := lt_asymm hlt
    rcases hw : w.device with _ | ⟨b, d⟩ <;> rw [hw] at hlt this
    · rw [lt_irrefl] at hlt
      exact Bool.noConfusion hlt
    · exact Bool.noConfusion (this ▸ nil_lt (cons_ne_nil b d))

lemma first (ho : Under (deviceOf o.key) o.key) (hne : deviceOf o.key ≠ []) (after : Str) :
    Grouped [] ⟨after, deviceOf o.key, [o]⟩ [o.key] where
  objs := by simp
  among := fun k hk => .inl (by rw [mem_singleton.1 hk])
  earlier := fun _ hc => absurd hc not_mem_nil
  complete := fun _ hc => absurd hc not_mem_nil
  nodup := nodup_nil
  slash := ⟨cut_fst_notMem _ _, fun _ hc => absurd hc not_mem_nil⟩
  nonempty := fun _ hc => absurd hc not_mem_nil
  under := fun k hk => by
    rw [mem_singleton.1 hk]
    exact ho
  fresh := fun hnil => absurd hnil (by simp)
  started := fun _ => ⟨hne, by simp⟩

end Grouped

def Frame.call (f : Frame) : Str × List Str := (f.device, keysOf f.objs)

structure Walked (t : Tree) (listed : List Str) (calls : List (Str × List Str)) (w : Walk)
    (page : List ObjectInfo) : Prop where
  sorted : listed.Pairwise fun a b => Strings.lt a b = true
  known : ∀ k ∈ listed, Known t k
  below : ∀ k ∈ listed, ∀ k', Strings.lt w.after k' = true → Strings.lt k k' = true
  seen : ∃ seen, listed = seen ++ keysOf page ∧ Grouped calls w seen

def Called (t : Tree) (listed : List Str) (calls : List (Str × List Str)) (f : Frame) : Prop :=
  match f.ret with
  | none => Finished listed (calls ++ [f.call])
  | some (w, page, _) => Walked t listed (calls ++ [f.call]) w page

def Arrived (t : Tree) (listed : List Str) (calls : List (Str × List Str)) : Pc → Prop
  | .targets => Finished listed calls
  | .list w => Walked t listed calls w []
  | .mirrored f held after => Called t listed calls f ∧ held = ∅ ∧ after = []
  | _ => False

namespace Walked
variable {t : Tree} {listed : List Str} {calls : List (Str × List Str)} {w : Walk}
  {page : List ObjectInfo}

lemma finished (h : Walked t listed calls w []) :
    Arrived t listed calls (callDevice w none .targets) := by
  obtain ⟨seen, hseen, hg⟩ := h.seen
  rw [keysOf, map_nil, append_nil] at hseen
  subst hseen
  unfold callDevice
  split_ifs with hnone
  · have hnil : listed = [] := by
      by_contra hne
      rcases hnone with hnone | hnone
      · exact (hg.started hne).1 hnone
      · exact (hg.started hne).2 hnone
    obtain ⟨hcalls, -⟩ := hg.fresh hnil
    subst hnil hcalls
    exact ⟨fun _ hk => absurd hk not_mem_nil, fun _ hc => absurd hc not_mem_nil,
      nodup_nil, fun _ hc => absurd hc not_mem_nil,
      fun _ hc => absurd hc not_mem_nil, fun _ hk => absurd hk not_mem_nil⟩
  · refine ⟨?_, rfl, rfl⟩
    refine hg.finish fun hnil => hnone ?_
    exact .inr (hg.fresh hnil).2

lemma scan (hd : t.Devices) (truncated : Bool) : ∀ {w : Walk} {page : List ObjectInfo},
    Walked t listed calls w page → Arrived t listed calls (scan truncated w page)
  | w, [], h => by
    unfold Mirror.scan
    split_ifs
    · exact h
    · exact h.finished
  | w, o :: page, h => by
    obtain ⟨seen, hseen, hg⟩ := h.seen
    have hseen' : listed = (seen ++ [o.key]) ++ keysOf page := by
      rw [hseen, append_assoc]
      rfl
    have hknown : Known t o.key := h.known _ (by rw [hseen']; simp)
    obtain ⟨hfound, hne⟩ := hknown.cut hd
    have hmove : ∀ w' : Walk, w'.after = w.after → Grouped calls w' (seen ++ [o.key]) →
        Walked t listed calls w' page :=
      fun w' ha hg' => ⟨h.sorted, h.known, ha ▸ h.below, _, hseen', hg'⟩
    unfold Mirror.scan
    rw [if_neg (by simp only [hfound]; simpa [deviceOf] using hne)]
    simp only [show (cut o.key 47).1 = deviceOf o.key from rfl]
    by_cases hdev : deviceOf o.key = w.device
    · rw [if_neg (not_not.2 hdev)]
      exact scan hd truncated (hmove _ rfl (hg.same hknown.2.2 hdev (hdev ▸ hne)))
    · rw [if_pos hdev]
      unfold callDevice
      by_cases hnil : seen = []
      · obtain ⟨hcalls, hobjs⟩ := hg.fresh hnil
        rw [if_pos (.inr hobjs)]
        refine scan hd truncated (hmove ⟨w.after, deviceOf o.key, [o]⟩ rfl ?_)
        rw [hcalls, hnil]
        exact Grouped.first hknown.2.2 hne _
      · obtain ⟨hwd, hwo⟩ := hg.started hnil
        rw [if_neg (not_or.2 ⟨hwd, hwo⟩)]
        refine ⟨⟨h.sorted, h.known, h.below, _, hseen', hg.later hknown.2.2 ?_ hnil⟩, rfl, rfl⟩
        -- some key seen is of the device collected, and precedes the new one
        obtain ⟨x, hx⟩ := exists_mem_of_ne_nil _ hwo
        have hmem : x.key ∈ seen.filter fun k => deviceOf k = w.device :=
          hg.objs ▸ mem_map_of_mem hx
        rw [mem_filter, decide_eq_true_eq] at hmem
        have hsorted := h.sorted
        rw [hseen, pairwise_append] at hsorted
        have hlt := hsorted.2.2 _ hmem.1 o.key mem_cons_self
        have hx' : Known t x.key := h.known _ (by rw [hseen]; exact mem_append_left _ hmem.1)
        rcases hx'.deviceOf_lt hd hknown hlt with heq | hlt
        · exact absurd (heq.symm.trans hmem.2) hdev
        · rw [← hmem.2]
          exact hlt

lemma nextPage (hd : t.Devices) (h : Walked t listed calls w []) {page : List ObjectInfo}
    {last : ObjectInfo} {n : ℕ}
    (hpage : page = (t.objects.filter fun o => lt w.after o.key).take n)
    (hlast : page.getLast? = some last) :
    Walked t (listed ++ keysOf page) calls { w with after := last.key } page := by
  obtain ⟨seen, hseen, hg⟩ := h.seen
  rw [keysOf, map_nil, append_nil] at hseen
  have hmem : ∀ o ∈ page, o ∈ t.objects ∧ lt w.after o.key = true := fun o ho => by
    rw [hpage] at ho
    exact mem_filter.1 (mem_of_mem_take ho)
  have hpw : page.Pairwise fun o p => lt o.key p.key = true :=
    hpage ▸ (hd.pairwise_objects.filter _).sublist (take_sublist _ _)
  have hcross : ∀ k ∈ listed, ∀ o ∈ page, lt k o.key = true :=
    fun k hk o ho => h.below k hk _ (hmem o ho).2
  obtain ⟨front, rfl⟩ : ∃ front, page = front ++ [last] := by
    obtain ⟨front, hfront⟩ := getLast?_eq_some_iff.1 hlast
    exact ⟨front, hfront⟩
  refine ⟨?_, ?_, ?_, seen, by rw [hseen], hg.after _⟩
  · rw [pairwise_append]
    refine ⟨h.sorted, pairwise_map.2 hpw, fun k hk k' hk' => ?_⟩
    obtain ⟨o, ho, rfl⟩ := mem_map.1 hk'
    exact hcross k hk o ho
  · intro k hk
    rcases mem_append.1 hk with hk | hk
    · exact h.known k hk
    · obtain ⟨o, ho, rfl⟩ := mem_map.1 hk
      exact mem_objects_known hd (hmem o ho).1
  · intro k hk k' hk'
    rcases mem_append.1 hk with hk | hk
    · exact lt_trans (hcross k hk last (by simp)) hk'
    · obtain ⟨o, ho, rfl⟩ := mem_map.1 hk
      rcases mem_append.1 ho with ho | ho
      · exact lt_trans ((pairwise_append.1 hpw).2.2 o ho last (by simp)) hk'
      · rw [mem_singleton.1 ho]
        exact hk'

lemma grow {t' : Tree} (hsub : ∀ d ∈ t, d ∈ t') (h : Walked t listed calls w page) :
    Walked t' listed calls w page :=
  ⟨h.sorted, fun k hk => ⟨hsub _ (h.known k hk).1, (h.known k hk).2⟩, h.below, h.seen⟩

end Walked

/-- What is known of the calls of `device` at any time: they are of different devices, and each has
keys of its device. -/
structure Calls (calls : List (Str × List Str)) : Prop where
  nodup : (calls.map Prod.fst).Nodup
  slash : ∀ c ∈ calls, 47 ∉ c.1
  under : ∀ c ∈ calls, ∀ k ∈ c.2, Under c.1 k

lemma Called.calls {t : Tree} {listed : List Str} {calls : List (Str × List Str)} {f : Frame}
    (h : Called t listed calls f) : Calls (calls ++ [f.call]) := by
  have hunder : ∀ {seen : List Str}, (∀ k ∈ seen, Under (deviceOf k) k) →
      (∀ c ∈ calls ++ [f.call], c.2 = seen.filter fun k => deviceOf k = c.1) →
      ∀ c ∈ calls ++ [f.call], ∀ k ∈ c.2, Under c.1 k := by
    intro seen hs hc c hmem k hk
    rw [hc c hmem, mem_filter, decide_eq_true_eq] at hk
    exact hk.2 ▸ hs k hk.1
  unfold Called at h
  split at h
  · exact ⟨h.nodup, h.slash, hunder h.under h.complete⟩
  · obtain ⟨seen, -, hg⟩ := h.seen
    exact ⟨hg.nodup, hg.slash.2, hunder hg.under hg.complete⟩

lemma Calls.other {calls : List (Str × List Str)} {c : Str × List Str} (h : Calls (calls ++ [c]))
    {c' : Str × List Str} (hc' : c' ∈ calls) {k : Str} (hk : Under c.1 k) : ¬ Under c'.1 k := by
  intro hk'
  have heq : c'.1 = c.1 := (hk'.deviceOf (h.slash c' (mem_append_left _ hc'))).symm.trans
    (hk.deviceOf (h.slash c (by simp)))
  have hnodup := h.nodup
  rw [map_append, nodup_append] at hnodup
  exact hnodup.2.2 c'.1 (mem_map_of_mem hc') c.1 (by simp) heq

end Warphold.Fleet.Mirror
