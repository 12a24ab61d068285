import Warphold.Content.Merged
import Warphold.Proofs.ContentIndex

/-!
# One entry stands for a content

Of the entries of a content the greatest stands.
-/

namespace Warphold.Content

open List NextInfo

section Order

lemma ID.less_iff (a b : ID) : a.less b = true ↔ a.pre :: a.hash < b.pre :: b.hash := by
  rw [cons_lt_cons_iff]
  unfold ID.less
  by_cases h : a.pre = b.pre
  · simp [h]
  · simp only [h, ne_eq, not_false_eq_true, if_true, false_and, or_false]
    split_ifs with h0
    · simp [h0]
    · simp

lemma ID.eq_of_not_less {a b : ID} (h₁ : a.less b ≠ true) (h₂ : b.less a ≠ true) : a = b := by
  rw [Ne, ID.less_iff] at h₁ h₂
  have h := List.le_antisymm h₂ h₁
  cases a
  cases b
  simpa using h

lemma ID.less_irrefl (a : ID) : a.less a = false := by
  rw [Bool.eq_false_iff, Ne, ID.less_iff]
  exact List.lt_irrefl _

lemma ID.less_trans {a b c : ID} (h₁ : a.less b = true) (h₂ : b.less c = true) :
    a.less c = true := by
  rw [ID.less_iff] at *
  exact List.lt_trans h₁ h₂

lemma ID.less_asymm {a b : ID} (h : a.less b = true) : b.less a ≠ true := by
  rw [Ne, ID.less_iff] at *
  exact List.lt_asymm h

lemma not_greater_iff (a b : Info) : contentInfoGreaterThan a b = false ↔
    a.timestampSeconds < b.timestampSeconds ∨ a.timestampSeconds = b.timestampSeconds ∧
      (a.deleted = true ∧ b.deleted = false ∨
        a.deleted = b.deleted ∧ a.packBlobID ≤ b.packBlobID) := by
  unfold contentInfoGreaterThan
  split_ifs with h₁ h₂
  · simp only [decide_eq_false_iff_not]
    omega
  · rw [not_not] at h₁
    cases ha : a.deleted <;> cases hb : b.deleted <;> simp_all
  · rw [not_not] at h₁ h₂
    simp [h₁, h₂]

lemma not_greater_trans {a b c : Info} (h₁ : contentInfoGreaterThan a b = false)
    (h₂ : contentInfoGreaterThan b c = false) : contentInfoGreaterThan a c = false := by
  rw [not_greater_iff] at *
  rcases h₁ with h₁ | ⟨h₁, ⟨ha, hb⟩ | ⟨hab, hp⟩⟩ <;>
    rcases h₂ with h₂ | ⟨h₂, ⟨hb', hc⟩ | ⟨hbc, hp'⟩⟩
  case inr.inr.inr.inr => exact .inr ⟨h₁.trans h₂, .inr ⟨hab.trans hbc, List.le_trans hp hp'⟩⟩
  all_goals first | (left; omega) | skip
  · rw [hb] at hb'
    cases hb'
  · exact .inr ⟨h₁.trans h₂, .inl ⟨ha, hbc ▸ hb⟩⟩
  · exact .inr ⟨h₁.trans h₂, .inl ⟨hab.trans hb', hc⟩⟩

lemma not_greater_of_greater {a b : Info} (h : contentInfoGreaterThan a b = true) :
    contentInfoGreaterThan b a = false := by
  by_contra hc
  rw [← Bool.not_eq_false] at h
  rw [not_greater_iff] at h hc
  rcases lt_trichotomy a.timestampSeconds b.timestampSeconds with hlt | heq | hlt
  · exact h (.inl hlt)
  · cases ha : a.deleted <;> cases hb : b.deleted
    case false.true => exact hc (.inr ⟨heq.symm, .inl ⟨hb, ha⟩⟩)
    case true.false => exact h (.inr ⟨heq, .inl ⟨ha, hb⟩⟩)
    all_goals
      rcases List.le_total a.packBlobID b.packBlobID with hp | hp
      · exact h (.inr ⟨heq, .inr ⟨by rw [ha, hb], hp⟩⟩)
      · exact hc (.inr ⟨heq.symm, .inr ⟨by rw [ha, hb], hp⟩⟩)
  · exact hc (.inl hlt)

/-- Entries that differ only where the order does not look are the same. -/
def Untied (is : List Info) : Prop :=
  ∀ i ∈ is, ∀ j ∈ is, i.contentID = j.contentID → i.timestampSeconds = j.timestampSeconds →
    i.deleted = j.deleted → i.packBlobID = j.packBlobID → i = j

lemma tie_of_not_greater {i j : Info} (h₁ : contentInfoGreaterThan i j = false)
    (h₂ : contentInfoGreaterThan j i = false) :
    i.timestampSeconds = j.timestampSeconds ∧ i.deleted = j.deleted ∧
      i.packBlobID = j.packBlobID := by
  rw [not_greater_iff] at h₁ h₂
  have hts : i.timestampSeconds = j.timestampSeconds := by omega
  have hdel : i.deleted = j.deleted := by
    cases hi : i.deleted <;> cases hj : j.deleted <;> simp_all
  refine ⟨hts, hdel, List.le_antisymm ?_ ?_⟩
  · simpa [hts, hdel] using h₁
  · simpa [hts, hdel] using h₂

lemma Untied.eq {is : List Info} (h : Untied is) {i j : Info} (hi : i ∈ is) (hj : j ∈ is)
    (hid : i.contentID = j.contentID) (h₁ : contentInfoGreaterThan i j = false)
    (h₂ : contentInfoGreaterThan j i = false) : i = j := by
  obtain ⟨hts, hdel, hpack⟩ := tie_of_not_greater h₁ h₂
  exact h i hi j hj hid hts hdel hpack

end Order

section Newest

def Stands (is : List Info) (w : Info) : Prop :=
  w ∈ is ∧ ∀ i ∈ is, contentInfoGreaterThan i w = false

lemma foldl_newer_some : ∀ (is : List Info) (b : Info),
    ∃ w, is.foldl newer (some b) = some w ∧ Stands (b :: is) w
  | [], b => by
    refine ⟨b, rfl, by simp, fun i hi => ?_⟩
    obtain rfl : i = b := by simpa using hi
    by_contra hc
    rw [Bool.not_eq_false] at hc
    rw [not_greater_of_greater hc] at hc
    cases hc
  | i :: is, b => by
    rw [foldl_cons, newer]
    split_ifs with hg
    · obtain ⟨w, hw, hmem, hall⟩ := foldl_newer_some is i
      refine ⟨w, hw, mem_cons_of_mem _ hmem, fun x hx => ?_⟩
      rcases mem_cons.1 hx with rfl | hx
      · exact not_greater_trans (not_greater_of_greater hg) (hall i (by simp))
      · exact hall x hx
    · obtain ⟨w, hw, hmem, hall⟩ := foldl_newer_some is b
      rw [Bool.not_eq_true] at hg
      refine ⟨w, hw, ?_, fun x hx => ?_⟩
      · simp only [mem_cons] at hmem ⊢
        tauto
      · rcases mem_cons.1 hx with rfl | hx
        · exact hall x (by simp)
        rcases mem_cons.1 hx with rfl | hx
        · exact not_greater_trans hg (hall b (by simp))
        · exact hall x (by simp [hx])

def resolve (is : List Info) (c : ID) : Option Info :=
  (is.filter (·.contentID = c)).foldl newer none

variable {is : List Info} {js : List Info}

lemma foldl_newer_congr {c : ID} (h : ∀ i, i ∈ is ↔ i ∈ js)
    (hid : ∀ i ∈ is, i.contentID = c) (hu : Untied is) :
    is.foldl newer none = js.foldl newer none := by
  cases is with
  | nil =>
    cases js with
    | nil => rfl
    | cons j js => exact absurd ((h j).2 (by simp)) (by simp)
  | cons i is =>
    cases js with
    | nil => exact absurd ((h i).1 (by simp)) (by simp)
    | cons j js =>
      obtain ⟨w, hw, hmem, hall⟩ := foldl_newer_some is i
      obtain ⟨w', hw', hmem', hall'⟩ := foldl_newer_some js j
      have heq : w = w' := hu.eq hmem ((h w').2 hmem')
        ((hid w hmem).trans (hid w' ((h w').2 hmem')).symm)
        (hall' w ((h w).1 hmem)) (hall w' ((h w').2 hmem'))
      exact hw.trans (heq ▸ hw'.symm)

lemma Untied.subset (h : Untied is) (hs : ∀ i ∈ js, i ∈ is) : Untied js :=
  fun i hi j hj => h i (hs i hi) j (hs j hj)

lemma resolve_congr (h : ∀ i, i ∈ is ↔ i ∈ js) (hu : Untied is) (c : ID) :
    resolve is c = resolve js c := by
  refine foldl_newer_congr (c := c) (fun i => ?_) (fun i hi => ?_)
    (hu.subset fun i hi => (mem_filter.1 hi).1)
  · simp only [mem_filter, h i]
  · simpa using (mem_filter.1 hi).2

lemma resolve_isSome (is : List Info) (c : ID) :
    (resolve is c).isSome ↔ ∃ i ∈ is, i.contentID = c := by
  unfold resolve
  cases hf : is.filter (·.contentID = c) with
  | nil =>
    rw [filter_eq_nil_iff] at hf
    simpa using hf
  | cons j js =>
    obtain ⟨w, hw, -⟩ := foldl_newer_some js j
    have hj : j ∈ is.filter (·.contentID = c) := by simp [hf]
    rw [mem_filter] at hj
    simp only [foldl_cons, newer, hw, Option.isSome_some, true_iff]
    exact ⟨j, hj.1, by simpa using hj.2⟩

lemma foldl_newer_stands {w : Info} (h : is.foldl newer none = some w) :
    Stands is w := by
  cases is with
  | nil => cases h
  | cons j js =>
    obtain ⟨w', hw', hs⟩ := foldl_newer_some js j
    rw [foldl_cons, newer, hw'] at h
    exact Option.some.inj h ▸ hs

lemma resolve_stands {c : ID} {w : Info} (h : resolve is c = some w) :
    Stands (is.filter (·.contentID = c)) w := foldl_newer_stands h

lemma lookup_addAll_empty (is : List Info) (c : ID) :
    (Builder.addAll ∅ is).lookup c = resolve is c :=
  Builder.lookup_addAll c is ∅

lemma resolve_concat (is : List Info) (i : Info) (c : ID) :
    resolve (is ++ [i]) c = if c = i.contentID then newer (resolve is c) i else resolve is c := by
  unfold resolve
  by_cases hc : i.contentID = c
  · simp [hc]
  · simp [hc, Ne.symm hc]

lemma OneUseBuilder.get_addAll (T : LLRB) (is : List Info) :
    ∀ k, T.get (addAll T T.new is) k = resolve is k.contentID := by
  induction is using reverseRecOn with
  | nil => exact T.get_new
  | append_singleton is i ih =>
    intro k
    have hput : T.get (T.replaceOrInsert (addAll T T.new is) i) k =
        if k.contentID = i.contentID then some i else resolve is k.contentID := by
      rw [T.get_replaceOrInsert, ih]
      by_cases hk : k.contentID = i.contentID
      · simp [hk, ID.less_irrefl]
      · rw [if_neg hk, if_neg]
        simp only [Bool.and_eq_true, Bool.not_eq_true', not_and]
        exact fun h₁ h₂ => hk (ID.eq_of_not_less (by simp [h₂]) (by simp [h₁]))
    rw [addAll, foldl_concat, resolve_concat]
    change T.get (add T (addAll T T.new is) i) k = _
    rw [add, ih]
    by_cases hk : k.contentID = i.contentID
    · rw [if_pos hk, hk]
      cases hr : resolve is i.contentID with
      | none => simp [hput, hk, newer]
      | some old =>
        simp only [newer]
        split_ifs
        · simp [hput, hk]
        · rw [ih, hk, hr]
    · rw [if_neg hk]
      cases resolve is i.contentID with
      | none => simp [hput, hk]
      | some old =>
        simp only []
        split_ifs
        · simp [hput, hk]
        · exact ih k

end Newest

section Merge

def collapse : Option Info → List Info → List Info
  | none, [] => []
  | some p, [] => [p]
  | none, i :: is => collapse (some i) is
  | some p, i :: is =>
    if p.contentID ≠ i.contentID then p :: collapse (some i) is
    else if contentInfoGreaterThan i p then collapse (some i) is
    else collapse (some p) is

def InOrder (is : List Info) : Prop := is.Pairwise fun i j => j.contentID.less i.contentID ≠ true

lemma ID.less_of_less_of_not_less {a b c : ID} (h₁ : a.less b = true) (h₂ : c.less b ≠ true) :
    a.less c = true := by
  by_contra hac
  by_cases hca : c.less a = true
  · exact h₂ (ID.less_trans hca h₁)
  · exact h₂ (ID.eq_of_not_less hac hca ▸ h₁)

lemma ID.less_of_ne_of_not_less {a b : ID} (h₁ : a ≠ b) (h₂ : b.less a ≠ true) :
    a.less b = true := by
  by_contra h
  exact h₁ (ID.eq_of_not_less h h₂)

lemma newer_some (p i : Info) (hid : p.contentID = i.contentID) :
    ∃ q, newer (some p) i = some q ∧ q.contentID = p.contentID ∧
      ∀ is, collapse (some p) (i :: is) = collapse (some q) is := by
  rw [newer]
  split_ifs with hg
  · exact ⟨i, rfl, hid.symm, fun is => by simp [collapse, hid, hg]⟩
  · exact ⟨p, rfl, rfl, fun is => by simp [collapse, hid, hg]⟩

lemma collapse_ascending : ∀ (is : List Info) (p : Info), InOrder (p :: is) →
    (collapse (some p) is).Pairwise (fun i j => i.contentID.less j.contentID = true) ∧
      ∀ q ∈ collapse (some p) is, q.contentID.less p.contentID ≠ true
  | [], p, _ => by simp [collapse, ID.less_irrefl]
  | i :: is, p, h => by
    by_cases hid : p.contentID = i.contentID
    · obtain ⟨q, -, hq, hcol⟩ := newer_some p i hid
      have hq' : InOrder (q :: is) := by
        refine pairwise_cons.2 ⟨fun x hx => ?_, h.of_cons.of_cons⟩
        rw [hq]
        exact (pairwise_cons.1 h).1 x (by simp [hx])
      rw [hcol, ← hq]
      exact collapse_ascending is q hq'
    · obtain ⟨hp, hge⟩ := collapse_ascending is i h.of_cons
      have hlt : p.contentID.less i.contentID = true :=
        ID.less_of_ne_of_not_less hid ((pairwise_cons.1 h).1 i (by simp))
      have hall : ∀ q ∈ collapse (some i) is, p.contentID.less q.contentID = true :=
        fun q hq => ID.less_of_less_of_not_less hlt (hge q hq)
      rw [collapse, if_pos hid]
      refine ⟨pairwise_cons.2 ⟨hall, hp⟩, fun q hq => ?_⟩
      rcases mem_cons.1 hq with rfl | hq
      · simp [ID.less_irrefl]
      · exact ID.less_asymm (hall q hq)

lemma find?_collapse (c : ID) : ∀ (is : List Info) (p : Info), InOrder (p :: is) →
    (collapse (some p) is).find? (·.contentID = c) = resolve (p :: is) c
  | [], p, _ => by
    by_cases hp : p.contentID = c <;> simp [collapse, resolve, newer, hp]
  | i :: is, p, h => by
    by_cases hid : p.contentID = i.contentID
    · obtain ⟨q, hn, hq, hcol⟩ := newer_some p i hid
      have hq' : InOrder (q :: is) := by
        refine pairwise_cons.2 ⟨fun x hx => ?_, h.of_cons.of_cons⟩
        rw [hq]
        exact (pairwise_cons.1 h).1 x (by simp [hx])
      rw [hcol, find?_collapse c is q hq']
      by_cases hp : p.contentID = c
      · have hn' : newer none p = some p := rfl
        simp [resolve, hp, hid.symm.trans hp, hq.trans hp, hn', hn]
        rfl
      · simp [resolve, hp, hid ▸ hp, hq ▸ hp]
    · have hlt : p.contentID.less i.contentID = true :=
        ID.less_of_ne_of_not_less hid ((pairwise_cons.1 h).1 i (by simp))
      rw [collapse, if_pos hid, find?_cons]
      by_cases hp : p.contentID = c
      · have hnone : (i :: is).filter (·.contentID = c) = [] := by
          refine filter_eq_nil_iff.2 fun x hx hxc => ?_
          have hxi : x.contentID.less i.contentID ≠ true := by
            rcases mem_cons.1 hx with rfl | hx
            · simp [ID.less_irrefl]
            · exact (pairwise_cons.1 h.of_cons).1 x hx
          have := ID.less_of_less_of_not_less hlt hxi
          rw [hp, of_decide_eq_true hxc, ID.less_irrefl] at this
          cases this
        rw [resolve, filter_cons_of_pos (by simpa using hp), hnone]
        simp [hp, newer]
      · simp only [hp, decide_false]
        rw [find?_collapse c is i h.of_cons]
        unfold resolve
        rw [filter_cons_of_neg (a := p) (by simpa using hp)]

lemma collapse_none_ascending {is : List Info} (h : InOrder is) :
    (collapse none is).Pairwise fun i j => i.contentID.less j.contentID = true := by
  cases is with
  | nil => exact Pairwise.nil
  | cons i is => exact (collapse_ascending is i h).1

lemma find?_collapse_none (c : ID) {is : List Info} (h : InOrder is) :
    (collapse none is).find? (·.contentID = c) = resolve is c := by
  cases is with
  | nil => rfl
  | cons i is => exact find?_collapse c is i h

def NextInfo.Le (a b : NextInfo) : Prop := b.it.contentID.less a.it.contentID ≠ true

instance : Std.Refl NextInfo.Le := ⟨fun a => by simp [NextInfo.Le, ID.less_irrefl]⟩

instance : IsTrans NextInfo NextInfo.Le := ⟨fun a b c h₁ h₂ h => by
  by_cases hcb : c.it.contentID = b.it.contentID
  · exact h₁ (hcb ▸ h)
  · exact h₁ (ID.less_trans (ID.less_of_ne_of_not_less (Ne.symm hcb) h₂) h)⟩

lemma NextInfo.le_of_less (a b : NextInfo) (h : a.less b = true) : a.Le b := by
  unfold less at h
  split_ifs at h with hid
  · exact ID.less_asymm h
  · rw [not_not] at hid
    simp [Le, hid, ID.less_irrefl]

lemma NextInfo.le_of_not_less (a b : NextInfo) (h : a.less b = false) : b.Le a := by
  unfold less at h
  split_ifs at h with hid
  · simp [Le, h]
  · rw [not_not] at hid
    simp [Le, hid, ID.less_irrefl]

namespace Merged

def pendingEntries (h : Array NextInfo) : List Info := h.toList.flatMap fun n => n.it :: n.ch

/-- The heap is in order and every channel gives its entries in order. -/
structure HeapOk (h : Array NextInfo) : Prop where
  valid : Heap.Valid NextInfo.Le h
  channels : ∀ n ∈ h.toList, (n.it :: n.ch).Pairwise fun i j => i.contentID.less j.contentID = true

variable {h h' : Array NextInfo} {n : NextInfo}

lemma HeapOk.receive (hok : HeapOk h) {ch : List Info}
    (hch : ch.Pairwise fun i j => i.contentID.less j.contentID = true) :
    HeapOk (receive h ch) := by
  cases ch with
  | nil => exact hok
  | cons it ch =>
    refine ⟨hok.valid.push ⟨le_of_less, le_of_not_less⟩ _, fun n hn => ?_⟩
    rcases mem_cons.1 ((Heap.push_perm h ⟨it, ch⟩).mem_iff.1 hn) with rfl | hn
    · exact hch
    · exact hok.channels n hn

lemma pendingEntries_receive (h : Array NextInfo) (ch : List Info) :
    (pendingEntries (receive h ch)).Perm (ch ++ pendingEntries h) := by
  cases ch with
  | nil => exact Perm.refl _
  | cons it ch => exact (Heap.push_perm h ⟨it, ch⟩).flatMap_right _

lemma HeapOk.pop (hok : HeapOk h) (hp : Heap.pop less h = some (n, h')) :
    HeapOk (Merged.receive h' n.ch) ∧
      (pendingEntries h).Perm (n.it :: pendingEntries (Merged.receive h' n.ch)) ∧
      ∀ i ∈ pendingEntries h, i.contentID.less n.it.contentID ≠ true := by
  have hperm := Heap.pop_perm hp
  obtain ⟨hvalid, hmin⟩ := hok.valid.pop ⟨le_of_less, le_of_not_less⟩ hp
  have hchan : ∀ n' ∈ h'.toList, n' ∈ h.toList := fun n' hn' => hperm.mem_iff.2 (by simp [hn'])
  have hn : n ∈ h.toList := hperm.mem_iff.2 (by simp)
  refine ⟨HeapOk.receive ⟨hvalid, fun n' hn' => hok.channels n' (hchan n' hn')⟩
    (hok.channels n hn).of_cons, ?_, fun i hi => ?_⟩
  · refine (hperm.flatMap_right _).trans ?_
    exact ((pendingEntries_receive h' n.ch).cons n.it).symm
  · obtain ⟨n', hn', hi⟩ := mem_flatMap.1 hi
    rcases mem_cons.1 hi with rfl | hi
    · exact hmin n' hn'
    · intro hlt
      exact hmin n' hn' (ID.less_trans ((pairwise_cons.1 (hok.channels n' hn')).1 i hi) hlt)

lemma foldlM_collapse_cons {σ ε : Type} (cb : σ → Info → Except ε σ) (pending : Option Info)
    (i : Info) (is : List Info) (s : σ) : (collapse pending (i :: is)).foldlM cb s =
      advance cb s pending i >>= fun (s', p) => (collapse (some p) is).foldlM cb s' := by
  cases pending with
  | none => rfl
  | some p =>
    rw [collapse, advance]
    split_ifs
    · rw [foldlM_cons]
      cases cb s p <;> rfl
    · rfl
    · rfl

lemma loop_eq (hok : HeapOk h) : ∃ is, is.Perm (pendingEntries h) ∧ InOrder is ∧
    ∀ {σ ε : Type} (cb : σ → Info → Except ε σ) (pending : Option Info) (s : σ),
      loop cb h pending s = (collapse pending is).foldlM cb s := by
  induction hr : remaining h using Nat.strong_induction_on generalizing h with
  | _ k ih =>
    cases hp : Heap.pop less h with
    | none =>
      obtain rfl := Heap.pop_eq_none_iff.1 hp
      refine ⟨[], Perm.refl _, Pairwise.nil, fun cb pending s => ?_⟩
      rw [loop_none hp]
      cases pending with
      | none => rfl
      | some p => simp [collapse]
    | some nh =>
      obtain ⟨n, h'⟩ := nh
      obtain ⟨hok', hperm, hmin⟩ := hok.pop hp
      have hlt : remaining (receive h' n.ch) < k := by
        rw [remaining_receive, ← hr, remaining_pop hp]
        omega
      obtain ⟨is, his, hord, hrun⟩ := ih _ hlt hok' rfl
      refine ⟨n.it :: is, (his.cons _).trans hperm.symm, pairwise_cons.2 ⟨fun i hi => ?_, hord⟩,
        fun cb pending s => ?_⟩
      · exact hmin i (hperm.mem_iff.2 (by simp [his.mem_iff.1 hi]))
      · rw [loop_some hp, foldlM_collapse_cons]
        exact congrArg _ (funext fun sp => hrun cb _ _)

lemma startHeap_ok (r : IDRange) (m : List Shard) : HeapOk (startHeap m r) ∧
    (pendingEntries (startHeap m r)).Perm
      ((m.flatMap Shard.entries).filter fun i => r.contains i.contentID) := by
  induction m using reverseRecOn with
  | nil => exact ⟨⟨Heap.valid_empty, by simp [startHeap]⟩, Perm.refl _⟩
  | append_singleton m ndx ih =>
    rw [startHeap, foldl_concat, flatMap_append, filter_append]
    refine ⟨ih.1.receive (ndx.sorted.filter _), (pendingEntries_receive _ _).trans ?_⟩
    refine perm_append_comm.trans (ih.2.append ?_)
    rw [flatMap_singleton]

lemma digit_lt : ∀ n < 16, Hex.digit n < 123 := by decide

lemma contains_allIDs (c : ID) : IDRange.allIDs.contains c = true := by
  have hlt : c.string < [123] := by
    unfold ID.string ID.prefixString
    split_ifs with hp
    · simp only [Bool.and_eq_true, decide_eq_true_eq] at hp
      rw [singleton_append, cons_lt_cons_iff]
      exact .inl (UInt8.lt_of_le_of_lt hp.2 (by decide))
    · rw [nil_append]
      cases c.hash with
      | nil => exact Lex.nil
      | cons b bs =>
        rw [Hex.encodeToString, flatMap_cons, cons_append, cons_lt_cons_iff]
        have := b.toNat_lt
        exact .inl (digit_lt _ (by omega))
  simp [IDRange.contains, IDRange.allIDs, ID.belowPrefix, hlt]

lemma mem_getInfo (ndx : Shard) (i : Info) (c : ID) :
    Index.getInfo ndx.entries c = some i ↔ i ∈ ndx.entries ∧ i.contentID = c := by
  constructor
  · intro h
    exact ⟨mem_of_find?_eq_some h, by simpa using find?_some h⟩
  · rintro ⟨hi, rfl⟩
    obtain ⟨j, hj⟩ := Option.isSome_iff_exists.1
      (find?_isSome (p := fun j : Info => decide (j.contentID = i.contentID)) |>.2
        ⟨i, hi, by simp⟩)
    have hid : j.contentID = i.contentID := by simpa using find?_some hj
    have hmem : j ∈ ndx.entries := mem_of_find?_eq_some hj
    have hnodup : (ndx.entries.map Info.contentID).Nodup := by
      refine pairwise_map.2 (ndx.sorted.imp fun hlt heq => ?_)
      rw [heq, ID.less_irrefl] at hlt
      cases hlt
    have heq : j = i := inj_on_of_nodup_map hnodup hmem hi hid
    exact heq ▸ hj

lemma mem_filterMap_getInfo {is : List Info} {m : List Shard}
    (his : ∀ i, i ∈ is ↔ ∃ ndx ∈ m, i ∈ ndx.entries) (c : ID) (i : Info) :
    i ∈ (m.map Shard.entries).filterMap (fun ndx => ndx.getInfo c) ↔
      i ∈ is.filter (·.contentID = c) := by
  simp only [filterMap_map, mem_filterMap, Function.comp_apply, mem_getInfo,
    mem_filter, his, decide_eq_true_eq]
  constructor
  · rintro ⟨ndx, hndx, hi, hc⟩
    exact ⟨⟨ndx, hndx, hi⟩, hc⟩
  · rintro ⟨⟨ndx, hndx, hi⟩, hc⟩
    exact ⟨ndx, hndx, hi, hc⟩

lemma getInfo_eq_resolve {is : List Info} (m : List Shard)
    (his : ∀ i, i ∈ is ↔ ∃ ndx ∈ m, i ∈ ndx.entries) (hu : Untied is) (c : ID) :
    getInfo (m.map Shard.entries) c = resolve is c := by
  refine (foldl_newer_congr (c := c) (fun i => (mem_filterMap_getInfo his c i).symm)
    (fun i hi => ?_) (hu.subset fun i hi => (mem_filter.1 hi).1)).symm
  simpa using (mem_filter.1 hi).2

lemma iterate_range (m : List Shard) (r : IDRange) : ∃ is, InOrder is ∧
    (∀ i, i ∈ is ↔ (∃ ndx ∈ m, i ∈ ndx.entries) ∧ r.contains i.contentID = true) ∧
    ∀ {σ ε : Type} (cb : σ → Info → Except ε σ) (s : σ),
      iterate cb m r s = (collapse none is).foldlM cb s := by
  obtain ⟨hok, hperm⟩ := startHeap_ok r m
  obtain ⟨is, his, hord, hrun⟩ := loop_eq hok
  refine ⟨is, hord, fun i => ?_, fun cb s => hrun cb none s⟩
  rw [(his.trans hperm).mem_iff, mem_filter, mem_flatMap]

lemma iterate_eq (m : List Shard) : ∃ is, InOrder is ∧
    (∀ i, i ∈ is ↔ ∃ ndx ∈ m, i ∈ ndx.entries) ∧
    ∀ {σ ε : Type} (cb : σ → Info → Except ε σ) (s : σ),
      iterate cb m .allIDs s = (collapse none is).foldlM cb s := by
  obtain ⟨is, hord, hmem, hrun⟩ := iterate_range m .allIDs
  refine ⟨is, hord, fun i => ?_, hrun⟩
  rw [hmem, and_iff_left (contains_allIDs _)]

end Merged

end Merge

def LLRB.ofList : LLRB where
  Tree := List Info
  new := []
  get t k := t.find? fun i => !i.contentID.less k.contentID && !k.contentID.less i.contentID
  replaceOrInsert t i := i :: t
  get_new _ := rfl
  get_replaceOrInsert t i k := by
    rw [List.find?_cons]
    split_ifs with h
    · simp [h]
    · simp only [Bool.not_eq_true] at h
      simp [h]

def sampleEntry (hash : UInt8) (time : ℤ) (deleted : Bool) : Info :=
  ⟨[112], time, 1, 1, 0, 0, ⟨107, [hash]⟩, deleted, 2, 0⟩

def sampleShards : List Shard :=
  [⟨[sampleEntry 1 5 false, sampleEntry 2 5 false], by decide⟩, ⟨[sampleEntry 1 7 true], by decide⟩]

end Warphold.Content
