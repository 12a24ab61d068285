import Warphold.Content.Concurrent
import Warphold.Proofs.ContentFlush
import Warphold.Lib.Lists

/-!
# What a flush makes durable

A content whose write succeeded has an item in a pack, an entry in the unflushed index or an entry
in an index blob, and no step but its deletion takes the last of these away.
-/

namespace Warphold.Content

open Option List Builder Manager AList Function

namespace Builder

variable {b : Builder} {i : Info} {c : ID} {is : List Info}

lemma eq_of_newer {best : Option Info} {j : Info} (h : newer best j = some i) :
    i = j ∨ best = some i := by
  cases best with
  | none => exact .inl (some.inj h).symm
  | some old =>
    simp only [newer] at h
    split_ifs at h
    · exact .inl (some.inj h).symm
    · exact .inr h

lemma mem_infos_addAll : ∀ (is : List Info) {b : Builder}, i ∈ (b.addAll is).infos →
    i ∈ b.infos ∨ i ∈ is
  | [], _, h => .inl h
  | j :: is, b, h => by
    rcases mem_infos_addAll is (show i ∈ ((b.add j).addAll is).infos from h) with h | h
    · obtain ⟨c, hc⟩ := mem_infos.1 h
      rw [lookup_add] at hc
      split_ifs at hc
      · rcases eq_of_newer hc with rfl | hold
        · exact .inr mem_cons_self
        · exact .inl (mem_infos.2 ⟨c, hold⟩)
      · exact .inl (mem_infos.2 ⟨c, hc⟩)
    · exact .inr (mem_cons_of_mem _ h)

lemma keyed_addAll : ∀ (is : List Info) {b : Builder}, b.Keyed → (b.addAll is).Keyed
  | [], _, h => h
  | j :: is, b, h => by
    refine keyed_addAll is (show (b.add j).Keyed from fun c i hc => ?_)
    rw [lookup_add] at hc
    split_ifs at hc with heq
    · rcases eq_of_newer hc with rfl | hold
      · exact heq.symm
      · exact h c i hold
    · exact h c i hc

lemma mem_add (b : Builder) (i : Info) : c ∈ b.add i ↔ c = i.contentID ∨ c ∈ b := by
  rw [← lookup_isSome, ← lookup_isSome, lookup_add]
  split_ifs with hc
  · refine iff_of_true ?_ (.inl hc)
    cases b.lookup c with
    | none => rfl
    | some old =>
      simp only [newer]
      split_ifs <;> rfl
  · exact ⟨.inr, fun h => h.resolve_left hc⟩

lemma mem_addAll : ∀ (is : List Info) (b : Builder),
    c ∈ b.addAll is ↔ (∃ i ∈ is, i.contentID = c) ∨ c ∈ b
  | [], b => by simp [addAll]
  | i :: is, b => by
    rw [show b.addAll (i :: is) = (b.add i).addAll is from rfl, mem_addAll is, mem_add]
    constructor
    · rintro (⟨j, hj, hc⟩ | rfl | h)
      · exact .inl ⟨j, mem_cons_of_mem _ hj, hc⟩
      · exact .inl ⟨i, mem_cons_self, rfl⟩
      · exact .inr h
    · rintro (⟨j, hj, hc⟩ | h)
      · rcases mem_cons.1 hj with rfl | hj
        · exact .inr (.inl hc.symm)
        · exact .inl ⟨j, hj, hc⟩
      · exact .inr (.inr h)

lemma Keyed.mem_iff (h : b.Keyed) : c ∈ b ↔ ∃ i ∈ b.infos, i.contentID = c := by
  rw [← lookup_isSome, isSome_iff_exists]
  constructor
  · rintro ⟨i, hi⟩
    exact ⟨i, mem_infos.2 ⟨c, hi⟩, h c i hi⟩
  · rintro ⟨i, hi, rfl⟩
    obtain ⟨c, hc⟩ := mem_infos.1 hi
    exact ⟨i, by rw [h c i hc]; exact hc⟩

end Builder

namespace Shared

section Layers

def away (s : Manager) : List Pack := s.writingPacks ++ s.failedPacks

def Own (pp : Pack) : Prop := ∃ i ∈ pp.currentPackItems.infos, i.packBlobID = pp.packBlobID

def Backed (s : Manager) (name : Str) : Prop :=
  name ∈ s.storage.packs.map (·.1) ∨ ∃ pp ∈ away s, pp.packBlobID = name ∧ Own pp

structure PackInv (s : Manager) (pp : Pack) : Prop where
  keyed : pp.currentPackItems.Keyed
  data : Own pp → pp.currentPackData ≠ [] ∨ pp.packBlobID ∈ s.storage.packs.map (·.1)
  items : ∀ i ∈ pp.currentPackItems.infos, i.packBlobID = pp.packBlobID ∨ Backed s i.packBlobID

structure Inv (s : Manager) : Prop where
  enabled : s.disableIndexFlushCount ≤ 0
  slots : ∀ k pp, s.pendingPacks k = some pp → pp.pre = k
  pending : ∀ k pp, s.pendingPacks k = some pp → PackInv s pp
  awayInv : ∀ pp ∈ away s, PackInv s pp
  unique : ∀ pp ∈ away s, ∀ pp' ∈ away s, pp.packBlobID = pp'.packBlobID → pp = pp'
  failedOnce : (s.failedPacks.map (·.packBlobID)).Nodup
  apart : ∀ k pp, s.pendingPacks k = some pp → ∀ p ∈ away s, p.packBlobID ≠ pp.packBlobID
  distinct : ∀ k k' pp pp', s.pendingPacks k = some pp → s.pendingPacks k' = some pp' →
    pp.packBlobID = pp'.packBlobID → k = k'
  keyed : s.packIndexBuilder.Keyed
  builder : ∀ i ∈ s.packIndexBuilder.infos, Backed s i.packBlobID
  indexes : ∀ blob ∈ s.storage.indexBlobs, ∀ i ∈ blob.2, Backed s i.packBlobID
  merged : ∀ ndx ∈ s.merged, ∀ i ∈ ndx, ∃ blob ∈ s.storage.indexBlobs, ∃ j ∈ blob.2,
    j.contentID = i.contentID ∧ j.packBlobID = i.packBlobID

inductive Held (s : Manager) (c : ID) : Prop where
  | pending {k : PackPrefix} {pp : Pack} :
    s.pendingPacks k = some pp → c ∈ pp.currentPackItems → Held s c
  | away {pp : Pack} : pp ∈ away s → c ∈ pp.currentPackItems → Held s c
  | builder : c ∈ s.packIndexBuilder → Held s c
  | index {blob : Str × Index} {i : Info} :
    blob ∈ s.storage.indexBlobs → i ∈ blob.2 → i.contentID = c → Held s c

lemma Durable.mono {st st' : Storage} {c : ID} (h : Durable st c)
    (hi : ∀ blob ∈ st.indexBlobs, blob ∈ st'.indexBlobs)
    (hp : ∀ n ∈ st.packs.map (·.1), n ∈ st'.packs.map (·.1)) : Durable st' c := by
  obtain ⟨blob, hblob, i, hmem, heq, hn⟩ := h
  exact ⟨blob, hi blob hblob, i, hmem, heq, hp _ hn⟩

structure Keeps (s s' : Manager) : Prop where
  inv : Inv s'
  held : ∀ c, Held s c → Held s' c
  grows : ∀ c, Durable s.storage c → Durable s'.storage c

variable {s : Manager}

lemma Keeps.trans {s₁ s₂ : Manager} (h₁ : Keeps s s₁) (h₂ : Keeps s₁ s₂) : Keeps s s₂ :=
  ⟨h₂.inv, fun c hc => h₂.held c (h₁.held c hc), fun c hc => h₂.grows c (h₁.grows c hc)⟩

lemma Inv.keeps (h : Inv s) : Keeps s s := ⟨h, fun _ hc => hc, fun _ hc => hc⟩

lemma PackInv.mono {s' : Manager} {pp : Pack} (h : PackInv s pp)
    (hb : ∀ n, Backed s n → Backed s' n)
    (hs : ∀ n ∈ s.storage.packs.map (·.1), n ∈ s'.storage.packs.map (·.1)) : PackInv s' pp :=
  ⟨h.keyed, fun hown => (h.data hown).imp_right (hs _), fun i hi => (h.items i hi).imp_right (hb _)⟩

lemma PackInv.backed {pp : Pack} (h : PackInv s pp) (hpp : pp ∈ away s) {i : Info}
    (hi : i ∈ pp.currentPackItems.infos) : Backed s i.packBlobID := by
  rcases h.items i hi with heq | hb
  · exact .inr ⟨pp, hpp, heq.symm, i, hi, heq⟩
  · exact hb

/-- What does not touch the packs, the unflushed index and the storage keeps all, if the indexes in
use still have only entries of the index blobs. -/
lemma Inv.sameLayers {s' : Manager} (h : Inv s)
    (henabled : s'.disableIndexFlushCount = s.disableIndexFlushCount)
    (hpending : s'.pendingPacks = s.pendingPacks) (hwriting : s'.writingPacks = s.writingPacks)
    (hfailed : s'.failedPacks = s.failedPacks) (hbuilder : s'.packIndexBuilder = s.packIndexBuilder)
    (hstorage : s'.storage = s.storage)
    (hmerged : ∀ ndx ∈ s'.merged, ∀ i ∈ ndx, ∃ blob ∈ s.storage.indexBlobs, ∃ j ∈ blob.2,
      j.contentID = i.contentID ∧ j.packBlobID = i.packBlobID) : Keeps s s' := by
  have haway : away s' = away s := by rw [away, away, hwriting, hfailed]
  have hb : ∀ n, Backed s n → Backed s' n := fun n hn => by
    rwa [Backed, haway, hstorage]
  have hs : ∀ n ∈ s.storage.packs.map (·.1), n ∈ s'.storage.packs.map (·.1) := by
    rw [hstorage]
    exact fun _ hn => hn
  refine ⟨⟨henabled ▸ h.enabled, hpending ▸ h.slots, ?_, ?_, haway ▸ h.unique, hfailed ▸ h.failedOnce,
    ?_, hpending ▸ h.distinct, hbuilder ▸ h.keyed, ?_, ?_, hstorage ▸ hmerged⟩, ?_, ?_⟩
  · rw [hpending]
    exact fun k q hq => (h.pending k q hq).mono hb hs
  · rw [haway]
    exact fun q hq => (h.awayInv q hq).mono hb hs
  · rw [hpending, haway]
    exact h.apart
  · rw [hbuilder]
    exact fun i hi => hb _ (h.builder i hi)
  · rw [hstorage]
    exact fun blob hblob i hi => hb _ (h.indexes blob hblob i hi)
  · intro c hc
    cases hc with
    | pending hk hmem => exact .pending (hpending ▸ hk) hmem
    | away hq hmem => exact .away (haway ▸ hq) hmem
    | builder hmem => exact .builder (hbuilder ▸ hmem)
    | index hblob hi heq => exact .index (hstorage ▸ hblob) hi heq
  · rw [hstorage]
    exact fun _ hd => hd

end Layers

section Writing

variable {cfg : Config} {env : Env} {s s' : Manager} {pp : Pack}

lemma prepare_spec (up : Upload) (pp : Pack) :
    (pp.prepare cfg up).1.currentPackItems = pp.currentPackItems ∧
    (pp.prepare cfg up).1.packBlobID = pp.packBlobID ∧
    (Own pp → pp.currentPackData ≠ [] → (pp.prepare cfg up).1.currentPackData ≠ []) ∧
    ∀ b, (pp.prepare cfg up).2 = some b → b = addAll ∅ pp.currentPackItems.infos := by
  unfold Pack.prepare
  simp only []
  split_ifs with hnil hown hfin hpad hbuild
  · exact ⟨rfl, rfl, fun _ hd => hd, fun b hb => (some.inj hb).symm⟩
  · refine ⟨rfl, rfl, ?_, fun b hb => (some.inj hb).symm⟩
    rintro ⟨i, hi, heq⟩ _
    exact absurd heq (of_decide_eq_true (all_eq_true.1 hown i hi))
  · exact ⟨rfl, rfl, fun _ hd => hd, fun b hb => (some.inj hb).symm⟩
  · exact ⟨rfl, rfl, fun _ hd => by simp [hd], fun b hb => (some.inj hb).symm⟩
  · exact ⟨rfl, rfl, fun _ hd => by simp [hd], fun b hb => (some.inj hb).symm⟩
  · exact ⟨rfl, rfl, fun _ hd => by simp [hd], fun b hb => by cases hb⟩
  · exact ⟨rfl, rfl, fun _ hd => by simp [hd], fun b hb => by cases hb⟩

structure Wrote (s s' : Manager) (pp pp' : Pack) (ok : Bool) : Prop where
  items : pp'.currentPackItems = pp.currentPackItems
  name : pp'.packBlobID = pp.packBlobID
  data : Own pp → pp.currentPackData ≠ [] → pp'.currentPackData ≠ []
  pending : s'.pendingPacks = s.pendingPacks
  writing : s'.writingPacks = Manager.removePendingPack s.writingPacks pp
  failed : s'.failedPacks
    = Manager.removePendingPack s.failedPacks pp ++ (if ok then [] else [pp'])
  builder : s'.packIndexBuilder = if ok then
    s.packIndexBuilder.addAll (Builder.addAll ∅ pp.currentPackItems.infos).infos
    else s.packIndexBuilder
  packs : ∀ n ∈ s.storage.packs.map (·.1), n ∈ s'.storage.packs.map (·.1)
  stored : ok = true → Own pp → pp.currentPackData ≠ [] → pp.packBlobID ∈ s'.storage.packs.map (·.1)
  indexes : s'.storage.indexBlobs = s.storage.indexBlobs
  merged : s'.merged = s.merged
  enabled : s'.disableIndexFlushCount = s.disableIndexFlushCount
  flushing : s'.flushing = s.flushing

lemma wrote (s : Manager) (pp : Pack) : ∃ pp' ok,
    Wrote s (s.writePackAndAddToIndex cfg env pp).1 pp pp' ok ∧
    (ok = true ↔ (s.writePackAndAddToIndex cfg env pp).2 = .ok ()) := by
  obtain ⟨hitems, hname, hdata, hb⟩ := @prepare_spec cfg (env.upload pp.packBlobID) pp
  unfold writePackAndAddToIndex prepareAndWritePack
  simp only []
  generalize pp.prepare cfg (env.upload pp.packBlobID) = prepared at *
  obtain ⟨pp', packFileIndex⟩ := prepared
  have hremove : ∀ packs, removePendingPack packs pp' = removePendingPack packs pp := by
    intro packs
    rw [removePendingPack, removePendingPack, hname]
  have hput : ∀ n ∈ s.storage.packs.map (·.1),
      n ∈ ((pp'.packBlobID, pp'.currentPackData) :: s.storage.packs).map (·.1) :=
    fun n hn => mem_cons_of_mem _ hn
  have hstored : pp.packBlobID ∈
      ((pp'.packBlobID, pp'.currentPackData) :: s.storage.packs).map (·.1) := by
    rw [← hname]
    exact mem_cons_self
  cases packFileIndex with
  | none =>
    refine ⟨pp', false, ⟨hitems, hname, hdata, rfl, hremove _, ?_, rfl, fun _ hn => hn, nofun, rfl,
      rfl, rfl, rfl⟩, by simp [processWritePackResult]⟩
    simp [processWritePackResult, hremove]
  | some b =>
    obtain rfl := hb b rfl
    simp only []
    split_ifs with hnil
    · refine ⟨pp', true, ⟨hitems, hname, hdata, rfl, hremove _, ?_, rfl, fun _ hn => hn, ?_, rfl,
        rfl, rfl, rfl⟩, by simp [processWritePackResult]⟩
      · simp [processWritePackResult, hremove]
      · exact fun _ hown hne => absurd hnil (hdata hown hne)
    · cases (env.upload pp.packBlobID).put with
      | ok =>
        refine ⟨pp', true, ⟨hitems, hname, hdata, rfl, hremove _, ?_, rfl, hput, ?_, rfl,
          rfl, rfl, rfl⟩, by simp [processWritePackResult]⟩
        · simp [processWritePackResult, putBlob, hremove]
        · exact fun _ _ _ => hstored
      | failed =>
        refine ⟨pp', false, ⟨hitems, hname, hdata, rfl, hremove _, ?_, rfl, fun _ hn => hn, nofun, rfl,
          rfl, rfl, rfl⟩, by simp [processWritePackResult]⟩
        simp [processWritePackResult, hremove]
      | lost =>
        refine ⟨pp', false, ⟨hitems, hname, hdata, rfl, hremove _, ?_, rfl, hput, nofun, rfl,
          rfl, rfl, rfl⟩, by simp [processWritePackResult]⟩
        simp [processWritePackResult, putBlob, hremove]

lemma own_congr {pp pp' : Pack} (hitems : pp'.currentPackItems = pp.currentPackItems)
    (hname : pp'.packBlobID = pp.packBlobID) : Own pp' ↔ Own pp := by
  rw [Own, Own, hitems, hname]

lemma mem_removePendingPack {packs : List Pack} {q : Pack} :
    q ∈ removePendingPack packs pp ↔ q ∈ packs ∧ q.packBlobID ≠ pp.packBlobID := by
  simp [removePendingPack]

section Step

variable {pp' : Pack} {ok : Bool}

lemma Wrote.mem_away (h : Wrote s s' pp pp' ok) {q : Pack} :
    q ∈ away s' ↔ (q ∈ away s ∧ q.packBlobID ≠ pp.packBlobID) ∨ (ok = false ∧ q = pp') := by
  rw [away, away, h.writing, h.failed, mem_append, mem_append, mem_append,
    mem_removePendingPack, mem_removePendingPack]
  cases ok <;> simp <;> tauto

lemma Wrote.backed (h : Wrote s s' pp pp' ok) (hinv : Inv s) (hpp : pp ∈ away s) {n : Str}
    (hn : Backed s n) : Backed s' n := by
  rcases hn with hn | ⟨q, hq, rfl, hown⟩
  · exact .inl (h.packs n hn)
  · by_cases hname : q.packBlobID = pp.packBlobID
    · obtain rfl := hinv.unique q hq pp hpp hname
      cases ok with
      | true =>
        rcases (hinv.awayInv q hq).data hown with hdata | hs
        · exact .inl (h.stored rfl hown hdata)
        · exact .inl (h.packs _ hs)
      | false => exact .inr ⟨pp', h.mem_away.2 (.inr ⟨rfl, rfl⟩), h.name,
          (own_congr h.items h.name).2 hown⟩
    · exact .inr ⟨q, h.mem_away.2 (.inl ⟨hq, hname⟩), rfl, hown⟩

lemma Wrote.keeps (h : Wrote s s' pp pp' ok) (hinv : Inv s) (hpp : pp ∈ away s) : Keeps s s' := by
  have hb : ∀ n, Backed s n → Backed s' n := fun n hn => h.backed hinv hpp hn
  have hPP := hinv.awayInv pp hpp
  refine ⟨⟨h.enabled ▸ hinv.enabled, ?_, ?_, ?_, ?_, ?_, ?_, ?_, ?_, ?_, ?_, ?_⟩, fun c hc => ?_,
    fun c hc => hc.mono (fun _ hblob => h.indexes ▸ hblob) h.packs⟩
  · rw [h.pending]
    exact hinv.slots
  · rw [h.pending]
    exact fun k q hq => (hinv.pending k q hq).mono hb h.packs
  · intro q hq
    rcases h.mem_away.1 hq with ⟨hq, -⟩ | ⟨-, rfl⟩
    · exact (hinv.awayInv q hq).mono hb h.packs
    · refine ⟨h.items ▸ hPP.keyed, fun hown => ?_, fun i hi => ?_⟩
      · have hown := (own_congr h.items h.name).1 hown
        rw [h.name]
        exact (hPP.data hown).imp (h.data hown) (h.packs _)
      · rw [h.items] at hi
        rw [h.name]
        exact (hPP.items i hi).imp_right (hb _)
  · intro q hq q' hq' hname
    rcases h.mem_away.1 hq with ⟨hq, hne⟩ | ⟨-, rfl⟩ <;>
      rcases h.mem_away.1 hq' with ⟨hq', hne'⟩ | ⟨-, rfl⟩
    · exact hinv.unique q hq q' hq' hname
    · exact absurd (hname.trans h.name) hne
    · exact absurd (hname.symm.trans h.name) hne'
    · rfl
  · rw [h.failed, map_append, nodup_append']
    refine ⟨hinv.failedOnce.sublist (filter_sublist.map _), ?_, ?_⟩
    · cases ok <;> simp
    · cases ok
      · simp only [Bool.false_eq_true, if_false, map_cons, map_nil,
          disjoint_singleton, h.name]
        intro hmem
        obtain ⟨q, hq, hname⟩ := mem_map.1 hmem
        exact (mem_removePendingPack.1 hq).2 hname
      · exact disjoint_nil_right _
  · intro k q hq p hp
    rw [h.pending] at hq
    rcases h.mem_away.1 hp with ⟨hp, -⟩ | ⟨-, rfl⟩
    · exact hinv.apart k q hq p hp
    · rw [h.name]
      exact hinv.apart k q hq pp hpp
  · rw [h.pending]
    exact hinv.distinct
  · rw [h.builder]
    split_ifs
    · exact keyed_addAll _ hinv.keyed
    · exact hinv.keyed
  · rw [h.builder]
    intro i hi
    split_ifs at hi
    · rcases mem_infos_addAll _ hi with hi | hi
      · exact hb _ (hinv.builder i hi)
      · have hi := (mem_infos_addAll _ hi).resolve_left (by simp [infos])
        exact hb _ (hPP.backed hpp hi)
    · exact hb _ (hinv.builder i hi)
  · rw [h.indexes]
    exact fun blob hblob i hi => hb _ (hinv.indexes blob hblob i hi)
  · rw [h.indexes, h.merged]
    exact hinv.merged
  · cases hc with
    | pending hk hmem => exact .pending (h.pending ▸ hk) hmem
    | @away q hq hmem =>
      by_cases hname : q.packBlobID = pp.packBlobID
      · obtain rfl := hinv.unique q hq pp hpp hname
        cases ok with
        | false => exact .away (h.mem_away.2 (.inr ⟨rfl, rfl⟩)) (h.items ▸ hmem)
        | true =>
          refine .builder ?_
          have hkeyed := keyed_addAll q.currentPackItems.infos Keyed.empty
          rw [h.builder, if_pos rfl, mem_addAll, ← hkeyed.mem_iff, mem_addAll]
          exact .inl (.inl (hPP.keyed.mem_iff.1 hmem))
      · exact .away (h.mem_away.2 (.inl ⟨hq, hname⟩)) hmem
    | builder hmem =>
      refine .builder ?_
      rw [h.builder]
      split_ifs
      · exact (mem_addAll _ _).2 (.inr hmem)
      · exact hmem
    | index hblob hi heq => exact .index (h.indexes ▸ hblob) hi heq

end Step

structure Retried (s s' : Manager) : Prop extends Keeps s s' where
  pending : s'.pendingPacks = s.pendingPacks
  names : ∀ q ∈ away s', ∃ p ∈ away s, p.packBlobID = q.packBlobID

lemma Retried.trans {s₁ s₂ : Manager} (h₁ : Retried s s₁) (h₂ : Retried s₁ s₂) : Retried s s₂ where
  toKeeps := h₁.toKeeps.trans h₂.toKeeps
  pending := h₂.pending.trans h₁.pending
  names q hq := by
    obtain ⟨p, hp, hname⟩ := h₂.names q hq
    obtain ⟨p', hp', hname'⟩ := h₁.names p hp
    exact ⟨p', hp', hname'.trans hname⟩

lemma Wrote.retried {pp' : Pack} {ok : Bool} (h : Wrote s s' pp pp' ok) (hinv : Inv s)
    (hpp : pp ∈ away s) : Retried s s' where
  toKeeps := h.keeps hinv hpp
  pending := h.pending
  names q hq := by
    rcases h.mem_away.1 hq with ⟨hq, -⟩ | ⟨-, rfl⟩
    · exact ⟨q, hq, rfl⟩
    · exact ⟨pp, hpp, h.name.symm⟩

lemma retryPacks_retried : ∀ (pps : List Pack) {s : Manager}, Inv s →
    (∀ q ∈ pps, q ∈ s.failedPacks) → (pps.map (·.packBlobID)).Nodup →
    Retried s (s.retryPacks cfg env pps).1
  | [], s, hinv, _, _ => ⟨hinv.keeps, rfl, fun q hq => ⟨q, hq, rfl⟩⟩
  | pp :: pps, s, hinv, hmem, hnodup => by
    obtain ⟨hpp, hpps⟩ := forall_mem_cons.1 hmem
    obtain ⟨hnot, hnodup⟩ := nodup_cons.1 hnodup
    have haway : pp ∈ away s := mem_append_right _ hpp
    obtain ⟨pp', ok, hw, -⟩ := @wrote cfg env s pp
    have hr := hw.retried hinv haway
    rw [retryPacks]
    split
    next s₁ e h₁ =>
      rw [h₁] at hr
      exact hr
    next s₁ h₁ =>
      rw [h₁] at hr hw
      refine hr.trans (retryPacks_retried pps hr.inv (fun q hq => ?_) hnodup)
      rw [hw.failed]
      refine mem_append_left _ (mem_removePendingPack.2 ⟨hpps q hq, fun hname => hnot ?_⟩)
      exact mem_map.2 ⟨q, hq, hname⟩

lemma retryFailedPacks_retried (hinv : Inv s) : Retried s (s.retryFailedPacks cfg env).1 :=
  retryPacks_retried _ hinv (fun _ hq => hq) hinv.failedOnce

end Writing

section Pending

variable {s : Manager} {pp : Pack} {c : ID}

structure Slot (s : Manager) (pp : Pack) : Prop extends PackInv s pp where
  apart : ∀ p ∈ away s, p.packBlobID ≠ pp.packBlobID
  distinct : ∀ k q, s.pendingPacks k = some q → k ≠ pp.pre → q.packBlobID ≠ pp.packBlobID

lemma Inv.slot (h : Inv s) {k : PackPrefix} (hk : s.pendingPacks k = some pp) : Slot s pp where
  toPackInv := h.pending k pp hk
  apart := h.apart k pp hk
  distinct k' q hq hne heq := hne ((h.distinct k' k q pp hq hk heq).trans (h.slots k pp hk).symm)

lemma Inv.setPending (h : Inv s) (hpp : Slot s pp) : Inv (s.setPending pp) where
  __ := h
  slots k q hq := by
    rcases Runs.update_eq_some hq with ⟨hk, hq⟩ | ⟨-, hq⟩
    · rw [hk, some.inj hq]
    · exact h.slots k q hq
  pending k q hq := by
    rcases Runs.update_eq_some hq with ⟨-, hq⟩ | ⟨-, hq⟩
    · exact some.inj hq ▸ hpp.toPackInv.mono (fun _ hn => hn) fun _ hn => hn
    · exact (h.pending k q hq).mono (fun _ hn => hn) fun _ hn => hn
  awayInv q hq := (h.awayInv q hq).mono (fun _ hn => hn) fun _ hn => hn
  apart k q hq := by
    rcases Runs.update_eq_some hq with ⟨-, hq⟩ | ⟨-, hq⟩
    · exact some.inj hq ▸ hpp.apart
    · exact h.apart k q hq
  distinct k k' q q' hq hq' heq := by
    rcases Runs.update_eq_some hq with ⟨hk, hq⟩ | ⟨hk, hq⟩ <;>
      rcases Runs.update_eq_some hq' with ⟨hk', hq'⟩ | ⟨hk', hq'⟩
    · exact hk.trans hk'.symm
    · rw [← some.inj hq] at heq
      exact absurd heq.symm (hpp.distinct k' q' hq' hk')
    · rw [← some.inj hq'] at heq
      exact absurd heq (hpp.distinct k q hq hk)
    · exact h.distinct k k' q q' hq hq' heq

lemma Held.setPending (h : Held s c) (hitems : ∀ q, s.pendingPacks pp.pre = some q →
    c ∈ q.currentPackItems → c ∈ pp.currentPackItems) : Held (s.setPending pp) c := by
  cases h with
  | @pending k q hq hmem =>
    by_cases hk : k = pp.pre
    · subst hk
      exact .pending (k := pp.pre) (update_self ..) (hitems q hq hmem)
    · exact .pending (k := k) ((update_of_ne hk ..).trans hq) hmem
  | away hq hmem => exact .away hq hmem
  | builder hmem => exact .builder hmem
  | index hblob hi heq => exact .index hblob hi heq

lemma mem_away_startWriting {q : Pack} : q ∈ away (s.startWriting pp) ↔ q ∈ away s ∨ q = pp := by
  simp only [away, startWriting, mem_append, mem_singleton]
  tauto

lemma Inv.startWriting (h : Inv s) (hpp : s.pendingPacks pp.pre = some pp) :
    Keeps s (s.startWriting pp) := by
  have hslot := h.slot hpp
  have hb : ∀ n, Backed s n → Backed (s.startWriting pp) n := fun n hn =>
    hn.imp_right fun ⟨q, hq, hrest⟩ => ⟨q, mem_away_startWriting.2 (.inl hq), hrest⟩
  have hpend : ∀ k q, (s.startWriting pp).pendingPacks k = some q →
      k ≠ pp.pre ∧ s.pendingPacks k = some q := fun k q hq => by
    rcases Runs.update_eq_some hq with ⟨-, hq⟩ | hq
    · cases hq
    · exact hq
  refine ⟨⟨h.enabled, fun k q hq => h.slots k q (hpend k q hq).2,
    fun k q hq => (h.pending k q (hpend k q hq).2).mono hb fun _ hn => hn, fun q hq => ?_, ?_, h.failedOnce,
    fun k q hq p hp => ?_, fun k k' q q' hq hq' => h.distinct k k' q q' (hpend k q hq).2
      (hpend k' q' hq').2, h.keyed, fun i hi => hb _ (h.builder i hi),
    fun blob hblob i hi => hb _ (h.indexes blob hblob i hi), h.merged⟩, fun c hc => ?_,
    fun _ hd => hd⟩
  · rcases mem_away_startWriting.1 hq with hq | rfl
    · exact (h.awayInv q hq).mono hb fun _ hn => hn
    · exact hslot.toPackInv.mono hb fun _ hn => hn
  · intro q hq q' hq' heq
    rcases mem_away_startWriting.1 hq with hold | hold <;>
      rcases mem_away_startWriting.1 hq' with hold' | hold'
    · exact h.unique q hold q' hold' heq
    · exact absurd (hold' ▸ heq) (hslot.apart q hold)
    · exact absurd (hold ▸ heq.symm) (hslot.apart q' hold')
    · rw [hold, hold']
  · obtain ⟨hk, hold⟩ := hpend k q hq
    rcases mem_away_startWriting.1 hp with hp | rfl
    · exact h.apart k q hold p hp
    · exact (hslot.distinct k q hold hk).symm
  · cases hc with
    | @pending k q hq hmem =>
      by_cases hk : k = pp.pre
      · subst hk
        rw [hpp, some.injEq] at hq
        exact .away (mem_away_startWriting.2 (.inr hq.symm)) hmem
      · exact .pending (k := k) ((update_of_ne hk ..).trans hq) hmem
    | away hq hmem => exact .away (mem_away_startWriting.2 (.inl hq)) hmem
    | builder hmem => exact .builder hmem
    | index hblob hi heq => exact .index hblob hi heq

end Pending

section Flush

variable {cfg : Config} {env : Env} {s s' : Manager}

lemma finishPacks_spec : ∀ (ks : List PackPrefix) {s : Manager}, Inv s →
    Keeps s (s.finishPacks cfg env ks).1 ∧ ((s.finishPacks cfg env ks).2 = .ok () → away s = [] →
      away (s.finishPacks cfg env ks).1 = [] ∧
      ∀ k, (s.finishPacks cfg env ks).1.pendingPacks k = if k ∈ ks then none else s.pendingPacks k)
  | [], s, hinv => ⟨hinv.keeps, fun _ h => ⟨h, fun k => by simp [finishPacks]⟩⟩
  | k :: ks, s, hinv => by
    rw [finishPacks]
    cases hk : s.pendingPacks k with
    | none =>
      obtain ⟨hkeeps, hdone⟩ := finishPacks_spec ks hinv
      refine ⟨hkeeps, fun hok haway => ?_⟩
      obtain ⟨haway', hpend⟩ := hdone hok haway
      refine ⟨haway', fun k' => (hpend k').trans ?_⟩
      by_cases hk' : k' = k
      · subst hk'
        simp [hk]
      · simp [hk']
    | some pp =>
      have hpre : pp.pre = k := hinv.slots k pp hk
      subst hpre
      have hstart := hinv.startWriting hk
      have hpp : pp ∈ away (s.startWriting pp) := mem_away_startWriting.2 (.inr rfl)
      obtain ⟨pp', ok, hw, hok⟩ := @wrote cfg env (s.startWriting pp) pp
      have hkeeps := hstart.trans (hw.keeps hstart.inv hpp)
      simp only []
      split
      next s₁ e h₁ =>
        rw [h₁] at hkeeps
        exact ⟨hkeeps, fun h => by cases h⟩
      next s₁ h₁ =>
        rw [h₁] at hkeeps hw hok
        obtain ⟨hkeeps', hdone⟩ := finishPacks_spec ks hkeeps.inv
        refine ⟨hkeeps.trans hkeeps', fun hres haway => ?_⟩
        have hok : ok = true := hok.2 rfl
        obtain ⟨haway', hpend⟩ := hdone hres <| eq_nil_iff_forall_not_mem.2 fun q hq => by
          rcases hw.mem_away.1 hq with ⟨hq, hne⟩ | ⟨hf, -⟩
          · rcases mem_away_startWriting.1 hq with hq | rfl
            · rw [haway] at hq
              cases hq
            · exact hne rfl
          · rw [hok] at hf
            cases hf
        refine ⟨haway', fun k' => (hpend k').trans ?_⟩
        rw [hw.pending]
        by_cases hk' : k' = pp.pre
        · subst hk'
          simp [startWriting]
        · simp [startWriting, hk']

lemma packBlobID_stored (v : IndexVersion) (overhead : ℕ) (i : Info) :
    (v.stored overhead i).packBlobID = i.packBlobID := by
  cases v <;> rfl

lemma Inv.writeIndexBlobs (h : Inv s) {blobs : List (Str × Index)}
    (hb : ∀ blob ∈ blobs, ∀ i ∈ blob.2, Backed s i.packBlobID) :
    Keeps s (s.writeIndexBlobs blobs) := by
  refine ⟨⟨h.enabled, h.slots, fun k q hq => (h.pending k q hq).mono (fun _ hn => hn) fun _ hn => hn,
    fun q hq => (h.awayInv q hq).mono (fun _ hn => hn) fun _ hn => hn, h.unique, h.failedOnce, h.apart, h.distinct,
    h.keyed, h.builder, fun blob hblob => ?_, fun ndx hndx i hi => ?_⟩, fun c hc => ?_,
    fun c hc => hc.mono (fun _ hblob => mem_append_left _ hblob) fun _ hn => hn⟩
  · rcases mem_append.1 hblob with hblob | hblob
    · exact h.indexes blob hblob
    · exact hb blob hblob
  · obtain ⟨blob, hblob, hrest⟩ := h.merged ndx hndx i hi
    exact ⟨blob, mem_append_left _ hblob, hrest⟩
  · cases hc with
    | pending hk hmem => exact .pending hk hmem
    | away hq hmem => exact .away hq hmem
    | builder hmem => exact .builder hmem
    | index hblob hi heq => exact .index (mem_append_left _ hblob) hi heq

lemma Inv.addIndexBlobs : ∀ (blobs : List (Str × Index)) {s : Manager}, Inv s →
    (∀ blob ∈ blobs, blob ∈ s.storage.indexBlobs) →
    Keeps s (blobs.foldl addIndexBlob s) ∧
      (blobs.foldl addIndexBlob s).storage = s.storage ∧
      (blobs.foldl addIndexBlob s).packIndexBuilder = s.packIndexBuilder ∧
      (blobs.foldl addIndexBlob s).pendingPacks = s.pendingPacks ∧
      away (blobs.foldl addIndexBlob s) = away s
  | [], s, h, _ => ⟨h.keeps, rfl, rfl, rfl, rfl⟩
  | blob :: blobs, s, h, hmem => by
    obtain ⟨hblob, hblobs⟩ := forall_mem_cons.1 hmem
    rw [foldl_cons]
    by_cases huse : blob.1 ∈ s.inUse
    · rw [addIndexBlob, if_pos huse]
      exact Inv.addIndexBlobs blobs h hblobs
    · rw [addIndexBlob, if_neg huse]
      set s₁ := { s with inUse := s.inUse ++ [blob.1], merged := s.merged ++ [blob.2] } with hs₁
      have h₁ : Keeps s s₁ := by
        refine h.sameLayers rfl rfl rfl rfl rfl rfl fun ndx hndx i hi => ?_
        rcases mem_append.1 hndx with hndx | hndx
        · exact h.merged ndx hndx i hi
        · rw [mem_singleton.1 hndx] at hi
          exact ⟨blob, hblob, i, hi, rfl, rfl⟩
      obtain ⟨hkeeps, hrest⟩ := Inv.addIndexBlobs blobs h₁.inv hblobs
      exact ⟨h₁.trans hkeeps, hrest⟩

lemma blobs_spec {v : IndexVersion} {overhead n : ℕ} {b : Builder} (hkeyed : b.Keyed)
    {shards : List Index} (hbuild : (b.shard n).mapM (v.build overhead) = some shards)
    (name : ℕ → Str) :
    (∀ blob ∈ shards.mapIdx fun k ndx => (name k, ndx), ∀ i ∈ blob.2, ∃ j ∈ b.infos,
      i.packBlobID = j.packBlobID) ∧
    ∀ c ∈ b, ∃ blob ∈ shards.mapIdx fun k ndx => (name k, ndx), ∃ i ∈ blob.2, i.contentID = c := by
  have hbuilt : ∀ {ndx built}, v.build overhead ndx = some built →
      built = ndx.map (v.stored overhead) := fun h => by
    rw [IndexVersion.build] at h
    split_ifs at h
    exact (some.inj h).symm
  constructor
  · intro blob hblob i hi
    obtain ⟨k, hk, rfl⟩ := mem_mapIdx.1 hblob
    obtain ⟨ndx, hndx, hb⟩ := (Lists.mem_iff_of_mapM hbuild _).1 (getElem_mem hk)
    rw [hbuilt hb] at hi
    obtain ⟨j, hj, rfl⟩ := mem_map.1 hi
    exact ⟨j, (mem_shard hndx).2 hj, packBlobID_stored v overhead j⟩
  · intro c hc
    obtain ⟨i, hi⟩ := isSome_iff_exists.1 (lookup_isSome.2 hc)
    have hmem : i ∈ (b.shard n).filterMap fun ndx => Index.getInfo ndx c := by
      rw [hkeyed.getInfo_shard, hi]
      exact mem_singleton_self i
    obtain ⟨ndx, hndx, hget⟩ := mem_filterMap.1 hmem
    obtain ⟨built, hmem, hb⟩ := Lists.exists_of_mapM hbuild hndx
    obtain ⟨k, hk, rfl⟩ := mem_iff_getElem.1 hmem
    refine ⟨_, mem_mapIdx.2 ⟨k, hk, rfl⟩, v.stored overhead i, ?_, ?_⟩
    · rw [hbuilt hb]
      exact mem_map_of_mem (mem_of_find?_eq_some hget)
    · rw [v.contentID_stored]
      simpa using find?_some hget

lemma Inv.clearIndex (h : Inv s) (t : ℤ)
    (hc : ∀ c ∈ s.packIndexBuilder, ∃ blob ∈ s.storage.indexBlobs, ∃ i ∈ blob.2, i.contentID = c) :
    Keeps s { s with packIndexBuilder := ∅, flushPackIndexesAfter := t } := by
  refine ⟨⟨h.enabled, h.slots, fun k q hq => (h.pending k q hq).mono (fun _ hn => hn) fun _ hn => hn,
    fun q hq => (h.awayInv q hq).mono (fun _ hn => hn) fun _ hn => hn, h.unique, h.failedOnce, h.apart, h.distinct,
    Keyed.empty, nofun, h.indexes, h.merged⟩, fun c hheld => ?_, fun _ hd => hd⟩
  cases hheld with
  | pending hk hmem => exact .pending hk hmem
  | away hq hmem => exact .away hq hmem
  | builder hmem =>
    obtain ⟨blob, hblob, i, hi, heq⟩ := hc c hmem
    exact .index hblob hi heq
  | index hblob hi heq => exact .index hblob hi heq

lemma flushPackIndexes_spec (h : Inv s) {r : Except ContentErr Unit}
    (hs : s.flushPackIndexes cfg env = (s', r)) :
    Keeps s s' ∧ (r = .ok () → s'.pendingPacks = s.pendingPacks ∧ away s' = away s ∧
      s'.packIndexBuilder.entries = []) := by
  unfold flushPackIndexes at hs
  generalize defaultIndexShardSize = size at hs
  generalize env.flushed + flushPackIndexTimeout = after at hs
  rw [if_neg (not_lt.2 h.enabled)] at hs
  by_cases hnil : s.packIndexBuilder.entries = []
  · rw [if_pos hnil] at hs
    cases hs
    have hclear := h.clearIndex after fun c hc => by
      have := AList.lookup_isSome.2 hc
      rw [AList.lookup, hnil] at this
      cases this
    rw [show (∅ : Builder) = s.packIndexBuilder from AList.ext hnil.symm] at hclear
    exact ⟨hclear, fun _ => ⟨rfl, rfl, hnil⟩⟩
  · rw [if_neg hnil] at hs
    cases hbuild : (s.packIndexBuilder.shard size).mapM
        (cfg.indexVersion.build cfg.overhead) with
    | none =>
      rw [hbuild] at hs
      cases hs
      exact ⟨h.keeps, fun hok => by cases hok⟩
    | some shards =>
      obtain ⟨hrefs, hcover⟩ := blobs_spec h.keyed hbuild env.indexBlobID
      rw [hbuild] at hs
      simp only [] at hs
      generalize (shards.mapIdx fun k ndx => (env.indexBlobID k, ndx)) = blobs at hs hrefs hcover
      have hbacked : ∀ blob ∈ blobs, ∀ i ∈ blob.2, Backed s i.packBlobID := fun blob hblob i hi => by
        obtain ⟨j, hj, heq⟩ := hrefs blob hblob i hi
        exact heq ▸ h.builder j hj
      cases hfault : env.indexFault with
      | some fault =>
        rw [hfault] at hs
        cases fault with
        | write n =>
          cases hs
          refine ⟨h.writeIndexBlobs fun blob hblob => ?_, fun hok => by cases hok⟩
          exact hbacked blob (mem_of_mem_take hblob)
        | commit =>
          cases hs
          exact ⟨h.writeIndexBlobs hbacked, fun hok => by cases hok⟩
      | none =>
        rw [hfault] at hs
        cases hs
        have hwrite := h.writeIndexBlobs hbacked
        obtain ⟨hkeeps, hst, hbuilder, hpend, haway⟩ := Inv.addIndexBlobs blobs hwrite.inv
          fun blob hblob => mem_append_right _ hblob
        refine ⟨hwrite.trans (hkeeps.trans (hkeeps.inv.clearIndex after ?_)),
          fun _ => ⟨hpend, haway, rfl⟩⟩
        rw [hbuilder, hst]
        intro c hc
        obtain ⟨blob, hblob, hrest⟩ := hcover c hc
        exact ⟨blob, mem_append_right _ hblob, hrest⟩

lemma Inv.setFlushing (h : Inv s) (b : Bool) : Keeps s { s with flushing := b } :=
  h.sameLayers rfl rfl rfl rfl rfl rfl h.merged

lemma flushBegin_keeps (h : Inv s) : Keeps s (s.flushBegin cfg env).1 := by
  have hset := h.setFlushing true
  have hr := hset.trans (@retryFailedPacks_retried cfg env _ hset.inv).toKeeps
  unfold flushBegin
  split
  next s₁ e h₁ =>
    rw [h₁] at hr
    exact hr.trans (hr.inv.setFlushing false)
  next s₁ h₁ =>
    rw [h₁] at hr
    exact hr

lemma durable_of_held (h : Inv s) {c : ID} (hc : Held s c) (hpend : ∀ k, s.pendingPacks k = none)
    (haway : away s = []) (hbuilder : s.packIndexBuilder.entries = []) : Durable s.storage c := by
  cases hc with
  | pending hk _ => rw [hpend] at hk; cases hk
  | away hq _ => rw [haway] at hq; cases hq
  | builder hmem =>
    have := lookup_isSome.2 hmem
    rw [AList.lookup, hbuilder] at this
    cases this
  | @index blob i hblob hi heq =>
    refine ⟨blob, hblob, i, hi, heq, (h.indexes blob hblob i hi).resolve_right ?_⟩
    rintro ⟨q, hq, -⟩
    rw [haway] at hq
    cases hq

lemma flushFinish_spec (h : Inv s) :
    Keeps s (s.flushFinish cfg env).1 ∧ ((s.flushFinish cfg env).2 = .ok () → away s = [] →
      ∀ c, Held s c → Durable (s.flushFinish cfg env).1.storage c) := by
  have hfin := @finishPacks_spec cfg env
    (if env.specialFirst then [.special, .regular] else [.regular, .special]) s h
  unfold flushFinish finishAllPacks
  split
  next s₁ e h₁ =>
    rw [h₁] at hfin
    exact ⟨hfin.1.trans (hfin.1.inv.setFlushing false), fun hok => by cases hok⟩
  next s₁ h₁ =>
    rw [h₁] at hfin
    obtain ⟨hkeeps, hdone⟩ := hfin
    obtain ⟨hflush, hempty⟩ := flushPackIndexes_spec hkeeps.inv
      (@Prod.mk.eta _ _ (s₁.flushPackIndexes cfg env)).symm
    refine ⟨(hkeeps.trans hflush).trans (hflush.inv.setFlushing false), fun hok haway c hc => ?_⟩
    obtain ⟨haway₁, hpend₁⟩ := hdone rfl haway
    obtain ⟨hpend, haway', hbuilder⟩ := hempty hok
    refine durable_of_held hflush.inv (hflush.held c (hkeeps.held c hc)) (fun k => ?_)
      (haway'.trans haway₁) hbuilder
    rw [hpend, hpend₁, if_pos]
    cases k <;> split_ifs <;> simp

end Flush

section Lookup

variable {cfg : Config} {s : Manager} {c : ID}

variable {i : Info} {m : List Index}

lemma mem_of_foldl_newer : ∀ (l : List Info) {best : Option Info},
    l.foldl newer best = some i → best = some i ∨ i ∈ l
  | [], _, h => .inl h
  | j :: l, best, h => by
    rcases mem_of_foldl_newer l h with h | h
    · rcases eq_of_newer h with rfl | h
      · exact .inr mem_cons_self
      · exact .inl h
    · exact .inr (mem_cons_of_mem _ h)

lemma mem_of_getInfo (h : Merged.getInfo m c = some i) :
    ∃ ndx ∈ m, i ∈ ndx ∧ i.contentID = c := by
  obtain ⟨ndx, hndx, hget⟩ :=
    mem_filterMap.1 ((mem_of_foldl_newer _ h).resolve_left nofun)
  exact ⟨ndx, hndx, mem_of_find?_eq_some hget, by simpa using find?_some hget⟩

def Copies (m m' : List Index) : Prop := ∀ ndx ∈ m', ∀ i ∈ ndx, ∃ ndx' ∈ m, ∃ j ∈ ndx',
  j.contentID = i.contentID ∧ j.packBlobID = i.packBlobID

lemma copies_combineSmallIndexes {v : IndexVersion} {overhead : ℕ} {m' : List Index}
    (h : combineSmallIndexes v overhead m = some m') : Copies m m' := by
  intro ndx hndx i hi
  rw [combineSmallIndexes] at h
  simp only [IndexVersion.build] at h
  split_ifs at h
  · cases h
    exact ⟨ndx, hndx, i, hi, rfl, rfl⟩
  · rw [map_some, some.injEq] at h
    subst h
    rcases mem_append.1 hndx with hndx | hndx
    · exact ⟨ndx, (mem_filter.1 hndx).1, i, hi, rfl, rfl⟩
    · rw [mem_singleton.1 hndx] at hi
      obtain ⟨j, hj, rfl⟩ := mem_map.1 hi
      have hj := (mem_infos_addAll _ hj).resolve_left (by simp [infos])
      obtain ⟨ndx', hndx', hj⟩ := mem_flatten.1 hj
      exact ⟨ndx', (mem_filter.1 hndx').1, j, hj, (v.contentID_stored overhead j).symm,
        (packBlobID_stored v overhead j).symm⟩
  · cases h

lemma Inv.setIndexes (h : Inv s)
    (hm : Copies (s.storage.indexBlobs.map (·.2)) m) (use : List Str) (w t : ℤ) :
    Keeps s { s with
      deletionWatermark := w, merged := m, inUse := use, refreshIndexesAfter := t } := by
  refine h.sameLayers rfl rfl rfl rfl rfl rfl fun ndx hndx i hi => ?_
  obtain ⟨ndx', hndx', hrest⟩ := hm ndx hndx i hi
  obtain ⟨blob, hblob, rfl⟩ := mem_map.1 hndx'
  exact ⟨blob, hblob, hrest⟩

lemma Inv.copies (h : Inv s) : Copies (s.storage.indexBlobs.map (·.2)) s.merged := by
  intro ndx hndx i hi
  obtain ⟨blob, hblob, hrest⟩ := h.merged ndx hndx i hi
  exact ⟨blob.2, mem_map_of_mem hblob, hrest⟩

lemma maybeRefreshIndexes_retried (h : Inv s) (t : RefreshClock) :
    Retried s (s.maybeRefreshIndexes cfg t).1 := by
  have hself : Retried s s := ⟨h.keeps, rfl, fun q hq => ⟨q, hq, rfl⟩⟩
  unfold maybeRefreshIndexes
  split_ifs
  · exact hself
  · unfold refreshIndexes
    simp only []
    split_ifs
    · exact ⟨h.setIndexes h.copies _ _ _, rfl, fun q hq => ⟨q, hq, rfl⟩⟩
    · split
      · exact ⟨h.setIndexes h.copies _ _ _, rfl, fun q hq => ⟨q, hq, rfl⟩⟩
      next m hm =>
        exact ⟨h.setIndexes (copies_combineSmallIndexes hm) _ _ _, rfl, fun q hq => ⟨q, hq, rfl⟩⟩
  · exact hself

lemma mem_pendingList {q : Pack} (h : q ∈ s.pendingList) : ∃ k, s.pendingPacks k = some q := by
  obtain ⟨k, -, hk⟩ := mem_filterMap.1 h
  exact ⟨k, hk⟩

lemma mem_of_findItem {packs : List Pack} {r : Option Pack × Info}
    (h : findItem packs c = some r) :
    ∃ q ∈ packs, q.currentPackItems.lookup c = some r.2 := by
  obtain ⟨q, hq, hr⟩ := exists_of_findSome?_eq_some h
  obtain ⟨i, hi, rfl⟩ := map_eq_some_iff.1 hr
  exact ⟨q, hq, hi⟩

lemma mem_of_lookup {b : Builder} (h : b.lookup c = some i) : c ∈ b :=
  lookup_isSome.1 (by rw [h]; rfl)

lemma held_of_committed (h : Inv s) (hi : s.committedContent c = some i) :
    Held s c ∧ Backed s i.packBlobID := by
  obtain ⟨ndx, hndx, hmem, rfl⟩ := mem_of_getInfo (eq_some_of_filter_eq_some hi)
  obtain ⟨blob, hblob, j, hj, hid, hname⟩ := h.merged ndx hndx i hmem
  exact ⟨.index hblob hj hid, hname ▸ h.indexes blob hblob j hj⟩

lemma getContentInfo_spec (h : Inv s) (t : RefreshClock) :
    Keeps s (s.getContentInfo cfg t c).1 ∧ ∀ r, (s.getContentInfo cfg t c).2 = .ok r →
      Held (s.getContentInfo cfg t c).1 c := by
  unfold getContentInfo
  split
  next r hr =>
    refine ⟨h.keeps, fun _ _ => ?_⟩
    unfold getOverlayContentInfo at hr
    split at hr
    next hf =>
      obtain ⟨q, hq, hi⟩ := mem_of_findItem hf
      obtain ⟨k, hk⟩ := mem_pendingList hq
      exact .pending hk (mem_of_lookup hi)
    next =>
      split at hr
      next hf =>
        obtain ⟨q, hq, hi⟩ := mem_of_findItem hf
        exact .away (mem_append_left _ hq) (mem_of_lookup hi)
      next =>
        obtain ⟨i, hi, -⟩ := map_eq_some_iff.1 hr
        exact .builder (mem_of_lookup hi)
  next =>
    have hr := (@maybeRefreshIndexes_retried cfg s h t).toKeeps
    split
    next s₁ h₁ =>
      rw [h₁] at hr
      exact ⟨hr, fun _ hok => by cases hok⟩
    next s₁ h₁ =>
      rw [h₁] at hr
      split
      next => exact ⟨hr, fun _ hok => by cases hok⟩
      next i hi => exact ⟨hr, fun _ _ => (held_of_committed hr.inv hi).1⟩

end Lookup

section Calls

variable {cfg : Config} {env : Env} {s : Manager} {pp : Pack}

lemma fresh_iff {name : Str} : Fresh s name ↔
    (∀ k q, s.pendingPacks k = some q → q.packBlobID ≠ name) ∧ ∀ q ∈ away s, q.packBlobID ≠ name := by
  rw [Fresh, append_assoc, map_append, mem_append, not_or]
  refine and_congr ⟨fun h k q hq hname => ?_, fun h hmem => ?_⟩ ⟨fun h q hq hname => ?_, fun h hmem => ?_⟩
  · refine h (mem_map.2 ⟨q, mem_filterMap.2 ⟨k, ?_, hq⟩, hname⟩)
    cases k <;> simp
  · obtain ⟨q, hq, hname⟩ := mem_map.1 hmem
    obtain ⟨k, hk⟩ := mem_pendingList hq
    exact h k q hk hname
  · exact h (mem_map.2 ⟨q, hq, hname⟩)
  · obtain ⟨q, hq, hname⟩ := mem_map.1 hmem
    exact h q hq hname

lemma Retried.fresh {s' : Manager} (h : Retried s s') {name : Str} (hf : Fresh s name) :
    Fresh s' name := by
  obtain ⟨hpend, haway⟩ := fresh_iff.1 hf
  refine fresh_iff.2 ⟨fun k q hq => hpend k q (h.pending ▸ hq), fun q hq => ?_⟩
  obtain ⟨p, hp, hname⟩ := h.names q hq
  exact hname ▸ haway p hp

lemma getOrCreatePendingPack_spec (h : Inv s) (hf : Fresh s env.packBlobID) {k : PackPrefix}
    (hg : s.getOrCreatePendingPack cfg env k = some pp) :
    Slot s pp ∧ pp.pre = k ∧ ∀ q, s.pendingPacks k = some q → q = pp := by
  rw [getOrCreatePendingPack] at hg
  split at hg
  next q hq =>
    cases hg
    exact ⟨h.slot hq, h.slots k _ hq, fun q' hq' => some.inj (hq'.symm.trans hq)⟩
  next hnone =>
    split_ifs at hg
    cases hg
    obtain ⟨hpend, haway⟩ := fresh_iff.1 hf
    refine ⟨⟨⟨Keyed.empty, ?_, nofun⟩, haway, fun k' q hq _ => hpend k' q hq⟩, rfl,
      fun q hq => ?_⟩
    · rintro ⟨i, hi, -⟩
      cases hi
    · rw [hnone] at hq
      cases hq

lemma mem_infos_insert {b : Builder} {i j : Info} {c : ID}
    (h : j ∈ infos (insert c i b)) : j = i ∨ j ∈ b.infos := by
  obtain ⟨c', hc'⟩ := mem_infos.1 h
  by_cases heq : c' = c
  · subst heq
    rw [lookup_insert, some.injEq] at hc'
    exact .inl hc'.symm
  · rw [lookup_insert_ne heq] at hc'
    exact .inr (mem_infos.2 ⟨c', hc'⟩)

lemma mem_infos_erase {b : Builder} {j : Info} {c : ID}
    (h : j ∈ infos (erase c b)) : j ∈ b.infos := by
  obtain ⟨c', hc'⟩ := mem_infos.1 h
  by_cases heq : c' = c
  · subst heq
    rw [lookup_erase] at hc'
    cases hc'
  · rw [lookup_erase_ne heq] at hc'
    exact mem_infos.2 ⟨c', hc'⟩

lemma Slot.insert (h : Slot s pp) {i : Info} {data : Str}
    (hi : i.packBlobID = pp.packBlobID ∧ data ≠ [] ∨ Backed s i.packBlobID)
    (hdata : pp.currentPackData ≠ [] → data ≠ []) :
    Slot s { pp with
      currentPackItems := pp.currentPackItems.insert i.contentID i, currentPackData := data } where
  keyed := h.keyed.insert
  data := by
    rintro ⟨j, hj, hname⟩
    rcases mem_infos_insert hj with rfl | hj
    · rcases hi with ⟨-, hne⟩ | hb | ⟨q, hq, hq', -⟩
      · exact .inl hne
      · exact .inr (hname ▸ hb)
      · exact absurd (hq'.trans hname) (h.apart q hq)
    · exact (h.data ⟨j, hj, hname⟩).imp_left hdata
  items j hj := by
    rcases mem_infos_insert hj with rfl | hj
    · exact hi.imp_left And.left
    · exact h.items j hj
  apart := h.apart
  distinct := h.distinct

lemma encrypt_ne_nil (henc : ∀ nonce data iv, cfg.encrypt nonce data iv ≠ [])
    {nonce data payload : Str} {id : ID} {comp comp' : ℕ}
    (h : maybeCompressAndEncryptDataForPacking cfg nonce data id comp = some (comp', payload)) :
    payload ≠ [] := by
  unfold maybeCompressAndEncryptDataForPacking at h
  simp only [] at h
  generalize (if id.hasPrefix ∧ cfg.indexVersion = .v1 then 0 else comp) = used at h
  split_ifs at h
  · cases h
    exact henc _ _ _
  · split at h
    · cases h
    · split_ifs at h <;> cases h <;> exact henc _ _ _

lemma startWriting_setPending : (s.setPending pp).startWriting pp = s.startWriting pp := by
  simp [startWriting, setPending]

lemma Inv.insertItem (h : Inv s) (hslot : Slot s pp) {i : Info} {data : Str}
    (hold : ∀ q, s.pendingPacks pp.pre = some q → q = pp)
    (hi : i.packBlobID = pp.packBlobID ∧ data ≠ [] ∨ Backed s i.packBlobID)
    (hdata : pp.currentPackData ≠ [] → data ≠ []) :
    Keeps s (s.setPending { pp with
      currentPackItems := pp.currentPackItems.insert i.contentID i, currentPackData := data }) ∧
    i.contentID ∈ pp.currentPackItems.insert i.contentID i := by
  refine ⟨⟨h.setPending (hslot.insert hi hdata), fun c hc => hc.setPending fun q hq hmem => ?_,
    fun _ hd => hd⟩, ?_⟩
  · rw [hold q hq] at hmem
    exact (mem_insert _).2 (.inr hmem)
  · exact (mem_insert _).2 (.inl rfl)

lemma appendToPack_spec (h : Inv s) (hf : Fresh s env.packBlobID) {id : ID} {length comp : ℕ}
    {prev : ℤ} {payload : Str} (hpay : payload ≠ []) {s' : Manager}
    {r : Except ContentErr (Option Pack)}
    (hs : s.appendToPack cfg env id length false comp prev payload = (s', r)) :
    Keeps s s' ∧ (r = .ok none → Held s' id) := by
  have hr := @retryFailedPacks_retried cfg env s h
  unfold appendToPack at hs
  split at hs
  next s₁ e h₁ =>
    rw [h₁] at hr
    cases hs
    exact ⟨hr.toKeeps, fun hok => by cases hok⟩
  next s₁ h₁ =>
    rw [h₁] at hr
    split at hs
    next =>
      cases hs
      exact ⟨hr.toKeeps, fun hok => by cases hok⟩
    next pp hg =>
      obtain ⟨hslot, hpre, hold⟩ := getOrCreatePendingPack_spec hr.inv (hr.fresh hf) hg
      have hins := hr.inv.insertItem hslot
        (i := newInfo cfg env pp id length false comp prev payload) (fun q hq => hold q (hpre ▸ hq)) (.inl ⟨rfl, by simp [hpay]⟩)
        (fun _ => append_ne_nil_of_right_ne_nil pp.currentPackData hpay)
      simp only [] at hs
      split_ifs at hs
      · cases hs
        rw [← startWriting_setPending]
        refine ⟨(hr.toKeeps.trans hins.1).trans (hins.1.inv.startWriting ?_), fun hok => by cases hok⟩
        exact update_self ..
      · cases hs
        exact ⟨hr.toKeeps.trans hins.1, fun _ => .pending (update_self ..) hins.2⟩

structure Loses (s s' : Manager) (id : ID) : Prop where
  inv : Inv s'
  held : ∀ c, c ≠ id → Held s c → Held s' c
  grows : ∀ c, Durable s.storage c → Durable s'.storage c

lemma Keeps.loses {s' : Manager} (h : Keeps s s') (id : ID) : Loses s s' id :=
  ⟨h.inv, fun c _ hc => h.held c hc, h.grows⟩

lemma deletePreexistingContent_keeps (h : Inv s) (hf : Fresh s env.packBlobID) {ci : Info}
    (hb : Backed s ci.packBlobID) : Keeps s (s.deletePreexistingContent cfg env ci).1 := by
  unfold deletePreexistingContent
  split_ifs
  · exact h.keeps
  · split
    next => exact h.keeps
    next pp hg =>
      obtain ⟨hslot, hpre, hold⟩ := getOrCreatePendingPack_spec h hf hg
      exact (h.insertItem hslot (i := deletedInfo ci (contentWriteTime env.write ci.timestampSeconds))
        (fun q hq => hold q (hpre ▸ hq)) (.inr hb) id).1

lemma Slot.erase (h : Slot s pp) (id : ID) :
    Slot s { pp with currentPackItems := pp.currentPackItems.erase id } where
  keyed := h.keyed.erase id
  data := by
    rintro ⟨j, hj, hname⟩
    exact h.data ⟨j, mem_infos_erase hj, hname⟩
  items j hj := h.items j (mem_infos_erase hj)
  apart := h.apart
  distinct := h.distinct

lemma deleteContent_loses (h : Inv s) (hf : Fresh s env.packBlobID) (id : ID) :
    Loses s (s.deleteContent cfg env id).1 id ∧
      ∀ e, (s.deleteContent cfg env id).2 = .error e → Keeps s (s.deleteContent cfg env id).1 := by
  have hpre : ∀ {s₁ : Manager} {ci : Info}, Keeps s s₁ → Inv s₁ → Fresh s₁ env.packBlobID →
      Backed s₁ ci.packBlobID → Loses s (s₁.deletePreexistingContent cfg env ci).1 id ∧
      ∀ e, (s₁.deletePreexistingContent cfg env ci).2 = .error e →
        Keeps s (s₁.deletePreexistingContent cfg env ci).1 := fun hk hinv hfresh hb => by
    have hkeeps := hk.trans (@deletePreexistingContent_keeps cfg env _ hinv hfresh _ hb)
    exact ⟨hkeeps.loses id, fun _ _ => hkeeps⟩
  unfold deleteContent
  split
  next pp hfind =>
    obtain ⟨k, hk⟩ := mem_pendingList (mem_of_find?_eq_some hfind)
    have hslot := h.slot hk
    refine ⟨⟨h.setPending (hslot.erase id), fun c hc hheld => hheld.setPending fun q hq hmem => ?_,
      fun _ hd => hd⟩, fun e he => by cases he⟩
    rw [show s.pendingPacks pp.pre = some pp from (h.slots k pp hk).symm ▸ hk,
      some.injEq] at hq
    exact mem_erase.2 ⟨hc, hq ▸ hmem⟩
  next =>
    split
    next bi hfind =>
      obtain ⟨q, hq, hbi⟩ := exists_of_findSome?_eq_some hfind
      have haway : q ∈ away s := mem_append_left _ hq
      refine hpre h.keeps h hf ((h.awayInv q haway).backed haway ?_)
      exact mem_infos.2 ⟨id, eq_some_of_filter_eq_some hbi⟩
    next =>
      split
      next bi hbi =>
        exact hpre h.keeps h hf (h.builder bi (mem_infos.2 ⟨id, hbi⟩))
      next =>
        have hr := @maybeRefreshIndexes_retried cfg s h env.refresh
        split
        next s₁ h₁ =>
          rw [h₁] at hr
          exact ⟨hr.toKeeps.loses id, fun _ _ => hr.toKeeps⟩
        next s₁ h₁ =>
          rw [h₁] at hr
          split
          next => exact ⟨hr.toKeeps.loses id, fun _ _ => hr.toKeeps⟩
          next bi hbi =>
            exact hpre hr.toKeeps hr.inv (hr.fresh hf) (held_of_committed hr.inv hbi).2

end Calls

section Runs

variable {cfg : Config} {s s' : Shared}

/-- What holds in every state: nothing that was promised is lost. -/
structure Kept (s : Shared) : Prop where
  inv : Inv s.mgr
  written : ∀ c ∈ s.written, Held s.mgr c
  owed : ∀ cs ∈ s.flushers, ∀ c ∈ cs, Held s.mgr c
  durable : ∀ c ∈ s.flushed, Durable s.mgr.storage c

lemma kept_of_opened (h : Opened s) : Kept s := by
  have haway : away s.mgr = [] := by rw [away, h.writing, h.failed]; rfl
  refine ⟨⟨h.enabled, ?_, ?_, ?_, ?_, ?_, ?_, ?_, ?_, ?_, ?_, h.merged⟩, ?_, ?_, ?_⟩
  · intro k pp hk; rw [h.pending] at hk; cases hk
  · intro k pp hk; rw [h.pending] at hk; cases hk
  · rw [haway]; exact nofun
  · rw [haway]; exact nofun
  · rw [h.failed]; exact nodup_nil
  · intro k pp hk; rw [h.pending] at hk; cases hk
  · intro k k' pp pp' hk; rw [h.pending] at hk; cases hk
  · rw [h.builder]; exact Keyed.empty
  · rw [h.builder]; exact nofun
  · exact fun blob hblob i hi => .inl (h.indexes blob hblob i hi)
  · rw [h.written]; exact nofun
  · rw [h.flushers]; exact nofun
  · rw [h.flushed]; exact nofun

lemma Kept.keeps (h : Kept s) {mgr : Manager} (hk : Keeps s.mgr mgr) :
    Kept { s with mgr } where
  inv := hk.inv
  written c hc := hk.held c (h.written c hc)
  owed cs hcs c hc := hk.held c (h.owed cs hcs c hc)
  durable c hc := hk.grows c (h.durable c hc)

lemma Kept.write (h : Kept s) {c : ID} (hc : Held s.mgr c) :
    Kept { s with written := c :: s.written } where
  inv := h.inv
  written d hd := by
    rcases mem_cons.1 hd with rfl | hd
    · exact hc
    · exact h.written d hd
  owed := h.owed
  durable := h.durable

variable {id : ID} {env : Env}

lemma Kept.forget (h : Kept s) {mgr : Manager} (hl : Loses s.mgr mgr id) :
    Kept ({ s with mgr }.forget id) where
  inv := hl.inv
  written c hc := by
    obtain ⟨hc, hne⟩ := mem_filter.1 hc
    exact hl.held c (of_decide_eq_true hne) (h.written c hc)
  owed cs hcs c hc := by
    obtain ⟨cs, hmem, rfl⟩ := mem_map.1 hcs
    obtain ⟨hc, hne⟩ := mem_filter.1 hc
    exact hl.held c (of_decide_eq_true hne) (h.owed cs hmem c hc)
  durable c hc := hl.grows c (h.durable c hc)

lemma Kept.stepFound (h : Kept s) (id : ID) (t : RefreshClock) : Kept (s.stepFound cfg id t) := by
  obtain ⟨hk, hheld⟩ := @getContentInfo_spec cfg s.mgr id h.inv t
  unfold Shared.stepFound
  split
  next mgr r h₁ =>
    rw [h₁] at hk hheld
    exact (h.keeps hk).write (hheld r rfl)
  next mgr e h₁ =>
    rw [h₁] at hk
    exact h.keeps hk

lemma Kept.stepAppend (henc : ∀ nonce data iv, cfg.encrypt nonce data iv ≠ []) (h : Kept s)
    {data : Str} {comp : ℕ} {prev : ℤ}
    (hs : s.stepAppend cfg id data comp prev env = some s') : Kept s' := by
  rw [Shared.stepAppend] at hs
  split_ifs at hs with hguard
  rw [not_or, not_not] at hguard
  split at hs
  next => cases hs
  next comp' payload henc' =>
    have hspec := fun {mgr r} => @appendToPack_spec cfg env s.mgr h.inv hguard.2 id data.length comp'
      prev payload (encrypt_ne_nil henc henc') mgr r
    split at hs
    next mgr h₁ =>
      cases hs
      obtain ⟨hk, hheld⟩ := hspec h₁
      exact (h.keeps hk).write (hheld rfl)
    next mgr r _ h₁ =>
      cases hs
      exact h.keeps (hspec h₁).1

lemma Kept.stepUploaded (h : Kept s) {i : ℕ}
    (hs : s.stepUploaded cfg i id env = some s') : Kept s' := by
  rw [Shared.stepUploaded] at hs
  split at hs
  next => cases hs
  next pp hpp =>
    have haway : pp ∈ away s.mgr := mem_append_left _ (mem_of_getElem? hpp)
    split_ifs at hs with hid
    have hheld : Held s.mgr id := .away haway (lookup_isSome.1 (isSome_iff_ne_none.2 (by simpa using hid)))
    obtain ⟨pp', ok, hw, -⟩ := @wrote cfg env s.mgr pp
    have hk := hw.keeps h.inv haway
    split at hs
    next mgr h₁ =>
      cases hs
      rw [h₁] at hk
      exact (h.keeps hk).write (hk.held id hheld)
    next mgr e h₁ =>
      cases hs
      rw [h₁] at hk
      exact h.keeps hk

lemma Kept.stepDelete (h : Kept s) (hs : s.stepDelete cfg id env = some s') : Kept s' := by
  rw [Shared.stepDelete] at hs
  split_ifs at hs with hf
  obtain ⟨hl, hk⟩ := @deleteContent_loses cfg env s.mgr h.inv hf id
  split at hs
  next mgr h₁ =>
    cases hs
    rw [h₁] at hl
    exact h.forget hl
  next mgr e h₁ =>
    cases hs
    rw [h₁] at hk
    exact h.keeps (hk e rfl)

lemma Kept.stepFlush (h : Kept s) (env : Env) : Kept (s.stepFlush cfg env) := by
  have hk := @flushBegin_keeps cfg env s.mgr h.inv
  unfold Shared.stepFlush
  split
  next mgr h₁ =>
    rw [h₁] at hk
    have h := h.keeps hk
    refine ⟨h.inv, h.written, fun cs hcs => ?_, h.durable⟩
    rcases mem_append.1 hcs with hcs | hcs
    · exact h.owed cs hcs
    · rw [mem_singleton.1 hcs]
      exact h.written
  next mgr e h₁ =>
    rw [h₁] at hk
    exact h.keeps hk

lemma Kept.stepFinish (h : Kept s) {i : ℕ} (hnone : s.mgr.failedPacks = [])
    (hs : s.stepFinish cfg i env = some s') : Kept s' := by
  rw [Shared.stepFinish] at hs
  split at hs
  next => cases hs
  next owed howed =>
    split_ifs at hs with hw
    have haway : away s.mgr = [] := by rw [away, not_not.1 hw, hnone]; rfl
    have howed : owed ∈ s.flushers := mem_of_getElem? howed
    obtain ⟨hk, hd⟩ := @flushFinish_spec cfg env s.mgr h.inv
    have hrest : ∀ cs ∈ s.flushers.eraseIdx i, ∀ c ∈ cs, Held s.mgr c :=
      fun cs hcs => h.owed cs (mem_of_mem_eraseIdx hcs)
    simp only [] at hs
    split at hs
    next mgr h₁ =>
      cases hs
      rw [h₁] at hk hd
      refine ⟨hk.inv, fun c hc => hk.held c (h.written c hc),
        fun cs hcs c hc => hk.held c (hrest cs hcs c hc), fun c hc => ?_⟩
      rcases mem_append.1 hc with hc | hc
      · exact hd rfl haway c (h.owed owed howed c hc)
      · exact hk.grows c (h.durable c hc)
    next mgr e h₁ =>
      cases hs
      rw [h₁] at hk
      exact ⟨hk.inv, fun c hc => hk.held c (h.written c hc),
        fun cs hcs c hc => hk.held c (hrest cs hcs c hc), fun c hc => hk.grows c (h.durable c hc)⟩

lemma Kept.step (henc : ∀ nonce data iv, cfg.encrypt nonce data iv ≠ []) {a : Action} (h : Kept s)
    (hok : NoneFailed s a) (hs : s.step cfg a = some s') : Kept s' := by
  cases a with
  | found id t =>
    cases hs
    exact h.stepFound id t
  | retry env =>
    simp only [Shared.step, Shared.stepRetry] at hs
    split_ifs at hs
    cases hs
    exact h.keeps (@retryFailedPacks_retried cfg env s.mgr h.inv).toKeeps
  | append id data comp prev env => exact h.stepAppend henc hs
  | uploaded i id env => exact h.stepUploaded hs
  | delete id env => exact h.stepDelete hs
  | flush env =>
    cases hs
    exact h.stepFlush env
  | finish i env => exact h.stepFinish hok hs

/-- What a flush answered for is durable, if no upload fails while a flush waits. -/
theorem reach_flushed_durable (henc : ∀ nonce data iv, cfg.encrypt nonce data iv ≠ [])
    (h : Runs.Reach (step cfg) NoneFailed Opened s) :
    ∀ c ∈ s.flushed, Durable s.mgr.storage c :=
  (h.invariant (fun _ => kept_of_opened) fun _ _ _ h hok hs => h.step henc hok hs).durable

end Runs

namespace Sample

def cfg : Config where
  indexVersion := .v2
  version := 2
  maxPackSize := 4
  paddingUnit := 0
  formatBytes := []
  overhead := 1
  permissiveCacheLoading := false
  disableIndexRefresh := true
  hash data := data
  compressors _ := none
  encrypt _ data _ := 0 :: data
  decrypt payload _ := some payload.tail
  decrypt_encrypt := Config.plain.decrypt_encrypt

def env (name : Str) (put : Put) : Env where
  upload _ := ⟨put, fun _ => [], [1], List.cons_ne_nil _ _⟩
  packBlobID := name
  preamble := []
  sessionFails := false
  nonce := []
  indexBlobID k := [UInt8.ofNat k]
  indexFault := none
  specialFirst := false
  refresh := ⟨0, 0⟩
  recheck := ⟨0, 0⟩
  flushDue := 0
  flushed := 0
  write := 10 ^ 9

def start : Shared where
  mgr := ⟨fun _ => none, [], [], ∅, 0, false, 0, 0, [], [], 0, ⟨[], [], 0⟩⟩
  written := []
  flushers := []
  flushed := []

lemma start_opened : Opened start :=
  ⟨fun _ => rfl, rfl, rfl, rfl, le_rfl, nofun, nofun, rfl, rfl, rfl⟩

/-- A content is written, another fills the pack, and a flush waits for its upload. -/
def actions (put : Put) : List Action :=
  [.append ⟨0, [5]⟩ [5] 0 (-1) (env [112, 1] .ok), .append ⟨0, [6]⟩ [6] 0 (-1) (env [112, 2] .ok),
    .flush (env [112, 2] .ok), .uploaded 0 ⟨0, [6]⟩ (env [112, 2] put), .finish 0 (env [112, 2] .ok)]

end Sample

instance (st : Storage) (c : ID) : Decidable (Durable st c) := by
  unfold Durable
  infer_instance

theorem reach_flushed_durable_sample : ∃ s, Runs.Reach (step Sample.cfg) NoneFailed Opened s ∧
    s.flushed = [⟨0, [5]⟩] ∧ ∀ c ∈ s.flushed, Durable s.mgr.storage c :=
  Runs.exists_reach_with Sample.start_opened (Sample.actions .ok) (by decide) fun _ hreach _ =>
    reach_flushed_durable (fun _ _ _ => cons_ne_nil _ _) hreach

/-- The upload fails while the flush waits: the flush succeeds without the content. -/
theorem flush_misses_failed : ∃ s, Runs.Reach (step Sample.cfg) Runs.Free Opened s ∧
    ∃ c ∈ s.flushed, ¬ Durable s.mgr.storage c :=
  Runs.exists_reach Sample.start_opened (Sample.actions .failed) (by decide)

end Shared

end Warphold.Content
