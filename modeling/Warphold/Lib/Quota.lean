import Mathlib

/-!
# Quotas

Requests of several kinds come one after the other. A request is granted while its kind has something
left, unless a request granted before bars it. When equal keys bar each other across the kinds
(`shared`), one kind can take a key from another; when they bar only within a kind (`apart`), each
kind gets the first requests of distinct keys. The two grant the same exactly when no key is granted
to two kinds.
-/

namespace Quota

open List

variable {ε κ ι : Type*} [DecidableEq κ] [DecidableEq ι]

section Firsts

variable (key : ε → ι)

def firsts : List ε → List ε
  | [] => []
  | a :: l => a :: (firsts l).filter fun b => key b ≠ key a

variable {key}

lemma firsts_subset : ∀ l : List ε, firsts key l ⊆ l
  | [] => Subset.refl _
  | _ :: l => cons_subset_cons _ (Subset.trans (filter_subset_self _) (firsts_subset l))

variable (key) in
lemma exists_mem_firsts : ∀ {l : List ε} {a : ε}, a ∈ l → ∃ b ∈ firsts key l, key b = key a
  | b :: l, a, ha => by
    by_cases hb : key a = key b
    · exact ⟨b, mem_cons_self, hb.symm⟩
    · rcases mem_cons.1 ha with rfl | ha
      · exact absurd rfl hb
      · obtain ⟨c, hc, hca⟩ := exists_mem_firsts ha
        refine ⟨c, mem_cons_of_mem _ (mem_filter.2 ⟨hc, ?_⟩), hca⟩
        simpa [hca] using hb

lemma firsts_append_new {a : ε} : ∀ {l : List ε}, (∀ b ∈ l, key b ≠ key a) →
    firsts key (l ++ [a]) = firsts key l ++ [a]
  | [], _ => rfl
  | b :: l, h => by
    have hb : key a ≠ key b := (h b mem_cons_self).symm
    have hl : ∀ c ∈ l, key c ≠ key a := fun c hc => h c (mem_cons_of_mem _ hc)
    simp only [cons_append, firsts, firsts_append_new hl, filter_append]
    simp [hb]

lemma firsts_append_old {a : ε} : ∀ {l : List ε}, (∃ b ∈ l, key b = key a) →
    firsts key (l ++ [a]) = firsts key l
  | b :: l, h => by
    simp only [cons_append, firsts]
    by_cases hl : ∃ c ∈ l, key c = key a
    · rw [firsts_append_old hl]
    · push Not at hl
      have hb : key b = key a := by
        obtain ⟨c, hc, hca⟩ := h
        rcases mem_cons.1 hc with rfl | hc
        · exact hca
        · exact absurd hca (hl c hc)
      rw [firsts_append_new hl, filter_append]
      simp [hb]

lemma firsts_eq_self : ∀ {l : List ε}, (l.map key).Nodup → firsts key l = l
  | [], _ => rfl
  | a :: l, h => by
    obtain ⟨ha, hl⟩ := nodup_cons.1 h
    rw [firsts, firsts_eq_self hl, filter_eq_self.2]
    exact fun b hb => decide_eq_true fun hab => ha (hab ▸ mem_map_of_mem hb)

lemma firsts_map {α : Type*} (f : α → ε) : ∀ l : List α,
    firsts key (l.map f) = (firsts (fun a => key (f a)) l).map f
  | [] => rfl
  | a :: l => by
    rw [map_cons, firsts, firsts, firsts_map f l, map_cons, filter_map]
    rfl

end Firsts

variable (kind : ε → κ) (key : ε → ι) (limit : κ → ℕ)

def grant (bars : ε → ε → Bool) (kept : List ε) (e : ε) : List ε :=
  if (∀ f ∈ kept, bars f e = false) ∧ kept.countP (kind · = kind e) < limit (kind e) then kept ++ [e]
  else kept

def shared (es : List ε) : List ε := es.foldl (grant kind limit fun f e => key f = key e) []

def apart (es : List ε) : List ε :=
  es.foldl (grant kind limit fun f e => kind f = kind e && key f = key e) []

section Grant

variable {kind key limit} {bars : ε → ε → Bool} {kept : List ε} {e : ε} (es : List ε)

lemma grant_prefix : kept <+: grant kind limit bars kept e := by
  unfold grant
  split_ifs
  · exact prefix_append _ _
  · exact prefix_rfl

lemma grant_pairwise (h : kept.Pairwise fun f e => bars f e = false) :
    (grant kind limit bars kept e).Pairwise fun f e => bars f e = false := by
  unfold grant
  split_ifs with hg
  · exact pairwise_append.2 ⟨h, pairwise_singleton _ _, fun f hf e' he' => by
      rw [mem_singleton.1 he']
      exact hg.1 f hf⟩
  · exact h

lemma foldl_grant_pairwise : ∀ (es kept : List ε), (kept.Pairwise fun f e => bars f e = false) →
    (es.foldl (grant kind limit bars) kept).Pairwise fun f e => bars f e = false
  | [], _, h => h
  | _ :: es, _, h => foldl_grant_pairwise es _ (grant_pairwise h)

lemma shared_pairwise : (shared kind key limit es).Pairwise fun f e => key f ≠ key e :=
  (foldl_grant_pairwise es [] .nil).imp fun h => of_decide_eq_false h

lemma apart_pairwise :
    (apart kind key limit es).Pairwise fun f e => kind f = kind e → key f ≠ key e := by
  refine (foldl_grant_pairwise es [] .nil).imp fun h hk => ?_
  simpa [hk] using h

lemma apart_append : apart kind key limit (es ++ [e])
    = grant kind limit (fun f e => kind f = kind e && key f = key e) (apart kind key limit es) e := by
  rw [apart, foldl_append]
  rfl

lemma shared_append : shared kind key limit (es ++ [e])
    = grant kind limit (fun f e => key f = key e) (shared kind key limit es) e := by
  rw [shared, foldl_append]
  rfl

lemma shared_eq_apart {es : List ε}
    (h : (apart kind key limit es).Pairwise fun f e => key f ≠ key e) :
    shared kind key limit es = apart kind key limit es := by
  induction es using reverseRecOn with
  | nil => rfl
  | append_singleton es e ih =>
    rw [apart_append] at h
    rw [shared_append, apart_append, ih (h.sublist grant_prefix.sublist)]
    unfold grant at h ⊢
    split_ifs at h with ha
    · have hnew : ∀ f ∈ apart kind key limit es, key f ≠ key e := fun f hf =>
        (pairwise_append.1 h).2.2 f hf e (mem_singleton_self e)
      rw [if_pos ⟨fun f hf => decide_eq_false (hnew f hf), ha.2⟩, if_pos ha]
    · rw [if_neg ha, if_neg]
      rintro ⟨hbars, hlt⟩
      refine ha ⟨fun f hf => ?_, hlt⟩
      simp [of_decide_eq_false (hbars f hf)]

lemma filter_grant_of_ne {k : κ} (hk : kind e ≠ k) :
    (grant kind limit bars kept e).filter (kind · = k) = kept.filter (kind · = k) := by
  unfold grant
  split_ifs
  · rw [filter_append]
    simp [hk]
  · rfl

lemma filter_apart (k : κ) : (apart kind key limit es).filter (kind · = k)
    = (firsts key (es.filter (kind · = k))).take (limit k) := by
  induction es using reverseRecOn with
  | nil => simp [apart, firsts]
  | append_singleton es e ih =>
    rw [apart_append, filter_append]
    by_cases hk : kind e = k
    · subst hk
      have hcount := congrArg length ih
      rw [← countP_eq_length_filter, length_take] at hcount
      have hself : [e].filter (kind · = kind e) = [e] := by simp
      rw [hself]
      by_cases hold : ∃ b ∈ es.filter (kind · = kind e), key b = key e
      · rw [firsts_append_old hold, grant, if_neg, ih]
        rintro ⟨hbars, hlt⟩
        obtain ⟨b, hb, hbe⟩ := hold
        obtain ⟨c, hc, hcb⟩ := exists_mem_firsts key hb
        -- with something left, nothing of the kind was turned down, so `c` is there and bars
        have hall : firsts key (es.filter (kind · = kind e))
            = (apart kind key limit es).filter (kind · = kind e) := by
          rw [ih, take_of_length_le (by omega)]
        obtain ⟨hc, hck⟩ := mem_filter.1 (hall ▸ hc)
        simpa [of_decide_eq_true hck, hcb.trans hbe] using hbars c hc
      · push Not at hold
        have hbars : ∀ f ∈ apart kind key limit es,
            (decide (kind f = kind e) && decide (key f = key e)) = false := by
          intro f hf
          by_cases hkind : kind f = kind e
          · have hmem : f ∈ (firsts key (es.filter (kind · = kind e))).take (limit (kind e)) :=
              ih ▸ mem_filter.2 ⟨hf, by simpa using hkind⟩
            simp [hold f (firsts_subset _ (mem_of_mem_take hmem))]
          · simp [hkind]
        rw [firsts_append_new hold]
        by_cases hlt : (firsts key (es.filter (kind · = kind e))).length < limit (kind e)
        · rw [grant, if_pos ⟨hbars, by omega⟩, filter_append, ih, hself,
            take_of_length_le hlt.le, take_of_length_le (by simp; omega)]
        · rw [grant, if_neg (by omega), ih, take_append_of_le_length (by omega)]
    · rw [filter_grant_of_ne hk, ih]
      simp [hk]

variable (kind key limit) in
lemma filter_shared_iff : (∀ k, (shared kind key limit es).filter (kind · = k)
      = (firsts key (es.filter (kind · = k))).take (limit k))
    ↔ ∀ k k', k ≠ k' → ∀ e ∈ (firsts key (es.filter (kind · = k))).take (limit k),
        ∀ f ∈ (firsts key (es.filter (kind · = k'))).take (limit k'), key e ≠ key f := by
  simp only [← filter_apart]
  constructor
  · intro h k k' hk e he f hf
    rw [← h] at he hf
    obtain ⟨he, hek⟩ := mem_filter.1 he
    obtain ⟨hf, hfk⟩ := mem_filter.1 hf
    have hsymm : Std.Symm fun f e : ε => key f ≠ key e := ⟨fun _ _ => Ne.symm⟩
    refine (shared_pairwise es).forall he hf ?_
    rintro rfl
    exact hk ((of_decide_eq_true hek).symm.trans (of_decide_eq_true hfk))
  · intro h k
    rw [shared_eq_apart]
    refine (apart_pairwise es).imp_of_mem fun {e f} he hf hsame => ?_
    by_cases hk : kind e = kind f
    · exact hsame hk
    · exact h _ _ hk e (mem_filter.2 ⟨he, by simp⟩) f (mem_filter.2 ⟨hf, by simp⟩)

end Grant

end Quota
