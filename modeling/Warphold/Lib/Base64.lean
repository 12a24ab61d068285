import Warphold.Lib.Encoding

/-!
# Base64 round trip

What the raw URL encoding writes is read back.
-/

namespace Base64

open Option

lemma urlValue_urlChar : ∀ n < 64, urlValue (urlChar n) = some n := by decide

lemma urlChar_unbroken : ∀ n < 64, urlChar n ≠ 10 ∧ urlChar n ≠ 13 := by decide

lemma mem_encode : ∀ (s : Str), ∀ c ∈ rawURLEncodeToString s, ∃ n < 64, c = urlChar n
  | [], c, h => absurd h List.not_mem_nil
  | [a], c, h => by
    have ha := a.toNat_lt
    simp only [rawURLEncodeToString, List.mem_cons, List.not_mem_nil, or_false] at h
    rcases h with rfl | rfl <;> exact ⟨_, by omega, rfl⟩
  | [a, b], c, h => by
    have ha := a.toNat_lt
    have hb := b.toNat_lt
    simp only [rawURLEncodeToString, List.mem_cons, List.not_mem_nil, or_false] at h
    rcases h with rfl | rfl | rfl <;> exact ⟨_, by omega, rfl⟩
  | a :: b :: d :: s, c, h => by
    have ha := a.toNat_lt
    have hb := b.toNat_lt
    have hd := d.toNat_lt
    simp only [rawURLEncodeToString, List.mem_cons] at h
    rcases h with rfl | rfl | rfl | rfl | h
    rotate_right
    · exact mem_encode s c h
    all_goals exact ⟨_, by omega, rfl⟩

lemma skipBreaks_encode (s : Str) : skipBreaks (rawURLEncodeToString s) = rawURLEncodeToString s := by
  refine List.filter_eq_self.mpr fun c hc => ?_
  obtain ⟨n, hn, rfl⟩ := mem_encode s c hc
  exact decide_eq_true (urlChar_unbroken n hn)

lemma ofNat_eq {n : ℕ} {c : UInt8} (h : n = c.toNat) : UInt8.ofNat n = c := by
  rw [h, UInt8.ofNat_toNat]

lemma decodeGroups_encode : ∀ s : Str,
    decodeGroups urlValue false (rawURLEncodeToString s) = some s
  | [] => rfl
  | [a] => by
    have ha := a.toNat_lt
    simp only [rawURLEncodeToString, decodeGroups, Bool.false_eq_true, if_false,
      urlValue_urlChar _ (show a.toNat / 4 < 64 by omega),
      urlValue_urlChar _ (show a.toNat % 4 * 16 < 64 by omega), bind_eq_bind,
      bind_some, pure_def]
    rw [ofNat_eq (c := a) (by omega)]
  | [a, b] => by
    have ha := a.toNat_lt
    have hb := b.toNat_lt
    simp only [rawURLEncodeToString, decodeGroups, Bool.false_eq_true, if_false,
      urlValue_urlChar _ (show a.toNat / 4 < 64 by omega),
      urlValue_urlChar _ (show a.toNat % 4 * 16 + b.toNat / 16 < 64 by omega),
      urlValue_urlChar _ (show b.toNat % 16 * 4 < 64 by omega), bind_eq_bind,
      bind_some, pure_def]
    rw [ofNat_eq (c := a) (by omega), ofNat_eq (c := b) (by omega)]
  | a :: b :: d :: s => by
    have ha := a.toNat_lt
    have hb := b.toNat_lt
    have hd := d.toNat_lt
    have ih := decodeGroups_encode s
    simp only [rawURLEncodeToString, decodeGroups, Bool.false_eq_true, false_and, if_false,
      urlValue_urlChar _ (show a.toNat / 4 < 64 by omega),
      urlValue_urlChar _ (show a.toNat % 4 * 16 + b.toNat / 16 < 64 by omega),
      urlValue_urlChar _ (show b.toNat % 16 * 4 + d.toNat / 64 < 64 by omega),
      urlValue_urlChar _ (show d.toNat % 64 < 64 by omega), ih, bind_eq_bind,
      bind_some, pure_def]
    rw [ofNat_eq (c := a) (by omega), ofNat_eq (c := b) (by omega), ofNat_eq (c := d) (by omega)]

lemma rawURLDecodeString_encode (s : Str) :
    rawURLDecodeString (rawURLEncodeToString s) = some s := by
  rw [rawURLDecodeString, skipBreaks_encode, decodeGroups_encode]

end Base64
