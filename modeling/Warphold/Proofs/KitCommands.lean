import Warphold.Fleet.Kit

/-!
# Pasting the kit's commands

A value stands in its word either as it is, when no byte of it means anything to the shell, or between
single quotes, each of its own quotes being escaped outside of them.
-/

namespace Warphold.Fleet

open List Shell

section Words

variable {w rest : Str}

def Literal (c : UInt8) : Prop :=
  c ≠ 39 ∧ c ≠ 34 ∧ c ≠ 92 ∧ blank c = false ∧ special c = false

instance : DecidablePred Literal := fun c => by unfold Literal; infer_instance

lemma words_literal : ∀ (v : Str) (cur : Option Str), v ≠ [] → (∀ c ∈ v, Literal c) →
    words .plain cur (v ++ rest) = words .plain (some (cur.getD [] ++ v)) rest
  | [], _, hv, _ => absurd rfl hv
  | c :: v, cur, _, h => by
    obtain ⟨h1, h2, h3, h4, h5⟩ := h c (mem_cons_self ..)
    have hstep : words .plain cur (c :: v ++ rest)
        = words .plain (some (cur.getD [] ++ [c])) (v ++ rest) := by
      rw [cons_append, words]
      simp [h1, h2, h3, h4, h5]
    rcases v with _ | ⟨d, v⟩
    · exact hstep
    · rw [hstep, words_literal (d :: v) _ (by simp) fun e he => h e (mem_cons_of_mem _ he)]
      simp

lemma words_blank : words .plain (some w) (32 :: rest)
    = (words .plain none rest).map (w :: ·) := by
  rw [words]
  simp [blank]

lemma words_word (hne : w ≠ []) (h : ∀ c ∈ w, Literal c) :
    words .plain none (w ++ 32 :: rest) = (words .plain none rest).map (w :: ·) := by
  rw [words_literal w none hne h, words_blank]
  rfl

lemma words_quoted : ∀ (v w : Str),
    words .single (some w) (Strings.replaceAll v 39 [39, 92, 39, 39] ++ 39 :: rest)
      = words .plain (some (w ++ v)) rest
  | [], w => by simp [Strings.replaceAll, words]
  | c :: v, w => by
    have ih := words_quoted v (w ++ [c])
    rw [append_assoc, singleton_append] at ih
    rw [← ih]
    by_cases hc : c = 39
    · subst hc
      simp [Strings.replaceAll, words]
    · simp [Strings.replaceAll, words, hc]

end Words

namespace Kit

lemma safe_decodeRune {b : UInt8} {s : Str} (h : safe (Utf8.decodeRune (b :: s)).1 = true) :
    b.toNat < 128 ∧ Utf8.decodeRune (b :: s) = (b.toNat, 1, true) := by
  by_cases hb : b.toNat < 128
  · exact ⟨hb, by simp [Utf8.decodeRune, hb]⟩
  · have hlow : ∀ r, 128 ≤ r → safe r = false := fun r hr => by
      simp only [safe, Bool.or_eq_false_iff, Bool.and_eq_false_iff, decide_eq_false_iff_not,
        mem_cons, not_mem_nil, or_false]
      omega
    have hge : 128 ≤ (Utf8.decodeRune (b :: s)).1 := by
      unfold Utf8.decodeRune
      simp only [hb, if_false]
      rcases s with _ | ⟨b1, _ | ⟨b2, _ | ⟨b3, s⟩⟩⟩ <;> simp only [] <;> split_ifs <;>
        simp_all [Utf8.cont] <;> omega
    rw [hlow _ hge] at h
    cases h

lemma literal_of_safe : ∀ (n : ℕ) (v : Str), v.length ≤ n →
    ((Utf8.segments n v).map (·.1)).all safe = true → ∀ c ∈ v, Literal c
  | _, [], _, _ => by simp
  | 0, _ :: _, hn, _ => by simp at hn
  | n + 1, b :: v, hn, h => by
    have hbyte : ∀ c : UInt8, safe c.toNat = true → Literal c := by decide +kernel
    simp only [Utf8.segments, map_cons, all_cons, Bool.and_eq_true] at h
    obtain ⟨hlt, hdec⟩ := safe_decodeRune h.1
    rw [hdec] at h
    have ih := literal_of_safe n v (by simpa using hn) (by simpa using h.2)
    simp only [mem_cons, forall_eq_or_imp]
    exact ⟨hbyte b h.1, ih⟩

variable {name : String} {value w rest : Str}

lemma words_shellQuote : words .plain (some w) (shellQuote value ++ rest)
    = words .plain (some (w ++ value)) rest := by
  unfold shellQuote
  split_ifs with h
  · rw [words_literal value _ h.1 (literal_of_safe _ _ le_rfl h.2)]
    rfl
  · rw [append_assoc, append_assoc, singleton_append, singleton_append, words]
    simpa using words_quoted value w

def flagWord (f : String × Str) : Option Str :=
  if f.2 = [] then none else some (str "--" ++ str f.1 ++ [61] ++ f.2)

lemma words_flag (hname : ∀ c ∈ str name, Literal c) :
    words .plain (some w) (flag name value ++ rest) = if value = [] then words .plain (some w) rest
      else (words .plain (some (str "--" ++ str name ++ [61] ++ value)) rest).map (w :: ·) := by
  unfold flag
  split_ifs with hv
  · rfl
  · have hdash : ∀ c ∈ str "--" ++ str name ++ [61], Literal c := by
      simp only [mem_append, or_imp, forall_and]
      exact ⟨⟨by decide +kernel, hname⟩, by decide +kernel⟩
    have hstr : str " --" = 32 :: str "--" := by decide
    rw [hstr, cons_append, cons_append, cons_append, cons_append, words_blank,
      append_assoc _ (shellQuote value), words_literal _ _ (by simp) hdash]
    simp only [Option.getD_none, nil_append]
    rw [words_shellQuote]

lemma words_flags : ∀ (fs : List (String × Str)) (w : Str), (∀ f ∈ fs, ∀ c ∈ str f.1, Literal c) →
    words .plain (some w) (fs.flatMap fun f => flag f.1 f.2) = some (w :: fs.filterMap flagWord)
  | [], w, _ => by simp [words]
  | f :: fs, w, h => by
    have ih := fun w => words_flags fs w fun g hg => h g (mem_cons_of_mem _ hg)
    rw [flatMap_cons, words_flag (h f (mem_cons_self ..))]
    by_cases hv : f.2 = []
    · simp [hv, ih, flagWord]
    · simp [hv, ih, flagWord]

def flags (d : KitData) : List (String × Str) :=
  match d.targetKind with
  | .hosted => [("bucket", d.bucket), ("prefix", d.pre), ("endpoint", hostOf d.endpoint),
      ("access-key", d.readKeyID), ("secret-access-key", d.readKey), ("region", d.region)]
  | .b2 => [("bucket", d.bucket), ("prefix", d.pre), ("key-id", d.readKeyID), ("key", d.readKey)]
  | .filesystem => [("path", d.path)]
  | .other => []

def storageType : TargetKind → Str
  | .hosted => str "s3"
  | .b2 => str "b2"
  | .filesystem => str "filesystem"
  | .other => []

lemma words_connect (k : TargetKind) (line : Str) (hk : k ≠ .other)
    (hline : line = str "kopia repository connect " ++ storageType k) (fs : List (String × Str))
    (hfs : ∀ f ∈ fs, ∀ c ∈ str f.1, Literal c) :
    words .plain none (line ++ fs.flatMap fun f => flag f.1 f.2) = some
      ([str "kopia", str "repository", str "connect", storageType k] ++ fs.filterMap flagWord) := by
  have hkind : storageType k ≠ [] ∧ ∀ c ∈ storageType k, Literal c := by
    cases k <;> first | exact absurd rfl hk | decide +kernel
  have hconnect : str "kopia repository connect "
      = str "kopia" ++ 32 :: (str "repository" ++ 32 :: (str "connect" ++ [32])) := by decide +kernel
  have hlit : ∀ c ∈ str "kopia" ++ str "repository" ++ str "connect", Literal c := by decide +kernel
  simp only [mem_append, or_imp, forall_and] at hlit
  rw [hline, hconnect]
  simp only [append_assoc, cons_append, nil_append]
  rw [words_word (by decide) hlit.1.1, words_word (by decide) hlit.1.2, words_word (by decide) hlit.2,
    words_literal _ none hkind.1 hkind.2, Option.getD_none, nil_append, words_flags fs _ hfs]
  rfl

/-- The shell splits the command into its fixed words and one word for each value, as it is. -/
theorem connect_words (d : KitData) (h : d.targetKind ≠ .other) :
    (commands d).head?.map (words .plain none) = some (some
      ([str "kopia", str "repository", str "connect", storageType d.targetKind]
        ++ (flags d).filterMap flagWord)) := by
  have hlits : ∀ n ∈ ["bucket", "prefix", "endpoint", "access-key", "secret-access-key", "region",
      "key-id", "key", "path"], ∀ c ∈ str n, Literal c := by decide +kernel
  have hflags : ∀ f ∈ flags d, ∀ c ∈ str f.1, Literal c := fun f hf => hlits f.1 (by
    unfold flags at hf
    cases hd : d.targetKind <;> simp only [hd] at hf <;> aesop)
  have hwords := fun line hline => words_connect d.targetKind line h hline (flags d) hflags
  cases hd : d.targetKind
  case other => exact absurd hd h
  all_goals
    rw [hd] at hwords
    simpa [commands, hd, flags] using hwords _ (by decide +kernel)

/-- A path with a blank, a quote and a separator in it. -/
theorem connect_words_sample : ∃ d : KitData, d.targetKind ≠ .other
    ∧ (commands d).head?.map (words .plain none) = some (some ([str "kopia", str "repository",
      str "connect", storageType d.targetKind] ++ (flags d).filterMap flagWord)) :=
  have h : (⟨.filesystem, [], [], [], [], str "/a b'; rm", [], []⟩ : KitData).targetKind ≠ .other := by
    decide
  ⟨_, h, connect_words _ h⟩

/-- An endpoint is printed without its scheme. -/
theorem endpoint_without_scheme : ∃ d : KitData, d.endpoint = str "https://h"
    ∧ (commands d).head?.map (words .plain none) = some (some [str "kopia", str "repository",
      str "connect", str "s3", str "--endpoint=h"]) :=
  ⟨⟨.hosted, str "https://h", [], [], [], [], [], []⟩, rfl, by decide +kernel⟩

end Kit

end Warphold.Fleet
