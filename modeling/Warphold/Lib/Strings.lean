import Mathlib

/-!
# Byte strings

A Go string is a list of bytes, in no encoding in particular. The operations of the `strings`
package are written on such lists; the ones that look at characters decode UTF-8 as `range` over a
string does, an ill-formed byte standing for U+FFFD and taking one byte.

Cutting at a byte is undone by putting the byte back (`Strings.cut_found`), and a list of strings
without the separator is determined by its join (`Strings.join_injOn`).
-/

abbrev Str := List UInt8

instance : LawfulBEq Str := inferInstance

instance : LawfulBEq (Str × Str) := inferInstance

def str (s : String) : Str := s.toUTF8.data.toList

namespace Utf8

open List

def cont (lo hi : ℕ) (b : UInt8) : Bool := lo ≤ b.toNat && b.toNat ≤ hi

/-- The rune a string starts with and the bytes it takes: `utf8.DecodeRuneInString`, the third
component telling a well-formed rune from the replacement character. -/
def decodeRune : Str → ℕ × ℕ × Bool
  | [] => (0xfffd, 0, false)
  | b :: s =>
    let c := b.toNat
    if c < 0x80 then (c, 1, true)
    else if 0xc2 ≤ c ∧ c ≤ 0xdf then
      match s with
      | b1 :: _ => if cont 0x80 0xbf b1 then ((c - 0xc0) * 64 + (b1.toNat - 0x80), 2, true)
        else (0xfffd, 1, false)
      | [] => (0xfffd, 1, false)
    else if 0xe0 ≤ c ∧ c ≤ 0xef then
      match s with
      | b1 :: b2 :: _ =>
        if cont (if c = 0xe0 then 0xa0 else 0x80) (if c = 0xed then 0x9f else 0xbf) b1
            && cont 0x80 0xbf b2 then
          ((c - 0xe0) * 4096 + (b1.toNat - 0x80) * 64 + (b2.toNat - 0x80), 3, true)
        else (0xfffd, 1, false)
      | _ => (0xfffd, 1, false)
    else if 0xf0 ≤ c ∧ c ≤ 0xf4 then
      match s with
      | b1 :: b2 :: b3 :: _ =>
        if cont (if c = 0xf0 then 0x90 else 0x80) (if c = 0xf4 then 0x8f else 0xbf) b1
            && cont 0x80 0xbf b2 && cont 0x80 0xbf b3 then
          ((c - 0xf0) * 262144 + (b1.toNat - 0x80) * 4096 + (b2.toNat - 0x80) * 64
            + (b3.toNat - 0x80), 4, true)
        else (0xfffd, 1, false)
      | _ => (0xfffd, 1, false)
    else (0xfffd, 1, false)

/-- The string cut into runes, each with the bytes it was decoded from and whether they are
well-formed. The fuel is the length of the string. -/
def segments : ℕ → Str → List (ℕ × Str × Bool)
  | 0, _ => []
  | _ + 1, [] => []
  | n + 1, b :: s =>
    let d := decodeRune (b :: s)
    (d.1, (b :: s).take (max 1 d.2.1), d.2.2) :: segments n ((b :: s).drop (max 1 d.2.1))

def runes (s : Str) : List ℕ := (segments s.length s).map (·.1)

def validString (s : Str) : Bool := (segments s.length s).all (·.2.2)

/-- The rune a string ends with and the bytes it takes: `utf8.DecodeLastRuneInString`. The rune
starts at the nearest of the last four bytes that is not a continuation byte. -/
def decodeLastRune (s : Str) : ℕ × ℕ :=
  match s.reverse with
  | [] => (0xfffd, 0)
  | b :: r =>
    if b.toNat < 0x80 then (b.toNat, 1)
    else
      let back := (r.take 3).takeWhile (cont 0x80 0xbf)
      let k := if back.length < (r.take 3).length then back.length + 1 else back.length
      let d := decodeRune (s.drop (s.length - (k + 1)))
      if d.2.1 = k + 1 then (d.1, k + 1) else (0xfffd, 1)

end Utf8

namespace Strings

open List

def isSpace (r : ℕ) : Bool :=
  (9 ≤ r && r ≤ 13) || r = 32 || r = 0x85 || r = 0xa0 || r = 0x1680 || (0x2000 ≤ r && r ≤ 0x200a)
    || r = 0x2028 || r = 0x2029 || r = 0x202f || r = 0x205f || r = 0x3000

def hasPrefix (s p : Str) : Bool := p.isPrefixOf s

def hasSuffix (s p : Str) : Bool := p.isSuffixOf s

def trimPrefix (s p : Str) : Str := if hasPrefix s p then s.drop p.length else s

def trimSuffix (s p : Str) : Str := if hasSuffix s p then s.take (s.length - p.length) else s

def cutPrefix (s p : Str) : Str × Bool :=
  if hasPrefix s p then (s.drop p.length, true) else (s, false)

/-- `strings.Cut` at a one-byte separator: what stands before the first one, what stands after it,
and whether there is one. -/
def cut : Str → UInt8 → Str × Str × Bool
  | [], _ => ([], [], false)
  | c :: s, b =>
    if c = b then ([], s, true)
    else let r := cut s b; (c :: r.1, r.2.1, r.2.2)

def join (ls : List Str) (sep : Str) : Str := sep.intercalate ls

def split (s : Str) (b : UInt8) : List Str := s.splitOn b

def replaceAll (s : Str) (b : UInt8) (r : Str) : Str := s.flatMap fun c => if c = b then r else [c]

def lowerByte (c : UInt8) : UInt8 := if 65 ≤ c.toNat ∧ c.toNat ≤ 90 then c + 32 else c

def upperByte (c : UInt8) : UInt8 := if 97 ≤ c.toNat ∧ c.toNat ≤ 122 then c - 32 else c

def toLower (s : Str) : Str := s.map lowerByte

/-- `strings.EqualFold` against an ASCII string whose letters have no other case variants. -/
def equalFold (s t : Str) : Bool := toLower s = toLower t

/-- The fields of a segmented string; the current field is carried in `cur`. -/
def fieldsOf : List (ℕ × Str × Bool) → Str → List Str
  | [], cur => if cur = [] then [] else [cur]
  | (r, bs, _) :: l, cur =>
    if isSpace r then (if cur = [] then [] else [cur]) ++ fieldsOf l [] else fieldsOf l (cur ++ bs)

def fields (s : Str) : List Str := fieldsOf (Utf8.segments s.length s) []

def trimLeftSpace : ℕ → Str → Str
  | 0, s => s
  | n + 1, s =>
    if s ≠ [] ∧ isSpace (Utf8.decodeRune s).1 then trimLeftSpace n (s.drop (Utf8.decodeRune s).2.1)
    else s

def trimRightSpace : ℕ → Str → Str
  | 0, s => s
  | n + 1, s =>
    if s ≠ [] ∧ isSpace (Utf8.decodeLastRune s).1 then
      trimRightSpace n (s.take (s.length - (Utf8.decodeLastRune s).2))
    else s

def trimSpace (s : Str) : Str :=
  let t := trimLeftSpace s.length s
  trimRightSpace t.length t

def lt (s t : Str) : Bool := compare s t == .lt

variable {s : Str} {c : UInt8}

lemma hasPrefix_iff {p : Str} : hasPrefix s p = true ↔ p <+: s := by
  simp [hasPrefix]

lemma trimPrefix_append (p s : Str) : trimPrefix (p ++ s) p = s := by
  simp [trimPrefix, hasPrefix]

lemma cut_notMem : ∀ {s : Str} {b : UInt8}, b ∉ s → cut s b = (s, [], false)
  | [], _, _ => rfl
  | c :: s, b, h => by
    rw [mem_cons, not_or] at h
    have hc : c ≠ b := fun e => h.1 e.symm
    simp [cut, hc, cut_notMem h.2]

lemma cut_append : ∀ {x : Str} {b : UInt8}, b ∉ x → ∀ y, cut (x ++ b :: y) b = (x, y, true)
  | [], b, _, y => by simp [cut]
  | c :: x, b, h, y => by
    rw [mem_cons, not_or] at h
    have hc : c ≠ b := fun e => h.1 e.symm
    simp [cut, hc, cut_append h.2 y]

lemma cut_fst_notMem : ∀ (s : Str) (b : UInt8), b ∉ (cut s b).1
  | [], b => by simp [cut]
  | c :: s, b => by
    simp only [cut]
    split_ifs with h
    · simp
    · simp only [mem_cons, not_or]
      exact ⟨fun e => h e.symm, cut_fst_notMem s b⟩

lemma cut_found : ∀ {s x y : Str} {b : UInt8}, cut s b = (x, y, true) → s = x ++ b :: y
  | [], x, y, b, h => by simp [cut] at h
  | c :: s, x, y, b, h => by
    simp only [cut] at h
    split_ifs at h with hc
    · simp only [Prod.mk.injEq, and_true] at h
      obtain ⟨rfl, rfl⟩ := h
      simp [hc]
    · simp only [Prod.mk.injEq] at h
      obtain ⟨rfl, h2, h3⟩ := h
      have ih := cut_found (s := s) (x := (cut s b).1) (y := y) (b := b)
        (by rw [← h2, ← h3])
      rw [cons_append, ← ih]

lemma cut_found_iff {x y : Str} {b : UInt8} :
    cut s b = (x, y, true) ↔ s = x ++ b :: y ∧ b ∉ x := by
  constructor
  · intro h
    have hx := cut_fst_notMem s b
    rw [h] at hx
    exact ⟨cut_found h, hx⟩
  · rintro ⟨rfl, h⟩
    exact cut_append h y

lemma mem_cut_snd {b : UInt8} (h : c ∈ (cut s b).2.1) : c ∈ s := by
  rcases hs : cut s b with ⟨x, y, found⟩
  rw [hs] at h
  by_cases hb : b ∈ s
  · obtain ⟨x', y', hx', rfl⟩ : ∃ x' y', b ∉ x' ∧ s = x' ++ b :: y' := by
      obtain ⟨x', y', h1, h2⟩ := eq_append_cons_of_mem hb
      exact ⟨x', y', h2, h1⟩
    rw [cut_append hx' y'] at hs
    cases hs
    simp [h]
  · rw [cut_notMem hb] at hs
    cases hs
    simp at h

lemma join_injOn {ls ms : List Str} {b : UInt8} (hl : ls ≠ []) (hm : ms ≠ [])
    (hls : ∀ l ∈ ls, b ∉ l) (hms : ∀ m ∈ ms, b ∉ m) (h : join ls [b] = join ms [b]) : ls = ms := by
  simp only [join] at h
  rw [← splitOn_intercalate b hls hl, ← splitOn_intercalate b hms hm, h]

lemma join_append_cons : ∀ (ls : List Str) (m : Str) (ms : List Str) (sep : Str),
    join (ls ++ m :: ms) sep = (ls.flatMap fun l => l ++ sep) ++ join (m :: ms) sep
  | [], m, ms, sep => by simp
  | l :: ls, m, ms, sep => by
    have ih := join_append_cons ls m ms sep
    obtain ⟨k, ks, hk⟩ : ∃ k ks, ls ++ m :: ms = k :: ks := by
      rcases ls with _ | ⟨k, ks⟩
      · exact ⟨m, ms, rfl⟩
      · exact ⟨k, ks ++ m :: ms, rfl⟩
    simp only [join] at ih ⊢
    rw [cons_append, hk, intercalate_cons_cons, ← hk, ih]
    simp

lemma mem_join {ls : List Str} {sep : Str} (h : c ∈ join ls sep) : c ∈ sep ∨ ∃ l ∈ ls, c ∈ l := by
  induction ls with
  | nil => simp [join] at h
  | cons l ls ih =>
    rcases ls with _ | ⟨m, ls⟩
    · simp only [join, intercalate_singleton] at h
      exact .inr ⟨l, by simp, h⟩
    · simp only [join, intercalate_cons_cons, mem_append] at h
      rcases h with (h | h) | h
      · exact .inr ⟨l, by simp, h⟩
      · exact .inl h
      · rcases ih h with h | ⟨k, hk, hc⟩
        · exact .inl h
        · exact .inr ⟨k, mem_cons_of_mem _ hk, hc⟩

lemma split_ne_nil (s : Str) (b : UInt8) : split s b ≠ [] := by
  simp [split]

lemma mem_split_notMem : ∀ (s : Str) (b : UInt8), ∀ l ∈ split s b, b ∉ l
  | [], b => by simp [split]
  | c :: s, b => by
    have ih := mem_split_notMem s b
    intro l hl
    simp only [split, splitOn_cons_eq_if_modifyHead] at hl ih
    split_ifs at hl with hc
    · rcases mem_cons.1 hl with rfl | hl
      · simp
      · exact ih l hl
    · rcases hs : s.splitOn b with _ | ⟨x, xs⟩
      · simp [hs] at hl
      · rw [hs] at hl ih
        simp only [modifyHead_cons, mem_cons] at hl
        rcases hl with rfl | hl
        · simp only [mem_cons, not_or]
          exact ⟨fun e => hc (by simp [e]), ih x (by simp)⟩
        · exact ih l (by simp [hl])

lemma mem_split {l : Str} {b : UInt8} (hl : l ∈ split s b) (hc : c ∈ l) : c ∈ s := by
  have h : join (split s b) [b] = s := intercalate_splitOn b
  obtain ⟨ls, ms, hsplit⟩ := append_of_mem hl
  rw [← h, hsplit, join_append_cons]
  refine mem_append_right _ ?_
  rcases ms with _ | ⟨m, ms⟩ <;> simp [join, hc]

lemma mem_trimLeftSpace : ∀ (n : ℕ) (s : Str) {c : UInt8}, c ∈ trimLeftSpace n s → c ∈ s
  | 0, _, _, h => h
  | n + 1, s, c, h => by
    simp only [trimLeftSpace] at h
    split_ifs at h
    · exact mem_of_mem_drop (mem_trimLeftSpace n _ h)
    · exact h

lemma mem_trimRightSpace : ∀ (n : ℕ) (s : Str) {c : UInt8}, c ∈ trimRightSpace n s → c ∈ s
  | 0, _, _, h => h
  | n + 1, s, c, h => by
    simp only [trimRightSpace] at h
    split_ifs at h
    · exact mem_of_mem_take (mem_trimRightSpace n _ h)
    · exact h

lemma mem_trimSpace (h : c ∈ trimSpace s) : c ∈ s :=
  mem_trimLeftSpace _ _ (mem_trimRightSpace _ _ h)

lemma replaceAll_append (s t : Str) (b : UInt8) (r : Str) :
    replaceAll (s ++ t) b r = replaceAll s b r ++ replaceAll t b r := by
  simp [replaceAll]

lemma mem_segments : ∀ (n : ℕ) (s : Str), ∀ g ∈ Utf8.segments n s, ∀ c ∈ g.2.1, c ∈ s
  | 0, s, g, hg => by simp [Utf8.segments] at hg
  | n + 1, [], g, hg => by simp [Utf8.segments] at hg
  | n + 1, b :: s, g, hg => by
    intro c hc
    simp only [Utf8.segments, mem_cons] at hg
    rcases hg with rfl | hg
    · exact mem_of_mem_take hc
    · exact mem_of_mem_drop (mem_segments n _ g hg c hc)

lemma mem_fieldsOf : ∀ (l : List (ℕ × Str × Bool)) (cur : Str), ∀ f ∈ fieldsOf l cur, ∀ c ∈ f,
    c ∈ cur ∨ ∃ g ∈ l, c ∈ g.2.1
  | [], cur, f, hf => by
    intro c hc
    simp only [fieldsOf] at hf
    split_ifs at hf
    · simp at hf
    · simp only [mem_singleton] at hf
      exact .inl (hf ▸ hc)
  | (r, bs, ok) :: l, cur, f, hf => by
    intro c hc
    simp only [fieldsOf] at hf
    split_ifs at hf
    · rcases mem_fieldsOf l [] f (by simpa using hf) c hc with h | ⟨g, hg, h⟩
      · simp at h
      · exact .inr ⟨g, mem_cons_of_mem _ hg, h⟩
    · simp only [cons_append, nil_append, mem_cons] at hf
      rcases hf with rfl | hf
      · exact .inl hc
      · rcases mem_fieldsOf l [] f hf c hc with h | ⟨g, hg, h⟩
        · simp at h
        · exact .inr ⟨g, mem_cons_of_mem _ hg, h⟩
    · rcases mem_fieldsOf l (cur ++ bs) f hf c hc with h | ⟨g, hg, h⟩
      · rcases mem_append.1 h with h | h
        · exact .inl h
        · exact .inr ⟨_, mem_cons_self, h⟩
      · exact .inr ⟨g, mem_cons_of_mem _ hg, h⟩

lemma mem_fields {f : Str} (hf : f ∈ fields s) (hc : c ∈ f) : c ∈ s := by
  rcases mem_fieldsOf _ _ f hf c hc with h | ⟨g, hg, h⟩
  · simp at h
  · exact mem_segments _ _ g hg c h

section Ascii

lemma segments_ascii : ∀ (n : ℕ) (s : Str), s.length ≤ n → (∀ c ∈ s, c.toNat < 0x80) →
    Utf8.segments n s = s.map fun c => (c.toNat, [c], true)
  | 0, s, hn, _ => by
    have : s = [] := length_eq_zero_iff.1 (by omega)
    simp [this, Utf8.segments]
  | n + 1, [], _, _ => rfl
  | n + 1, c :: s, hn, h => by
    have hc : c.toNat < 0x80 := h c (by simp)
    have hd : Utf8.decodeRune (c :: s) = (c.toNat, 1, true) := by simp [Utf8.decodeRune, hc]
    have ih := segments_ascii n s (by simpa using hn) fun d hd => h d (mem_cons_of_mem _ hd)
    simp [Utf8.segments, hd, ih]

lemma fieldsOf_append : ∀ (s : Str) (rest : List (ℕ × Str × Bool)) (cur : Str),
    (∀ c ∈ s, isSpace c.toNat = false) →
      fieldsOf (s.map (fun c => (c.toNat, [c], true)) ++ rest) cur = fieldsOf rest (cur ++ s)
  | [], rest, cur, _ => by simp
  | c :: s, rest, cur, h => by
    have hc : isSpace c.toNat = false := h c (by simp)
    have ih := fieldsOf_append s rest (cur ++ [c]) fun d hd => h d (mem_cons_of_mem _ hd)
    simp only [map_cons, cons_append, fieldsOf, hc, Bool.false_eq_true, ↓reduceIte]
    rw [ih, append_assoc, singleton_append]

lemma fields_pair {a b : Str} (ha : a ≠ []) (hb : b ≠ [])
    (ha' : ∀ c ∈ a, c.toNat < 0x80 ∧ isSpace c.toNat = false)
    (hb' : ∀ c ∈ b, c.toNat < 0x80 ∧ isSpace c.toNat = false) :
    fields (a ++ [32] ++ b ++ [10]) = [a, b] := by
  have hascii : ∀ c ∈ a ++ [32] ++ b ++ [10], c.toNat < 0x80 := by
    intro c hc
    simp only [mem_append, mem_singleton] at hc
    rcases hc with ((hc | rfl) | hc) | rfl
    · exact (ha' c hc).1
    · decide
    · exact (hb' c hc).1
    · decide
  have h32 : isSpace (32 : UInt8).toNat = true := by decide
  have h10 : isSpace 10 = true := by decide
  rw [fields, segments_ascii _ _ le_rfl hascii]
  simp only [map_append, append_assoc, map_cons, map_nil, cons_append,
    nil_append]
  rw [fieldsOf_append a _ _ fun c hc => (ha' c hc).2]
  simp only [fieldsOf, h32, nil_append, ha, ↓reduceIte]
  rw [fieldsOf_append b _ _ fun c hc => (hb' c hc).2]
  simp [fieldsOf, h10, hb]

end Ascii

end Strings
