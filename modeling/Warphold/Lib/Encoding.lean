import Warphold.Lib.Strings

/-!
# Numbers, encodings and query strings

The parts of Go's `strconv`, `encoding/hex`, `encoding/base64`, `net/url` and `net/textproto` that
work on byte strings. The query encoding is injective on the values `ParseQuery` returns
(`Url.encode_injective`): an escaped string holds neither `&` nor `=`, so the pairs can be read back
from the joined text.
-/

open Std (ExtTreeMap)

namespace Strconv

open List Option Strings

def isDigit (c : UInt8) : Bool := 48 ≤ c.toNat && c.toNat ≤ 57

def digitsVal (s : Str) : ℕ := s.foldl (fun n c => 10 * n + (c.toNat - 48)) 0

def parseNat (s : Str) (bound : ℕ) : Option ℕ :=
  if s ≠ [] ∧ s.all isDigit ∧ digitsVal s < bound then some (digitsVal s) else none

/-- `strconv.ParseInt` in base 10 for 64 bits, an error being `none`. -/
def parseInt (s : Str) : Option ℤ :=
  match s with
  | 43 :: t => (parseNat t (2 ^ 63)).map Int.ofNat
  | 45 :: t => (parseNat t (2 ^ 63 + 1)).map fun n => -(Int.ofNat n)
  | t => (parseNat t (2 ^ 63)).map Int.ofNat

def formatInt (n : ℤ) : Str :=
  (if n < 0 then [45] else []) ++ (if n = 0 then [48] else
    ((Nat.digits 10 n.natAbs).reverse.map fun d => UInt8.ofNat (48 + d)))

def quote (s : Str) : Str := [34] ++ s ++ [34]

lemma formatInt_newlineFree (n : ℤ) : (10 : UInt8) ∉ formatInt n := by
  unfold formatInt
  rw [mem_append, not_or]
  constructor
  · split_ifs <;> simp
  · split_ifs
    · simp
    · simp only [List.mem_map, List.mem_reverse, not_exists, not_and]
      intro d hd h
      have hlt : d < 10 := Nat.digits_lt_base (by norm_num) hd
      interval_cases d <;> simp at h

lemma ofDigits_formatInt (n : ℕ) :
    Nat.ofDigits 10 ((formatInt n).map fun c => c.toNat - 48).reverse = n := by
  have hdigit : ∀ d < 10, (UInt8.ofNat (48 + d)).toNat - 48 = d := by decide
  rcases Nat.eq_zero_or_pos n with rfl | hn
  · rfl
  · have hval : formatInt n = (Nat.digits 10 n).reverse.map fun d => UInt8.ofNat (48 + d) := by
      simp [formatInt, hn.ne']
    rw [hval, List.map_map, List.map_reverse, List.reverse_reverse]
    have hid : (Nat.digits 10 n).map ((fun c => c.toNat - 48) ∘ fun d => UInt8.ofNat (48 + d))
        = Nat.digits 10 n := by
      conv_rhs => rw [← map_id (Nat.digits 10 n)]
      exact map_congr_left fun d hd => hdigit d (Nat.digits_lt_base (by norm_num) hd)
    rw [hid, Nat.ofDigits_digits]

lemma formatInt_natCast_injective : Function.Injective fun n : ℕ => formatInt n := by
  intro m n h
  simp only at h
  rw [← ofDigits_formatInt m, h, ofDigits_formatInt]

end Strconv

namespace Hex

open List Option Strings

def digit (n : ℕ) : UInt8 := if n < 10 then UInt8.ofNat (48 + n) else UInt8.ofNat (87 + n)

def upperDigit (n : ℕ) : UInt8 := if n < 10 then UInt8.ofNat (48 + n) else UInt8.ofNat (55 + n)

def value (c : UInt8) : Option ℕ :=
  let n := c.toNat
  if 48 ≤ n ∧ n ≤ 57 then some (n - 48)
  else if 97 ≤ n ∧ n ≤ 102 then some (n - 87)
  else if 65 ≤ n ∧ n ≤ 70 then some (n - 55)
  else none

def encodeToString (s : Str) : Str := s.flatMap fun c => [digit (c.toNat / 16), digit (c.toNat % 16)]

/-- `hex.DecodeString`, an error being `none`. -/
def decodeString : Str → Option Str
  | [] => some []
  | [_] => none
  | a :: b :: s => do
    let x ← value a
    let y ← value b
    let t ← decodeString s
    return UInt8.ofNat (16 * x + y) :: t

lemma value_upperDigit : ∀ n < 16, value (upperDigit n) = some n := by decide

lemma value_digit : ∀ n < 16, value (digit n) = some n := by decide

lemma byte_of_halves (c : UInt8) : UInt8.ofNat (16 * (c.toNat / 16) + c.toNat % 16) = c := by
  rw [Nat.div_add_mod]
  simp

lemma decodeString_encodeToString : ∀ s : Str, decodeString (encodeToString s) = some s
  | [] => rfl
  | c :: s => by
    have hc : c.toNat < 256 := c.toNat_lt
    have ih := decodeString_encodeToString s
    simp only [encodeToString] at ih
    simp only [encodeToString, List.flatMap_cons, List.cons_append, List.nil_append, decodeString,
      value_digit (c.toNat / 16) (by omega), value_digit (c.toNat % 16) (by omega), ih,
      byte_of_halves, Option.bind_eq_bind, Option.bind_some, Option.pure_def]

lemma length_of_decodeString : ∀ {s t : Str}, decodeString s = some t → s.length = 2 * t.length
  | [], _, h => by simp_all [decodeString]
  | [_], _, h => by simp [decodeString] at h
  | _ :: _ :: s, _, h => by
    simp only [decodeString, bind_eq_bind, bind_eq_some_iff, Option.pure_def, some.injEq] at h
    obtain ⟨x, -, y, -, t, ht, rfl⟩ := h
    have := length_of_decodeString ht
    simp only [length_cons]
    omega

lemma digit_printable : ∀ n < 16, (digit n).toNat < 0x80 ∧ isSpace (digit n).toNat = false :=
  by decide

lemma encodeToString_printable {s : Str} :
    ∀ c ∈ encodeToString s, c.toNat < 0x80 ∧ isSpace c.toNat = false := by
  intro c hc
  simp only [encodeToString, mem_flatMap, mem_cons, not_mem_nil, or_false] at hc
  obtain ⟨b, -, rfl | rfl⟩ := hc
  · have := b.toNat_lt
    exact digit_printable _ (by omega)
  · exact digit_printable _ (by omega)

lemma encodeToString_ne_nil {s : Str} (h : s ≠ []) : encodeToString s ≠ [] := by
  rcases s with _ | ⟨c, s⟩
  · exact absurd rfl h
  · simp [encodeToString]

end Hex

namespace Base64

open List Option Strings

def stdValue (c : UInt8) : Option ℕ :=
  let n := c.toNat
  if 65 ≤ n ∧ n ≤ 90 then some (n - 65)
  else if 97 ≤ n ∧ n ≤ 122 then some (n - 71)
  else if 48 ≤ n ∧ n ≤ 57 then some (n + 4)
  else if n = 43 then some 62
  else if n = 47 then some 63
  else none

def urlValue (c : UInt8) : Option ℕ :=
  if c.toNat = 45 then some 62
  else if c.toNat = 95 then some 63
  else if c.toNat = 43 ∨ c.toNat = 47 then none
  else stdValue c

def urlChar (n : ℕ) : UInt8 :=
  if n < 26 then UInt8.ofNat (65 + n)
  else if n < 52 then UInt8.ofNat (71 + n)
  else if n < 62 then UInt8.ofNat (n - 4)
  else if n = 62 then 45 else 95

/-- Four characters to three bytes; a last group of two or three characters to one or two bytes, if
`padded` says its padding is there or is not wanted. -/
def decodeGroups (value : UInt8 → Option ℕ) (padded : Bool) : Str → Option Str
  | [] => some []
  | [_] => none
  | [a, b] => if padded then none else do
    let x ← value a
    let y ← value b
    return [UInt8.ofNat (4 * x + y / 16)]
  | [a, b, c] => if padded then none else do
    let x ← value a
    let y ← value b
    let z ← value c
    return [UInt8.ofNat (4 * x + y / 16), UInt8.ofNat (y % 16 * 16 + z / 4)]
  | a :: b :: c :: d :: s => do
    let x ← value a
    let y ← value b
    if padded = true ∧ c = 61 ∧ d = 61 ∧ s = [] then
      return [UInt8.ofNat (4 * x + y / 16)]
    let z ← value c
    if padded = true ∧ d = 61 ∧ s = [] then
      return [UInt8.ofNat (4 * x + y / 16), UInt8.ofNat (y % 16 * 16 + z / 4)]
    let w ← value d
    let t ← decodeGroups value padded s
    return UInt8.ofNat (4 * x + y / 16) :: UInt8.ofNat (y % 16 * 16 + z / 4)
      :: UInt8.ofNat (z % 4 * 64 + w) :: t

def skipBreaks (s : Str) : Str := s.filter fun c => c ≠ 10 ∧ c ≠ 13

/-- `base64.StdEncoding.DecodeString`. -/
def stdDecodeString (s : Str) : Option Str := decodeGroups stdValue true (skipBreaks s)

/-- `base64.RawURLEncoding.DecodeString`. -/
def rawURLDecodeString (s : Str) : Option Str := decodeGroups urlValue false (skipBreaks s)

/-- `base64.RawURLEncoding.EncodeToString`. -/
def rawURLEncodeToString : Str → Str
  | [] => []
  | [a] => [urlChar (a.toNat / 4), urlChar (a.toNat % 4 * 16)]
  | [a, b] => [urlChar (a.toNat / 4), urlChar (a.toNat % 4 * 16 + b.toNat / 16),
      urlChar (b.toNat % 16 * 4)]
  | a :: b :: c :: s => urlChar (a.toNat / 4) :: urlChar (a.toNat % 4 * 16 + b.toNat / 16)
      :: urlChar (b.toNat % 16 * 4 + c.toNat / 64) :: urlChar (c.toNat % 64)
      :: rawURLEncodeToString s

end Base64

namespace Url

open List Option Strings

abbrev Values := ExtTreeMap Str (List Str)

def unreserved (c : UInt8) : Bool :=
  let n := c.toNat
  (48 ≤ n && n ≤ 57) || (65 ≤ n && n ≤ 90) || (97 ≤ n && n ≤ 122) || n = 45 || n = 46 || n = 95
    || n = 126

def escapeByte (c : UInt8) : Str :=
  if unreserved c then [c]
  else if c = 32 then [43]
  else [37, Hex.upperDigit (c.toNat / 16), Hex.upperDigit (c.toNat % 16)]

def queryEscape (s : Str) : Str := s.flatMap escapeByte

/-- `url.QueryUnescape`, an error being `none`. -/
def queryUnescape : Str → Option Str
  | [] => some []
  | 37 :: a :: b :: s => do
    let x ← Hex.value a
    let y ← Hex.value b
    let t ← queryUnescape s
    return UInt8.ofNat (16 * x + y) :: t
  | 37 :: _ => none
  | 43 :: s => do
    let t ← queryUnescape s
    return 32 :: t
  | c :: s => do
    let t ← queryUnescape s
    return c :: t

/-- One `&`-separated piece of a query string added to the values read so far. -/
def parsePair (m : Values) (part : Str) : Option Values :=
  if 59 ∈ part then none
  else if part = [] then some m
  else do
    let kv := Strings.cut part 61
    let k ← queryUnescape kv.1
    let v ← queryUnescape kv.2.1
    return m.insert k (m.getD k [] ++ [v])

/-- `url.ParseQuery`, which refuses a query of more than `maxParams` pieces; an error is `none`. -/
def parseQuery (maxParams : ℕ) (q : Str) : Option Values :=
  if maxParams < q.count 38 + 1 then none else (Strings.split q 38).foldlM parsePair ∅

def get (m : Values) (k : Str) : Str := (m.getD k []).headD []

def pairs (m : Values) : List (Str × Str) := m.toList.flatMap fun kv => kv.2.map (kv.1, ·)

def encode (m : Values) : Str :=
  Strings.join ((pairs m).map fun kv => queryEscape kv.1 ++ [61] ++ queryEscape kv.2) [38]

def spaceAsPercent (s : Str) : Str := Strings.replaceAll s 43 [37, 50, 48]

def NoEmpty (m : Values) : Prop := ∀ (k : Str) (vs : List Str), m[k]? = some vs → vs ≠ []

variable {m m' : Values}

lemma parsePair_noEmpty {part : Str} (hm : NoEmpty m)
    (h : parsePair m part = some m') : NoEmpty m' := by
  unfold parsePair at h
  split_ifs at h
  · cases h
    exact hm
  · simp only [Option.bind_eq_bind, Option.bind_eq_some_iff, Option.pure_def,
      Option.some.injEq] at h
    obtain ⟨k, -, v, -, rfl⟩ := h
    intro k' vs hvs
    rw [ExtTreeMap.getElem?_insert] at hvs
    split_ifs at hvs
    · cases hvs
      simp
    · exact hm k' vs hvs

lemma foldlM_parsePair_noEmpty : ∀ (parts : List Str) {m m' : Values}, NoEmpty m →
    parts.foldlM parsePair m = some m' → NoEmpty m'
  | [], m, m', hm, h => by
    simp only [List.foldlM_nil, Option.pure_def, Option.some.injEq] at h
    exact h ▸ hm
  | part :: parts, m, m', hm, h => by
    simp only [List.foldlM_cons, Option.bind_eq_bind, Option.bind_eq_some_iff] at h
    obtain ⟨m₁, h₁, h₂⟩ := h
    exact foldlM_parsePair_noEmpty parts (parsePair_noEmpty hm h₁) h₂

lemma parseQuery_noEmpty {n : ℕ} {q : Str} (h : parseQuery n q = some m) : NoEmpty m := by
  unfold parseQuery at h
  split_ifs at h
  exact foldlM_parsePair_noEmpty _ (by intro k vs hk; simp at hk) h

def escape (s : Str) : Str := spaceAsPercent (queryEscape s)

lemma escape_cons (c : UInt8) (s : Str) :
    escape (c :: s) = spaceAsPercent (escapeByte c) ++ escape s := by
  simp [escape, spaceAsPercent, queryEscape, replaceAll_append]

lemma upperDigit_unreserved : ∀ n < 16, unreserved (Hex.upperDigit n) = true := by decide

lemma unreserved_ne {c : UInt8} (h : unreserved c = true) :
    c ≠ 37 ∧ c ≠ 43 ∧ c ≠ 38 ∧ c ≠ 61 ∧ c ≠ 10 := by
  refine ⟨?_, ?_, ?_, ?_, ?_⟩ <;> rintro rfl <;> revert h <;> decide

lemma spaceAsPercent_unreserved {s : Str} (h : ∀ c ∈ s, c ≠ 43) : spaceAsPercent s = s := by
  unfold spaceAsPercent replaceAll
  induction s with
  | nil => rfl
  | cons c s ih =>
    rw [flatMap_cons, if_neg (h c (by simp)), ih fun d hd => h d (mem_cons_of_mem _ hd)]
    rfl

lemma spaceAsPercent_escapeByte (c : UInt8) :
    (spaceAsPercent (escapeByte c) = [c] ∧ unreserved c = true) ∨
      spaceAsPercent (escapeByte c)
        = [37, Hex.upperDigit (c.toNat / 16), Hex.upperDigit (c.toNat % 16)] := by
  have hc : c.toNat < 256 := c.toNat_lt
  unfold escapeByte
  split_ifs with hu hs
  · refine .inl ⟨spaceAsPercent_unreserved ?_, hu⟩
    intro d hd
    rw [mem_singleton] at hd
    exact hd ▸ (unreserved_ne hu).2.1
  · subst hs
    exact .inr rfl
  · refine .inr (spaceAsPercent_unreserved ?_)
    intro d hd
    have h1 := upperDigit_unreserved (c.toNat / 16) (by omega)
    have h2 := upperDigit_unreserved (c.toNat % 16) (by omega)
    simp only [mem_cons, not_mem_nil, or_false] at hd
    rcases hd with rfl | rfl | rfl
    · decide
    · exact (unreserved_ne h1).2.1
    · exact (unreserved_ne h2).2.1

lemma queryUnescape_cons {c : UInt8} (h1 : c ≠ 37) (h2 : c ≠ 43) (s : Str) :
    queryUnescape (c :: s) = (queryUnescape s).map (c :: ·) := by
  rw [queryUnescape.eq_def]
  split
  · simp_all
  · simp_all
  · simp_all
  · simp_all
  · rename_i heq
    obtain ⟨rfl, rfl⟩ := cons.inj heq
    rcases queryUnescape _ <;> rfl

lemma queryUnescape_percent {a b : UInt8} {x y : ℕ} (ha : Hex.value a = some x)
    (hb : Hex.value b = some y) (s : Str) :
    queryUnescape (37 :: a :: b :: s)
      = (queryUnescape s).map (UInt8.ofNat (16 * x + y) :: ·) := by
  rw [queryUnescape]
  simp only [ha, hb, bind_eq_bind, bind_some]
  rcases queryUnescape s <;> rfl

lemma queryUnescape_escape : ∀ s : Str, queryUnescape (escape s) = some s
  | [] => rfl
  | c :: s => by
    have hc : c.toNat < 256 := c.toNat_lt
    have ih := queryUnescape_escape s
    rw [escape_cons]
    rcases spaceAsPercent_escapeByte c with ⟨h, hu⟩ | h <;> rw [h]
    · rw [singleton_append, queryUnescape_cons (unreserved_ne hu).1 (unreserved_ne hu).2.1, ih]
      rfl
    · rw [cons_append, cons_append, cons_append, nil_append,
        queryUnescape_percent (Hex.value_upperDigit (c.toNat / 16) (by omega))
          (Hex.value_upperDigit (c.toNat % 16) (by omega)), ih, Hex.byte_of_halves]
      rfl

lemma mem_escape : ∀ (s : Str) {c : UInt8}, c ∈ escape s → unreserved c = true ∨ c = 37
  | [], c, h => by simp [escape, spaceAsPercent, queryEscape, replaceAll] at h
  | d :: s, c, h => by
    have hd : d.toNat < 256 := d.toNat_lt
    rw [escape_cons, mem_append] at h
    rcases h with h | h
    · rcases spaceAsPercent_escapeByte d with ⟨he, hu⟩ | he <;> rw [he] at h
      · rw [mem_singleton] at h
        exact .inl (h ▸ hu)
      · simp only [mem_cons, not_mem_nil, or_false] at h
        rcases h with rfl | rfl | rfl
        · exact .inr rfl
        · exact .inl (upperDigit_unreserved _ (by omega))
        · exact .inl (upperDigit_unreserved _ (by omega))
    · exact mem_escape s h

lemma notMem_escape (s : Str) :
    (38 : UInt8) ∉ escape s ∧ (61 : UInt8) ∉ escape s ∧ (10 : UInt8) ∉ escape s := by
  refine ⟨?_, ?_, ?_⟩ <;> intro h <;> rcases mem_escape s h with h | h <;> revert h <;> decide

def escapePair (kv : Str × Str) : Str := escape kv.1 ++ [61] ++ escape kv.2

lemma escapePair_injective : Function.Injective escapePair := by
  rintro ⟨k, v⟩ ⟨k', v'⟩ h
  have hk := cut_append (notMem_escape k).2.1 (escape v)
  have hk' := cut_append (notMem_escape k').2.1 (escape v')
  simp only [escapePair, append_assoc, singleton_append] at h
  rw [h, hk'] at hk
  simp only [Prod.mk.injEq, and_true] at hk
  obtain ⟨h1, h2⟩ := hk
  have e1 := queryUnescape_escape k
  have e2 := queryUnescape_escape v
  rw [← h1, queryUnescape_escape] at e1
  rw [← h2, queryUnescape_escape] at e2
  simp only [some.injEq] at e1 e2
  rw [e1, e2]

lemma notMem_escapePair (kv : Str × Str) :
    (38 : UInt8) ∉ escapePair kv ∧ (10 : UInt8) ∉ escapePair kv := by
  obtain ⟨h1, -, h2⟩ := notMem_escape kv.1
  obtain ⟨h3, -, h4⟩ := notMem_escape kv.2
  constructor <;> simp [escapePair, h1, h2, h3, h4]

lemma spaceAsPercent_encode (m : Values) :
    spaceAsPercent (encode m) = Strings.join ((pairs m).map escapePair) [38] := by
  unfold encode
  induction pairs m with
  | nil => rfl
  | cons kv l ih =>
    have hkv : spaceAsPercent (queryEscape kv.1 ++ [61] ++ queryEscape kv.2) = escapePair kv := by
      simp only [spaceAsPercent, Strings.replaceAll_append]
      rfl
    rcases l with _ | ⟨kv', l⟩
    · simp only [List.map_cons, List.map_nil, Strings.join, List.intercalate_singleton]
      exact hkv
    · simp only [List.map_cons, Strings.join, List.intercalate_cons_cons] at ih ⊢
      simp only [spaceAsPercent, Strings.replaceAll_append] at ih hkv ⊢
      rw [ih, hkv]
      rfl

def valuesOf (l : List (Str × Str)) (k : Str) : List Str :=
  l.filterMap fun p => if p.1 = k then some p.2 else none

lemma valuesOf_group (k k' : Str) (vs : List Str) :
    valuesOf (vs.map (k', ·)) k = if k' = k then vs else [] := by
  unfold valuesOf
  rw [filterMap_map]
  split_ifs with h
  · simp [h]
  · simp [h]

lemma valuesOf_flatMap : ∀ (l : List (Str × List Str)) (k : Str),
    l.Pairwise (fun a b => a.1 ≠ b.1) → ∀ vs, (k, vs) ∈ l →
      valuesOf (l.flatMap fun kv => kv.2.map (kv.1, ·)) k = vs
  | [], k, _, vs, h => by simp at h
  | (k', vs') :: l, k, hl, vs, h => by
    have hnone : ∀ l' : List (Str × List Str), (∀ a ∈ l', a.1 ≠ k) →
        valuesOf (l'.flatMap fun kv => kv.2.map (kv.1, ·)) k = [] := by
      intro l' hl'
      induction l' with
      | nil => rfl
      | cons a l' ih =>
        have hg := valuesOf_group k a.1 a.2
        have hi := ih fun b hb => hl' b (mem_cons_of_mem _ hb)
        rw [if_neg (hl' a (by simp))] at hg
        simp only [valuesOf, flatMap_cons, filterMap_append] at hg hi ⊢
        rw [hg, hi]
        rfl
    rw [pairwise_cons] at hl
    have hg := valuesOf_group k k' vs'
    simp only [flatMap_cons, valuesOf, filterMap_append] at hg ⊢
    rw [hg]
    rcases mem_cons.1 h with h | h
    · cases h
      have := hnone l fun a ha => (hl.1 a ha).symm
      simp only [valuesOf] at this
      rw [this]
      simp
    · have hne : k' ≠ k := hl.1 _ h
      have ih := valuesOf_flatMap l k hl.2 vs h
      simp only [valuesOf] at ih
      rw [if_neg hne, ih]
      rfl

lemma valuesOf_pairs {k : Str} {vs : List Str} (h : m[k]? = some vs) :
    valuesOf (pairs m) k = vs := by
  refine valuesOf_flatMap _ k ?_ vs (ExtTreeMap.mem_toList_iff_getElem?_eq_some.2 h)
  refine (ExtTreeMap.distinct_keys_toList (t := m)).imp ?_
  intro a b hab heq
  exact hab (by rw [heq]; exact Std.ReflCmp.compare_self)

lemma mem_pairs {kv : Str × Str} (h : kv ∈ pairs m) : ∃ vs, m[kv.1]? = some vs ∧ kv.2 ∈ vs := by
  simp only [pairs, List.mem_flatMap, List.mem_map] at h
  obtain ⟨⟨k, vs⟩, hk, v, hv, rfl⟩ := h
  exact ⟨vs, ExtTreeMap.mem_toList_iff_getElem?_eq_some.1 hk, hv⟩

lemma pairs_getElem? (hm : NoEmpty m) (h : pairs m = pairs m') {k : Str}
    {vs : List Str} (hk : m[k]? = some vs) : m'[k]? = some vs := by
  obtain ⟨v, hv⟩ := List.exists_mem_of_ne_nil vs (hm k vs hk)
  have hmem : (k, v) ∈ pairs m := by
    simp only [pairs, List.mem_flatMap, List.mem_map]
    exact ⟨(k, vs), ExtTreeMap.mem_toList_iff_getElem?_eq_some.2 hk, v, hv, rfl⟩
  rw [h] at hmem
  obtain ⟨vs', hk', -⟩ := mem_pairs hmem
  rw [hk', ← valuesOf_pairs hk', ← h, valuesOf_pairs hk]

lemma pairs_injective (hm : NoEmpty m) (hm' : NoEmpty m')
    (h : pairs m = pairs m') : m = m' := by
  refine ExtTreeMap.ext_getElem? fun {k} => ?_
  rcases hk : m[k]? with _ | vs
  · rcases hk' : m'[k]? with _ | vs
    · rfl
    · rw [pairs_getElem? hm' h.symm hk'] at hk
      cases hk
  · exact (pairs_getElem? hm h hk).symm

lemma encode_injective (hm : NoEmpty m) (hm' : NoEmpty m')
    (h : spaceAsPercent (encode m) = spaceAsPercent (encode m')) : m = m' := by
  refine pairs_injective hm hm' ?_
  rw [spaceAsPercent_encode, spaceAsPercent_encode] at h
  have hne : ∀ l : List (Str × Str), l ≠ [] → join (l.map escapePair) [38] ≠ [] := by
    intro l hl h0
    rcases l with _ | ⟨kv, _ | ⟨kv', l⟩⟩
    · exact hl rfl
    · simp [Strings.join, escapePair] at h0
    · simp [Strings.join] at h0
  by_cases h1 : pairs m = []
  · by_cases h2 : pairs m' = []
    · rw [h1, h2]
    · exact absurd h.symm (by rw [h1]; exact hne _ h2)
  · by_cases h2 : pairs m' = []
    · exact absurd h (by rw [h2]; exact hne _ h1)
    · refine map_injective_iff.2 escapePair_injective
        (join_injOn (by simpa using h1) (by simpa using h2) ?_ ?_ h)
      · intro l hl
        obtain ⟨kv, -, rfl⟩ := mem_map.1 hl
        exact (notMem_escapePair kv).1
      · intro l hl
        obtain ⟨kv, -, rfl⟩ := mem_map.1 hl
        exact (notMem_escapePair kv).1

lemma encode_newlineFree (m : Values) : (10 : UInt8) ∉ spaceAsPercent (encode m) := by
  rw [spaceAsPercent_encode]
  intro h
  rcases mem_join h with h | ⟨l, hl, h⟩
  · simp at h
  · obtain ⟨kv, -, rfl⟩ := mem_map.1 hl
    exact (notMem_escapePair kv).2 h

end Url

namespace Mime

open List Option Strings

def tokenByte (c : UInt8) : Bool :=
  let n := c.toNat
  (48 ≤ n && n ≤ 57) || (65 ≤ n && n ≤ 90) || (97 ≤ n && n ≤ 122) || n = 33
    || (35 ≤ n && n ≤ 39) || n = 42 || n = 43 || n = 45 || n = 46 || (94 ≤ n && n ≤ 96) || n = 124
    || n = 126

/-- First letter and every letter after a dash in upper case, the others in lower case. -/
def canonicalBytes : Bool → Str → Str
  | _, [] => []
  | up, c :: s => (if up then Strings.upperByte c else Strings.lowerByte c) :: canonicalBytes (c = 45) s

/-- `textproto.CanonicalMIMEHeaderKey`: a name that is not a token is left as it is. -/
def canonicalHeaderKey (s : Str) : Str := if s.all tokenByte then canonicalBytes true s else s

abbrev Header := ExtTreeMap Str (List Str)

def values (h : Header) (name : Str) : List Str := h.getD (canonicalHeaderKey name) []

def get (h : Header) (name : Str) : Str := (values h name).headD []

end Mime
