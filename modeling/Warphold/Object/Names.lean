import Warphold.Content.Index
import Warphold.Object.Reader

/-!
# The texts of object IDs

`String` and `ParseID` of contents and of objects. Parsing accepts texts that `String` never
writes: hex digits of either case, and a legacy `D`.
-/

namespace Warphold

open List Option

namespace Content

inductive ParseErr where
  | invalidContentPrefix
  | hashTooLong
  | invalidContentHash
  | idTooShort (s : Str)

def parseHash (s0 : Str) (pre : UInt8) (s : Str) : Except ParseErr ID :=
  if 2 * maxHashSize < s.length then .error .hashTooLong
  else
    match Hex.decodeString s with
    | none => .error .invalidContentHash
    | some data => if data = [] then .error (.idTooShort s0) else .ok ⟨pre, data⟩

def parseID (s : Str) : Except ParseErr ID :=
  if s = [] then .ok ⟨0, []⟩
  else if s.length % 2 = 1 then
    if s.headD 0 < 103 ∨ 122 < s.headD 0 then .error .invalidContentPrefix
    else parseHash s (s.headD 0) s.tail
  else parseHash s 0 s

/-- The empty ID, or one `IDFromHash` makes. -/
def ID.Made (id : ID) : Prop := id = ⟨0, []⟩ ∨ ∃ pre hash, idFromHash pre hash = some id

variable {id : ID} {s : Str}

lemma made_of_parseHash {s0 p : Str} (hv : validateSingle p)
    (h : parseHash s0 (p.headD 0) s = .ok id) : id.Made := by
  unfold parseHash at h
  split_ifs at h with hl
  split at h
  · cases h
  · next data hd =>
    split_ifs at h with hne
    cases h
    have := Hex.length_of_decodeString hd
    exact .inr ⟨p, data, by simp only [idFromHash, hv]; grind⟩

lemma made_of_parseID (h : parseID s = .ok id) : id.Made := by
  unfold parseID at h
  split_ifs at h
  · cases h
    exact .inl rfl
  · exact made_of_parseHash (p := [s.headD 0]) (by grind [validateSingle]) h
  · exact made_of_parseHash (p := []) rfl h

lemma parseID_string (h : id.Made) : parseID id.string = .ok id := by
  rcases h with rfl | ⟨pre, hash, h⟩
  · rfl
  · have hx := Hex.decodeString_encodeToString hash
    have hl := Hex.length_of_decodeString hx
    simp only [idFromHash, ite_none_left_eq_some, not_or, not_lt, some.injEq] at h
    obtain ⟨⟨hm, hne, hv⟩, rfl⟩ := h
    have he := Hex.encodeToString_ne_nil hne
    rcases pre with _ | ⟨c, _ | ⟨_, _⟩⟩ <;>
      simp_all [validateSingle, parseID, parseHash, ID.string, ID.prefixString]
    grind

lemma mem_string {c : UInt8} (h : c ∈ id.string) : c < 58 ∨ 97 ≤ c := by
  have hd : ∀ n < 16, Hex.digit n < 58 ∨ 97 ≤ Hex.digit n := by decide
  rcases mem_append.mp h with h | h
  · grind [ID.prefixString]
  · obtain ⟨b, -, h⟩ := mem_flatMap.mp h
    have := b.toNat_lt
    have h1 := hd (b.toNat / 16) (by omega)
    have h2 := hd (b.toNat % 16) (by omega)
    grind

end Content

namespace Object

inductive ParseErr where
  | mutuallyExclusive
  | malformedContentID (s : Str) (e : Content.ParseErr)

variable {o : ID Content.ID} {s : Str}

def ID.string (o : ID Content.ID) : Str :=
  replicate o.indirection 73 ++ (if o.compression then [90] else []) ++ o.cid.string

-- the counter is a byte
def indirections (n : UInt8) : Str → UInt8 × Str
  | [] => (n, [])
  | c :: s => if c = 73 then indirections (n + 1) s else (n, c :: s)

def parseID (s : Str) : Except ParseErr (ID Content.ID) :=
  let (indirection, s) := indirections 0 s
  let compression := decide (s.head? = some 90)
  let s := if compression then s.tail else s
  let s := if s.head? = some 68 then s.tail else s
  if 0 < indirection ∧ compression then .error .mutuallyExclusive
  else
    match Content.parseID s with
    | .error e => .error (.malformedContentID s e)
    | .ok cid => .ok ⟨cid, indirection.toNat, compression⟩

lemma indirections_replicate (hs : s.head? ≠ some 73) : ∀ (k : ℕ) (n : UInt8),
    indirections n (replicate k 73 ++ s) = (n + UInt8.ofNat k, s)
  | 0, n => by rcases s with _ | ⟨c, s⟩ <;> simp_all [indirections]
  | k + 1, n => by
    simp only [replicate_succ, cons_append, indirections, if_true, indirections_replicate hs k]
    simp [UInt8.ofNat_add, add_assoc, add_comm]

/-- What `ParseID` can return: a made content ID, under indirections or compressed. -/
def ID.Parsed (o : ID Content.ID) : Prop :=
  o.cid.Made ∧ o.indirection < 256 ∧ (o.indirection = 0 ∨ o.compression = false)

lemma parsed_of_parseID (h : parseID s = .ok o) : o.Parsed := by
  rcases hn : indirections 0 s with ⟨n, t⟩
  simp only [parseID, hn] at h
  split at h
  · cases h
  · next hx =>
    split at h
    · cases h
    · next cid hc =>
      cases h
      exact ⟨Content.made_of_parseID hc, n.toNat_lt, by grind [UInt8.lt_iff_toNat_lt]⟩

lemma parseID_string (h : o.Parsed) : parseID o.string = .ok o := by
  obtain ⟨cid, k, comp⟩ := o
  obtain ⟨hc, hi, hx⟩ := h
  have hid := Content.parseID_string hc
  -- no byte of a content's text is one of those stripped
  have hn : ∀ {c}, cid.string.head? = some c → c < 58 ∨ 97 ≤ c :=
    fun h => Content.mem_string (mem_of_head? h)
  have h73 : cid.string.head? ≠ some 73 := by grind
  have h90 : cid.string.head? ≠ some 90 := by grind
  have h68 : cid.string.head? ≠ some 68 := by grind
  cases comp
  · simp_all [parseID, ID.string, indirections_replicate, Nat.mod_eq_of_lt]
  · simp_all [parseID, ID.string, indirections]

/-- A text names `o` just when the text of `o` does, and just when `o` is a made content ID under
less than 256 indirections or compressed, not both. -/
theorem parseID_ok_iff (o : ID Content.ID) :
    ((∃ s, parseID s = .ok o) ↔ parseID o.string = .ok o)
      ∧ (parseID o.string = .ok o ↔ o.Parsed) :=
  ⟨⟨fun ⟨_, h⟩ => parseID_string (parsed_of_parseID h), fun h => ⟨_, h⟩⟩,
    parsed_of_parseID, parseID_string⟩

end Object

end Warphold
