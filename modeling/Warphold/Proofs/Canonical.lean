import Warphold.Gateway.SigV4

/-!
# The canonical request determines the request

The canonical request is a sequence of lines: the method, the encoded path, the encoded query, one
line per signed header, an empty line, the signed-header list and the payload hash.
-/

namespace Warphold.Gateway

open Strings List Option

/-- What `net/http` guarantees of a request it delivers: its method is a token, and neither its host
nor a header value holds a line break. -/
structure Request.Parsed (r : Request) : Prop where
  method_newlineFree : (10 : UInt8) ∉ r.method
  host_newlineFree : (10 : UInt8) ∉ r.host
  header_newlineFree : ∀ (name : Str) (vs : List Str), r.header[name]? = some vs →
    ∀ v ∈ vs, (10 : UInt8) ∉ v

/-- What is assumed of `s3utils.EncodePath`. -/
structure Prims.EncodesPaths (p : Prims) : Prop where
  injOn : ∀ a b : Str, Utf8.validString a → Utf8.validString b →
    p.encodePath a = p.encodePath b → a = b
  newlineFree : ∀ a : Str, Utf8.validString a → (10 : UInt8) ∉ p.encodePath a

namespace SigV4

section Parse

/-- A signed-header list as an Authorization value `v` can spell it: its names hold no separator,
and are made of bytes of `v`. -/
def NamesFrom (v : Str) (signed : List Str) : Prop :=
  ∀ x ∈ signed, (59 : UInt8) ∉ x ∧ ∀ c ∈ x, c ∈ v

lemma addComponent_namesFrom {v part : Str} {c c' : Components} (hpart : ∀ b ∈ part, b ∈ v)
    (hc : NamesFrom v c.signedHeaders) (h : addComponent c part = some c') :
    NamesFrom v c'.signedHeaders := by
  simp only [addComponent] at h
  split_ifs at h
  · cases h
    exact hc
  · cases h
    intro x hx
    refine ⟨mem_split_notMem _ _ x hx, fun b hb => hpart b ?_⟩
    exact mem_trimSpace (mem_cut_snd (mem_split hx hb))
  · cases h
    exact hc
  · cases h
    exact hc

lemma foldlM_addComponent_namesFrom {v : Str} : ∀ (parts : List Str) {c c' : Components},
    (∀ part ∈ parts, ∀ b ∈ part, b ∈ v) → NamesFrom v c.signedHeaders →
      parts.foldlM addComponent c = some c' → NamesFrom v c'.signedHeaders
  | [], c, c', _, hc, h => by
    simp only [List.foldlM_nil, Option.pure_def, Option.some.injEq] at h
    exact h ▸ hc
  | part :: parts, c, c', hp, hc, h => by
    simp only [List.foldlM_cons, Option.bind_eq_bind, Option.bind_eq_some_iff] at h
    obtain ⟨c₁, h₁, h₂⟩ := h
    exact foldlM_addComponent_namesFrom parts (fun q hq => hp q (mem_cons_of_mem _ hq))
      (addComponent_namesFrom (hp part (by simp)) hc h₁) h₂

lemma parseAuthorization_signedHeaders {v : Str} {a : Authorization}
    (h : parseAuthorization v = some a) : a.signedHeaders ≠ [] ∧ NamesFrom v a.signedHeaders := by
  simp only [parseAuthorization, Option.bind_eq_bind, Option.pure_def, Option.bind_none] at h
  split_ifs at h
  obtain ⟨c, hc, h⟩ := Option.bind_eq_some_iff.1 h
  split_ifs at h with h1 h2
  cases h
  simp only [Bool.or_eq_true, decide_eq_true_eq, not_or, length_eq_zero_iff] at h1
  refine ⟨h1.2, foldlM_addComponent_namesFrom _ ?_ (fun x hx => by simp at hx) hc⟩
  intro part hpart b hb
  exact mem_cut_snd (mem_split hpart hb)

variable {r : Request}

lemma values_newlineFree (h : r.Parsed) (name : Str) :
    ∀ v ∈ Mime.values r.header name, (10 : UInt8) ∉ v := by
  intro v hv
  rw [Mime.values, Std.ExtTreeMap.getD_eq_getD_getElem?] at hv
  rcases hk : r.header[Mime.canonicalHeaderKey name]? with _ | vs <;> rw [hk] at hv
  · simp at hv
  · exact h.header_newlineFree _ vs hk v hv

lemma get_newlineFree (h : r.Parsed) (name : Str) : (10 : UInt8) ∉ Mime.get r.header name := by
  have hv := values_newlineFree h name
  unfold Mime.get
  rcases hvs : Mime.values r.header name with _ | ⟨v, vs⟩
  · simp
  · exact hv v (by simp [hvs])

lemma headerValue_newlineFree (h : r.Parsed) (name : Str) :
    (10 : UInt8) ∉ headerValue r name := by
  unfold headerValue
  split_ifs
  · exact h.host_newlineFree
  · simp
  · exact Strconv.formatInt_newlineFree _
  · intro hmem
    rcases mem_join hmem with h10 | ⟨l, hl, h10⟩
    · simp at h10
    · obtain ⟨v, hv, rfl⟩ := mem_map.1 hl
      rcases mem_join h10 with h10 | ⟨w, hw, h10⟩
      · simp at h10
      · exact values_newlineFree h name v hv (mem_fields hw h10)

lemma prepare_ok {p : Prims} {region service : Str} {now : ℤ} {q : Prepared}
    (h : prepare p r region service now = .ok q) :
    parseAuthorization (Mime.get r.header (str "Authorization")) = some q.auth
      ∧ requireSignedHeaders r q.auth.signedHeaders = .ok ()
      ∧ q.payloadHash = Mime.get r.header (str "X-Amz-Content-Sha256")
      ∧ Url.parseQuery p.maxParams r.rawQuery = some q.query := by
  simp only [prepare, bind, Except.bind, pure, Except.pure] at h
  repeat' split at h
  all_goals cases h
  exact ⟨‹_›, ‹_›, rfl, ‹_›⟩

lemma requireSignedHeaders_ok {signed : List Str}
    (h : requireSignedHeaders r signed = .ok ()) {name : Str} (hname : name ∈ r.header)
    (hamz : str "x-amz-" <+: toLower name) : toLower name ∈ signed := by
  unfold requireSignedHeaders at h
  split_ifs at h with h1 h2
  simp only [List.any_eq_true, not_exists, not_and, Std.ExtTreeMap.mem_keys, Bool.and_eq_true,
    Bool.not_eq_true', not_and, Bool.not_eq_false, List.contains_eq_mem, decide_eq_true_eq] at h2
  exact h2 name hname (Strings.hasPrefix_iff.2 hamz)

end Parse

section Lines
variable (p : Prims) (r : Request)

def canonicalLines (q : Prepared) : List Str :=
  [r.method, p.encodePath r.path, Url.spaceAsPercent (Url.encode q.query)]
    ++ q.auth.signedHeaders.map (fun h => h ++ [58] ++ headerValue r h)
    ++ [[], Strings.join q.auth.signedHeaders [59], q.payloadHash]

lemma canonicalRequest_eq_join (q : Prepared) :
    canonicalRequest p r q.query q.auth.signedHeaders q.payloadHash
      = Strings.join (canonicalLines p r q) [10] := by
  unfold canonicalLines canonicalRequest
  rw [Strings.join_append_cons]
  simp [List.flatMap_map, Strings.join]

variable {p r}

lemma mem_canonicalLines_newlineFree (hp : p.EncodesPaths) (hr : r.Parsed)
    (hpath : Utf8.validString r.path) {region service : Str} {now : ℤ} {q : Prepared}
    (hq : prepare p r region service now = .ok q) :
    ∀ l ∈ canonicalLines p r q, (10 : UInt8) ∉ l := by
  obtain ⟨hauth, -, hpay, -⟩ := prepare_ok hq
  have hnames : ∀ h ∈ q.auth.signedHeaders, (10 : UInt8) ∉ h := fun h hh h10 =>
    get_newlineFree hr _ (((parseAuthorization_signedHeaders hauth).2 h hh).2 10 h10)
  intro l hl
  simp only [canonicalLines, mem_append, mem_cons, not_mem_nil, or_false,
    List.mem_map] at hl
  rcases hl with ((rfl | rfl | rfl) | ⟨h, hh, rfl⟩) | rfl | rfl | rfl
  · exact hr.method_newlineFree
  · exact hp.newlineFree _ hpath
  · exact Url.encode_newlineFree _
  · have := hnames h hh
    have := headerValue_newlineFree hr h
    simp_all
  · simp
  · intro h10
    rcases mem_join h10 with h10 | ⟨h, hh, h10⟩
    · simp at h10
    · exact hnames h hh h10
  · exact hpay ▸ get_newlineFree hr _

lemma canonicalLines_inj {r' : Request} {q q' : Prepared} (hp : p.EncodesPaths)
    (hpath : Utf8.validString r.path) (hpath' : Utf8.validString r'.path)
    (hq : Url.NoEmpty q.query) (hq' : Url.NoEmpty q'.query)
    (hs : q.auth.signedHeaders ≠ [] ∧ ∀ x ∈ q.auth.signedHeaders, (59 : UInt8) ∉ x)
    (hs' : q'.auth.signedHeaders ≠ [] ∧ ∀ x ∈ q'.auth.signedHeaders, (59 : UInt8) ∉ x)
    (h : canonicalLines p r q = canonicalLines p r' q') :
    r.method = r'.method ∧ r.path = r'.path ∧ q.query = q'.query
      ∧ q.auth.signedHeaders = q'.auth.signedHeaders
      ∧ (∀ h ∈ q.auth.signedHeaders, headerValue r h = headerValue r' h)
      ∧ q.payloadHash = q'.payloadHash := by
  have hlen := congrArg length h
  simp only [canonicalLines, length_append, length_map, length_cons,
    length_nil] at hlen
  obtain ⟨hhead, htail⟩ := append_inj h (by simp; omega)
  obtain ⟨hfirst, hheaders⟩ := append_inj hhead rfl
  simp only [cons.injEq, and_true, true_and] at hfirst htail
  obtain ⟨hmethod, henc, hquery⟩ := hfirst
  have hsigned := join_injOn hs.1 hs'.1 hs.2 hs'.2 htail.1
  refine ⟨hmethod, hp.injOn _ _ hpath hpath' henc, Url.encode_injective hq hq' hquery, hsigned, ?_,
    htail.2⟩
  rw [← hsigned] at hheaders
  intro x hx
  have hx' := map_inj_left.1 hheaders x hx
  simpa using hx'

end Lines

end SigV4

def Prims.sample : Prims where
  md5 := fun _ => List.replicate 16 0
  sha256 := fun _ => []
  hmacSHA256 := fun _ _ => [0]
  encodePath := Url.escape
  maxParams := 10000

lemma Prims.sample_encodesPaths : Prims.sample.EncodesPaths where
  injOn := fun a b _ _ h => by
    have ha := Url.queryUnescape_escape a
    rw [show Url.escape a = Url.escape b from h, Url.queryUnescape_escape] at ha
    exact (some.inj ha).symm
  newlineFree := fun a _ => (Url.notMem_escape a).2.2

def sampleAuthorization : Str :=
  str "AWS4-HMAC-SHA256 Credential=AK/20260115/warphold/s3/aws4_request, "
    ++ str "SignedHeaders=host;x-amz-content-sha256;x-amz-date, Signature=00"

def sampleHeader : Mime.Header :=
  .ofList [(str "Authorization", [sampleAuthorization]),
    (str "Content-Md5", [str "AAAAAAAAAAAAAAAAAAAAAA=="]),
    (str "X-Amz-Content-Sha256", [str "UNSIGNED-PAYLOAD"]),
    (str "X-Amz-Date", [str "20260115T004400Z"])]

def Request.sample (method path rawQuery : Str) : Request where
  method := method
  path := path
  rawQuery := rawQuery
  header := sampleHeader
  host := str "fleet"
  contentLength := 2
  body := [⟨str "ab", some .eof⟩]

def sampleNow : ℤ := 1768437840000000000

lemma Request.sample_parsed {method : Str} (hm : (10 : UInt8) ∉ method) (path rawQuery : Str) :
    (Request.sample method path rawQuery).Parsed where
  method_newlineFree := hm
  host_newlineFree := show (10 : UInt8) ∉ str "fleet" by decide
  header_newlineFree := by
    intro name vs h v hv
    have hall : ∀ kv ∈ sampleHeader.toList, ∀ v ∈ kv.2, (10 : UInt8) ∉ v := by decide
    exact hall (name, vs) (Std.ExtTreeMap.mem_toList_iff_getElem?_eq_some.2 h) v hv

def sampleQuery (rawQuery : Str) :=
  SigV4.prepare .sample (.sample (str "GET") (str "/warphold/") rawQuery) (str "warphold") (str "s3")
    sampleNow

def sampleCanonical (rawQuery : Str) :=
  (sampleQuery rawQuery).toOption.map fun q => SigV4.canonicalRequest .sample
    (.sample (str "GET") (str "/warphold/") rawQuery) q.query q.auth.signedHeaders q.payloadHash

end Warphold.Gateway
