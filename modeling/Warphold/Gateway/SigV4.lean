import Warphold.Gateway.Object
import Warphold.Lib.Time

/-!
# Signature verification

`Verify` checks an `AWS4-HMAC-SHA256` signature: it reads the Authorization header, the scope and the
date, requires the headers the signature is worthless without, rebuilds the canonical request and
compares the MAC. Everything before the key lookup is `prepare`; a request that passes it is accepted
for checking.
-/

namespace Warphold.Gateway

open Std (ExtTreeMap)

/-- What the gateway reads of an HTTP request. `path` is the decoded `URL.Path`; the body is what its
reads answer, an error of its own carrying no more than that it failed. -/
structure Request where
  method : Str
  path : Str
  rawQuery : Str
  header : Mime.Header
  host : Str
  contentLength : ℤ
  body : List (ReadAns UInt8 Unit)

structure Prims where
  md5 : Str → Str
  sha256 : Str → Str
  hmacSHA256 : Str → Str → Str
  encodePath : Str → Str
  /-- The most pieces `url.ParseQuery` reads (`urlmaxqueryparams`). -/
  maxParams : ℕ

/-- A device key: the agent it belongs to, the key prefix it is confined to, its secret, and whether
it may only read. -/
structure Credential where
  agentID : Str
  pre : Str
  secret : Str
  readOnly : Bool
  deriving DecidableEq, Repr

inductive AuthErr where
  | errMalformedAuthorization
  | errInvalidAccessKeyID
  | errSignatureDoesNotMatch
  | errRequestTimeTooSkewed
  | errUnsignedAmzHeader
  | errMalformedQuery
  | errStreamingUnsupported
  deriving DecidableEq, Repr

def maxClockSkew : ℤ := 15 * 60 * 1000000000

def signV4Algorithm : Str := str "AWS4-HMAC-SHA256"

def scopeTerminator : Str := str "aws4_request"

def streamingPrefix : Str := str "STREAMING-"

def contentSHAHeader : Str := str "x-amz-content-sha256"

def dateHeader : Str := str "x-amz-date"

def hostHeader : Str := str "host"

def decoySecret : Str := List.replicate 40 48

namespace SigV4

structure Components where
  credential : Str
  signedHeaders : List Str
  sig : Str

def addComponent (c : Components) (part : Str) : Option Components :=
  let kv := Strings.cut (Strings.trimSpace part) 61
  if !kv.2.2 then none
  else if kv.1 = str "Credential" then some { c with credential := kv.2.1 }
  else if kv.1 = str "SignedHeaders" then some { c with signedHeaders := Strings.split kv.2.1 59 }
  else if kv.1 = str "Signature" then some { c with sig := kv.2.1 }
  else some c

structure Authorization where
  akid : Str
  scope : Str
  signedHeaders : List Str
  sig : Str

def parseAuthorization (v : Str) : Option Authorization := do
  let a := Strings.cut v 32
  if !a.2.2 || a.1 ≠ signV4Algorithm then none
  let c ← (Strings.split a.2.1 44).foldlM addComponent ⟨[], [], []⟩
  if c.credential = [] || c.sig = [] || c.signedHeaders.length = 0 then none
  let k := Strings.cut c.credential 47
  if !k.2.2 || k.1 = [] then none
  return ⟨k.1, k.2.1, c.signedHeaders, c.sig⟩

def parseScope (scope wantRegion wantService : Str) : Option (Str × Str) :=
  match Strings.split scope 47 with
  | [date, region, service, terminator] =>
    if terminator ≠ scopeTerminator then none
    else if service ≠ wantService then none
    else if region ≠ wantRegion then none
    else some (date, region)
  | _ => none

def requireSignedHeaders (r : Request) (signed : List Str) : Except AuthErr Unit :=
  if [hostHeader, contentSHAHeader, dateHeader].any fun h => !signed.contains h then
    .error .errMalformedAuthorization
  else if r.header.keys.any fun name =>
      Strings.hasPrefix (Strings.toLower name) (str "x-amz-")
        && !signed.contains (Strings.toLower name) then
    .error .errUnsignedAmzHeader
  else .ok ()

/-- One signed header. `Host` and `Content-Length` are read from the request's own fields. -/
def headerValue (r : Request) (name : Str) : Str :=
  if name = hostHeader then r.host
  else if name = str "content-length" then
    if r.contentLength < 0 then [] else Strconv.formatInt r.contentLength
  else
    Strings.join ((Mime.values r.header name).map fun v => Strings.join (Strings.fields v) [32]) [44]

def canonicalRequest (p : Prims) (r : Request) (query : Url.Values) (signedHeaders : List Str)
    (payloadHash : Str) : Str :=
  r.method ++ [10] ++ p.encodePath r.path ++ [10] ++ Url.spaceAsPercent (Url.encode query) ++ [10]
    ++ (signedHeaders.flatMap fun h => h ++ [58] ++ headerValue r h ++ [10])
    ++ [10] ++ Strings.join signedHeaders [59] ++ [10] ++ payloadHash

def stringToSign (p : Prims) (amzDate scope creq : Str) : Str :=
  signV4Algorithm ++ [10] ++ amzDate ++ [10] ++ scope ++ [10] ++ Hex.encodeToString (p.sha256 creq)

def signingKey (p : Prims) (secret date region service : Str) : Str :=
  let k := p.hmacSHA256 (str "AWS4" ++ secret) date
  let k := p.hmacSHA256 k region
  let k := p.hmacSHA256 k service
  p.hmacSHA256 k scopeTerminator

/-- What `Verify` has read of a request when it comes to look up the key. -/
structure Prepared where
  auth : Authorization
  scopeDate : Str
  scopeRegion : Str
  amzDate : Str
  payloadHash : Str
  query : Url.Values

def prepare (p : Prims) (r : Request) (region service : Str) (now : ℤ) :
    Except AuthErr Prepared := do
  let some auth := parseAuthorization (Mime.get r.header (str "Authorization"))
    | .error .errMalformedAuthorization
  let some (scopeDate, scopeRegion) := parseScope auth.scope region service
    | .error .errMalformedAuthorization
  let amzDate := Mime.get r.header (str "X-Amz-Date")
  if amzDate = [] then .error .errMalformedAuthorization
  let some t := DateTime.parseISO8601 amzDate | .error .errMalformedAuthorization
  if t.formatDate ≠ scopeDate then .error .errMalformedAuthorization
  let d := now - t.unixNano
  if maxClockSkew < d ∨ d < -maxClockSkew then .error .errRequestTimeTooSkewed
  requireSignedHeaders r auth.signedHeaders
  let payloadHash := Mime.get r.header (str "X-Amz-Content-Sha256")
  if Strings.hasPrefix payloadHash streamingPrefix then .error .errStreamingUnsupported
  let some query := Url.parseQuery p.maxParams r.rawQuery | .error .errMalformedQuery
  return { auth, scopeDate, scopeRegion, amzDate, payloadHash, query }

def expected (p : Prims) (r : Request) (service : Str) (q : Prepared) (secret : Str) : Str :=
  let creq := canonicalRequest p r q.query q.auth.signedHeaders q.payloadHash
  let sts := stringToSign p q.amzDate q.auth.scope creq
  Hex.encodeToString (p.hmacSHA256 (signingKey p secret q.scopeDate q.scopeRegion service) sts)

/-- `Verify`: the access key id a request was signed with, and the credential its lookup found. -/
def verify (p : Prims) (r : Request) (region service : Str) (look : Str → Option Credential)
    (now : ℤ) : Except AuthErr (Str × Credential) := do
  let q ← prepare p r region service now
  let found := look q.auth.akid
  let want := expected p r service q ((found.map (·.secret)).getD decoySecret)
  match found with
  | none => .error .errInvalidAccessKeyID
  | some cred =>
    if want ≠ q.auth.sig then .error .errSignatureDoesNotMatch else .ok (q.auth.akid, cred)

lemma verify_ok {p : Prims} {r : Request} {region service : Str} {look : Str → Option Credential}
    {now : ℤ} {akid : Str} {cred : Credential}
    (h : verify p r region service look now = .ok (akid, cred)) :
    ∃ q, prepare p r region service now = .ok q ∧ q.auth.akid = akid ∧ look akid = some cred
      ∧ expected p r service q cred.secret = q.auth.sig := by
  unfold verify at h
  rcases hq : prepare p r region service now with e | q <;> rw [hq] at h
  · cases h
  · simp only [bind, Except.bind] at h
    rcases hl : look q.auth.akid with _ | c <;> rw [hl] at h
    · cases h
    · simp only [] at h
      split_ifs at h with hs
      cases h
      exact ⟨q, rfl, rfl, hl, not_not.1 hs⟩

end SigV4

end Warphold.Gateway
