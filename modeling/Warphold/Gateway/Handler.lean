import Warphold.Gateway.Local
import Warphold.Gateway.SigV4

/-!
# The gateway

The append-only S3 subset served to devices, over the local store. `serve` takes one request through
the bucket check, the limiters, the signature, the query and key checks and the verb switch; a
request's surroundings (`Env`) are the clock, what the key table, the limiters and the target
resolution answer, and what the filesystem does.
-/

namespace Warphold.Gateway

open Std (ExtTreeMap)

inductive Code where
  | accessDenied
  | noSuchBucket
  | noSuchKey
  | invalidRange
  | notImplemented
  | slowDown
  | badDigest
  | missingContentMD5
  | entityTooLarge
  | missingContentLength
  | incompleteBody
  | invalidObjectKey
  | internalError
  | authorizationHeaderMalformed
  | invalidURI
  | requestTimeTooSkewed
  | invalidAccessKeyID
  | signatureDoesNotMatch
  | appendOnlyDeleteDenied
  | objectAlreadyExists
  | invalidArgument
  deriving DecidableEq, Repr

def Code.text : Code → Str
  | accessDenied => str "AccessDenied"
  | noSuchBucket => str "NoSuchBucket"
  | noSuchKey => str "NoSuchKey"
  | invalidRange => str "InvalidRange"
  | notImplemented => str "NotImplemented"
  | slowDown => str "SlowDown"
  | badDigest => str "BadDigest"
  | missingContentMD5 => str "MissingContentMD5"
  | entityTooLarge => str "EntityTooLarge"
  | missingContentLength => str "MissingContentLength"
  | incompleteBody => str "IncompleteBody"
  | invalidObjectKey => str "InvalidObjectKey"
  | internalError => str "InternalError"
  | authorizationHeaderMalformed => str "AuthorizationHeaderMalformed"
  | invalidURI => str "InvalidURI"
  | requestTimeTooSkewed => str "RequestTimeTooSkewed"
  | invalidAccessKeyID => str "InvalidAccessKeyId"
  | signatureDoesNotMatch => str "SignatureDoesNotMatch"
  | appendOnlyDeleteDenied => str "AppendOnlyDeleteDenied"
  | objectAlreadyExists => str "ObjectAlreadyExists"
  | invalidArgument => str "InvalidArgument"

/-- A header the gateway sets on a response; a time stands for its formatted text. -/
inductive RespHeader where
  | contentType (v : Str)
  | contentLength (n : ℤ)
  | lastModified (t : ℤ)
  | acceptRanges (v : Str)
  | contentRange (first last size : ℤ)
  | etag (v : Str)
  | retryAfter (seconds : ℕ)
  | warpholdErrorCode (c : Code)
  deriving DecidableEq, Repr

structure ObjectEntry where
  key : Str
  lastModified : ℤ
  etag : Str
  size : ℤ
  storageClass : Str
  owner : Option Str
  deriving DecidableEq, Repr

structure ListBucketResult where
  name : Str
  pre : Str
  startAfter : Str
  continuationToken : Str
  nextContinuationToken : Str
  keyCount : ℕ
  maxKeys : ℤ
  delimiter : Str
  encodingType : Str
  isTruncated : Bool
  contents : List ObjectEntry
  deriving DecidableEq, Repr

inductive Body where
  | empty
  | error (code : Code) (message resource : Str)
  | listing (res : ListBucketResult)
  | location (region : Str)
  | bytes (s : Str)
  deriving DecidableEq, Repr

structure Response where
  status : ℕ
  headers : List RespHeader
  body : Body
  deriving DecidableEq, Repr

inductive StoreForErr where
  | errAccessDenied
  | errUnsupportedStorageMode
  | other
  deriving DecidableEq, Repr

structure Config where
  bucket : Str
  region : Str
  maxBytes : ℤ
  maxSize : ℤ

structure Env where
  now : ℤ
  lookup : Str → Option Credential
  ipAllow : Bool
  allow : Str → Bool
  storeFor : Str → Except StoreForErr Unit
  faults : Faults

def bucketName : Str := str "warphold"

def defaultRegion : Str := bucketName

def locationRegion : Str := str "us-east-1"

def defaultMaxObjectBytes : ℤ := 64 * 2 ^ 20

def maxListKeys : ℤ := 1000

def retryAfterSeconds : ℕ := 1

def newGateway (bucket region : Str) (maxObjectBytes maxObjectSize : ℤ) : Config where
  bucket := if bucket = [] then bucketName else bucket
  region := if region = [] then defaultRegion else region
  maxBytes := if maxObjectBytes ≤ 0 then defaultMaxObjectBytes else maxObjectBytes
  maxSize := if maxObjectSize ≤ 0 then defaultMaxObjectSize else maxObjectSize

def lowerHexByte (c : UInt8) : Bool :=
  (48 ≤ c.toNat && c.toNat ≤ 57) || (97 ≤ c.toNat && c.toNat ≤ 102)

/-- Whether a device may delete a blob: its name matches `^s[0-9a-f]{16,}`. -/
def allowDelete (blobName : Str) : Bool :=
  match blobName with
  | 115 :: rest => 16 ≤ (rest.takeWhile lowerHexByte).length
  | _ => false

def deviceOverwrite : Bool := false

def knownQueryKeys : List Str :=
  [str "list-type", str "prefix", str "start-after", str "continuation-token", str "max-keys",
    str "delimiter", str "encoding-type", str "fetch-owner", str "location", str "versioning",
    str "uploads", str "uploadId", str "partNumber", str "delete", str "retention",
    str "versionId", str "versions", str "metadata"]

section Write
variable (r : Request)

def writeError (status : ℕ) (code : Code) (msg : Str) : Response :=
  if r.method = str "HEAD" then ⟨status, [.warpholdErrorCode code], .empty⟩
  else ⟨status, [.contentType (str "application/xml")], .error code msg r.path⟩

def writeNotImplemented (msg : Str) : Response := writeError r 501 .notImplemented msg

def writeSlowDown : Response :=
  let resp := writeError r 503 .slowDown (str "too many requests; slow down")
  { resp with headers := .retryAfter retryAfterSeconds :: resp.headers }

def writeStoreError : StoreErr → Response
  | .errNotFound => writeError r 404 .noSuchKey (str "no such key")
  | .errRange => writeError r 416 .invalidRange (str "the requested range is not satisfiable")
  | .errBadKey => writeError r 403 .accessDenied (str "access denied")
  | _ => writeError r 500 .internalError (str "storage error")

def mapAuthError : AuthErr → ℕ × Code
  | .errStreamingUnsupported => (501, .notImplemented)
  | .errRequestTimeTooSkewed => (403, .requestTimeTooSkewed)
  | .errInvalidAccessKeyID => (403, .invalidAccessKeyID)
  | .errSignatureDoesNotMatch => (403, .signatureDoesNotMatch)
  | .errUnsignedAmzHeader => (403, .accessDenied)
  | .errMalformedQuery => (400, .invalidURI)
  | .errMalformedAuthorization => (400, .authorizationHeaderMalformed)

def authMessage (err : AuthErr) (code : Code) : Str :=
  if err = .errStreamingUnsupported then
    str "streaming payload signing is not supported; use an https:// endpoint so the client sends UNSIGNED-PAYLOAD"
  else code.text

end Write

/-- The body as `md5Check` passes it on: at its end the digest of what was read is compared. -/
def md5Check (md5 : Str → Str) (want : Str) :
    Str → List (ReadAns UInt8 Unit) → List (ReadAns UInt8 StoreErr)
  | seen, [] => if md5 seen = want then [] else [⟨[], some (.fail .errBadDigest)⟩]
  | seen, ⟨d, stop⟩ :: l =>
    match stop with
    | none => ⟨d, none⟩ :: md5Check md5 want (seen ++ d) l
    | some .eof =>
      [⟨d, some (if md5 (seen ++ d) = want then .eof else .fail .errBadDigest)⟩]
    | some (.fail ()) => [⟨d, some (.fail .other)⟩]

/-- The answer to a PUT, from what the store returned and whether the body was read to its end. -/
def putResponse (r : Request) (verified : Bool) : Except StoreErr ObjectInfo → Response
  | .ok info =>
    if !verified then writeError r 500 .internalError (str "could not store the object")
    else ⟨200, [.etag (Strconv.quote info.etag)], .empty⟩
  | .error .errBadDigest =>
    writeError r 400 .badDigest (str "the Content-MD5 does not match the body")
  | .error .errExists =>
    writeError r 409 .objectAlreadyExists
      (str "append-only: this object already exists and cannot be replaced")
  | .error .errIncompleteBody =>
    writeError r 400 .incompleteBody (str "the body did not match Content-Length")
  | .error .errTooLarge =>
    writeError r 413 .entityTooLarge (str "object exceeds the store's size limit")
  | .error .errBadKey => writeError r 400 .invalidObjectKey (str "invalid object key")
  | .error _ => writeError r 500 .internalError (str "could not store the object")

section Verbs
variable (p : Prims) (g : Config) (f : Faults) (t : Tree) (r : Request)

def put (key : Str) (readOnly : Bool) : Tree × Response :=
  if readOnly then (t, writeError r 403 .accessDenied (str "this key is read-only"))
  else if r.contentLength < 0 then
    (t, writeError r 411 .missingContentLength (str "Content-Length is required"))
  else if g.maxBytes < r.contentLength then
    (t, writeError r 413 .entityTooLarge
      (str "object exceeds the " ++ Strconv.formatInt g.maxBytes ++ str " byte limit"))
  else
    let bad := writeError r 400 .missingContentMD5
      (str "a valid base64 Content-MD5 header is required")
    match Base64.stdDecodeString (Mime.get r.header (str "Content-MD5")) with
    | none => (t, bad)
    | some want =>
      if want.length ≠ 16 then (t, bad)
      else
        let body := md5Check p.md5 want [] r.body
        let (t', res, verified) :=
          Local.put p.md5 f g.maxSize t key body r.contentLength deviceOverwrite
        (t', putResponse r verified res)

inductive RangeErr where
  | errMultiRange
  | store (e : StoreErr)

/-- What a Range header asks for: an offset, a length (negative for the rest), and whether it is a
range at all. The length is computed in 64 bits. -/
def parseRange (hdr key : Str) : Except RangeErr (ℤ × ℤ × Bool) :=
  let whole : Except RangeErr (ℤ × ℤ × Bool) := .ok (0, -1, false)
  let c := Strings.cutPrefix (Strings.trimSpace hdr) (str "bytes=")
  if !c.2 then whole
  else if 44 ∈ c.1 then .error .errMultiRange
  else
    let fl := Strings.cut c.1 45
    if !fl.2.2 then whole
    else if fl.1 = [] then
      match Strconv.parseInt fl.2.1 with
      | none => whole
      | some n =>
        if n ≤ 0 then whole
        else match Local.head p.md5 f t key with
          | .error e => .error (.store e)
          | .ok info =>
            let n := if info.size < n then info.size else n
            .ok (info.size - n, n, true)
    else
      match Strconv.parseInt fl.1 with
      | none => whole
      | some start =>
        if start < 0 then whole
        else if fl.2.1 = [] then .ok (start, -1, true)
        else match Strconv.parseInt fl.2.1 with
          | none => whole
          | some last =>
            if last < start then whole
            else .ok (start, Int.bmod (last - start + 1) (2 ^ 64), true)

def writeRangeError : RangeErr → Response
  | .errMultiRange => writeNotImplemented r (str "only a single byte range is supported")
  | .store e => writeStoreError r e

def get (key : Str) : Response :=
  match parseRange p f t (Mime.get r.header (str "Range")) key with
  | .error e => writeRangeError r e
  | .ok (offset, length, ranged) =>
    match Local.get f t key offset length with
    | .error e => writeStoreError r e
    | .ok (body, info) =>
      let served := info.size - offset
      let served := if 0 ≤ length ∧ length < served then length else served
      let headers : List RespHeader := [.contentType (str "application/octet-stream"),
        .contentLength served, .lastModified info.lastModified, .acceptRanges (str "bytes")]
      if ranged ∧ 0 < served then
        ⟨206, headers ++ [.contentRange offset (offset + served - 1) info.size], .bytes body⟩
      else ⟨200, headers, .bytes body⟩

def head (key : Str) : Response :=
  match Local.head p.md5 f t key with
  | .error e => writeStoreError r e
  | .ok info =>
    let headers : List RespHeader := [.contentType (str "application/octet-stream"),
      .contentLength info.size, .lastModified info.lastModified, .acceptRanges (str "bytes")]
    let headers := if info.etag ≠ [] then headers ++ [.etag (Strconv.quote info.etag)] else headers
    ⟨200, headers, .empty⟩

def delete (key blobName : Str) (readOnly : Bool) : Tree × Response :=
  if readOnly || !allowDelete blobName then
    (t, writeError r 403 .appendOnlyDeleteDenied
      (str "append-only: only Kopia session markers may be deleted (docs/RECONCILE-append-only.md)"))
  else
    match Local.delete f t key with
    | (t', none) => (t', ⟨204, [], .empty⟩)
    | (t', some .errNotFound) => (t', ⟨204, [], .empty⟩)
    | (t', some e) => (t', writeStoreError r e)

end Verbs

section List
variable (g : Config) (f : Faults) (t : Tree) (r : Request)

def encodeToken (devPrefix after : Str) : Str :=
  Base64.rawURLEncodeToString (devPrefix ++ [0] ++ after)

def decodeToken (token devPrefix : Str) : Option Str := do
  let raw ← Base64.rawURLDecodeString token
  let c := Strings.cut raw 0
  if !c.2.2 || c.1 ≠ devPrefix then none else some c.2.1

def urlEncodeName (s : Str) : Str := Url.spaceAsPercent (Url.queryEscape s)

def collect (pre after : Str) (maxKeys : ℤ) : Except StoreErr (List ObjectInfo × Str × Bool) := do
  let (batch, more) ← Local.list f t pre after maxKeys
  match batch.getLast? with
  | none => .ok ([], after, false)
  | some o => .ok (batch, o.key, more)

def objectEntry (encode fetchOwner : Bool) (o : ObjectInfo) : ObjectEntry where
  key := if encode then urlEncodeName o.key else o.key
  lastModified := o.lastModified
  etag := if o.etag ≠ [] then Strconv.quote o.etag else []
  size := o.size
  storageClass := str "STANDARD"
  owner := if fetchOwner then some g.bucket else none

def listMaxKeys (query : Url.Values) : ℤ :=
  match Strconv.parseInt (Url.get query (str "max-keys")) with
  | some n => if 0 < n ∧ n < maxListKeys then n else maxListKeys
  | none => maxListKeys

def list (query : Url.Values) (devPrefix : Str) : Response :=
  let askedPrefix := Url.get query (str "prefix")
  let pre := if Strings.hasPrefix askedPrefix devPrefix then askedPrefix else devPrefix
  let maxKeys := listMaxKeys query
  let token := Url.get query (str "continuation-token")
  let start : Option Str :=
    if token ≠ [] then decodeToken token devPrefix else some (Url.get query (str "start-after"))
  match start with
  | none => writeError r 403 .accessDenied (str "access denied")
  | some after =>
    let after := if Strings.lt after pre then [] else after
    let encode := Strings.equalFold (Url.get query (str "encoding-type")) (str "url")
    let fetchOwner := Strings.equalFold (Url.get query (str "fetch-owner")) (str "true")
    let name (s : Str) := if encode then urlEncodeName s else s
    match collect f t pre after maxKeys with
    | .error e => writeStoreError r e
    | .ok (objs, next, truncated) =>
      if objs.any fun o => !Strings.hasPrefix o.key devPrefix then
        writeError r 500 .internalError (str "storage error")
      else
        let contents := objs.map (objectEntry g encode fetchOwner)
        ⟨200, [.contentType (str "application/xml")], .listing
          { name := g.bucket
            pre := name askedPrefix
            startAfter := name (Url.get query (str "start-after"))
            continuationToken := token
            nextContinuationToken := if truncated then encodeToken devPrefix next else []
            keyCount := contents.length
            maxKeys := maxKeys
            delimiter := name (Url.get query (str "delimiter"))
            encodingType := if encode then str "url" else []
            isTruncated := truncated
            contents := contents }⟩

def serveBucket (query : Url.Values) (devPrefix : Str) : Response :=
  if r.method = str "POST" then writeNotImplemented r (str "this operation is not supported")
  else if str "versioning" ∈ query then
    writeNotImplemented r (str "bucket versioning is not supported")
  else if str "location" ∈ query then
    ⟨200, [.contentType (str "application/xml")], .location g.region⟩
  else if r.method = str "HEAD" then ⟨200, [], .empty⟩
  else if r.method ≠ str "GET" then writeError r 403 .accessDenied (str "access denied")
  else if Url.get query (str "list-type") ≠ str "2" then
    writeNotImplemented r (str "only ListObjectsV2 (list-type=2) is supported")
  else list g f t r query devPrefix

end List

section Serve
variable (p : Prims) (g : Config) (env : Env) (t : Tree) (r : Request)

def bucketKey : Str × Str :=
  let c := Strings.cut (Strings.trimPrefix r.path [47]) 47
  (c.1, c.2.1)

def signedRegion : Str :=
  match Url.parseQuery p.maxParams r.rawQuery with
  | some q => if (bucketKey r).2 = [] ∧ str "location" ∈ q then locationRegion else g.region
  | none => g.region

/-- The key table behind the confinement check: a credential whose prefix is not its agent's own
directory is refused as unknown. -/
def look (accessKeyID : Str) : Option Credential :=
  (env.lookup accessKeyID).filter fun c =>
    c.pre = c.agentID ++ [47] ∧ checkKey (c.pre ++ str "x") = none

def authenticate : Except AuthErr (Str × Credential) :=
  SigV4.verify p r (signedRegion p g r) (str "s3") (look env) env.now

def serveObject (query : Url.Values) (cred : Credential) (key : Str) : Tree × Response :=
  let blobName := Strings.trimPrefix key cred.pre
  if r.method = str "PUT" then
    if str "retention" ∈ query then
      (t, writeNotImplemented r
        (str "object retention is applied by the mirror job, not by the device"))
    else put p g env.faults t r key cred.readOnly
  else if r.method = str "GET" then (t, get p env.faults t r key)
  else if r.method = str "HEAD" then (t, head p env.faults t r key)
  else if r.method = str "DELETE" then delete env.faults t r key blobName cred.readOnly
  else if r.method = str "POST" then
    (t, writeNotImplemented r (str "this operation is not supported"))
  else (t, writeError r 403 .accessDenied (str "access denied"))

def serveAs (cred : Credential) : Tree × Response :=
  let key := (bucketKey r).2
  if !env.allow cred.agentID then (t, writeSlowDown r)
  else match Url.parseQuery p.maxParams r.rawQuery with
    | none => (t, writeError r 400 .invalidURI (str "malformed query string"))
    | some query =>
      if query.keys.any fun k => !knownQueryKeys.contains k then
        (t, writeError r 400 .invalidArgument (str "unsupported query parameter"))
      else if str "uploads" ∈ query ∨ str "uploadId" ∈ query ∨ str "partNumber" ∈ query then
        (t, writeNotImplemented r (str "multipart upload is not supported"))
      else if str "versionId" ∈ query ∨ str "versions" ∈ query ∨ str "metadata" ∈ query then
        (t, writeNotImplemented r (str "object versions are not supported by hosted targets"))
      else if Mime.get r.header (str "X-Amz-Copy-Source") ≠ [] then
        (t, writeNotImplemented r (str "server-side copy is not supported"))
      else match env.storeFor cred.agentID with
        | .error .errAccessDenied => (t, writeError r 403 .accessDenied (str "access denied"))
        | .error .errUnsupportedStorageMode =>
          (t, writeNotImplemented r
            (str "this target's storage mode is not served by the gateway"))
        | .error .other => (t, writeError r 500 .internalError (str "storage unavailable"))
        | .ok () =>
          if key = [] then (t, serveBucket g env.faults t r query cred.pre)
          else match normalizeKey key cred.pre with
            | .error _ =>
              if !Strings.hasPrefix key cred.pre then
                (t, writeError r 403 .accessDenied (str "access denied"))
              else (t, writeError r 400 .invalidObjectKey (str "invalid object key"))
            | .ok full => serveObject p g env t r query cred full

def serve : Tree × Response :=
  if (bucketKey r).1 ≠ g.bucket then (t, writeError r 404 .noSuchBucket (str "no such bucket"))
  else if !env.ipAllow then (t, writeSlowDown r)
  else if Mime.get r.header (str "Authorization") = [] then
    (t, writeError r 403 .accessDenied (str "access denied"))
  else match authenticate p g env r with
    | .error err =>
      let sc := mapAuthError err
      (t, writeError r sc.1 sc.2 (authMessage err sc.2))
    | .ok (_, cred) => serveAs p g env t r cred

end Serve

end Warphold.Gateway
