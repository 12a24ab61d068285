import Warphold.Lib.Strings

/-!
# The rate limits of the gateway and the client's address

A limiter has a token bucket for each key. Callers read the clock before they take the limiter's lock,
so the times of its calls need not be in order. Times are nanoseconds, rates tokens per second; tokens
are rational numbers.
-/

namespace Warphold.Gateway

def idleEvict : ℤ := 10 * 60 * 10 ^ 9

def sweepEvery : ℤ := 60 * 10 ^ 9

structure Bucket where
  tokens : ℚ
  last : ℤ

structure Limiter where
  rate : ℚ
  burst : ℚ
  buckets : Str → Option Bucket
  lastSweep : ℤ

def zeroTime : ℤ := -62135596800 * 10 ^ 9

def newLimiter (ratePerSecond burst : ℚ) : Limiter where
  rate := if ratePerSecond ≤ 0 then 50 else ratePerSecond
  burst := if burst ≤ 0 then 200 else burst
  buckets := fun _ => none
  lastSweep := zeroTime

namespace Limiter

def sweepLocked (l : Limiter) (now : ℤ) : Limiter :=
  if now - l.lastSweep < sweepEvery then l
  else { l with
    lastSweep := now
    buckets := fun id => (l.buckets id).filter fun b => !decide (idleEvict < now - b.last) }

/-- The tokens of a key after the time since its last call is credited. -/
def refill (l : Limiter) (b : Bucket) (now : ℤ) : ℚ :=
  if 0 < now - b.last then min l.burst (b.tokens + (now - b.last : ℤ) / 10 ^ 9 * l.rate) else b.tokens

def allow (l : Limiter) (id : Str) (now : ℤ) : Limiter × Bool :=
  let l := l.sweepLocked now
  let tokens := l.refill ((l.buckets id).getD ⟨l.burst, now⟩) now
  let set := fun tokens => { l with buckets := Function.update l.buckets id (some ⟨tokens, now⟩) }
  if tokens < 1 then (set tokens, false) else (set (tokens - 1), true)

/-- How many of the calls for a key are admitted, the calls being executed in the order given. -/
def admitted (id : Str) : Limiter → List (Str × ℤ) → ℕ
  | _, [] => 0
  | l, (i, now) :: calls =>
    (if i = id ∧ (l.allow i now).2 then 1 else 0) + admitted id (l.allow i now).1 calls

end Limiter

structure Addresses (IP IPNet : Type) where
  parseIP : Str → Option IP
  string : IP → Str
  contains : IPNet → IP → Bool
  splitHostPort : Str → Option (Str × Str)

namespace Addresses

variable {IP IPNet : Type} (a : Addresses IP IPNet)

def peerIP (remoteAddr : Str) : Str :=
  match a.splitHostPort remoteAddr with
  | none => remoteAddr
  | some (host, _) => host

def isTrusted (ip : Option IP) (trusted : List IPNet) : Bool :=
  match ip with
  | none => false
  | some ip => trusted.any fun n => a.contains n ip

def trimBrackets (s : Str) : Str :=
  let bracket := fun c : UInt8 => c = 91 || c = 93
  ((s.dropWhile bracket).reverse.dropWhile bracket).reverse

def parseHop (hop : Str) : Option IP := a.parseIP (trimBrackets (Strings.trimSpace hop))

def walk (peer : Str) (trusted : List IPNet) : List Str → Str
  | [] => peer
  | hop :: hops =>
    match a.parseHop hop with
    | none => peer
    | some ip => if !a.isTrusted (some ip) trusted then a.string ip else walk peer trusted hops

def hops (forwardedFor : List Str) : List Str := Strings.split (Strings.join forwardedFor [44]) 44

def clientIP (remoteAddr : Str) (forwardedFor : List Str) (trusted : List IPNet) : Str :=
  let peer := a.peerIP remoteAddr
  if trusted.length = 0 || !a.isTrusted (a.parseIP peer) trusted then peer
  else a.walk peer trusted (hops forwardedFor).reverse

end Addresses

end Warphold.Gateway
