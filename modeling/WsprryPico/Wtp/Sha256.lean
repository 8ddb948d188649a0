import WsprryPico.Wtp.Types

/-!
# SHA-256 and the job digest

`wtp/sha256.cpp` as a streaming hash over bytes, and `job_digest`, the typed
identity of a job. The tail buffer is a list, so the block boundary a caller
chooses for `update` does not show.
-/

namespace WsprryPico.Wtp

namespace Sha256

def roundConstants : List UInt32 := [
  0x428a2f98, 0x71374491, 0xb5c0fbcf, 0xe9b5dba5, 0x3956c25b, 0x59f111f1, 0x923f82a4,
  0xab1c5ed5, 0xd807aa98, 0x12835b01, 0x243185be, 0x550c7dc3, 0x72be5d74, 0x80deb1fe,
  0x9bdc06a7, 0xc19bf174, 0xe49b69c1, 0xefbe4786, 0x0fc19dc6, 0x240ca1cc, 0x2de92c6f,
  0x4a7484aa, 0x5cb0a9dc, 0x76f988da, 0x983e5152, 0xa831c66d, 0xb00327c8, 0xbf597fc7,
  0xc6e00bf3, 0xd5a79147, 0x06ca6351, 0x14292967, 0x27b70a85, 0x2e1b2138, 0x4d2c6dfc,
  0x53380d13, 0x650a7354, 0x766a0abb, 0x81c2c92e, 0x92722c85, 0xa2bfe8a1, 0xa81a664b,
  0xc24b8b70, 0xc76c51a3, 0xd192e819, 0xd6990624, 0xf40e3585, 0x106aa070, 0x19a4c116,
  0x1e376c08, 0x2748774c, 0x34b0bcb5, 0x391c0cb3, 0x4ed8aa4a, 0x5b9cca4f, 0x682e6ff3,
  0x748f82ee, 0x78a5636f, 0x84c87814, 0x8cc70208, 0x90befffa, 0xa4506ceb, 0xbef9a3f7,
  0xc67178f2]

def rotateRight (value count : UInt32) : UInt32 := (value >>> count) ||| (value <<< (32 - count))

/-- The eight hash words. -/
structure Words where
  a : UInt32
  b : UInt32
  c : UInt32
  d : UInt32
  e : UInt32
  f : UInt32
  g : UInt32
  h : UInt32
  deriving DecidableEq

def Words.add (x y : Words) : Words :=
  ⟨x.a + y.a, x.b + y.b, x.c + y.c, x.d + y.d, x.e + y.e, x.f + y.f, x.g + y.g, x.h + y.h⟩

def Words.toList (x : Words) : List UInt32 := [x.a, x.b, x.c, x.d, x.e, x.f, x.g, x.h]

/-- The big-endian words of a block. -/
def readWords : List UInt8 → List UInt32
  | b₀ :: b₁ :: b₂ :: b₃ :: rest =>
    ((b₀.toUInt32 <<< 24) ||| (b₁.toUInt32 <<< 16) ||| (b₂.toUInt32 <<< 8) ||| b₃.toUInt32) ::
      readWords rest
  | _ => []

/-- `k` more words of the schedule, which is kept newest first. -/
def extend : Nat → List UInt32 → List UInt32
  | 0, words => words
  | k + 1, words =>
    let w := fun i => words.getD i 0
    let s0 := rotateRight (w 14) 7 ^^^ rotateRight (w 14) 18 ^^^ (w 14 >>> 3)
    let s1 := rotateRight (w 1) 17 ^^^ rotateRight (w 1) 19 ^^^ (w 1 >>> 10)
    extend k ((w 15 + s0 + w 6 + s1) :: words)

def round (x : Words) (constant word : UInt32) : Words :=
  let sum1 := rotateRight x.e 6 ^^^ rotateRight x.e 11 ^^^ rotateRight x.e 25
  let choose := (x.e &&& x.f) ^^^ (~~~ x.e &&& x.g)
  let temporary1 := x.h + sum1 + choose + constant + word
  let sum0 := rotateRight x.a 2 ^^^ rotateRight x.a 13 ^^^ rotateRight x.a 22
  let majority := (x.a &&& x.b) ^^^ (x.a &&& x.c) ^^^ (x.b &&& x.c)
  let temporary2 := sum0 + majority
  ⟨temporary1 + temporary2, x.a, x.b, x.c, x.d + temporary1, x.e, x.f, x.g⟩

def compress (hash : Words) (block : List UInt8) : Words :=
  let words := (extend 48 (readWords block).reverse).reverse
  hash.add ((roundConstants.zip words).foldl (fun x cw => round x cw.1 cw.2) hash)

end Sha256

structure Sha256 where
  hash : Sha256.Words :=
    ⟨0x6a09e667, 0xbb67ae85, 0x3c6ef372, 0xa54ff53a, 0x510e527f, 0x9b05688c, 0x1f83d9ab, 0x5be0cd19⟩
  /-- The pending bytes of the tail. -/
  tail : List UInt8 := []
  bytes : UInt64 := 0

namespace Sha256

def push (s : Sha256) (byte : UInt8) : Sha256 :=
  let tail := s.tail ++ [byte]
  if tail.length = 64 then { hash := compress s.hash tail, tail := [], bytes := s.bytes + 1 }
  else { s with tail := tail, bytes := s.bytes + 1 }

def update (s : Sha256) (bytes : List UInt8) : Sha256 := bytes.foldl push s

def bigEndian64 (n : UInt64) : List UInt8 :=
  ([56, 48, 40, 32, 24, 16, 8, 0] : List UInt64).map fun shift => (n >>> shift).toUInt8

def bigEndian32 (n : UInt32) : List UInt8 :=
  ([24, 16, 8, 0] : List UInt32).map fun shift => (n >>> shift).toUInt8

/-- The hash after the final padding. -/
def padded (s : Sha256) : Words :=
  let tail := s.tail ++ [0x80]
  let (hash, tail) :=
    if tail.length > 56 then (compress s.hash (tail ++ List.replicate (64 - tail.length) 0), [])
    else (s.hash, tail)
  compress hash (tail ++ List.replicate (56 - tail.length) 0 ++ bigEndian64 (s.bytes * 8))

def finish (s : Sha256) : PayloadDigest :=
  ⟨s.padded.toList.flatMap bigEndian32, by simp [Words.toList, bigEndian32]⟩

end Sha256

def sha256 (bytes : List UInt8) : PayloadDigest := (({} : Sha256).update bytes).finish

/-! ## The job digest -/

/-- `JobDigestBuilder`. -/
structure JobDigestBuilder where
  digest : Sha256 := {}

namespace JobDigestBuilder

def number (b : JobDigestBuilder) (n : UInt64) : JobDigestBuilder :=
  ⟨b.digest.update (([0, 8, 16, 24, 32, 40, 48, 56] : List UInt64).map fun shift =>
    (n >>> shift).toUInt8)⟩

def flag (b : JobDigestBuilder) (value : Bool) : JobDigestBuilder :=
  b.number (if value then 1 else 0)

def text (b : JobDigestBuilder) (value : String) : JobDigestBuilder :=
  let bytes := value.toUTF8.data.toList
  ⟨(b.number (UInt64.ofNat bytes.length)).digest.update bytes⟩

def header (job : Job) (count : Nat) : JobDigestBuilder :=
  (((((({} : JobDigestBuilder).text job.jobId).text job.profile).text job.mode).number
    job.totalDurationNs).flag job.allowFrequencyAdjustment).number (UInt64.ofNat count)

def append (b : JobDigestBuilder) (event : RfEvent) : JobDigestBuilder :=
  ((((b.number event.offsetNs).number event.durationNs).flag event.rfOn).flag
    event.frequencyNhz.isSome).number (event.frequencyNhz.getD 0)

end JobDigestBuilder

def jobDigest (job : Job) : PayloadDigest :=
  (job.events.events.foldl JobDigestBuilder.append
    (JobDigestBuilder.header job job.events.size)).digest.finish

end WsprryPico.Wtp
