import Acropolis.Python.Value

/-!
# SHA-256 as a streaming hash object

`Hasher` is the contract `compute_sha256` relies on: a `hashlib` object whose
state after two updates is its state after one update with both pieces.
`Sha256.hasher` is FIPS 180-4 SHA-256 with the state `hashlib` keeps between
updates (the chaining value, the bytes of an unfinished block, the total
length); whole blocks are compressed as soon as they are complete, which is
why the contract holds of it.
-/

namespace Acropolis.Manifest

/-- A `hashlib` hash object. The laws are the incremental contract: feeding two
pieces in turn is feeding their concatenation, and feeding nothing changes
nothing. -/
structure Hasher where
  State : Type
  init : State
  update : State → List UInt8 → State
  hexdigest : State → String
  update_append : ∀ s a b, update (update s a) b = update s (a ++ b)
  update_nil : ∀ s, update s [] = s

/-- `hashlib.sha256(data).hexdigest()`. -/
def Hasher.digest (H : Hasher) (data : List UInt8) : String :=
  H.hexdigest (H.update H.init data)

namespace Sha256

open Acropolis.Python

def roundConstants : List UInt32 :=
  [0x428a2f98, 0x71374491, 0xb5c0fbcf, 0xe9b5dba5, 0x3956c25b, 0x59f111f1, 0x923f82a4, 0xab1c5ed5,
   0xd807aa98, 0x12835b01, 0x243185be, 0x550c7dc3, 0x72be5d74, 0x80deb1fe, 0x9bdc06a7, 0xc19bf174,
   0xe49b69c1, 0xefbe4786, 0x0fc19dc6, 0x240ca1cc, 0x2de92c6f, 0x4a7484aa, 0x5cb0a9dc, 0x76f988da,
   0x983e5152, 0xa831c66d, 0xb00327c8, 0xbf597fc7, 0xc6e00bf3, 0xd5a79147, 0x06ca6351, 0x14292967,
   0x27b70a85, 0x2e1b2138, 0x4d2c6dfc, 0x53380d13, 0x650a7354, 0x766a0abb, 0x81c2c92e, 0x92722c85,
   0xa2bfe8a1, 0xa81a664b, 0xc24b8b70, 0xc76c51a3, 0xd192e819, 0xd6990624, 0xf40e3585, 0x106aa070,
   0x19a4c116, 0x1e376c08, 0x2748774c, 0x34b0bcb5, 0x391c0cb3, 0x4ed8aa4a, 0x5b9cca4f, 0x682e6ff3,
   0x748f82ee, 0x78a5636f, 0x84c87814, 0x8cc70208, 0x90befffa, 0xa4506ceb, 0xbef9a3f7, 0xc67178f2]

def initialHash : List UInt32 :=
  [0x6a09e667, 0xbb67ae85, 0x3c6ef372, 0xa54ff53a, 0x510e527f, 0x9b05688c, 0x1f83d9ab, 0x5be0cd19]

def rotr (x : UInt32) (n : UInt32) : UInt32 := (x >>> n) ||| (x <<< (32 - n))

def bigSigma0 (x : UInt32) : UInt32 := rotr x 2 ^^^ rotr x 13 ^^^ rotr x 22
def bigSigma1 (x : UInt32) : UInt32 := rotr x 6 ^^^ rotr x 11 ^^^ rotr x 25
def smallSigma0 (x : UInt32) : UInt32 := rotr x 7 ^^^ rotr x 18 ^^^ (x >>> 3)
def smallSigma1 (x : UInt32) : UInt32 := rotr x 17 ^^^ rotr x 19 ^^^ (x >>> 10)
def ch (e f g : UInt32) : UInt32 := (e &&& f) ^^^ (~~~e &&& g)
def maj (a b c : UInt32) : UInt32 := (a &&& b) ^^^ (a &&& c) ^^^ (b &&& c)

/-- The big-endian words of a block. -/
def blockWords : List UInt8 → List UInt32
  | b0 :: b1 :: b2 :: b3 :: rest =>
    (b0.toUInt32 <<< 24 ||| b1.toUInt32 <<< 16 ||| b2.toUInt32 <<< 8 ||| b3.toUInt32) ::
      blockWords rest
  | _ => []

/-- One more word of the message schedule (§6.2.2, step 1). -/
def extend (w : List UInt32) : List UInt32 :=
  let t := w.length
  w ++ [smallSigma1 (w.getD (t - 2) 0) + w.getD (t - 7) 0 + smallSigma0 (w.getD (t - 15) 0) +
    w.getD (t - 16) 0]

def schedule (block : List UInt8) : List UInt32 := Nat.iterate extend 48 (blockWords block)

/-- One round on the working variables `a, …, h`. -/
def round (v : List UInt32) (k w : UInt32) : List UInt32 :=
  match v with
  | [a, b, c, d, e, f, g, h] =>
    let t1 := h + bigSigma1 e + ch e f g + k + w
    let t2 := bigSigma0 a + maj a b c
    [t1 + t2, a, b, c, d + t1, e, f, g]
  | _ => v

/-- The compression function on one 64-byte block. -/
def compress (chain : List UInt32) (block : List UInt8) : List UInt32 :=
  let final := (roundConstants.zip (schedule block)).foldl (fun v kw => round v kw.1 kw.2) chain
  List.zipWith (· + ·) chain final

/-- Compress every complete block of `data`; return the chain and the rest. -/
def absorb (chain : List UInt32) (data : List UInt8) : List UInt32 × List UInt8 :=
  if 64 ≤ data.length then absorb (compress chain (data.take 64)) (data.drop 64)
  else (chain, data)
termination_by data.length

theorem absorb_remainder_lt (chain : List UInt32) (data : List UInt8) :
    (absorb chain data).2.length < 64 := by
  induction chain, data using absorb.induct with
  | case1 chain data full inductionHypothesis => rwa [absorb, if_pos full]
  | case2 chain data short => rw [absorb, if_neg short]; exact Nat.lt_of_not_le short

theorem absorb_append (chain : List UInt32) (x y : List UInt8) :
    absorb chain (x ++ y) = absorb (absorb chain x).1 ((absorb chain x).2 ++ y) := by
  induction chain, x using absorb.induct with
  | case1 chain x full inductionHypothesis =>
      have step : absorb chain x = absorb (compress chain (x.take 64)) (x.drop 64) := by
        rw [absorb, if_pos full]
      have stepAppend : absorb chain (x ++ y) =
          absorb (compress chain ((x ++ y).take 64)) ((x ++ y).drop 64) := by
        rw [absorb, if_pos (by simp; omega)]
      rw [stepAppend, step, List.take_append_of_le_length full,
        List.drop_append_of_le_length full, inductionHypothesis]
  | case2 chain x short =>
      have done : absorb chain x = (chain, x) := by rw [absorb, if_neg short]
      rw [done]

/-- The hash object between updates. An unfinished block is shorter than a block. -/
structure State where
  chain : List UInt32
  buffer : List UInt8
  length : Nat
  buffer_lt : buffer.length < 64

def update (s : State) (data : List UInt8) : State where
  chain := (absorb s.chain (s.buffer ++ data)).1
  buffer := (absorb s.chain (s.buffer ++ data)).2
  length := s.length + data.length
  buffer_lt := absorb_remainder_lt _ _

/-- The big-endian bytes of the low `n` bytes of `v`. -/
def bigEndian (n v : Nat) : List UInt8 :=
  (List.range n).reverse.map fun i => UInt8.ofNat (v / 256 ^ i)

/-- Padding (§5.1.1): `0x80`, zeros up to 56 mod 64, the bit length. -/
def padding (s : State) : List UInt8 :=
  0x80 :: List.replicate ((119 - s.buffer.length) % 64) 0 ++ bigEndian 8 (8 * s.length % 2 ^ 64)

def hexdigest (s : State) : String :=
  bytesHex ((absorb s.chain (s.buffer ++ padding s)).1.flatMap fun w => bigEndian 4 w.toNat)

def init : State := ⟨initialHash, [], 0, by decide⟩

theorem update_update (s : State) (a b : List UInt8) : update (update s a) b = update s (a ++ b) := by
  have blocks := absorb_append s.chain (s.buffer ++ a) b
  rw [List.append_assoc] at blocks
  simp only [update, State.mk.injEq, blocks, List.length_append, Nat.add_assoc, and_self]

theorem update_nil (s : State) : update s [] = s := by
  obtain ⟨chain, buffer, length, buffer_lt⟩ := s
  have unchanged : absorb chain buffer = (chain, buffer) := by
    rw [absorb, if_neg (by omega)]
  simp only [update, State.mk.injEq, List.append_nil, unchanged, List.length_nil, Nat.add_zero,
    and_self]

/-- `hashlib.sha256`. -/
def hasher : Hasher where
  State := State
  init := init
  update := update
  hexdigest := hexdigest
  update_append := update_update
  update_nil := update_nil

end Sha256

end Acropolis.Manifest
