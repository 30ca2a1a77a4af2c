import Acropolis.Python.Value

/-!
# `cbor2.load`

The first data item of a byte stream (RFC 8949), decoded to the Python object
`cbor2` 5.4 builds; the bytes after it are not read. The model follows that
release's pure-Python decoder, which its C extension mirrors: a break byte out
of place is the `break_marker` object, a simple value is a one-item named tuple,
and an indefinite-length map reads a key, stops if it is the break marker, and
otherwise reads its value, whatever it is.

A tag is decoded by its handler in `semantic_decoders`, and a tag without one
stays a `CBORTag` object. The handlers whose object the model does not build
(dates, decimals, fractions, sets, patterns, MIME messages, UUIDs, IP addresses
and networks, and the shared and string references, which keep decoder state)
give `unmodelled` unless their payload makes them raise in every release, so no
result of the model depends on what they build. A `CBORTag` inside a map key is
`unmodelled` too: whether it hashes changed between releases. Nesting deeper
than the interpreter's recursion limit raises.
-/

namespace Acropolis.Cbor

open Acropolis.Python

/-- Why `cbor2.load` raised, or `unmodelled` where the model does not follow it. -/
inductive CborError where
  | eof
  | reservedInfo
  | indefiniteLength
  | badChunk
  | invalidUtf8
  | badTag
  | recursion
  | unmodelled
  deriving DecidableEq, Repr

/-- An unsigned big-endian integer of `n` bytes. -/
def readUInt : Nat → List UInt8 → Except CborError (Nat × List UInt8)
  | 0, bs => .ok (0, bs)
  | _ + 1, [] => .error .eof
  | n + 1, b :: bs => do
    let (v, rest) ← readUInt n bs
    pure (b.toNat * 256 ^ n + v, rest)

/-- `n` raw bytes. -/
def readBytes (n : Nat) (bs : List UInt8) : Except CborError (List UInt8 × List UInt8) :=
  if n ≤ bs.length then .ok (bs.take n, bs.drop n) else .error .eof

/-- The argument of an initial byte: the additional information itself below 24,
else the 1, 2, 4 or 8 bytes after it; `none` for 31, an indefinite length. -/
def readArgument (info : Nat) (bs : List UInt8) : Except CborError (Option Nat × List UInt8) :=
  if info < 24 then .ok (some info, bs)
  else if info = 31 then .ok (none, bs)
  else if info ≤ 27 then
    (readUInt (2 ^ (info - 24)) bs).map fun (v, rest) => (some v, rest)
  else .error .reservedInfo

/-- A definite argument; an indefinite one is an error here. -/
def readLength (info : Nat) (bs : List UInt8) : Except CborError (Nat × List UInt8) := do
  let (arg, rest) ← readArgument info bs
  match arg with
  | some n => pure (n, rest)
  | none => throw .indefiniteLength

def isContinuation (b : UInt8) : Bool := 0x80 ≤ b.toNat && b.toNat ≤ 0xBF

/-- Strict UTF-8 (RFC 3629), as CPython's codec decodes it: no overlong forms,
no surrogates, nothing above U+10FFFF. -/
def utf8Decode : List UInt8 → Option (List Char)
  | [] => some []
  | b :: rest =>
    if b.toNat < 0x80 then (Char.ofNat b.toNat :: ·) <$> utf8Decode rest
    else match rest with
      | [] => none
      | c1 :: rest1 =>
        if 0xC2 ≤ b.toNat ∧ b.toNat ≤ 0xDF then
          if isContinuation c1 then
            (Char.ofNat ((b.toNat - 0xC0) * 64 + (c1.toNat - 0x80)) :: ·) <$> utf8Decode rest1
          else none
        else match rest1 with
          | [] => none
          | c2 :: rest2 =>
            if 0xE0 ≤ b.toNat ∧ b.toNat ≤ 0xEF then
              let lo := if b.toNat = 0xE0 then 0xA0 else 0x80
              let hi := if b.toNat = 0xED then 0x9F else 0xBF
              if lo ≤ c1.toNat ∧ c1.toNat ≤ hi ∧ isContinuation c2 then
                (Char.ofNat ((b.toNat - 0xE0) * 4096 + (c1.toNat - 0x80) * 64 +
                  (c2.toNat - 0x80)) :: ·) <$> utf8Decode rest2
              else none
            else match rest2 with
              | [] => none
              | c3 :: rest3 =>
                let lo := if b.toNat = 0xF0 then 0x90 else 0x80
                let hi := if b.toNat = 0xF4 then 0x8F else 0xBF
                if 0xF0 ≤ b.toNat ∧ b.toNat ≤ 0xF4 ∧ lo ≤ c1.toNat ∧ c1.toNat ≤ hi ∧
                    isContinuation c2 ∧ isContinuation c3 then
                  (Char.ofNat ((b.toNat - 0xF0) * 262144 + (c1.toNat - 0x80) * 4096 +
                    (c2.toNat - 0x80) * 64 + (c3.toNat - 0x80)) :: ·) <$> utf8Decode rest3
                else none

def decodeText (raw : List UInt8) : Except CborError String :=
  match utf8Decode raw with
  | some cs => .ok (String.mk cs)
  | none => .error .invalidUtf8

/-- The binary64 bits of a binary16 or binary32 value (`width` 16 or 32): the
exponent is rebiased, the fraction widened, and a subnormal normalised. -/
def widenFloat (width bias fracBits : Nat) (h : Nat) : UInt64 :=
  let sign := h / 2 ^ (width - 1)
  let e := h / 2 ^ fracBits % 2 ^ (width - 1 - fracBits)
  let m := h % 2 ^ fracBits
  let top := 2 ^ (width - 1 - fracBits) - 1
  let bits :=
    if e = 0 then
      if m = 0 then 0
      else
        let k := Nat.log2 m
        (k + 1024 - bias - fracBits) * 2 ^ 52 + (m - 2 ^ k) * 2 ^ (52 - k)
    else if e = top then 2047 * 2 ^ 52 + m * 2 ^ (52 - fracBits)
    else (e + 1023 - bias) * 2 ^ 52 + m * 2 ^ (52 - fracBits)
  UInt64.ofNat (sign * 2 ^ 63 + bits)

/-- The chunks of an indefinite-length byte or text string (major type 2 or 3),
each a definite string of the same major type, up to the break byte. -/
def readChunks (major : Nat) :
    Nat → List UInt8 → Except CborError (List (List UInt8) × List UInt8)
  | 0, _ => .error .eof
  | _ + 1, [] => .error .eof
  | fuel + 1, b :: bs =>
    if b.toNat = 0xFF then .ok ([], bs)
    else if b.toNat / 32 = major ∧ b.toNat % 32 ≠ 31 then do
      let (n, bs) ← readLength (b.toNat % 32) bs
      let (chunk, bs) ← readBytes n bs
      let (chunks, bs) ← readChunks major fuel bs
      pure (chunk :: chunks, bs)
    else .error .badChunk

/-- `count` items in a row. -/
def readItems (item : List UInt8 → Except CborError (PyVal × List UInt8)) :
    Nat → List UInt8 → Except CborError (List PyVal × List UInt8)
  | 0, bs => .ok ([], bs)
  | count + 1, bs => do
    let (x, bs) ← item bs
    let (xs, bs) ← readItems item count bs
    pure (x :: xs, bs)

/-- Items up to the break marker: `while True: value = self._decode()`, ending
when `value is break_marker`. Each item takes a byte at least, so `fuel`, the
length of the input, never runs out first. -/
def readItemsUntilBreak (item : List UInt8 → Except CborError (PyVal × List UInt8)) :
    Nat → List UInt8 → Except CborError (List PyVal × List UInt8)
  | 0, _ => .error .eof
  | fuel + 1, bs => do
    let (x, bs) ← item bs
    match x with
    | .breakMarker => pure ([], bs)
    | _ =>
      let (xs, bs) ← readItemsUntilBreak item fuel bs
      pure (x :: xs, bs)

mutual
/-- Whether a `CBORTag` object sits in `v`, at any depth. -/
def holdsTag : PyVal → Bool
  | .tag _ _ => true
  | .list items => itemsHoldTag items
  | .dict entries => entriesHoldTag entries
  | _ => false

def itemsHoldTag : List PyVal → Bool
  | [] => false
  | x :: xs => holdsTag x || itemsHoldTag xs

def entriesHoldTag : List (PyVal × PyVal) → Bool
  | [] => false
  | (k, v) :: es => holdsTag k || holdsTag v || entriesHoldTag es
end

/-- `dictionary[key] = value`, once the value is decoded: a key holding a
`CBORTag` is hashed as its release decides. -/
def entry (key value : PyVal) : Except CborError (PyVal × PyVal) :=
  if holdsTag key then .error .unmodelled else .ok (key, value)

/-- The `count` entries of a definite-length map, each key read before its value. -/
def readEntries (item : List UInt8 → Except CborError (PyVal × List UInt8)) :
    Nat → List UInt8 → Except CborError (List (PyVal × PyVal) × List UInt8)
  | 0, bs => .ok ([], bs)
  | count + 1, bs => do
    let (k, bs) ← item bs
    let (v, bs) ← item bs
    let e ← entry k v
    let (es, bs) ← readEntries item count bs
    pure (e :: es, bs)

/-- The entries of an indefinite-length map: a key, the end if it is the break
marker, else its value, which may be the break marker itself. -/
def readEntriesUntilBreak (item : List UInt8 → Except CborError (PyVal × List UInt8)) :
    Nat → List UInt8 → Except CborError (List (PyVal × PyVal) × List UInt8)
  | 0, _ => .error .eof
  | fuel + 1, bs => do
    let (k, bs) ← item bs
    match k with
    | .breakMarker => pure ([], bs)
    | _ =>
      let (v, bs) ← item bs
      let e ← entry k v
      let (es, bs) ← readEntriesUntilBreak item fuel bs
      pure (e :: es, bs)

/-- A bignum's magnitude (tags 2 and 3): its bytes as a big-endian integer. -/
def bignum (b : List UInt8) : Nat := b.foldl (fun acc byte => 256 * acc + byte.toNat) 0

/-- Whether a text may start an ISO date: an empty text, or one whose first
character is ASCII and not a digit, is refused by every release's tag-0 parser. -/
def maybeDate (s : String) : Bool :=
  match s.data with
  | [] => false
  | c :: _ => c.isDigit || 0x80 ≤ c.toNat

/-- Objects that Python can neither iterate nor take the length of. -/
def scalar : PyVal → Bool
  | .none | .bool _ | .int _ | .float _ | .undefined | .breakMarker | .tag _ _ => true
  | _ => false

/-- `len(v)` of a string, a byte string or a list. -/
def pyLength? : PyVal → Option Nat
  | .str s => some s.length
  | .bytes b => some b.length
  | .list items => some items.length
  | _ => none

/-- `exp, sig = payload` of tags 4 and 5: it raises unless the payload has two
items. -/
def unpackPair (value : PyVal) : Except CborError PyVal :=
  match value with
  | .dict _ => .error .unmodelled
  | _ => if pyLength? value = some 2 then .error .unmodelled else .error .badTag

/-- `decode_semantic` once the payload is decoded: the handler of the tag, if
`semantic_decoders` has one, and otherwise a `CBORTag`. Tags 28 and 256 are
refused before their payload (`decodeItem`); 100 and 1004, dates from release
5.5 on, are left open. -/
def decodeSemantic (tag : Nat) (value : PyVal) : Except CborError PyVal :=
  match tag with
  | 0 =>
    match value with
    | .str s => if maybeDate s then .error .unmodelled else .error .badTag
    | _ => .error .badTag
  | 1 =>
    match value with
    | .int _ | .bool _ | .float _ | .simple _ => .error .unmodelled
    | _ => .error .badTag
  | 2 =>
    match value with
    | .bytes [] => .error .unmodelled
    | .bytes b => .ok (.int (bignum b))
    | _ => .error .badTag
  | 3 =>
    match value with
    | .bytes [] => .error .unmodelled
    | .bytes b => .ok (.int (-1 - (bignum b : Int)))
    | _ => .error .badTag
  | 4 => unpackPair value
  | 5 => unpackPair value
  | 25 => .error .badTag
  | 29 => .error .badTag
  | 30 => if scalar value then .error .badTag else .error .unmodelled
  | 35 =>
    match value with
    | .str _ | .bytes _ => .error .unmodelled
    | _ => .error .badTag
  | 36 =>
    match value with
    | .str _ | .none => .error .unmodelled
    | _ => .error .badTag
  | 37 =>
    match value with
    | .dict _ => .error .unmodelled
    | _ => if pyLength? value = some 16 then .error .unmodelled else .error .badTag
  | 100 => .error .unmodelled
  | 258 => if scalar value then .error .badTag else .error .unmodelled
  | 260 =>
    match value with
    | .bytes b =>
      if b.length = 6 then .ok (.tag 260 (.bytes b))
      else if b.length = 4 ∨ b.length = 16 then .error .unmodelled
      else .error .badTag
    | _ => .error .badTag
  | 261 =>
    match value with
    | .dict [] => .error .badTag
    | .dict _ => .error .unmodelled
    | _ => .error .badTag
  | 1004 => .error .unmodelled
  | 55799 => .ok value
  | _ => .ok (.tag tag value)

/-- The major type 7 values: the four named simple values, other simple values,
floats of three widths, and the break byte. Release 5.4 takes every `f8 xx` as a
simple value and returns the break marker for a break byte; 6.x refuses `f8 xx`
below 32 and a break out of place. -/
def decodeSpecial (info : Nat) (bs : List UInt8) : Except CborError (PyVal × List UInt8) :=
  if info = 20 then .ok (.bool false, bs)
  else if info = 21 then .ok (.bool true, bs)
  else if info = 22 then .ok (.none, bs)
  else if info = 23 then .ok (.undefined, bs)
  else if info < 20 then .ok (.simple info, bs)
  else if info = 24 then (readUInt 1 bs).map fun (v, rest) => (.simple v, rest)
  else if info = 25 then
    (readUInt 2 bs).map fun (v, rest) => (.float ⟨widenFloat 16 15 10 v⟩, rest)
  else if info = 26 then
    (readUInt 4 bs).map fun (v, rest) => (.float ⟨widenFloat 32 127 23 v⟩, rest)
  else if info = 27 then
    (readUInt 8 bs).map fun (v, rest) => (.float ⟨UInt64.ofNat v⟩, rest)
  else if info = 31 then .ok (.breakMarker, bs)
  else .error .reservedInfo

/-- One data item, nested at most `depth` deep. -/
def decodeItem : Nat → List UInt8 → Except CborError (PyVal × List UInt8)
  | 0, _ => .error .recursion
  | _ + 1, [] => .error .eof
  | depth + 1, b :: bs =>
    let major := b.toNat / 32
    let info := b.toNat % 32
    if major = 0 then (readLength info bs).map fun (n, rest) => (.int n, rest)
    else if major = 1 then (readLength info bs).map fun (n, rest) => (.int (-1 - (n : Int)), rest)
    else if major = 2 ∨ major = 3 then do
      let (arg, bs) ← readArgument info bs
      let (chunks, bs) ← match arg with
        | some n => (readBytes n bs).map fun (raw, rest) => ([raw], rest)
        | none => readChunks major (bs.length + 1) bs
      if major = 2 then pure (.bytes chunks.flatten, bs)
      else do
        let texts ← chunks.mapM decodeText
        pure (.str (String.join texts), bs)
    else if major = 4 then do
      let (arg, bs) ← readArgument info bs
      let (items, bs) ← match arg with
        | some n => readItems (decodeItem depth) n bs
        | none => readItemsUntilBreak (decodeItem depth) (bs.length + 1) bs
      pure (.list items, bs)
    else if major = 5 then do
      let (arg, bs) ← readArgument info bs
      let (entries, bs) ← match arg with
        | some n => readEntries (decodeItem depth) n bs
        | none => readEntriesUntilBreak (decodeItem depth) (bs.length + 1) bs
      pure (.dict entries, bs)
    else if major = 6 then do
      let (tag, bs) ← readLength info bs
      if tag = 28 ∨ tag = 256 then throw .unmodelled
      let (value, bs) ← decodeItem depth bs
      let value ← decodeSemantic tag value
      pure (value, bs)
    else decodeSpecial info bs

/-- `cbor2.load(f)`: the first data item of the file's bytes. -/
def load (maxDepth : Nat) (content : List UInt8) : Except CborError PyVal :=
  (decodeItem maxDepth content).map Prod.fst

end Acropolis.Cbor
