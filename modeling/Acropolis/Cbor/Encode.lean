import Acropolis.Cbor.Decode

/-!
# `cbor2.dump`

The bytes `cbor2.dump` writes for the objects `generate_cbor_fixtures.py` builds:
`None`, booleans, integers, byte and text strings, lists and dicts. A length or
an integer takes the shortest of the five argument widths, an integer beyond 64
bits is a bignum (tag 2 or 3) of its big-endian bytes, a text string is its
UTF-8, and a dict keeps its insertion order.

`cbor2.load` reads back what `cbor2.dump` writes (`load_dumps`), when the
nesting fits its recursion limit, whatever bytes follow.
-/

namespace Acropolis.Cbor

open Acropolis.Python

/-- The `n` low bytes of `v`, most significant first: `struct.pack` of an
unsigned field. -/
def bigEndian : Nat → Nat → List UInt8
  | 0, _ => []
  | n + 1, v => UInt8.ofNat (v / 256 ^ n % 256) :: bigEndian n v

/-- `encode_length(major, n)`: the initial byte and the shortest argument; `none`
above 64 bits, where `struct.pack` raises. -/
def encodeHead (major n : Nat) : Option (List UInt8) :=
  if n < 24 then some [UInt8.ofNat (major * 32 + n)]
  else if n < 2 ^ 8 then some (UInt8.ofNat (major * 32 + 24) :: bigEndian 1 n)
  else if n < 2 ^ 16 then some (UInt8.ofNat (major * 32 + 25) :: bigEndian 2 n)
  else if n < 2 ^ 32 then some (UInt8.ofNat (major * 32 + 26) :: bigEndian 4 n)
  else if n < 2 ^ 64 then some (UInt8.ofNat (major * 32 + 27) :: bigEndian 8 n)
  else none

/-- The UTF-8 of a character (RFC 3629). -/
def utf8Encode (c : Char) : List UInt8 :=
  let n := c.toNat
  if n < 0x80 then [UInt8.ofNat n]
  else if n < 0x800 then [UInt8.ofNat (0xC0 + n / 64), UInt8.ofNat (0x80 + n % 64)]
  else if n < 0x10000 then
    [UInt8.ofNat (0xE0 + n / 4096), UInt8.ofNat (0x80 + n / 64 % 64), UInt8.ofNat (0x80 + n % 64)]
  else
    [UInt8.ofNat (0xF0 + n / 262144), UInt8.ofNat (0x80 + n / 4096 % 64),
      UInt8.ofNat (0x80 + n / 64 % 64), UInt8.ofNat (0x80 + n % 64)]

/-- `value.encode("utf-8")` -/
def utf8Bytes (s : String) : List UInt8 := s.data.flatMap utf8Encode

/-- The base-256 digits of `value`, `fuel` of them at most. -/
def byteLength : Nat → Nat → Nat
  | 0, _ => 0
  | fuel + 1, value => if value = 0 then 0 else byteLength fuel (value / 256) + 1

/-- `value.to_bytes((value.bit_length() + 7) // 8, "big")`: as many bytes as
`value` has base-256 digits. -/
def toBytes (value : Nat) : List UInt8 := bigEndian (byteLength value value) value

/-- `encode_semantic(CBORTag(tag, payload))` for a bignum's payload. -/
def encodeBignum (tag value : Nat) : Option (List UInt8) := do
  let tagHead ← encodeHead 6 tag
  let lengthHead ← encodeHead 2 (toBytes value).length
  pure (tagHead ++ lengthHead ++ toBytes value)

/-- `encode_int`: beyond 64 bits a bignum, otherwise major type 0 or 1. -/
def encodeInt (i : Int) : Option (List UInt8) :=
  if 2 ^ 64 ≤ i then encodeBignum 2 i.toNat
  else if i < -2 ^ 64 then encodeBignum 3 (-1 - i).toNat
  else if 0 ≤ i then encodeHead 0 i.toNat
  else encodeHead 1 (-1 - i).toNat

mutual
/-- `cbor2.dumps(value)` for `None`, booleans, integers, byte and text strings,
lists and dicts; `none` for the other objects, which this model does not write,
and for a length beyond 64 bits. -/
def dumps : PyVal → Option (List UInt8)
  | .none => some [0xF6]
  | .bool false => some [0xF4]
  | .bool true => some [0xF5]
  | .int i => encodeInt i
  | .bytes b => (encodeHead 2 b.length).map (· ++ b)
  | .str s => (encodeHead 3 (utf8Bytes s).length).map (· ++ utf8Bytes s)
  | .list items => do
    let head ← encodeHead 4 items.length
    let body ← dumpsItems items
    pure (head ++ body)
  | .dict entries => do
    let head ← encodeHead 5 entries.length
    let body ← dumpsEntries entries
    pure (head ++ body)
  | _ => none

/-- The items of a list, one after another. -/
def dumpsItems : List PyVal → Option (List UInt8)
  | [] => some []
  | x :: xs => do
    let first ← dumps x
    let more ← dumpsItems xs
    pure (first ++ more)

/-- The entries of a dict in insertion order, each key before its value. -/
def dumpsEntries : List (PyVal × PyVal) → Option (List UInt8)
  | [] => some []
  | (k, v) :: rest => do
    let key ← dumps k
    let value ← dumps v
    let more ← dumpsEntries rest
    pure (key ++ value ++ more)
end

/-- `value` decodes within `depth` levels: a list or a dict takes one level more
than its items, and a bignum's bytes sit one level below its tag. -/
def fitsIn : Nat → PyVal → Bool
  | 0, _ => false
  | d + 1, .list items => items.all (fitsIn d)
  | d + 1, .dict entries => entries.all fun e => fitsIn d e.1 && fitsIn d e.2
  | d + 1, .int i => (-2 ^ 64 ≤ i && i < 2 ^ 64) || d ≠ 0
  | _ + 1, _ => true

theorem toNat_ofNat_small {n : Nat} (small : n < 256) : (UInt8.ofNat n).toNat = n :=
  UInt8.toNat_ofNat_of_lt small

theorem readUInt_bigEndian (k v : Nat) (rest : List UInt8) :
    readUInt k (bigEndian k v ++ rest) = .ok (v % 256 ^ k, rest) := by
  induction k with
  | zero => simp [readUInt, bigEndian, Nat.mod_one]
  | succ k inductionHypothesis =>
    rw [bigEndian, List.cons_append, readUInt, inductionHypothesis,
      toNat_ofNat_small (Nat.mod_lt _ (by decide)), Nat.mod_pow_succ]
    simp only [bind, Except.bind, pure, Except.pure]
    rw [Nat.add_comm, Nat.mul_comm]

theorem readArgument_wide {info : Nat} (wide : 24 ≤ info ∧ info ≤ 27) {n : Nat}
    (fits : n < 256 ^ 2 ^ (info - 24)) (rest : List UInt8) :
    readArgument info (bigEndian (2 ^ (info - 24)) n ++ rest) = .ok (some n, rest) := by
  rw [readArgument, if_neg (by omega), if_neg (by omega), if_pos wide.2, readUInt_bigEndian,
    Nat.mod_eq_of_lt fits]
  rfl

theorem readArgument_encodeHead {major n : Nat} {head : List UInt8} (small : major < 8)
    (written : encodeHead major n = some head) (rest : List UInt8) :
    ∃ b more, head = b :: more ∧ b.toNat / 32 = major ∧
      readArgument (b.toNat % 32) (more ++ rest) = .ok (some n, rest) := by
  have info : ∀ k, k < 32 → (major * 32 + k) % 32 = k := fun k below => by omega
  unfold encodeHead at written
  split_ifs at written with h24 h8 h16 h32 h64 <;> cases written <;>
    refine ⟨_, _, rfl, by rw [toNat_ofNat_small (by omega)]; omega, ?_⟩ <;>
    rw [toNat_ofNat_small (by omega), info _ (by omega)]
  · exact if_pos h24
  · exact readArgument_wide (by decide) (by norm_num; omega) rest
  · exact readArgument_wide (by decide) (by norm_num; omega) rest
  · exact readArgument_wide (by decide) (by norm_num; omega) rest
  · exact readArgument_wide (by decide) (by norm_num; omega) rest

theorem utf8Decode_one {n : Nat} (small : n < 0x80) (rest : List UInt8) :
    utf8Decode (UInt8.ofNat n :: rest) = (Char.ofNat n :: ·) <$> utf8Decode rest := by
  rw [utf8Decode.eq_def]
  simp only [toNat_ofNat_small (by omega : n < 256)]
  rw [if_pos small]

theorem utf8Decode_two {q r : Nat} (lead : 2 ≤ q ∧ q < 32) (low : r < 64) (rest : List UInt8) :
    utf8Decode (UInt8.ofNat (0xC0 + q) :: UInt8.ofNat (0x80 + r) :: rest) =
      (Char.ofNat (q * 64 + r) :: ·) <$> utf8Decode rest := by
  rw [utf8Decode.eq_def]
  simp only
      [toNat_ofNat_small (by omega : 0xC0 + q < 256), toNat_ofNat_small (by omega : 0x80 + r < 256),
    isContinuation, Bool.and_eq_true, decide_eq_true_eq]
  rw [if_neg (by omega), if_pos (by omega), if_pos (by omega),
    show 0xC0 + q - 0xC0 = q by omega, show 0x80 + r - 0x80 = r by omega]

theorem utf8Decode_three {q m r : Nat} (lead : q < 16) (middle : m < 64) (low : r < 64)
    (notOverlong : q = 0 → 32 ≤ m) (notSurrogate : q = 13 → m < 32) (rest : List UInt8) :
    utf8Decode (UInt8.ofNat (0xE0 + q) :: UInt8.ofNat (0x80 + m) :: UInt8.ofNat (0x80 + r) :: rest) =
      (Char.ofNat (q * 4096 + m * 64 + r) :: ·) <$> utf8Decode rest := by
  rw [utf8Decode.eq_def]
  simp only
      [toNat_ofNat_small (by omega : 0xE0 + q < 256), toNat_ofNat_small (by omega : 0x80 + m < 256),
    toNat_ofNat_small (by omega : 0x80 + r < 256), isContinuation, Bool.and_eq_true,
        decide_eq_true_eq]
  rw [if_neg (by omega), if_neg (by omega), if_pos (by omega), if_pos (by split_ifs <;> omega),
    show 0xE0 + q - 0xE0 = q by omega, show 0x80 + m - 0x80 = m by omega,
    show 0x80 + r - 0x80 = r by omega]

theorem utf8Decode_four {q m k r : Nat} (lead : q < 5) (upper : m < 64) (middle : k < 64)
    (low : r < 64) (notOverlong : q = 0 → 16 ≤ m) (notBeyond : q = 4 → m < 16) (rest : List UInt8) :
    utf8Decode (UInt8.ofNat (0xF0 + q) :: UInt8.ofNat (0x80 + m) :: UInt8.ofNat (0x80 + k) ::
        UInt8.ofNat (0x80 + r) :: rest) =
      (Char.ofNat (q * 262144 + m * 4096 + k * 64 + r) :: ·) <$> utf8Decode rest := by
  rw [utf8Decode.eq_def]
  simp only
      [toNat_ofNat_small (by omega : 0xF0 + q < 256), toNat_ofNat_small (by omega : 0x80 + m < 256),
    toNat_ofNat_small (by omega : 0x80 + k < 256), toNat_ofNat_small (by omega : 0x80 + r < 256),
    isContinuation, Bool.and_eq_true, decide_eq_true_eq]
  rw [if_neg (by omega), if_neg (by omega), if_neg (by omega), if_pos (by split_ifs <;> omega),
    show 0xF0 + q - 0xF0 = q by omega, show 0x80 + m - 0x80 = m by omega,
    show 0x80 + k - 0x80 = k by omega, show 0x80 + r - 0x80 = r by omega]

theorem utf8Decode_utf8Encode (c : Char) (rest : List UInt8) :
    utf8Decode (utf8Encode c ++ rest) = (c :: ·) <$> utf8Decode rest := by
  have scalar : c.toNat < 0xD800 ∨ (0xDFFF < c.toNat ∧ c.toNat < 0x110000) := c.valid
  have back : Char.ofNat c.toNat = c := Char.ofNat_toNat c
  unfold utf8Encode
  dsimp only
  split_ifs with one two three <;> simp only [List.cons_append, List.nil_append]
  · rw [utf8Decode_one one, back]
  · rw [utf8Decode_two (by omega) (Nat.mod_lt _ (by decide)),
      show c.toNat / 64 * 64 + c.toNat % 64 = c.toNat by omega, back]
  · rw [utf8Decode_three (by omega) (Nat.mod_lt _ (by decide)) (Nat.mod_lt _ (by decide)) (by omega)
      (by omega),
      show c.toNat / 4096 * 4096 + c.toNat / 64 % 64 * 64 + c.toNat % 64 = c.toNat by omega,
      back]
  · rw [utf8Decode_four (by omega) (Nat.mod_lt _ (by decide)) (Nat.mod_lt _ (by decide))
      (Nat.mod_lt _ (by decide)) (by omega) (by omega), show c.toNat / 262144 * 262144 +
      c.toNat / 4096 % 64 * 4096 + c.toNat / 64 % 64 * 64 + c.toNat % 64 = c.toNat by omega, back]

theorem utf8Decode_encode (cs : List Char) : utf8Decode (cs.flatMap utf8Encode) = some cs := by
  induction cs with
  | nil => rfl
  | cons c cs inductionHypothesis =>
    rw [List.flatMap_cons, utf8Decode_utf8Encode, inductionHypothesis]
    rfl

theorem foldl_bigEndian (k v acc : Nat) :
    (bigEndian k v).foldl (fun acc byte => 256 * acc + byte.toNat) acc =
        acc * 256 ^ k + v % 256 ^ k := by
  induction k generalizing acc with
  | zero => simp [bigEndian, Nat.mod_one]
  | succ k inductionHypothesis =>
    rw [bigEndian, List.foldl_cons, inductionHypothesis,
        toNat_ofNat_small (Nat.mod_lt _ (by decide)),
      Nat.mod_pow_succ, Nat.pow_succ]
    ring

theorem lt_pow_byteLength : ∀ (fuel value : Nat), value ≤ fuel → value < 256 ^ byteLength fuel value
  | 0, value, small => by simp only [byteLength, Nat.pow_zero]; omega
  | fuel + 1, value, small => by
    rw [byteLength]
    split_ifs with zero
    · simp [zero]
    · have higher := lt_pow_byteLength fuel (value / 256) (by omega)
      rw [Nat.pow_succ]
      omega

theorem bignum_toBytes (value : Nat) : bignum (toBytes value) = value := by
  rw [bignum, toBytes, foldl_bigEndian, Nat.mod_eq_of_lt (lt_pow_byteLength value value le_rfl),
    Nat.zero_mul, Nat.zero_add]

theorem toBytes_ne_nil {value : Nat} (positive : 0 < value) : toBytes value ≠ [] := by
  obtain ⟨v, rfl⟩ := Nat.exists_eq_succ_of_ne_zero (Nat.pos_iff_ne_zero.mp positive)
  rw [toBytes, byteLength, if_neg (Nat.succ_ne_zero v), bigEndian]
  exact List.cons_ne_nil _ _

theorem decodeSemantic_bignum {b : List UInt8} (nonempty : b ≠ []) :
    decodeSemantic 2 (.bytes b) = .ok (.int (bignum b)) ∧
      decodeSemantic 3 (.bytes b) = .ok (.int (-1 - (bignum b : Int))) := by
  obtain ⟨c, cs, rfl⟩ := List.exists_cons_of_ne_nil nonempty
  exact ⟨rfl, rfl⟩

theorem readBytes_append (payload rest : List UInt8) :
    readBytes payload.length (payload ++ rest) = .ok (payload, rest) := by
  simp [readBytes]

theorem decodeItem_bytes (depth : Nat) {payload head : List UInt8}
    (written : encodeHead 2 payload.length = some head) (rest : List UInt8) :
    decodeItem (depth + 1) (head ++ (payload ++ rest)) = .ok (.bytes payload, rest) := by
  obtain ⟨b, more, rfl, major, arg⟩ := readArgument_encodeHead (by decide) written (payload ++ rest)
  rw [List.cons_append, decodeItem]
  simp [major, arg, Except.map, readBytes_append, bind, Except.bind, pure, Except.pure]

theorem join_singleton (s : String) : String.join [s] = s := by
  simp [String.join]

theorem decodeItem_str (depth : Nat) {s : String} {head : List UInt8}
    (written : encodeHead 3 (utf8Bytes s).length = some head) (rest : List UInt8) :
    decodeItem (depth + 1) (head ++ (utf8Bytes s ++ rest)) = .ok (.str s, rest) := by
  obtain ⟨b, more, rfl, major, arg⟩ := readArgument_encodeHead (by decide)
      written (utf8Bytes s ++ rest)
  rw [List.cons_append, decodeItem]
  have decoded : utf8Decode (utf8Bytes s) = some s.data := utf8Decode_encode s.data
  simp [major, arg, Except.map, readBytes_append, bind, Except.bind, pure, Except.pure, decodeText,
    decoded, join_singleton, List.mapM.loop]

/-- What `dumps` writes at `depth` or less reads back, whatever follows it. -/
def RoundTrips (depth : Nat) : Prop :=
  ∀ v bs, dumps v = some bs → fitsIn depth v = true →
    ∀ rest, decodeItem depth (bs ++ rest) = .ok (v, rest)

theorem readItems_dumpsItems {depth : Nat} (items : RoundTrips depth) :
    ∀ (xs : List PyVal) {body : List UInt8}, dumpsItems xs = some body →
      xs.all (fitsIn depth) = true →
      ∀ rest, readItems (decodeItem depth) xs.length (body ++ rest) = .ok (xs, rest)
  | [], body, written, _, rest => by
    cases written
    rfl
  | x :: xs, body, written, fits, rest => by
    simp only [dumpsItems, Option.bind_eq_bind, Option.bind_eq_some, Option.pure_def,
      Option.some.injEq] at written
    obtain ⟨first, wroteFirst, more, wroteMore, rfl⟩ := written
    simp only [List.all_cons, Bool.and_eq_true] at fits
    rw [List.length_cons, readItems, List.append_assoc, items x first wroteFirst fits.1]
    simp only [bind, Except.bind]
    rw [readItems_dumpsItems items xs wroteMore fits.2]
    rfl

mutual
theorem holdsTag_of_dumps : ∀ {v : PyVal} {bs : List UInt8}, dumps v = some bs → holdsTag v = false
  | .none, _, _ | .bool _, _, _ | .int _, _, _ | .bytes _, _, _ | .str _, _, _ => rfl
  | .list items, _, written => by
    simp only [dumps, Option.bind_eq_bind, Option.bind_eq_some, Option.pure_def] at written
    obtain ⟨_, -, _, wroteBody, -⟩ := written
    rw [holdsTag, itemsHoldTag_of_dumpsItems wroteBody]
  | .dict entries, _, written => by
    simp only [dumps, Option.bind_eq_bind, Option.bind_eq_some, Option.pure_def] at written
    obtain ⟨_, -, _, wroteBody, -⟩ := written
    rw [holdsTag, entriesHoldTag_of_dumpsEntries wroteBody]
  | .float _, _, written | .undefined, _, written | .simple _, _, written
  | .breakMarker, _, written | .tag _ _, _, written => by cases written

theorem itemsHoldTag_of_dumpsItems :
    ∀ {xs : List PyVal} {bs : List UInt8}, dumpsItems xs = some bs → itemsHoldTag xs = false
  | [], _, _ => rfl
  | _ :: _, _, written => by
    simp only [dumpsItems, Option.bind_eq_bind, Option.bind_eq_some, Option.pure_def] at written
    obtain ⟨_, wroteFirst, _, wroteMore, -⟩ := written
    rw [itemsHoldTag, holdsTag_of_dumps wroteFirst, itemsHoldTag_of_dumpsItems wroteMore]
    rfl

theorem entriesHoldTag_of_dumpsEntries :
    ∀ {entries : List (PyVal × PyVal)} {bs : List UInt8}, dumpsEntries entries = some bs →
      entriesHoldTag entries = false
  | [], _, _ => rfl
  | (_, _) :: _, _, written => by
    simp only [dumpsEntries, Option.bind_eq_bind, Option.bind_eq_some, Option.pure_def] at written
    obtain ⟨_, wroteKey, _, wroteValue, _, wroteMore, -⟩ := written
    rw [entriesHoldTag, holdsTag_of_dumps wroteKey, holdsTag_of_dumps wroteValue,
      entriesHoldTag_of_dumpsEntries wroteMore]
    rfl
end

theorem readEntries_dumpsEntries {depth : Nat} (items : RoundTrips depth) :
    ∀ (entries : List (PyVal × PyVal)) {body : List UInt8}, dumpsEntries entries = some body →
      entries.all (fun e => fitsIn depth e.1 && fitsIn depth e.2) = true → ∀ rest,
      readEntries (decodeItem depth) entries.length (body ++ rest) = .ok (entries, rest)
  | [], body, written, _, rest => by
    cases written
    rfl
  | (k, v) :: more, body, written, fits, rest => by
    simp only [dumpsEntries, Option.bind_eq_bind, Option.bind_eq_some, Option.pure_def,
      Option.some.injEq] at written
    obtain ⟨key, wroteKey, value, wroteValue, others, wroteOthers, rfl⟩ := written
    simp only [List.all_cons, Bool.and_eq_true] at fits
    rw [List.length_cons, readEntries, List.append_assoc, List.append_assoc,
      items k key wroteKey fits.1.1]
    simp only [bind, Except.bind]
    rw [items v value wroteValue fits.1.2]
    simp only [bind, Except.bind, entry, holdsTag_of_dumps wroteKey]
    rw [readEntries_dumpsEntries items more wroteOthers fits.2]
    rfl

theorem decodeItem_encodeBignum (inner : Nat) {tag value : Nat} {bs : List UInt8}
    (isBignum : tag = 2 ∨ tag = 3) (written : encodeBignum tag value = some bs)
    (rest : List UInt8) :
    decodeItem (inner + 2) (bs ++ rest) =
      (decodeSemantic tag (.bytes (toBytes value))).map (·, rest) := by
  simp only [encodeBignum, Option.bind_eq_bind, Option.bind_eq_some, Option.pure_def,
    Option.some.injEq] at written
  obtain ⟨tagHead, wroteTag, lengthHead, wroteLength, rfl⟩ := written
  obtain ⟨b, more, rfl, major, arg⟩ :=
    readArgument_encodeHead (by decide) wroteTag (lengthHead ++ (toBytes value ++ rest))
  have modelled : ¬(tag = 28 ∨ tag = 256) := by omega
  rw [List.append_assoc, List.append_assoc, List.cons_append, decodeItem]
  simp [major, readLength, arg, decodeItem_bytes inner wroteLength rest, modelled,
    bind, Except.bind, pure, Except.pure]
  cases decodeSemantic tag (.bytes (toBytes value)) <;> rfl

theorem decodeItem_int {depth : Nat} {i : Int} {bs : List UInt8} (written : encodeInt i = some bs)
    (fits : fitsIn (depth + 1) (.int i) = true) (rest : List UInt8) :
    decodeItem (depth + 1) (bs ++ rest) = .ok (.int i, rest) := by
  unfold encodeInt at written
  simp only [fitsIn, Bool.or_eq_true, Bool.and_eq_true, decide_eq_true_eq, ne_eq] at fits
  split_ifs at written with big small nonneg
  · obtain ⟨inner, rfl⟩ : ∃ inner, depth = inner + 1 := Nat.exists_eq_succ_of_ne_zero (by omega)
    rw [decodeItem_encodeBignum inner (.inl rfl) written,
      (decodeSemantic_bignum (toBytes_ne_nil (by omega))).1, bignum_toBytes,
      Int.toNat_of_nonneg (by omega)]
    rfl
  · obtain ⟨inner, rfl⟩ : ∃ inner, depth = inner + 1 := Nat.exists_eq_succ_of_ne_zero (by omega)
    rw [decodeItem_encodeBignum inner (.inr rfl) written,
      (decodeSemantic_bignum (toBytes_ne_nil (by omega))).2, bignum_toBytes,
      Int.toNat_of_nonneg (by omega), sub_sub_cancel]
    rfl
  · obtain ⟨b, more, rfl, major, arg⟩ := readArgument_encodeHead (by decide) written rest
    rw [List.cons_append, decodeItem]
    simp [major, readLength, arg, Except.map, bind, Except.bind, pure, Except.pure]
    omega
  · obtain ⟨b, more, rfl, major, arg⟩ := readArgument_encodeHead (by decide) written rest
    rw [List.cons_append, decodeItem]
    simp [major, readLength, arg, Except.map, bind, Except.bind, pure, Except.pure]
    omega

/-- `cbor2.load` reads back what `cbor2.dumps` writes, when the nesting fits
the recursion limit, whatever follows it. -/
theorem roundTrips : ∀ depth, RoundTrips depth
  | 0 => fun v bs _ fits => by cases v <;> simp [fitsIn] at fits
  | depth + 1 => by
    intro v bs written fits rest
    have items := roundTrips depth
    cases v with
    | none => cases written; rfl
    | bool b => cases b <;> cases written <;> rfl
    | int i => exact decodeItem_int written fits rest
    | bytes b =>
      obtain ⟨head, wroteHead, rfl⟩ := Option.map_eq_some'.mp written
      rw [List.append_assoc]
      exact decodeItem_bytes depth wroteHead rest
    | str s =>
      obtain ⟨head, wroteHead, rfl⟩ := Option.map_eq_some'.mp written
      rw [List.append_assoc]
      exact decodeItem_str depth wroteHead rest
    | list xs =>
      simp only [dumps, Option.bind_eq_bind, Option.bind_eq_some, Option.pure_def,
        Option.some.injEq] at written
      obtain ⟨head, wroteHead, body, wroteBody, rfl⟩ := written
      obtain ⟨b, more, rfl, major, arg⟩ := readArgument_encodeHead (by decide)
          wroteHead (body ++ rest)
      rw [List.append_assoc, List.cons_append, decodeItem]
      simp [major, arg, readItems_dumpsItems items xs wroteBody fits, bind, Except.bind, pure,
          Except.pure]
    | dict entries =>
      simp only [dumps, Option.bind_eq_bind, Option.bind_eq_some, Option.pure_def,
        Option.some.injEq] at written
      obtain ⟨head, wroteHead, body, wroteBody, rfl⟩ := written
      obtain ⟨b, more, rfl, major, arg⟩ := readArgument_encodeHead (by decide)
          wroteHead (body ++ rest)
      rw [List.append_assoc, List.cons_append, decodeItem]
      simp [major, arg, readEntries_dumpsEntries items entries wroteBody fits, bind,
        Except.bind, pure, Except.pure]
    | float _ | undefined | simple _ | breakMarker | tag _ _ => cases written

/-- `cbor2.load` reads back what `cbor2.dump` wrote, and no byte after it. -/
theorem load_dumps {v : PyVal} {bs : List UInt8} (written : dumps v = some bs) {maxDepth : Nat}
    (fits : fitsIn maxDepth v = true) (rest : List UInt8) : load maxDepth (bs ++ rest) = .ok v := by
  rw [load, roundTrips maxDepth v bs written fits rest]
  rfl

/-- `cbor2.dumps({0: "né", 1: 2**64})`: a two-byte character and a bignum. -/
theorem load_dumps_bignum :
    dumps (.dict [(.int 0, .str "né"), (.int 1, .int (2 ^ 64))]) =
        some [0xA2, 0x00, 0x63, 0x6E, 0xC3, 0xA9, 0x01, 0xC2, 0x49, 0x01, 0, 0, 0, 0, 0, 0, 0, 0] ∧
      fitsIn 3 (.dict [(.int 0, .str "né"), (.int 1, .int (2 ^ 64))]) = true ∧
      load 3 ([0xA2, 0x00, 0x63, 0x6E, 0xC3, 0xA9, 0x01, 0xC2, 0x49, 0x01, 0, 0, 0, 0, 0, 0, 0, 0] ++
        [0xFF]) = .ok (.dict [(.int 0, .str "né"), (.int 1, .int (2 ^ 64))]) :=
  have written : dumps (.dict [(.int 0, .str "né"), (.int 1, .int (2 ^ 64))]) =
      some [0xA2, 0x00, 0x63, 0x6E, 0xC3, 0xA9, 0x01, 0xC2, 0x49, 0x01, 0, 0, 0, 0, 0, 0, 0, 0] := by
    decide
  have fits : fitsIn 3 (.dict [(.int 0, .str "né"), (.int 1, .int (2 ^ 64))]) = true := by decide
  ⟨written, fits, load_dumps written fits [0xFF]⟩

end Acropolis.Cbor
