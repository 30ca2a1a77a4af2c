import Acropolis.Cbor.Decode
import Acropolis.Manifest.Digest
import Acropolis.Manifest.Filename

/-!
# `generate_manifest`

The manifest takes its identity from the synthetic header when
`parse_cbor_header` recognises one, and otherwise from the overrides, the
file name and defaults. `parse_cbor_header` recognises a header by the
truthiness of three fields; reading the block hash (`.hex()`) and the two
declared counts (`> 0`) comes after its `try` block, so those raise.
-/

namespace Acropolis.Manifest

open Acropolis.Python Acropolis.Cbor

/-- The size above which `parse_cbor_header` does not read the file (64 MiB). -/
def maxHeaderFileSize : Nat := 64 * 1024 * 1024

/-- `header.get(k)`, `None` when no key equals `k`. -/
def getField (entries : List (PyVal × PyVal)) (k : Int) : PyVal := (PyVal.dictGet entries k).getD .none

/-- `header.get(k, 0)`. -/
def getCount (entries : List (PyVal × PyVal)) (k : Int) : PyVal := (PyVal.dictGet entries k).getD (.int 0)

/-- `(declared_gov_actions or 0) > 0 or (declared_param_sets or 0) > 0`: the
second comparison runs only when the first is false. -/
def governancePresent (govActions paramSets : PyVal) : Option Bool :=
  match (PyVal.orZero govActions).gtZero? with
  | some true => some true
  | some false => (PyVal.orZero paramSets).gtZero?
  | none => none

/-- The dict `parse_cbor_header` returns. -/
structure Header where
  version : PyVal
  era : PyVal
  blockHeight : PyVal
  blockHash : String
  governanceSectionPresent : Bool

/-- `parse_cbor_header` once the file has decoded to a list with at least two
items: `none` unless the header is a dict whose era and block hash are truthy and
whose height is not `None`. -/
def readHeader (version header : PyVal) : Except PyError (Option Header) :=
  match header with
  | .dict entries =>
    let era := getField entries 0
    let blockHeight := getField entries 1
    let blockHashBytes := getField entries 2
    if !era.truthy || blockHeight.isNone || !blockHashBytes.truthy then .ok none
    else
      match blockHashBytes.hex? with
      | none => .error .attributeError
      | some blockHash =>
        match governancePresent (getCount entries 4) (getCount entries 5) with
        | none => .error .typeError
        | some governance => .ok (some ⟨version, era, blockHeight, blockHash, governance⟩)
  | _ => .ok none

/-- `parse_cbor_header(file_path, size_bytes)` on a file with these bytes; where
`cbor2` built an object the model does not follow, what follows is not decided. -/
def parseCborHeader (maxDepth : Nat) (content : List UInt8) (sizeBytes : Nat) :
    Except PyError (Option Header) :=
  if sizeBytes > maxHeaderFileSize then .ok none
  else
    match Cbor.load maxDepth content with
    | .error .unmodelled => .error .unmodelled
    | .error _ => .ok none
    | .ok (.list (version :: header :: _)) => readHeader version header
    | .ok _ => .ok none

/-- The four fields the two branches of `generate_manifest` decide. -/
structure Identity where
  era : PyVal
  blockHeight : PyVal
  blockHash : String
  governanceSectionPresent : Bool

def Header.identity (h : Header) : Identity :=
  ⟨h.era, h.blockHeight, h.blockHash, h.governanceSectionPresent⟩

/-- `x or y` on an optional string. -/
def strOr : Option String → String → String
  | some s, y => if s = "" then y else s
  | none, y => y

/-- `x or y` on an optional int. -/
def intOr : Option Int → Int → Int
  | some i, y => if i = 0 then y else i
  | none, y => y

/-- The fallback branch of `generate_manifest`. -/
def fallbackIdentity (u : UnicodeData) (name : String) (eraOpt blockHashOpt : Option String)
    (blockHeightOpt : Option Int) : Identity :=
  let (slotFromName, hashFromName) := deriveFromFilename u name
  { era := .str (strOr eraOpt "conway")
    blockHeight := .int (intOr blockHeightOpt (intOr slotFromName 1))
    blockHash := u.lower (strOr blockHashOpt (strOr hashFromName "unknown"))
    governanceSectionPresent := false }

/-- The manifest dict. -/
structure SnapshotManifest where
  magic : String
  version : String
  era : PyVal
  blockHeight : PyVal
  blockHash : String
  sha256 : String
  createdAt : String
  sizeBytes : Nat
  governanceSectionPresent : Bool

def SnapshotManifest.ofIdentity (i : Identity) (sha256 createdAt : String) (sizeBytes : Nat) :
    SnapshotManifest :=
  ⟨"CARDANO_SNAPSHOT", "1.0.0", i.era, i.blockHeight, i.blockHash, sha256, createdAt, sizeBytes,
    i.governanceSectionPresent⟩

/-- A snapshot file: the last component of its path and its bytes. -/
structure SnapshotFile where
  name : String
  content : List UInt8

/-- `generate_manifest(snapshot_path, era_opt, block_hash_opt, block_height_opt)`,
`file` being `none` when the path does not exist and `createdAt` the clock's
reading. -/
def generateManifest (u : UnicodeData) (H : Hasher) (maxDepth : Nat) (createdAt : String)
    (file : Option SnapshotFile) (eraOpt blockHashOpt : Option String)
    (blockHeightOpt : Option Int) : Except PyError SnapshotManifest := do
  let some file := file | throw .fileNotFound
  let sizeBytes := file.content.length
  let header ← parseCborHeader maxDepth file.content sizeBytes
  let identity := match header with
    | none => fallbackIdentity u file.name eraOpt blockHashOpt blockHeightOpt
    | some header => header.identity
  pure (SnapshotManifest.ofIdentity identity (computeSha256 H file.content) createdAt sizeBytes)

section Lemmas

variable {u : UnicodeData} {H : Hasher} {maxDepth : Nat} {createdAt : String}
  {eraOpt blockHashOpt : Option String} {blockHeightOpt : Option Int}

theorem generateManifest_eq (file : SnapshotFile) :
    generateManifest u H maxDepth createdAt (some file) eraOpt blockHashOpt blockHeightOpt =
      (parseCborHeader maxDepth file.content file.content.length).map fun header =>
        SnapshotManifest.ofIdentity
          (match header with
            | none => fallbackIdentity u file.name eraOpt blockHashOpt blockHeightOpt
            | some header => header.identity)
          (computeSha256 H file.content) createdAt file.content.length := by
  simp only [generateManifest, bind, Except.bind, pure, Except.pure]
  cases parseCborHeader maxDepth file.content file.content.length <;> rfl

/-- The test `parse_cbor_header` applies before it reads any field: a list of at
least two items whose second is a dict, with a truthy era and block hash and a
height that is not `None`. -/
def HeaderShape (data : PyVal) : Prop :=
  ∃ version entries rest, data = .list (version :: .dict entries :: rest) ∧
    (getField entries 0).truthy ∧ !(getField entries 1).isNone ∧ (getField entries 2).truthy

theorem readHeader_of_not_shape {version header : PyVal} {rest : List PyVal}
    (notShape : ¬HeaderShape (.list (version :: header :: rest))) :
    readHeader version header = .ok none := by
  cases header
  case dict entries =>
    have rejected : (!(getField entries 0).truthy || (getField entries 1).isNone ||
        !(getField entries 2).truthy) = true := by
      by_contra passed
      simp only [Bool.not_eq_true, Bool.or_eq_false_iff, Bool.not_eq_false'] at passed
      exact notShape ⟨version, entries, rest, rfl, passed.1.1, by simp [passed.1.2], passed.2⟩
    simp only [readHeader, rejected, if_true]
  all_goals rfl

theorem parseCborHeader_of_not_shape {content : List UInt8} {sizeBytes : Nat}
    (small : sizeBytes ≤ maxHeaderFileSize)
    (modelled : Cbor.load maxDepth content ≠ .error .unmodelled)
    (notShape : ∀ data, Cbor.load maxDepth content = .ok data → ¬HeaderShape data) :
    parseCborHeader maxDepth content sizeBytes = .ok none := by
  unfold parseCborHeader
  rw [if_neg (by omega)]
  split
  · exact absurd ‹_› modelled
  · rfl
  · rename_i version header rest loaded
    exact readHeader_of_not_shape (notShape _ loaded)
  · rfl

theorem parseCborHeader_of_large {content : List UInt8} {sizeBytes : Nat}
    (large : maxHeaderFileSize < sizeBytes) : parseCborHeader maxDepth content sizeBytes = .ok none := by
  simp [parseCborHeader, large]

/-- `v or 0` can be compared with `0`: `v` is falsy or ordered against `int`. -/
def Comparable (v : PyVal) : Prop := v.truthy = false ∨ v.gtZero?.isSome

/-- `v > 0`, false for a value not ordered against `int`. -/
def isPositive (v : PyVal) : Bool := v.gtZero? == some true

theorem isPositive_of_falsy {v : PyVal} (falsy : v.truthy = false) : isPositive v = false := by
  cases v <;> simp_all [isPositive, PyVal.truthy, PyVal.gtZero?, PyFloat.positive]

theorem orZero_gtZero {v : PyVal} (comparable : Comparable v) :
    (PyVal.orZero v).gtZero? = some (isPositive v) := by
  unfold PyVal.orZero
  by_cases truthy : v.truthy
  · obtain ⟨b, hb⟩ := Option.isSome_iff_exists.mp (comparable.resolve_left (by simp [truthy]))
    simp [truthy, hb, isPositive]
  · simp [truthy, PyVal.gtZero?, isPositive_of_falsy (by simpa using truthy)]

theorem governancePresent_of_comparable {govActions paramSets : PyVal}
    (comparableActions : Comparable govActions) (comparableSets : Comparable paramSets) :
    governancePresent govActions paramSets = some (isPositive govActions || isPositive paramSets) := by
  unfold governancePresent
  rw [orZero_gtZero comparableActions]
  cases isPositive govActions
  · simp [orZero_gtZero comparableSets]
  · rfl

theorem parseCborHeader_of_shape {content : List UInt8} {sizeBytes : Nat}
    (small : sizeBytes ≤ maxHeaderFileSize) {version : PyVal} {entries : List (PyVal × PyVal)}
    {rest : List PyVal}
    (loaded : Cbor.load maxDepth content = .ok (.list (version :: .dict entries :: rest)))
    (era : (getField entries 0).truthy) (height : (getField entries 1).isNone = false)
    (hash : (getField entries 2).truthy) {blockHash : String}
    (hex : (getField entries 2).hex? = some blockHash)
    (comparableActions : Comparable (getCount entries 4))
    (comparableSets : Comparable (getCount entries 5)) :
    parseCborHeader maxDepth content sizeBytes =
      .ok (some ⟨version, getField entries 0, getField entries 1, blockHash,
        isPositive (getCount entries 4) || isPositive (getCount entries 5)⟩) := by
  simp only [parseCborHeader, if_neg (Nat.not_lt.mpr small), loaded, readHeader, era, height,
    hash, Bool.not_true, Bool.or_false, Bool.false_or, Bool.false_eq_true, if_false, hex,
    governancePresent_of_comparable comparableActions comparableSets]

theorem generateManifest_of_none {file : SnapshotFile}
    (parsed : parseCborHeader maxDepth file.content file.content.length = .ok none) :
    generateManifest u H maxDepth createdAt (some file) eraOpt blockHashOpt blockHeightOpt =
      .ok (SnapshotManifest.ofIdentity (fallbackIdentity u file.name eraOpt blockHashOpt blockHeightOpt)
        (computeSha256 H file.content) createdAt file.content.length) := by
  rw [generateManifest_eq, parsed]; rfl

theorem generateManifest_of_some {file : SnapshotFile} {header : Header}
    (parsed : parseCborHeader maxDepth file.content file.content.length = .ok (some header)) :
    generateManifest u H maxDepth createdAt (some file) eraOpt blockHashOpt blockHeightOpt =
      .ok (SnapshotManifest.ofIdentity header.identity (computeSha256 H file.content) createdAt
        file.content.length) := by
  rw [generateManifest_eq, parsed]; rfl

end Lemmas

/-- `[1, {0: 0("conway"), 1: 5, 2: h'ab'}]`: an era under tag 0, which `cbor2`
reads as a date and refuses. -/
def taggedEraHeader : List UInt8 :=
  [0x82, 0x01, 0xa3, 0x00, 0xc0, 0x66, 0x63, 0x6f, 0x6e, 0x77, 0x61, 0x79, 0x01, 0x05, 0x02, 0x41,
    0xab]

/-- `[1, {_ 0: "conway", 1: 5, 2: h'ab', 4}]`: an indefinite-length map whose last
key has the break marker for its value, so that `cbor2` reads on past the end. -/
def danglingKeyHeader : List UInt8 :=
  [0x82, 0x01, 0xbf, 0x00, 0x66, 0x63, 0x6f, 0x6e, 0x77, 0x61, 0x79, 0x01, 0x05, 0x02, 0x41, 0xab,
    0x04, 0xff]

/-- `[1, {0: "conway", 1: 5, 2: "ab"}]`: a header whose block hash is a text string. -/
def textHashHeader : List UInt8 :=
  [0x82, 0x01, 0xa3, 0x00, 0x66, 0x63, 0x6f, 0x6e, 0x77, 0x61, 0x79, 0x01, 0x05, 0x02, 0x62, 0x61,
    0x62]

/-- A text-string block hash passes the shape test; `.hex()` then raises out of
`generate_manifest`, on a small file whose first item is not the claimed layout. -/
theorem generateManifest_text_block_hash :
    textHashHeader.length ≤ maxHeaderFileSize ∧
      Cbor.load 1000 textHashHeader =
        .ok (.list [.int 1, .dict [(.int 0, .str "conway"), (.int 1, .int 5), (.int 2, .str "ab")]]) ∧
      generateManifest UnicodeData.asciiOnly Sha256.hasher 1000 "2025-01-01T00:00:00Z"
        (some ⟨"header.cbor", textHashHeader⟩) none none none = .error .attributeError :=
  ⟨by decide, rfl, rfl⟩

/-- A block-height flag of 0 is dropped for the height in the file name, and a
name with height 0 gets the default 1. -/
theorem generateManifest_zero_height (u : UnicodeData) (H : Hasher) (maxDepth : Nat)
    (createdAt : String) :
    (generateManifest u H maxDepth createdAt (some ⟨"7.ab.cbor", []⟩) none none (some 0)).map
        (·.blockHeight) = .ok (.int 7) ∧
      (generateManifest u H maxDepth createdAt (some ⟨"0.ab.cbor", []⟩) none none none).map
        (·.blockHeight) = .ok (.int 1) := by
  cases maxDepth <;> exact ⟨rfl, rfl⟩

end Acropolis.Manifest
