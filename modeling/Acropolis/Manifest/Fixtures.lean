import Acropolis.Cbor.Encode
import Acropolis.Manifest.Generate

/-!
# The snapshots of `generate_cbor_fixtures.py`

The script writes each fixture with `cbor2.dump`: version 1, the header dict
`{0: era, 1: height, 2: block_hash, 3: utxos, 4: gov_actions, 5: param_sets}`,
then the items. `generate_manifest` reads every such file of at most 64 MiB
through its header path: the era and the height as written, the hex of the
block hash, and whether a declared governance count is positive.
-/

namespace Acropolis.Manifest

open Acropolis.Python Acropolis.Cbor

/-- `[1, {0: era, 1: height, 2: block_hash, 3: utxos, 4: gov_actions, 5: param_sets}, items]` -/
def snapshot (era : String) (height : Int) (blockHash : List UInt8)
    (utxos govActions paramSets : Int) (items : List PyVal) : PyVal :=
  .list [.int 1, .dict [(.int 0, .str era), (.int 1, .int height), (.int 2, .bytes blockHash),
    (.int 3, .int utxos), (.int 4, .int govActions), (.int 5, .int paramSets)], .list items]

/-- A snapshot file in the layout of the script is read through the header path,
whatever the overrides. -/
theorem generateManifest_snapshot (u : UnicodeData) (H : Hasher) {maxDepth : Nat}
    (createdAt name : String) (eraOpt blockHashOpt : Option String) (blockHeightOpt : Option Int)
    {era : String} (named : era ≠ "") (height : Int) {blockHash : List UInt8}
    (hashed : blockHash ≠ []) (utxos govActions paramSets : Int) (items : List PyVal)
    {content : List UInt8}
    (written : dumps (snapshot era height blockHash utxos govActions paramSets items) =
        some content)
    (fits : fitsIn maxDepth (snapshot era height blockHash utxos govActions paramSets items) = true)
    (small : content.length ≤ maxHeaderFileSize) :
    generateManifest u H maxDepth createdAt (some ⟨name, content⟩) eraOpt blockHashOpt
        blockHeightOpt =
      .ok (SnapshotManifest.ofIdentity
        ⟨.str era, .int height, bytesHex blockHash, decide (0 < govActions)
            || decide (0 < paramSets)⟩
        (computeSha256 H content) createdAt content.length) := by
  have eraText : era.isEmpty = false :=
    Bool.eq_false_iff.mpr fun empty => named ((String.isEmpty_iff era).mp empty)
  have loaded : Cbor.load maxDepth content =
      .ok (snapshot era height blockHash utxos govActions paramSets items) := by
    rw [load, ← List.append_nil content, roundTrips maxDepth _ content written fits []]
    rfl
  have parsed := parseCborHeader_of_shape small loaded
    (by simp [getField, PyVal.dictGet, PyVal.eqInt, PyVal.truthy, eraText]) rfl
    (by simpa [getField, PyVal.dictGet, PyVal.eqInt, PyVal.truthy] using hashed) rfl
    (.inr rfl) (.inr rfl)
  rw [generateManifest_of_some parsed]
  simp [Header.identity, getField, getCount, PyVal.dictGet, PyVal.eqInt, isPositive, PyVal.gtZero?]

/-- `block_hash` of the script: `11 22 33 44`, then 28 bytes `AA`. -/
def fixtureBlockHash : List UInt8 := [0x11, 0x22, 0x33, 0x44] ++ List.replicate 28 0xAA

/-- The items of `valid_snapshot`: two UTXOs, a tip update, a governance delta,
a parameter set and the end marker. -/
def validSnapshotItems : List PyVal :=
  [.list [.int 0, .bytes (List.replicate 32 0xFF), .int 0, .str "addr_test1xyz", .int 123456789],
    .list [.int 0, .bytes (List.replicate 32 0x00), .int 1, .str "addr_test1pqr", .int 42],
    .list [.int 2, .int 1000000, .bytes fixtureBlockHash],
    .list [.int 1, .int 3],
    .list [.int 3,
        .list [.list [.str "minFeeA", .str "44"], .list [.str "minFeeB", .str "155381"]]],
    .list [.int 4]]

/-- `snapshot-small.cbor`, the bytes `cbor2.dump(valid_snapshot, f)` writes. -/
def snapshotSmall : List UInt8 :=
  (dumps (snapshot "conway" 1000000 fixtureBlockHash 2 3 1 validSnapshotItems)).getD []

set_option maxRecDepth 4000 in
theorem generateManifest_snapshot_small :
    "conway" ≠ "" ∧ fixtureBlockHash ≠ [] ∧
      dumps (snapshot "conway" 1000000 fixtureBlockHash 2 3 1 validSnapshotItems) =
        some snapshotSmall ∧
      fitsIn 1000 (snapshot "conway" 1000000 fixtureBlockHash 2 3 1 validSnapshotItems) = true ∧
      snapshotSmall.length ≤ maxHeaderFileSize ∧
      generateManifest .asciiOnly Sha256.hasher 1000 "2025-01-01T00:00:00Z"
          (some ⟨"snapshot-small.cbor", snapshotSmall⟩) none none none =
        .ok (SnapshotManifest.ofIdentity
          ⟨.str "conway", .int 1000000, bytesHex fixtureBlockHash, decide ((0 : Int) < 3) ||
            decide ((0 : Int) < 1)⟩
          (computeSha256 Sha256.hasher snapshotSmall)
              "2025-01-01T00:00:00Z" snapshotSmall.length) :=
  have named : "conway" ≠ "" := by decide
  have hashed : fixtureBlockHash ≠ [] := by decide
  have written : dumps (snapshot "conway" 1000000 fixtureBlockHash 2 3 1 validSnapshotItems) =
      some snapshotSmall := rfl
  have fits : fitsIn 1000 (snapshot "conway" 1000000 fixtureBlockHash 2 3 1 validSnapshotItems) =
      true := by decide
  have small : snapshotSmall.length ≤ maxHeaderFileSize := by decide
  ⟨named, hashed, written, fits, small, generateManifest_snapshot .asciiOnly Sha256.hasher
    "2025-01-01T00:00:00Z" "snapshot-small.cbor" none none none named 1000000 hashed 2 3 1
    validSnapshotItems written fits small⟩

end Acropolis.Manifest
