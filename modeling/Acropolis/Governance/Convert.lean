import Acropolis.Governance.ExecutionLog
import Acropolis.Python.Json

/-!
# The files `convert_governance.py` writes

After the loop over the log, the script reads, for each epoch from 507 to 574,
the DRep and the pool stake distributions of that epoch, keeps the DReps and
pools whose keys are in `all_voters_hash`, and writes them, with the votes filed
under the epoch, into three files; then it writes the parameters and the
sorted statistics. Every file is written with `%`-formatting.

The distributions are what `json.load` returns: the operations of the script
on them (`v[0]`, `v['key']`, `'key' in v`, `int(v)`, `bytes(v)`, iteration and
`'%s' % v`) are modelled on those objects, with their exceptions.

`json.load` gives no bytes, CBOR values or tags; the operations treat those
as objects without the operation.

The distribution files hold their DReps as `[{"AddrKeyHash": [bytes]}, lovelace]`
(or `ScriptHash`) and their pools as `[[bytes], {"active": a, "live": l}]`. On
such a file the converters keep, in order, the entries whose key voted.

The two `if`s of the loop of `convert_drep` set `keytype` and `keyhash` only for
a credential that holds `AddrKeyHash` or `ScriptHash`. A DRep whose credential
holds neither, such as a predefined DRep named by a bare string, keeps the
values the DRep before it left: it is written with that DRep's kind and key and
its own stake, and before any DRep with a key it raises `UnboundLocalError`.
-/

namespace Acropolis.Governance

open Acropolis.Python

/-- `v[n]` for an index `n ≥ 0`. -/
def getIndex : PyVal → Nat → Except ConvertError PyVal
  | .list items, n => (items.get? n).elim (.error .indexError) .ok
  | .str s, n => (s.data.get? n).elim (.error .indexError) fun c => .ok (.str (String.singleton c))
  | .dict entries, n => (PyVal.dictGet entries n).elim (.error (.raised .keyError)) .ok
  | _, _ => .error (.raised .typeError)

/-- Whether a dict key is the `str` `key`. -/
def isText (key : String) : PyVal → Bool
  | .str s => s = key
  | _ => false

/-- `v[key]` for a `str` key: the value of the last entry with that key, as the
dict keeps it. -/
def getKey : PyVal → String → Except ConvertError PyVal
  | .dict entries, key =>
    (entries.foldl (fun found e => if isText key e.1 then some e.2 else found) none).elim
      (.error (.raised .keyError)) .ok
  | _, _ => .error (.raised .typeError)

/-- `key in v` for a `str` key: a dict's keys, a list's items, a substring. -/
def containsText (key : String) : PyVal → Except ConvertError Bool
  | .dict entries => .ok (entries.any (isText key ·.1))
  | .list items => .ok (items.any (isText key))
  | .str s => .ok (decide (key.data <:+: s.data))
  | _ => .error (.raised .typeError)

/-- `for x in v`: a list's items, a dict's keys, a string's characters. -/
def iterItems : PyVal → Except ConvertError (List PyVal)
  | .list items => .ok items
  | .dict entries => .ok (entries.map (·.1))
  | .str s => .ok (s.data.map fun c => .str (String.singleton c))
  | _ => .error (.raised .typeError)

/-- `int(x)` of a finite float, toward zero. -/
def truncFloat (x : PyFloat) : Int :=
  let m := 2 ^ 52 + x.fraction
  let magnitude : Nat :=
    if x.exponent = 0 then 0
    else if 1075 ≤ x.exponent then m * 2 ^ (x.exponent - 1075) else m / 2 ^ (1075 - x.exponent)
  if x.negative then -(magnitude : Int) else magnitude

/-- `int(v)`. -/
def intValue (u : UnicodeData) : PyVal → Except ConvertError Int
  | .int i => .ok i
  | .bool b => .ok (if b then 1 else 0)
  | .float x =>
    if x.isNaN then .error (.raised .valueError)
    else if x.exponent = 2047 then .error .overflowError else .ok (truncFloat x)
  | .str s => (u.int s).elim (.error (.raised .valueError)) .ok
  | _ => .error (.raised .typeError)

/-- One item of `bytes(iterable)`: an integer in `range(256)`. -/
def byteOf : PyVal → Except ConvertError UInt8
  | .int i => if 0 ≤ i ∧ i < 256 then .ok (UInt8.ofNat i.toNat) else .error (.raised .valueError)
  | .bool b => .ok (if b then 1 else 0)
  | _ => .error (.raised .typeError)

/-- `bytes(v)`: `n` zero bytes for an integer `n`, the items of a list, the keys
of a dict. -/
def bytesValue : PyVal → Except ConvertError (List UInt8)
  | .int i => if i < 0 then .error (.raised .valueError) else .ok (List.replicate i.toNat 0)
  | .bool b => .ok (List.replicate (if b then 1 else 0) 0)
  | .list items => items.mapM byteOf
  | .dict entries => entries.mapM (byteOf ·.1)
  | _ => .error (.raised .typeError)

/-- `array_as_base64(keyhash)` of an object `json.load` gives. -/
def arrayAsBase64Value (keyhash : PyVal) : Except ConvertError String := do
  pure (String.mk (b64encode (← bytesValue keyhash)))

/-- `'%s' % v` for the scalars of `json.load`; `none` for a float, a list or a
dict, whose text the model does not write. -/
def strValue : PyVal → Option (List Char)
  | .none => some "None".data
  | .bool b => some (if b then "True" else "False").data
  | .int i => some (toString i).data
  | .str s => some s.data
  | _ => none

/-- `keytype, keyhash` after the two `if`s of one `drep`, from their values
before it: they stay when the credential names neither kind of key. -/
def drepCredential (drep : PyVal) (previous : Option (Int × PyVal)) :
    Except ConvertError (Option (Int × PyVal)) := do
  let credential ← getIndex drep 0
  let afterAddr ←
    if (← containsText "AddrKeyHash" credential) then do
      let keyhash ← getKey credential "AddrKeyHash"
      pure (some (0, keyhash))
    else pure previous
  let credential ← getIndex drep 0
  if (← containsText "ScriptHash" credential) then do
    let keyhash ← getKey credential "ScriptHash"
    pure (some (1, keyhash))
  else pure afterAddr

/-- One `drep` of the loop of `convert_drep`: the credential it leaves, and the
entry `[keytype,"key",lovelace]` it adds when its key is in `all_voters_hash`. -/
def drepStep (allVotersHash : List (String × Nat))
    (state : Option (Int × PyVal) × List (List Char)) (drep : PyVal) :
    Except ConvertError (Option (Int × PyVal) × List (List Char)) := do
  let credential ← drepCredential drep state.1
  let lovelace ← getIndex drep 1
  let (keytype, keyhash) ← credential.elim (.error .unboundLocalError) .ok
  let key ← arrayAsBase64Value keyhash
  if (getItem allVotersHash key).isSome then
    let lovelaceText ← (strValue lovelace).elim (.error .unmodelled) .ok
    pure (credential, state.2 ++
      ['[' :: (toString keytype).data ++ ",\"".data ++ key.data ++ "\",".data ++ lovelaceText ++
          [']']])
  else pure (credential, state.2)

/-- `convert_drep(ee)` on the contents of `drep/drep-ee.json`; `none` is a
missing file. The path `data['Cardano'][1]['DRepStakeDistribution']`, read twice
by the script, is read once. -/
def convertDrep (u : UnicodeData) (allVotersHash : List (String × Nat)) (file : Option PyVal) :
    Except ConvertError (Int × List Char) := do
  let data ← file.elim (.error (.raised .fileNotFound)) .ok
  let distribution ← getKey (← getIndex (← getKey data "Cardano") 1) "DRepStakeDistribution"
  let epoch ← intValue u (← getKey distribution "epoch")
  let dreps ← getKey (← getKey distribution "drdd") "dreps"
  let (_, entries) ← (← iterItems dreps).foldlM (drepStep allVotersHash) (none, [])
  pure (epoch + 1, [','].intercalate entries)

/-- One `pool` of the loop of `convert_pool`: the entry `["key",active,live]`
it adds when its key is in `all_voters_hash`. -/
def poolStep (allVotersHash : List (String × Nat)) (entries : List (List Char)) (pool : PyVal) :
    Except ConvertError (List (List Char)) := do
  let keyhash ← getIndex pool 0
  let active ← getKey (← getIndex pool 1) "active"
  let live ← getKey (← getIndex pool 1) "live"
  let key ← arrayAsBase64Value keyhash
  if (getItem allVotersHash key).isSome then
    let activeText ← (strValue active).elim (.error .unmodelled) .ok
    let liveText ← (strValue live).elim (.error .unmodelled) .ok
    pure (entries ++
        ["[\"".data ++ key.data ++ "\",".data ++ activeText ++ [','] ++ liveText ++ [']']])
  else pure entries

/-- `convert_pool(ee)` on the contents of `pool/spo-ee.json`. -/
def convertPool (u : UnicodeData) (allVotersHash : List (String × Nat)) (file : Option PyVal) :
    Except ConvertError (Int × List Char) := do
  let data ← file.elim (.error (.raised .fileNotFound)) .ok
  let distribution ← getKey (← getIndex (← getKey data "Cardano") 1) "SPOStakeDistribution"
  let epoch ← intValue u (← getKey distribution "epoch")
  let pools ← getKey distribution "spos"
  let entries ← (← iterItems pools).foldlM (poolStep allVotersHash) []
  pure (epoch + 1, [','].intercalate entries)

/-- `",".join(["[%s,\"%s\"]" % (t,s) for (t,s) in voters])` -/
def votersText (voters : List (Nat × String)) : List Char :=
  [','].intercalate (voters.map fun voter =>
    '[' :: (toString voter.1).data ++ ",\"".data ++ voter.2.data ++ "\"]".data)

/-- `convert_votes(ee)`: the actions filed under `ee`, each with the text
`[yes],[no],[abstain]`. -/
def convertVotes (votesHash : List (Int × List (List Char × Votes))) (ee : Int) :
    List (Int × List Char × List Char) :=
  match getItem votesHash ee with
  | none => []
  | some actions => actions.map fun (gov, vv) =>
    (ee, gov, '[' :: votersText vv.yes ++ "],[".data ++ votersText vv.no ++ "],[".data ++
      votersText vv.abstain ++ [']'])

/-- `out.write('[')`, each line with a `','` before all but the first (the flag
`first_x` of the script), then `out.write(']\n')`. -/
def writeLines (lines : List (List Char)) : List Char :=
  (lines.foldl (fun (written : List Char × Bool) line =>
    ((if written.2 then written.1 ++ [','] else written.1) ++ line, true)) (['['], false)).1 ++
    "]\n".data

/-- The loop that writes `param_state.json`: the comma is the first `%s` of
`'%s[%s,%s]\n'`. -/
def writeParams (paramHash : List (Int × List Char)) : List Char :=
  (paramHash.foldl (fun (written : List Char × Bool) entry =>
    (written.1 ++ (if written.2 then [','] else []) ++ '[' :: (toString entry.1).data ++ [','] ++
      entry.2 ++ "]\n".data, true)) (['['], false)).1 ++ "]\n".data

/-- `'[%d,[%s]]\n' % convert_drep(ee)`, and the same of `convert_pool(ee)`. -/
def distributionLine (converted : Int × List Char) : List Char :=
  '[' :: (toString converted.1).data ++ ",[".data ++ converted.2 ++ "]]\n".data

/-- `'[%d,\"%s\",[%s]]\n' % vv` -/
def votesLine (vv : Int × List Char × List Char) : List Char :=
  '[' :: (toString vv.1).data ++ ",\"".data ++ vv.2.1 ++ "\",[".data ++ vv.2.2 ++ "]]\n".data

/-- `'[%d,%d,%d,%d,%d]\n' % ed` -/
def statsLine (ed : Int × Int × Int × Int × Int) : List Char :=
  '[' :: [','].intercalate [(toString ed.1).data, (toString ed.2.1).data,
    (toString ed.2.2.1).data, (toString ed.2.2.2.1).data, (toString ed.2.2.2.2).data] ++ "]\n".data

/-- Tuples compared as Python compares them: the first place where they differ decides. -/
def tupleLe : Int × Int × Int × Int × Int → Int × Int × Int × Int × Int → Bool
  | (a, b, c, d, e), (a', b', c', d', e') =>
    a < a' ||
        (a = a' && (b < b' || (b = b' && (c < c' || (c = c' && (d < d' || (d = d' && e ≤ e')))))))

/-- `range(507, 575)` -/
def epochs : List Int := (List.range 68).map fun i => 507 + i

/-- The five files, as the texts written. -/
structure Outputs where
  drepState : List Char
  poolState : List Char
  votingState : List Char
  paramState : List Char
  epochPoolStats : List Char

/-- The whole script, from the lines of `execution_log.txt` and the contents of
the distribution files of each epoch. -/
def convertGovernance (u : UnicodeData) (log : List (List Char))
    (drepFile poolFile : Int → Option PyVal) : Except ConvertError Outputs := do
  let state ← readLog u log
  let perEpoch ← epochs.mapM fun ee => do
    let drep ← convertDrep u state.allVotersHash (drepFile ee)
    let pool ← convertPool u state.allVotersHash (poolFile ee)
    pure (drep, pool, convertVotes state.votesHash ee)
  pure {
    drepState := writeLines (perEpoch.map fun converted => distributionLine converted.1)
    poolState := writeLines (perEpoch.map fun converted => distributionLine converted.2.1)
    votingState := writeLines (perEpoch.flatMap fun converted => converted.2.2.map votesLine)
    paramState := writeParams state.paramHash
    epochPoolStats := writeLines ((state.epochData.mergeSort tupleLe).map statsLine) }

/-- A DRep of a distribution: the kind of its credential, the bytes of its key
hash, and its stake. -/
structure DRep where
  script : Bool
  keyhash : List UInt8
  lovelace : Int

def bytesPy (bs : List UInt8) : PyVal := .list (bs.map fun b => .int b.toNat)

def DRep.toPy (d : DRep) : PyVal :=
  .list [.dict [(.str (if d.script then "ScriptHash" else "AddrKeyHash"), bytesPy d.keyhash)],
    .int d.lovelace]

def drepDistribution (first : PyVal) (epoch : Int) (dreps : List DRep) : PyVal :=
  .dict [(.str "Cardano", .list [first, .dict [(.str "DRepStakeDistribution",
    .dict [(.str "epoch", .int epoch),
        (.str "drdd", .dict [(.str "dreps", .list (dreps.map DRep.toPy))])])]])]

def DRep.key (d : DRep) : String := String.mk (b64encode d.keyhash)

def DRep.json (d : DRep) : Json :=
  .arr [.num (if d.script then 1 else 0), .str d.key.data, .num d.lovelace]

theorem bytesValue_bytesPy (bs : List UInt8) : bytesValue (bytesPy bs) = .ok bs := by
  induction bs with
  | nil => rfl
  | cons b bs inductionHypothesis =>
    have byte : byteOf (.int b.toNat) = .ok b := by
      have small := b.toNat_lt_size
      simp only [byteOf, Int.ofNat_nonneg, Nat.cast_lt, true_and, Int.toNat_ofNat]
      rw [if_pos (by exact_mod_cast small)]
      exact congrArg Except.ok (UInt8.toNat.inj (UInt8.toNat_ofNat_of_lt small))
    simp only [bytesValue, bytesPy, List.map_cons, List.mapM_cons, byte] at inductionHypothesis ⊢
    rw [inductionHypothesis]
    rfl

theorem drepCredential_toPy (d : DRep) (previous : Option (Int × PyVal)) :
    drepCredential d.toPy previous = .ok (some (if d.script then 1 else 0, bytesPy d.keyhash)) := by
  obtain ⟨script, keyhash, lovelace⟩ := d
  cases script <;> rfl

theorem drepStep_toPy (voters : List (String × Nat)) (d : DRep)
    (state : Option (Int × PyVal) × List (List Char)) :
    drepStep voters state d.toPy = .ok (some (if d.script then 1 else 0, bytesPy d.keyhash),
      state.2 ++ if (getItem voters d.key).isSome then [Json.render d.json] else []) := by
  obtain ⟨script, keyhash, lovelace⟩ := d
  have entry : Json.render (DRep.json ⟨script, keyhash, lovelace⟩) =
      '[' :: (toString (if script then (1 : Int) else 0)).data ++ ",\"".data ++
        (String.mk (b64encode keyhash)).data ++ "\",".data ++ (toString lovelace).data ++
            [']'] := by
    simp [DRep.json, DRep.key, Json.render, Json.renderItems]
  have stake : getIndex (DRep.toPy ⟨script, keyhash, lovelace⟩) 1 = .ok (.int lovelace) := rfl
  by_cases voted : (getItem voters (String.mk (b64encode keyhash))).isSome
  · simp [drepStep, drepCredential_toPy, stake, arrayAsBase64Value, bytesValue_bytesPy, bind,
      Except.bind, pure, Except.pure, DRep.key, voted, entry, strValue]
  · simp [drepStep, drepCredential_toPy, stake, arrayAsBase64Value, bytesValue_bytesPy, bind,
      Except.bind, pure, Except.pure, DRep.key, voted]

/-- Whether a DRep's key is in `all_voters_hash`. -/
def DRep.voted (voters : List (String × Nat)) (d : DRep) : Bool := (getItem voters d.key).isSome

theorem foldlM_drepStep (voters : List (String × Nat)) :
    ∀ (dreps : List DRep) (state : Option (Int × PyVal) × List (List Char)), ∃ last,
      (dreps.map DRep.toPy).foldlM (drepStep voters) state =
        .ok (last, state.2 ++ (dreps.filter (DRep.voted voters)).map fun d => Json.render d.json)
  | [], state => ⟨state.1, by simp only [List.map_nil, List.foldlM_nil, List.filter_nil,
      List.map_nil, List.append_nil]; rfl⟩
  | d :: dreps, state => by
    obtain ⟨last, folded⟩ := foldlM_drepStep voters dreps _
    refine ⟨last, ?_⟩
    rw [List.map_cons, List.foldlM_cons, drepStep_toPy]
    refine folded.trans ?_
    by_cases voted : DRep.voted voters d <;> simp_all [DRep.voted]

theorem convertDrep_layout (u : UnicodeData) (voters : List (String × Nat)) (first : PyVal)
    (epoch : Int)
    (items : List PyVal) :
    convertDrep u voters
        (some (.dict [(.str "Cardano", .list [first, .dict [(.str "DRepStakeDistribution",
      .dict [(.str "epoch", .int epoch),
          (.str "drdd", .dict [(.str "dreps", .list items)])])]])])) =
      (items.foldlM (drepStep voters) (none, [])).bind fun folded =>
        .ok (epoch + 1, [','].intercalate folded.2) := by
  simp only [convertDrep, getKey, isText, getIndex, intValue, iterItems, bind, Except.bind, pure,
    Except.pure, Option.elim, List.foldl_cons, List.foldl_nil, PyVal.dictGet, decide_True, if_true,
    List.get?_cons_succ, List.get?_cons_zero]
  cases items.foldlM (drepStep voters) (none, []) <;> rfl

theorem convertDrep_distribution (u : UnicodeData) (voters : List (String × Nat)) (first : PyVal)
    (epoch : Int) (dreps : List DRep) :
    convertDrep u voters (some (drepDistribution first epoch dreps)) =
      .ok (epoch + 1, [','].intercalate
        ((dreps.filter (DRep.voted voters)).map fun d => Json.render d.json)) := by
  obtain ⟨last, folded⟩ := foldlM_drepStep voters dreps (none, [])
  rw [drepDistribution, convertDrep_layout, folded]
  rfl


/-- A credential `in` tests find neither key in. -/
def KeyFree (credential : PyVal) : Prop :=
  containsText "AddrKeyHash" credential = .ok false ∧ containsText "ScriptHash" credential =
      .ok false

/-- A DRep of a distribution file: one with a key credential, or one whose
credential has no key. -/
inductive DRepEntry where
  | key (d : DRep)
  | keyless (credential : PyVal) (lovelace : Int)

def DRepEntry.toPy : DRepEntry → PyVal
  | key d => d.toPy
  | keyless credential lovelace => .list [credential, .int lovelace]

def DRepEntry.KeyFree : DRepEntry → Prop
  | key _ => True
  | keyless credential _ => Acropolis.Governance.KeyFree credential

/-- The DReps the loop writes, each with the credential it holds when it writes
it; `none` when a keyless DRep comes before any credential is set. -/
def withCredentials : Option (Bool × List UInt8) → List DRepEntry → Option (List DRep)
  | _, [] => some []
  | _, .key d :: rest => (d :: ·) <$> withCredentials (some (d.script, d.keyhash)) rest
  | none, .keyless _ _ :: _ => none
  | some (script, keyhash), .keyless _ lovelace :: rest =>
    (⟨script, keyhash, lovelace⟩ :: ·) <$> withCredentials (some (script, keyhash)) rest

def drepEntries (first : PyVal) (epoch : Int) (entries : List DRepEntry) : PyVal :=
  .dict [(.str "Cardano", .list [first, .dict [(.str "DRepStakeDistribution",
    .dict [(.str "epoch", .int epoch),
        (.str "drdd", .dict [(.str "dreps", .list (entries.map DRepEntry.toPy))])])]])]

/-- `keytype, keyhash` as the loop holds a credential. -/
def credentialPy (credential : Bool × List UInt8) : Int × PyVal :=
  (if credential.1 then 1 else 0, bytesPy credential.2)

theorem drepCredential_keyless {credential : PyVal} (keyFree : KeyFree credential) (lovelace : Int)
    (previous : Option (Int × PyVal)) :
    drepCredential (.list [credential, .int lovelace]) previous = .ok previous := by
  simp [drepCredential, getIndex, keyFree.1, keyFree.2, bind, Except.bind, pure, Except.pure]

theorem drepStep_keyless {credential : PyVal} (keyFree : KeyFree credential) (lovelace : Int)
    (voters : List (String × Nat)) (acc : List (List Char)) :
    ∀ held : Option (Bool × List UInt8),
      drepStep voters (held.map credentialPy, acc) (.list [credential, .int lovelace]) =
        held.elim (.error .unboundLocalError) fun (script, keyhash) =>
          drepStep voters (held.map credentialPy, acc) (DRep.toPy ⟨script, keyhash, lovelace⟩)
  | none => by simp [drepStep, drepCredential_keyless keyFree, getIndex, bind, Except.bind]
  | some (script, keyhash) => by
    simp only [drepStep, drepCredential_keyless keyFree, drepCredential_toPy]
    rfl

theorem foldlM_drepStep_entries (voters : List (String × Nat)) :
    ∀ (entries : List DRepEntry), (∀ e ∈ entries, e.KeyFree) →
      ∀ (held : Option (Bool × List UInt8)) (acc : List (List Char)), ∃ last,
        (entries.map DRepEntry.toPy).foldlM (drepStep voters) (held.map credentialPy, acc) =
          (withCredentials held entries).elim (.error .unboundLocalError) fun dreps =>
            .ok (last, acc ++ (dreps.filter (DRep.voted voters)).map fun d => Json.render d.json)
  | [], _, held, acc => ⟨held.map credentialPy, by simp [withCredentials]; rfl⟩
  | .key d :: rest, keyFree, held, acc => by
    obtain ⟨last, folded⟩ := foldlM_drepStep_entries voters rest
      (fun e member => keyFree e (List.mem_cons_of_mem _ member)) (some (d.script, d.keyhash))
      (acc ++ if DRep.voted voters d then [Json.render d.json] else [])
    refine ⟨last, (congrArg (· >>= _) (drepStep_toPy voters d _)).trans (folded.trans ?_)⟩
    rw [withCredentials]
    cases withCredentials (some (d.script, d.keyhash)) rest with
    | none => rfl
    | some dreps => by_cases voted : DRep.voted voters d <;> simp [voted]
  | .keyless credential lovelace :: rest, keyFree, none, acc =>
    ⟨none, by
      rw [List.map_cons, List.foldlM_cons, DRepEntry.toPy,
        drepStep_keyless (keyFree _ (List.mem_cons_self _ _)) lovelace voters acc none]
      rfl⟩
  | .keyless credential lovelace :: rest, keyFree, some (script, keyhash), acc => by
    obtain ⟨last, folded⟩ := foldlM_drepStep_entries voters rest
      (fun e member => keyFree e (List.mem_cons_of_mem _ member)) (some (script, keyhash))
      (acc ++ if DRep.voted voters ⟨script, keyhash, lovelace⟩ then
        [Json.render (DRep.json ⟨script, keyhash, lovelace⟩)] else [])
    refine ⟨last, ?_⟩
    rw [List.map_cons, List.foldlM_cons, DRepEntry.toPy,
      drepStep_keyless (keyFree _ (List.mem_cons_self _ _))
          lovelace voters acc (some (script, keyhash))]
    refine (congrArg (· >>= _) (drepStep_toPy voters ⟨script, keyhash, lovelace⟩ _)).trans
        (folded.trans ?_)
    rw [withCredentials]
    cases withCredentials (some (script, keyhash)) rest with
    | none => rfl
    | some dreps => by_cases voted : DRep.voted voters ⟨script, keyhash, lovelace⟩ <;> simp [voted]

/-- On a file whose DReps have key credentials or credentials without a key,
`convert_drep` writes every DRep with the credential the loop holds at it (a
keyless one with the kind and key of the DRep before it), keeping those whose key
voted, and raises `UnboundLocalError` when a keyless DRep comes before any DRep
with a key. -/
theorem convertDrep_entries (u : UnicodeData) (voters : List (String × Nat)) (first : PyVal)
    (epoch : Int)
    {entries : List DRepEntry} (keyFree : ∀ e ∈ entries, e.KeyFree) :
    convertDrep u voters (some (drepEntries first epoch entries)) =
      (withCredentials none entries).elim (.error .unboundLocalError) fun dreps =>
        .ok (epoch + 1, [','].intercalate
          ((dreps.filter (DRep.voted voters)).map fun d => Json.render d.json)) := by
  obtain ⟨last, folded⟩ := foldlM_drepStep_entries voters entries keyFree none []
  rw [drepEntries, convertDrep_layout, Option.map_none'] at *
  rw [folded]
  cases withCredentials none entries <;> rfl

/-- A DRep with a key, then the predefined DRep `AlwaysAbstain`. -/
def sampleEntries : List DRepEntry :=
    [.key ⟨false, [1, 2, 3], 100⟩, .keyless (.str "AlwaysAbstain") 5]

theorem convertDrep_entries_sampleEntries :
    convertDrep .asciiOnly [("AQID", 1)] (some (drepEntries .none 507 sampleEntries)) =
      (withCredentials none sampleEntries).elim (.error .unboundLocalError) fun dreps =>
        .ok (507 + 1, [','].intercalate ((dreps.filter (DRep.voted [("AQID", 1)])).map fun d =>
          Json.render d.json)) :=
  convertDrep_entries _ _ _ _ fun e member => by
    simp only [sampleEntries, List.mem_cons, List.mem_singleton, List.not_mem_nil, or_false]
        at member
    rcases member with rfl | rfl
    · trivial
    · exact ⟨rfl, rfl⟩

example : withCredentials none sampleEntries =
    some [⟨false, [1, 2, 3], 100⟩, ⟨false, [1, 2, 3], 5⟩] := rfl

example : withCredentials none sampleEntries.reverse = none := rfl

/-- A pool of a distribution: the bytes of its key hash, its active and live stake. -/
structure Pool where
  keyhash : List UInt8
  active : Int
  live : Int

/-- `[[b, ...], {"active": active, "live": live}]` -/
def Pool.toPy (p : Pool) : PyVal :=
  .list [bytesPy p.keyhash, .dict [(.str "active", .int p.active), (.str "live", .int p.live)]]

/-- `{"Cardano": [first, {"SPOStakeDistribution": {"epoch": epoch, "spos": [...]}}]}` -/
def poolDistribution (first : PyVal) (epoch : Int) (pools : List Pool) : PyVal :=
  .dict [(.str "Cardano", .list [first, .dict [(.str "SPOStakeDistribution",
    .dict [(.str "epoch", .int epoch), (.str "spos", .list (pools.map Pool.toPy))])]])]

def Pool.key (p : Pool) : String := String.mk (b64encode p.keyhash)

/-- Whether a pool's key is in `all_voters_hash`. -/
def Pool.voted (voters : List (String × Nat)) (p : Pool) : Bool := (getItem voters p.key).isSome

/-- The entry `pool_state.json` holds for a pool: `[key, active, live]`. -/
def Pool.json (p : Pool) : Json := .arr [.str p.key.data, .num p.active, .num p.live]

theorem poolStep_toPy (voters : List (String × Nat)) (p : Pool) (entries : List (List Char)) :
    poolStep voters entries p.toPy =
      .ok (entries ++ if p.voted voters then [Json.render p.json] else []) := by
  obtain ⟨keyhash, active, live⟩ := p
  have entry : Json.render (Pool.json ⟨keyhash, active, live⟩) =
      "[\"".data ++ (String.mk (b64encode keyhash)).data ++ "\",".data ++ (toString active).data ++
        [','] ++ (toString live).data ++ [']'] := by
    simp [Pool.json, Pool.key, Json.render, Json.renderItems]
  by_cases voted : Pool.voted voters ⟨keyhash, active, live⟩
  · simp only [Pool.voted, Pool.key] at voted
    simp [poolStep, Pool.toPy, getIndex, getKey, isText, arrayAsBase64Value, bytesValue_bytesPy,
      bind, Except.bind, pure, Except.pure, Pool.voted, Pool.key, voted, entry, strValue]
  · simp only [Pool.voted, Pool.key, Bool.not_eq_true] at voted
    simp [poolStep, Pool.toPy, getIndex, getKey, isText, arrayAsBase64Value, bytesValue_bytesPy,
      bind, Except.bind, pure, Except.pure, Pool.voted, Pool.key, voted]

theorem foldlM_poolStep (voters : List (String × Nat)) :
    ∀ (pools : List Pool) (entries : List (List Char)),
      (pools.map Pool.toPy).foldlM (poolStep voters) entries =
        .ok (entries ++ (pools.filter (Pool.voted voters)).map fun p => Json.render p.json)
  | [], entries =>
      by simp only [List.map_nil, List.foldlM_nil, List.filter_nil, List.append_nil]; rfl
  | p :: pools, entries => by
    rw [List.map_cons, List.foldlM_cons, poolStep_toPy]
    refine (foldlM_poolStep voters pools _).trans ?_
    by_cases voted : Pool.voted voters p <;> simp_all

theorem convertPool_distribution (u : UnicodeData) (voters : List (String × Nat)) (first : PyVal)
    (epoch : Int) (pools : List Pool) :
    convertPool u voters (some (poolDistribution first epoch pools)) =
      .ok (epoch + 1, [','].intercalate
        ((pools.filter (Pool.voted voters)).map fun p => Json.render p.json)) := by
  simp [convertPool, poolDistribution, getKey, isText, getIndex, intValue, iterItems, bind,
    Except.bind, pure, Except.pure, foldlM_poolStep]

def sampleDreps : List DRep := [⟨false, [1, 2, 3], 100⟩, ⟨true, [4], 7⟩]

def samplePools : List Pool := [⟨[1, 2, 3], 10, 11⟩, ⟨[5], 1, 2⟩]

theorem convertGovernance_sampleLog : ∃ out, convertGovernance .asciiOnly sampleLog
    (fun ee => some (drepDistribution .none ee sampleDreps))
    (fun ee => some (poolDistribution .none ee samplePools)) = .ok out := by
  rw [convertGovernance, readLog_sampleLog]
  exact ⟨_, rfl⟩

theorem getD_mem_or_default {α : Type} (l : List α) (n : Nat) (d : α) : l.getD n d ∈ l ∨
    l.getD n d = d := by
  induction l generalizing n with
  | nil => simp
  | cons x l inductionHypothesis =>
    cases n with
    | zero => simp
    | succ n => simpa using (inductionHypothesis n).imp_left (List.mem_cons_of_mem x)

theorem base64Digit_plain (n : Nat) : Json.isPlain (base64Digit n) := by
  have alphabet : ∀ c ∈ base64Alphabet, Json.isPlain c := by decide
  rcases getD_mem_or_default base64Alphabet n '=' with member | equals
  · exact alphabet _ member
  · rw [base64Digit, equals]
    decide

theorem b64encode_plain : ∀ bs : List UInt8, ∀ c ∈ b64encode bs, Json.isPlain c
  | [] => by simp [b64encode]
  | [_] => by
    simp only
        [b64encode, List.forall_mem_cons, List.not_mem_nil, false_implies, implies_true, and_true]
    exact ⟨base64Digit_plain _, base64Digit_plain _, by decide, by decide⟩
  | [_, _] => by
    simp only
        [b64encode, List.forall_mem_cons, List.not_mem_nil, false_implies, implies_true, and_true]
    exact ⟨base64Digit_plain _, base64Digit_plain _, base64Digit_plain _, by decide⟩
  | _ :: _ :: _ :: rest => by
    simp only
        [b64encode, List.forall_mem_append, List.forall_mem_cons, List.not_mem_nil, false_implies,
      implies_true, and_true]
    exact ⟨⟨base64Digit_plain _, base64Digit_plain _, base64Digit_plain _, base64Digit_plain _⟩,
      b64encode_plain rest⟩


theorem intercalate_comma_cons (line : List Char) (lines : List (List Char)) :
    [','].intercalate (line :: lines) = line ++ lines.flatMap (',' :: ·) := by
  induction lines generalizing line with
  | nil => simp [List.intercalate]
  | cons next lines inductionHypothesis =>
    have split : [','].intercalate (line :: next :: lines) =
        line ++ [','] ++ [','].intercalate (next :: lines) := by
      simp [List.intercalate, List.intersperse]
    rw [split, inductionHypothesis]
    simp

theorem foldl_writeLines (lines : List (List Char)) (text : List Char) :
    (lines.foldl (fun (written : List Char × Bool) line =>
      ((if written.2 then written.1 ++ [','] else written.1) ++ line, true)) (text, true)).1 =
      text ++ lines.flatMap (',' :: ·) := by
  induction lines generalizing text with
  | nil => simp
  | cons line lines inductionHypothesis => simp [inductionHypothesis]

theorem writeLines_eq (lines : List (List Char)) :
    writeLines lines = '[' :: [','].intercalate lines ++ "]\n".data := by
  cases lines with
  | nil => rfl
  | cons line lines =>
    rw [writeLines, List.foldl_cons, intercalate_comma_cons]
    simp [foldl_writeLines]

theorem loads_writeLines {items : List Json} (plainAll : ∀ item ∈ items, Json.plain item) :
    Json.loads (writeLines (items.map fun item => Json.render item ++ ['\n'])) =
        some (.arr items) := by
  have read := Json.loads_layout (show ∀ c ∈ ['\n'], Json.isSpace c by decide) plainAll
  rw [writeLines_eq]
  simpa [Json.layout] using read

theorem distributionLine_render (a : Int) (items : List Json) :
    distributionLine (a, [','].intercalate (items.map Json.render)) =
      Json.render (.arr [.num a, .arr items]) ++ ['\n'] := by
  simp [distributionLine, Json.render, Json.renderItems, Json.renderItems_eq_layout, Json.layout]


theorem mapM_except_forall₂ {α β ε : Type} {f : α → Except ε β} :
    ∀ {l : List α} {l' : List β}, l.mapM f = .ok l' → List.Forall₂ (fun a b => f a = .ok b) l l'
  | [], l', run => by
    cases run
    exact .nil
  | a :: l, l', run => by
    rw [List.mapM_cons] at run
    simp only [bind, Except.bind] at run
    split at run
    · cases run
    split at run
    · cases run
    cases run
    exact .cons ‹_› (mapM_except_forall₂ ‹_›)

theorem convertGovernance_ok {u : UnicodeData} {log : List (List Char)}
    {drepFile poolFile : Int → Option PyVal} {out : Outputs}
    (run : convertGovernance u log drepFile poolFile = .ok out) :
    ∃ state, readLog u log = .ok state ∧
      ∃ converted : List
          ((Int × List Char) × (Int × List Char) × List (Int × List Char × List Char)),
        List.Forall₂ (fun ee c => convertDrep u state.allVotersHash (drepFile ee) = .ok c.1 ∧
          convertPool u state.allVotersHash (poolFile ee) = .ok c.2.1 ∧
          c.2.2 = convertVotes state.votesHash ee) epochs converted ∧
        out = {
          drepState := writeLines (converted.map fun c => distributionLine c.1)
          poolState := writeLines (converted.map fun c => distributionLine c.2.1)
          votingState := writeLines (converted.flatMap fun c => c.2.2.map votesLine)
          paramState := writeParams state.paramHash
          epochPoolStats := writeLines ((state.epochData.mergeSort tupleLe).map statsLine) } := by
  unfold convertGovernance at run
  simp only [bind, Except.bind] at run
  split at run
  · cases run
  rename_i state read
  split at run
  · cases run
  rename_i converted perEpoch
  cases run
  refine ⟨state, read, converted, (mapM_except_forall₂ perEpoch).imp fun ee c step => ?_, rfl⟩
  simp only [bind, Except.bind] at step
  split at step
  · cases step
  split at step
  · cases step
  cases step
  exact ⟨‹_›, ‹_›, rfl⟩

theorem map_eq_of_forall₂ {α β γ : Type} {R : α → β → Prop} {f : β → γ} {g : α → γ} :
    ∀ {l : List α} {l' : List β}, (∀ a ∈ l, ∀ b, R a b → f b = g a) → List.Forall₂ R l l' →
      l'.map f = l.map g
  | _, _, _, .nil => rfl
  | a :: l, b :: l', same, .cons here rest => by
    rw [List.map_cons, List.map_cons, same a (List.mem_cons_self a l) b here,
      map_eq_of_forall₂ (fun a member => same a (List.mem_cons_of_mem _ member)) rest]


theorem DRep.plain_json (d : DRep) : Json.plain d.json := by
  simpa [DRep.json, Json.plain, Json.plainItems, DRep.key, List.all_eq_true] using b64encode_plain _

theorem Pool.plain_json (p : Pool) : Json.plain p.json := by
  simpa [Pool.json, Json.plain, Json.plainItems, Pool.key, List.all_eq_true] using b64encode_plain _

/-- The entry of `drep_state.json` for a file of DReps of `epoch`. -/
def drepEntry (voters : List (String × Nat)) (epoch : Int) (dreps : List DRep) : Json :=
  .arr [.num (epoch + 1), .arr ((dreps.filter (DRep.voted voters)).map DRep.json)]

/-- The entry of `pool_state.json` for a file of pools of `epoch`. -/
def poolEntry (voters : List (String × Nat)) (epoch : Int) (pools : List Pool) : Json :=
  .arr [.num (epoch + 1), .arr ((pools.filter (Pool.voted voters)).map Pool.json)]

theorem loads_drepState {u : UnicodeData} {log : List (List Char)}
    {drepFile poolFile : Int → Option PyVal} {out : Outputs} {state : LogState}
    (read : readLog u log = .ok state) (run : convertGovernance u log drepFile poolFile = .ok out)
    (distribution : Int → PyVal × Int × List DRep)
    (files : ∀ ee ∈ epochs, drepFile ee =
      some (drepDistribution (distribution ee).1 (distribution ee).2.1 (distribution ee).2.2)) :
    Json.loads out.drepState = some (.arr (epochs.map fun ee =>
      drepEntry state.allVotersHash (distribution ee).2.1 (distribution ee).2.2)) := by
  obtain ⟨state', read', converted, perEpoch, rfl⟩ := convertGovernance_ok run
  obtain rfl : state' = state := Except.ok.inj (read'.symm.trans read)
  have lines : converted.map (fun c => distributionLine c.1) =
      (epochs.map fun ee => drepEntry state'.allVotersHash (distribution ee).2.1
        (distribution ee).2.2).map fun item => Json.render item ++ ['\n'] := by
    rw [List.map_map]
    refine map_eq_of_forall₂ (fun ee member c converts => ?_) perEpoch
    rw [files ee member, convertDrep_distribution] at converts
    rw [← Except.ok.inj converts.1]
    simpa [List.map_map, Function.comp_def] using distributionLine_render _
      (((distribution ee).2.2.filter (DRep.voted state'.allVotersHash)).map DRep.json)
  refine lines ▸ loads_writeLines fun item member => ?_
  obtain ⟨ee, -, rfl⟩ := List.mem_map.mp member
  simp only [drepEntry, Json.plain, Json.plainItems, Json.plainItems_iff, List.mem_map,
    List.mem_filter, Bool.and_true, Bool.true_and]
  rintro _ ⟨d, -, rfl⟩
  exact DRep.plain_json d

/-- When the file `drep/drep-ee.json` of every epoch from 507 to 574 holds its
DReps in the layout of the replay, `drep_state.json` is a JSON array with one
entry per epoch, in order: the epoch the file names plus one, and
`[keytype, key, lovelace]` for each DRep of the file, in order, whose key is in
`all_voters_hash`. -/
theorem convertGovernance_drepState {u : UnicodeData} {log : List (List Char)}
    {drepFile poolFile : Int → Option PyVal} {out : Outputs} {state : LogState}
    (read : readLog u log = .ok state) (run : convertGovernance u log drepFile poolFile = .ok out)
    (distribution : Int → PyVal × Int × List DRep)
    (files : ∀ ee ∈ epochs, drepFile ee =
      some (drepDistribution (distribution ee).1 (distribution ee).2.1 (distribution ee).2.2)) :
    Json.loads out.drepState = some (.arr (epochs.map fun ee =>
      drepEntry state.allVotersHash (distribution ee).2.1 (distribution ee).2.2)) :=
  loads_drepState read run distribution files

theorem convertGovernance_drepState_sampleLog : ∃ out, convertGovernance .asciiOnly sampleLog
    (fun ee => some (drepDistribution .none ee sampleDreps))
    (fun ee => some (poolDistribution .none ee samplePools)) = .ok out ∧
    Json.loads out.drepState = some (.arr (epochs.map fun ee =>
      drepEntry sampleState.allVotersHash ee sampleDreps)) := by
  obtain ⟨out, run⟩ := convertGovernance_sampleLog
  exact ⟨out, run,
      convertGovernance_drepState readLog_sampleLog run (fun ee => (.none, ee, sampleDreps))
    fun _ _ => rfl⟩


theorem loads_poolState {u : UnicodeData} {log : List (List Char)}
    {drepFile poolFile : Int → Option PyVal} {out : Outputs} {state : LogState}
    (read : readLog u log = .ok state) (run : convertGovernance u log drepFile poolFile = .ok out)
    (distribution : Int → PyVal × Int × List Pool)
    (files : ∀ ee ∈ epochs, poolFile ee =
      some (poolDistribution (distribution ee).1 (distribution ee).2.1 (distribution ee).2.2)) :
    Json.loads out.poolState = some (.arr (epochs.map fun ee =>
      poolEntry state.allVotersHash (distribution ee).2.1 (distribution ee).2.2)) := by
  obtain ⟨state', read', converted, perEpoch, rfl⟩ := convertGovernance_ok run
  obtain rfl : state' = state := Except.ok.inj (read'.symm.trans read)
  have lines : converted.map (fun c => distributionLine c.2.1) =
      (epochs.map fun ee => poolEntry state'.allVotersHash (distribution ee).2.1
        (distribution ee).2.2).map fun item => Json.render item ++ ['\n'] := by
    rw [List.map_map]
    refine map_eq_of_forall₂ (fun ee member c converts => ?_) perEpoch
    rw [files ee member, convertPool_distribution] at converts
    rw [← Except.ok.inj converts.2.1]
    simpa [List.map_map, Function.comp_def] using distributionLine_render _
      (((distribution ee).2.2.filter (Pool.voted state'.allVotersHash)).map Pool.json)
  refine lines ▸ loads_writeLines fun item member => ?_
  obtain ⟨ee, -, rfl⟩ := List.mem_map.mp member
  simp only [poolEntry, Json.plain, Json.plainItems, Json.plainItems_iff, List.mem_map,
    List.mem_filter, Bool.and_true, Bool.true_and]
  rintro _ ⟨p, -, rfl⟩
  exact Pool.plain_json p

theorem convertGovernance_poolState {u : UnicodeData} {log : List (List Char)}
    {drepFile poolFile : Int → Option PyVal} {out : Outputs} {state : LogState}
    (read : readLog u log = .ok state) (run : convertGovernance u log drepFile poolFile = .ok out)
    (distribution : Int → PyVal × Int × List Pool)
    (files : ∀ ee ∈ epochs, poolFile ee =
      some (poolDistribution (distribution ee).1 (distribution ee).2.1 (distribution ee).2.2)) :
    Json.loads out.poolState = some (.arr (epochs.map fun ee =>
      poolEntry state.allVotersHash (distribution ee).2.1 (distribution ee).2.2)) :=
  loads_poolState read run distribution files

theorem convertGovernance_poolState_sampleLog : ∃ out, convertGovernance .asciiOnly sampleLog
    (fun ee => some (drepDistribution .none ee sampleDreps))
    (fun ee => some (poolDistribution .none ee samplePools)) = .ok out ∧
    Json.loads out.poolState = some (.arr (epochs.map fun ee =>
      poolEntry sampleState.allVotersHash ee samplePools)) := by
  obtain ⟨out, run⟩ := convertGovernance_sampleLog
  exact ⟨out, run,
      convertGovernance_poolState readLog_sampleLog run (fun ee => (.none, ee, samplePools))
    fun _ _ => rfl⟩

/-- Both distribution files keep, for each epoch, exactly the DReps and pools of
the file whose key voted on some action filed in `votes_hash`, under any epoch:
also under an epoch outside 507..574, whose actions `voting_state.json` never
lists. -/
theorem convertGovernance_stakeStates {u : UnicodeData} {log : List (List Char)}
    {drepFile poolFile : Int → Option PyVal} {out : Outputs} {state : LogState}
    (read : readLog u log = .ok state) (run : convertGovernance u log drepFile poolFile = .ok out)
    (dreps : Int → PyVal × Int × List DRep)
    (drepFiles : ∀ ee ∈ epochs, drepFile ee =
        some (drepDistribution (dreps ee).1 (dreps ee).2.1 (dreps ee).2.2))
    (pools : Int → PyVal × Int × List Pool)
    (poolFiles : ∀ ee ∈ epochs, poolFile ee =
        some (poolDistribution (pools ee).1 (pools ee).2.1 (pools ee).2.2)) :
    Json.loads out.drepState = some (.arr (epochs.map fun ee => .arr [.num ((dreps ee).2.1 + 1),
      .arr (((dreps ee).2.2.filter fun d => votedIn state.votesHash d.key).map DRep.json)])) ∧
    Json.loads out.poolState = some (.arr (epochs.map fun ee => .arr [.num ((pools ee).2.1 + 1),
      .arr (((pools ee).2.2.filter fun p => votedIn state.votesHash p.key).map Pool.json)])) := by
  have drepVoted : DRep.voted state.allVotersHash = fun d => votedIn state.votesHash d.key :=
    funext fun d => voted_readLog read d.key
  have poolVoted : Pool.voted state.allVotersHash = fun p => votedIn state.votesHash p.key :=
    funext fun p => voted_readLog read p.key
  have drepState := loads_drepState read run dreps drepFiles
  have poolState := loads_poolState read run pools poolFiles
  simp only [drepEntry, poolEntry, drepVoted, poolVoted] at drepState poolState
  exact ⟨drepState, poolState⟩

theorem convertGovernance_stakeStates_sampleLog : ∃ out, convertGovernance .asciiOnly sampleLog
    (fun ee => some (drepDistribution .none ee sampleDreps))
    (fun ee => some (poolDistribution .none ee samplePools)) = .ok out ∧
    Json.loads out.drepState = some (.arr (epochs.map fun ee => .arr [.num (ee + 1),
      .arr ((sampleDreps.filter fun d => votedIn sampleState.votesHash d.key).map DRep.json)])) ∧
    Json.loads out.poolState = some (.arr (epochs.map fun ee => .arr [.num (ee + 1),
      .arr ((samplePools.filter fun p => votedIn sampleState.votesHash p.key).map
          Pool.json)])) := by
  obtain ⟨out, run⟩ := convertGovernance_sampleLog
  exact ⟨out, run,
      convertGovernance_stakeStates readLog_sampleLog run (fun ee => (.none, ee, sampleDreps))
    (fun _ _ => rfl) (fun ee => (.none, ee, samplePools)) fun _ _ => rfl⟩

theorem toString_natCast (n : Nat) : toString (n : Int) = toString n := rfl

/-- The voters of one value as `voting_state.json` holds them: `[key_type, key]` each. -/
def votersJson (voters : List (Nat × String)) : Json :=
  .arr (voters.map fun voter => .arr [.num voter.1, .str voter.2.data])

/-- An action filed under `ee`: `[ee, action, [[yes...], [no...], [abstain...]]]`. -/
def actionJson (ee : Int) (action : List Char × Votes) : Json :=
  .arr [.num ee, .str action.1,
    .arr [votersJson action.2.yes, votersJson action.2.no, votersJson action.2.abstain]]

theorem render_votersJson (voters : List (Nat × String)) :
    Json.render (votersJson voters) = '[' :: votersText voters ++ [']'] := by
  simp [votersJson, votersText, Json.render, Json.renderItems_eq_layout, Json.layout,
    Function.comp_def, Json.renderItems, toString_natCast]

theorem votesLines_convertVotes (votesHash : List (Int × List (List Char × Votes))) (ee : Int) :
    (convertVotes votesHash ee).map votesLine =
      ((getItem votesHash ee).getD []).map fun action => Json.render (actionJson ee action) ++
          ['\n'] := by
  unfold convertVotes
  cases getItem votesHash ee with
  | none => rfl
  | some actions =>
    simp only [Option.getD_some, List.map_map]
    refine List.map_congr_left fun action _ => ?_
    simp [votesLine, actionJson, Json.render.eq_1, Json.render.eq_2, Json.render.eq_3,
      Json.renderItems, render_votersJson]


theorem actionJson_plain (ee : Int) {action : List Char × Votes}
    (plainAction : ∀ c ∈ action.1, Json.isPlain c)
    (base64 : ∀ key ∈ action.2.keys, ∃ bs, key = String.mk (b64encode bs)) :
    Json.plain (actionJson ee action) := by
  have keyPlain : ∀ voter ∈ action.2.yes ++ action.2.no ++ action.2.abstain,
      voter.2.data.all Json.isPlain := by
    intro voter member
    obtain ⟨bs, same⟩ := base64 voter.2 (List.mem_map_of_mem _ member)
    simpa [same, List.all_eq_true] using b64encode_plain bs
  simp only [List.mem_append] at keyPlain
  simp only [actionJson, votersJson, Json.plain, Json.plainItems, Json.plainItems_iff, List.mem_map,
    Bool.and_true, Bool.true_and, Bool.and_eq_true, List.all_eq_true]
  refine ⟨plainAction, ?_, ?_, ?_⟩ <;> rintro _ ⟨voter, member, rfl⟩ <;>
    simpa [Json.plain, Json.plainItems] using keyPlain voter (by simp [member])

/-- When no action id read from the log holds a quote, a backslash or a control
character, `voting_state.json` is a JSON array of
`[ee, action, [[yes...], [no...], [abstain...]]]` for each epoch `ee` from 507
to 574 and each action filed under it, in the order of the log, every voter as
`[key_type, key]`. -/
theorem convertGovernance_votingState {u : UnicodeData} {log : List (List Char)}
    {drepFile poolFile : Int → Option PyVal} {out : Outputs} {state : LogState}
    (read : readLog u log = .ok state) (run : convertGovernance u log drepFile poolFile = .ok out)
    (plainActions : ∀ v ∈ log, ∀ e action w, matchEpochStart u v = some (e, action, w) →
      ∀ c ∈ action, Json.isPlain c) :
    Json.loads out.votingState = some (.arr (epochs.flatMap fun ee =>
      ((getItem state.votesHash ee).getD []).map (actionJson ee))) := by
  obtain ⟨state', read', converted, perEpoch, rfl⟩ := convertGovernance_ok run
  obtain rfl : state' = state := Except.ok.inj (read'.symm.trans read)
  have lines : converted.flatMap (fun c => c.2.2.map votesLine) =
      (epochs.flatMap fun ee => ((getItem state'.votesHash ee).getD []).map (actionJson ee)).map
        fun item => Json.render item ++ ['\n'] := by
    rw [List.map_flatMap]
    exact congrArg List.flatten (map_eq_of_forall₂ (fun ee _ c converts => by
      rw [converts.2.2, votesLines_convertVotes, List.map_map]; rfl) perEpoch)
  have filed := readLog_filedFrom read'
  refine lines ▸ loads_writeLines fun item member => ?_
  obtain ⟨ee, -, member⟩ := List.mem_flatMap.mp member
  obtain ⟨action, filedUnder, rfl⟩ := List.mem_map.mp member
  cases found : getItem state'.votesHash ee with
  | none => simp [found] at filedUnder
  | some actions =>
    rw [found, Option.getD_some] at filedUnder
    obtain ⟨⟨v, line, e, w, matched⟩, base64⟩ := filed ee actions found action filedUnder
    exact actionJson_plain ee (plainActions v line e action.1 w matched) base64

set_option maxRecDepth 1000 in
theorem convertGovernance_votingState_sampleLog : ∃ out, convertGovernance .asciiOnly sampleLog
    (fun ee => some (drepDistribution .none ee sampleDreps))
    (fun ee => some (poolDistribution .none ee samplePools)) = .ok out ∧
    Json.loads out.votingState = some (.arr (epochs.flatMap fun ee =>
      ((getItem sampleState.votesHash ee).getD []).map (actionJson ee))) := by
  have starts : sampleLog.map (matchEpochStart .asciiOnly) =
      [some ("508".data, "gov_action1a".data,
          "DRepKey([1, 2, 3]): ([9], VotingProcedure \x7b vote: Yes".data),
        none, none] := by decide
  obtain ⟨out, run⟩ := convertGovernance_sampleLog
  refine ⟨out, run,
      convertGovernance_votingState readLog_sampleLog run fun v line e action w matched => ?_⟩
  have read := starts ▸ List.mem_map_of_mem (matchEpochStart .asciiOnly) line
  simp only [matched, List.mem_cons, Option.some.injEq, Prod.mk.injEq, reduceCtorEq, or_false,
    List.mem_nil_iff] at read
  rw [read.2.1]
  decide


/-- `[epoch, spos, dreps, no_confidence, abstain]` -/
def statsJson (ed : Int × Int × Int × Int × Int) : Json :=
  .arr [.num ed.1, .num ed.2.1, .num ed.2.2.1, .num ed.2.2.2.1, .num ed.2.2.2.2]

theorem statsLine_render (ed : Int × Int × Int × Int × Int) :
    statsLine ed = Json.render (statsJson ed) ++ ['\n'] := by
  simp [statsLine, statsJson, Json.render, Json.renderItems, List.intercalate]

theorem lex_trans {x y z : Int} {p q r : Bool} (later : p = true → q = true → r = true) :
    (decide (x < y) || decide (x = y) && p) = true → (decide (y < z) || decide (y = z) && q) =
        true →
      (decide (x < z) || decide (x = z) && r) = true := by
  simp only [Bool.or_eq_true, Bool.and_eq_true, decide_eq_true_eq]
  rintro (xy | ⟨rfl, here⟩) (yz | ⟨rfl, there⟩)
  · exact .inl (xy.trans yz)
  · exact .inl xy
  · exact .inl yz
  · exact .inr ⟨rfl, later here there⟩

theorem tupleLe_trans (a b c : Int × Int × Int × Int × Int) :
    tupleLe a b = true → tupleLe b c = true → tupleLe a c = true := by
  obtain ⟨a₁, a₂, a₃, a₄, a₅⟩ := a
  obtain ⟨b₁, b₂, b₃, b₄, b₅⟩ := b
  obtain ⟨c₁, c₂, c₃, c₄, c₅⟩ := c
  exact lex_trans (lex_trans (lex_trans (lex_trans fun ab bc =>
    decide_eq_true ((of_decide_eq_true ab).trans (of_decide_eq_true bc)))))

theorem tupleLe_total (a b : Int × Int × Int × Int × Int) : (tupleLe a b || tupleLe b a) =
    true := by
  obtain ⟨a₁, a₂, a₃, a₄, a₅⟩ := a
  obtain ⟨b₁, b₂, b₃, b₄, b₅⟩ := b
  simp only [tupleLe, Bool.or_eq_true, Bool.and_eq_true, decide_eq_true_eq]
  omega

/-- `epoch_pool_stats.json` is a JSON array of the five numbers of every
statistics line of the log, `[epoch, spos, dreps, no_confidence, abstain]`, in
the order of Python's tuple comparison. -/
theorem convertGovernance_epochPoolStats {u : UnicodeData} {log : List (List Char)}
    {drepFile poolFile : Int → Option PyVal} {out : Outputs}
    (run : convertGovernance u log drepFile poolFile = .ok out) :
    ∃ sorted : List (Int × Int × Int × Int × Int), sorted.Perm (log.filterMap (statsOf u)) ∧
        sorted.Pairwise (fun a b => tupleLe a b) ∧
      Json.loads out.epochPoolStats = some (.arr (sorted.map statsJson)) := by
  obtain ⟨state, read, -, -, rfl⟩ := convertGovernance_ok run
  refine ⟨state.epochData.mergeSort tupleLe, readLog_epochData read ▸ List.mergeSort_perm _ _,
    List.sorted_mergeSort tupleLe_trans tupleLe_total _, ?_⟩
  have lines : (state.epochData.mergeSort tupleLe).map statsLine =
      ((state.epochData.mergeSort tupleLe).map statsJson).map fun item => Json.render item ++
          ['\n'] := by
    simp [List.map_map, Function.comp_def, statsLine_render]
  refine lines ▸ loads_writeLines fun item member => ?_
  obtain ⟨ed, -, rfl⟩ := List.mem_map.mp member
  rfl

theorem convertGovernance_epochPoolStats_sampleLog : ∃ out, convertGovernance .asciiOnly sampleLog
    (fun ee => some (drepDistribution .none ee sampleDreps))
    (fun ee => some (poolDistribution .none ee samplePools)) = .ok out ∧
    ∃ sorted : List (Int × Int × Int × Int × Int),
      sorted.Perm (sampleLog.filterMap (statsOf .asciiOnly)) ∧
          sorted.Pairwise (fun a b => tupleLe a b) ∧
        Json.loads out.epochPoolStats = some (.arr (sorted.map statsJson)) := by
  obtain ⟨out, run⟩ := convertGovernance_sampleLog
  exact ⟨out, run, convertGovernance_epochPoolStats run⟩

theorem writeParams_eq (paramHash : List (Int × List Char)) :
    writeParams paramHash =
      writeLines
          (paramHash.map fun e => '[' :: (toString e.1).data ++ [','] ++ e.2 ++ "]\n".data) := by
  rw [writeParams, writeLines, List.foldl_map]
  congr 3
  funext ⟨text, first⟩ e
  cases first <;> simp

/-- `param_state.json` holds one line `[epoch,params]` per epoch of the NPPX
lines of the log, in the order the epochs first appear, each with the text of
the last NPPX line of its epoch. -/
theorem convertGovernance_paramState {u : UnicodeData} {log : List (List Char)}
    {drepFile poolFile : Int → Option PyVal} {out : Outputs}
    (run : convertGovernance u log drepFile poolFile = .ok out) :
    out.paramState =
        writeLines ((((log.filterMap (paramsOf u)).map Prod.fst).reverse.dedup.reverse).map
      fun e => '[' :: (toString e).data ++ [','] ++
        (((log.filterMap (paramsOf u)).reverse.find? (·.1 = e)).map Prod.snd).getD [] ++
            "]\n".data) := by
  obtain ⟨state, read, -, -, rfl⟩ := convertGovernance_ok run
  have distinct : ((dictOf (log.filterMap (paramsOf u))).map Prod.fst).Nodup := by
    rw [keys_dictOf]
    exact List.nodup_reverse.mpr (List.nodup_dedup _)
  rw [writeParams_eq, readLog_paramHash read,
    map_eq_map_keys
        (fun k v => '[' :: (toString k).data ++ [','] ++ v ++ "]\n".data) distinct, keys_dictOf]
  simp only [getItem_dictOf]
  rfl

theorem convertGovernance_paramState_sampleLog : ∃ out, convertGovernance .asciiOnly sampleLog
    (fun ee => some (drepDistribution .none ee sampleDreps))
    (fun ee => some (poolDistribution .none ee samplePools)) = .ok out ∧
    out.paramState = writeLines
      ((((sampleLog.filterMap (paramsOf .asciiOnly)).map Prod.fst).reverse.dedup.reverse).map
        fun e => '[' :: (toString e).data ++ [','] ++
          (((sampleLog.filterMap (paramsOf .asciiOnly)).reverse.find? (·.1 = e)).map Prod.snd).getD [] ++
          "]\n".data) := by
  obtain ⟨out, run⟩ := convertGovernance_sampleLog
  exact ⟨out, run, convertGovernance_paramState run⟩

end Acropolis.Governance
