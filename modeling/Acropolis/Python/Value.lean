import Mathlib

/-!
# Python objects decoded from a snapshot header

The objects `cbor2.load` builds, and the operations `parse_cbor_header` applies
to them: truthiness, `is None`, `dict.get` with an integer key, `.hex()` and
`> 0`. A `float` is kept as its binary64 bit pattern, so that each operation is
computed as CPython computes it.
-/

namespace Acropolis.Python

/-- A lowercase hexadecimal digit. -/
def hexDigit (n : Nat) : Char :=
  if n < 10 then Char.ofNat (48 + n) else Char.ofNat (87 + n)

/-- The `width` lowest hexadecimal digits of `v`, most significant first. -/
def hexDigits : Nat → Nat → List Char
  | 0, _ => []
  | width + 1, v => hexDigits width (v / 16) ++ [hexDigit (v % 16)]

/-- `bytes.hex()`: two lowercase digits per byte. -/
def bytesHex (b : List UInt8) : String :=
  String.mk (b.flatMap fun byte => hexDigits 2 byte.toNat)

/-- `bytes(values)`; `none` is the `ValueError` of a value outside `range(0, 256)`. -/
def bytesOf (values : List Int) : Option (List UInt8) :=
  values.mapM fun v => if 0 ≤ v ∧ v < 256 then some v.toNat.toUInt8 else none

/-- The alphabet of `base64.b64encode`: RFC 4648, table 1. -/
def base64Alphabet : List Char :=
  "ABCDEFGHIJKLMNOPQRSTUVWXYZabcdefghijklmnopqrstuvwxyz0123456789+/".data

def base64Digit (n : Nat) : Char := base64Alphabet.getD n '='

/-- `base64.b64encode(data)`: four digits for each three bytes, the last group
padded with `=`. -/
def b64encode : List UInt8 → List Char
  | [] => []
  | [a] => [base64Digit (a.toNat / 4), base64Digit (a.toNat % 4 * 16), '=', '=']
  | [a, b] =>
    [base64Digit (a.toNat / 4), base64Digit (a.toNat % 4 * 16 + b.toNat / 16),
      base64Digit (b.toNat % 16 * 4), '=']
  | a :: b :: c :: rest =>
    [base64Digit (a.toNat / 4), base64Digit (a.toNat % 4 * 16 + b.toNat / 16),
      base64Digit (b.toNat % 16 * 4 + c.toNat / 64), base64Digit (c.toNat % 64)] ++
      b64encode rest

/-- A Python `float`: the 64 bits of its IEEE 754 binary64 encoding. -/
structure PyFloat where
  bits : UInt64
  deriving DecidableEq, Repr

namespace PyFloat

def negative (x : PyFloat) : Bool := 2 ^ 63 ≤ x.bits.toNat

def exponent (x : PyFloat) : Nat := x.bits.toNat / 2 ^ 52 % 2 ^ 11

def fraction (x : PyFloat) : Nat := x.bits.toNat % 2 ^ 52

/-- `x == 0.0`, true of both signed zeros. -/
def isZero (x : PyFloat) : Bool := x.exponent = 0 && x.fraction = 0

def isNaN (x : PyFloat) : Bool := x.exponent = 2047 && x.fraction ≠ 0

/-- `x > 0`: false for zeros, negatives and NaN. -/
def positive (x : PyFloat) : Bool := !x.negative && !x.isZero && !x.isNaN

/-- The integer a finite float equals, when it equals one. -/
def toInt? (x : PyFloat) : Option Int :=
  if x.exponent = 2047 then none
  else if x.exponent = 0 then (if x.fraction = 0 then some 0 else none)
  else
    let m := 2 ^ 52 + x.fraction
    let magnitude : Option Nat :=
      if 1075 ≤ x.exponent then some (m * 2 ^ (x.exponent - 1075))
      else if m % 2 ^ (1075 - x.exponent) = 0 then some (m / 2 ^ (1075 - x.exponent))
      else none
    magnitude.map fun k => if x.negative then -(k : Int) else k

/-- `float.hex()`: a leading `1.` (or `0.` below the normal range), the 52
fraction bits as 13 hexadecimal digits, and the binary exponent in decimal. -/
def hex (x : PyFloat) : String :=
  if x.exponent = 2047 then
    if x.fraction ≠ 0 then "nan" else if x.negative then "-inf" else "inf"
  else
    let sign := if x.negative then "-" else ""
    if x.isZero then sign ++ "0x0.0p+0"
    else
      let lead := if x.exponent = 0 then "0" else "1"
      let e : Int := if x.exponent = 0 then -1022 else x.exponent - 1023
      sign ++ "0x" ++ lead ++ "." ++ String.mk (hexDigits 13 x.fraction) ++ "p" ++
        (if e < 0 then "-" else "+") ++ toString e.natAbs

end PyFloat

/-- The objects `cbor2.load` returns. `tag` is a `CBORTag` object, `simple` a
`CBORSimpleValue`; a `dict` keeps the decoded entries in order, duplicates
included. -/
inductive PyVal where
  | none
  | bool (b : Bool)
  | int (i : Int)
  | float (x : PyFloat)
  | bytes (b : List UInt8)
  | str (s : String)
  | list (items : List PyVal)
  | dict (entries : List (PyVal × PyVal))
  | undefined
  | simple (n : Nat)
  | breakMarker
  | tag (n : Nat) (value : PyVal)

/-- The exceptions the modelled scripts can raise. -/
inductive PyError where
  | attributeError
  | typeError
  | valueError
  | keyError
  | fileNotFound
  /-- Not an exception: the model does not decide what happens (`cbor2` built an
  object it does not follow). -/
  | unmodelled
  deriving DecidableEq, Repr

namespace PyVal

/-- `bool(v)`. -/
def truthy : PyVal → Bool
  | none => false
  | bool b => b
  | int i => i ≠ 0
  | float x => !x.isZero
  | bytes b => !b.isEmpty
  | str s => !s.isEmpty
  | list items => !items.isEmpty
  | dict entries => !entries.isEmpty
  | undefined => false
  | simple _ => true
  | breakMarker => true
  | tag _ _ => true

/-- `v is None`. -/
def isNone : PyVal → Bool
  | none => true
  | _ => false

/-- Whether `v` is found as the dict key `k`: equal to it, with the same hash. -/
def eqInt : PyVal → Int → Bool
  | bool b, k => (if b then 1 else 0) = k
  | int i, k => i = k
  | float x, k => x.toInt? = some k
  | _, _ => false

/-- `d.get(k)`: every entry is stored in turn, so the value found is that of the
last entry whose key equals `k`. -/
def dictGet (entries : List (PyVal × PyVal)) (k : Int) : Option PyVal :=
  entries.foldl (fun found e => if e.1.eqInt k then some e.2 else found) Option.none

/-- `v.hex()`; `none` is the `AttributeError` of a class without that method. -/
def hex? : PyVal → Option String
  | bytes b => some (bytesHex b)
  | float x => some x.hex
  | _ => .none

/-- `v > 0`; `none` is the `TypeError` of a class not ordered against `int`,
`CBORSimpleValue` among them: in `cbor2` 5.4 it is a named tuple. -/
def gtZero? : PyVal → Option Bool
  | bool b => some b
  | int i => some (0 < i)
  | float x => some x.positive
  | _ => .none

/-- `v or 0`. -/
def orZero (v : PyVal) : PyVal := if v.truthy then v else int 0

end PyVal

section Dict

variable {κ ν : Type} [DecidableEq κ]

/-- `d[k] = v` on a dict kept as its entries in insertion order: a new key goes
last, a present key keeps its place. -/
def setItem (d : List (κ × ν)) (k : κ) (v : ν) : List (κ × ν) :=
  if d.any (·.1 = k) then d.map (fun e => if e.1 = k then (k, v) else e) else d ++ [(k, v)]

/-- `d.get(k)`. -/
def getItem (d : List (κ × ν)) (k : κ) : Option ν :=
  (d.find? (·.1 = k)).map (·.2)

theorem mem_of_getItem {d : List (κ × ν)} {k : κ} {v : ν} (found : getItem d k = some v) :
    (k, v) ∈ d := by
  obtain ⟨⟨k', v⟩, search, rfl⟩ := Option.map_eq_some'.mp found
  obtain rfl : k' = k := by simpa using List.find?_some search
  exact List.mem_of_find?_eq_some search

/-- A dict display or comprehension: its entries set one after another. -/
def dictOf (entries : List (κ × ν)) : List (κ × ν) :=
  entries.foldl (fun d e => setItem d e.1 e.2) []

theorem mem_setItem {d : List (κ × ν)} {k : κ} {v : ν} {e : κ × ν}
    (member : e ∈ setItem d k v) : e ∈ d ∨ e = (k, v) := by
  unfold setItem at member
  split at member
  · obtain ⟨e', old, rfl⟩ := List.mem_map.mp member
    split
    · exact .inr rfl
    · exact .inl old
  · simpa only [List.mem_append, List.mem_singleton] using member

theorem mem_dictOf {entries : List (κ × ν)} {e : κ × ν} (member : e ∈ dictOf entries) :
    e ∈ entries := by
  suffices ∀ d, e ∈ entries.foldl (fun d e => setItem d e.1 e.2) d → e ∈ d ∨ e ∈ entries from
    (this [] member).resolve_left (List.not_mem_nil e)
  clear member
  induction entries with
  | nil => exact fun _ => .inl
  | cons x xs inductionHypothesis =>
    intro d member
    rw [List.foldl_cons] at member
    rcases inductionHypothesis _ member with old | later
    · rcases mem_setItem old with old | rfl
      · exact .inl old
      · exact .inr (List.mem_cons_self _ _)
    · exact .inr (List.mem_cons_of_mem x later)

theorem getItem_cons (e : κ × ν) (d : List (κ × ν)) (k' : κ) :
    getItem (e :: d) k' = if e.1 = k' then some e.2 else getItem d k' := by
  by_cases h : e.1 = k' <;> simp [getItem, List.find?_cons, h]

theorem getItem_map_set (d : List (κ × ν)) (k : κ) (v : ν) (k' : κ) :
    getItem (d.map fun e => if e.1 = k then (k, v) else e) k' =
      if k' = k then (if d.any (·.1 = k) then some v else none) else getItem d k' := by
  induction d with
  | nil => simp [getItem]
  | cons e d inductionHypothesis =>
    obtain ⟨a, b⟩ := e
    rw [List.map_cons, getItem_cons, getItem_cons, inductionHypothesis]
    by_cases here : a = k
    · subst here
      by_cases same : k' = a
      · subst same
        simp
      · simp [same, Ne.symm same]
    · by_cases same : k' = k
      · subst same
        simp only [ite_true, if_neg here, List.any_cons, decide_eq_false here, Bool.false_or]
      · simp [here, same]

theorem getItem_append_single (d : List (κ × ν)) (k : κ) (v : ν) (k' : κ) :
    getItem (d ++ [(k, v)]) k' = (getItem d k').or (if k = k' then some v else none) := by
  induction d with
  | nil => by_cases h : k = k' <;> simp [getItem, h]
  | cons e d inductionHypothesis =>
    rw [List.cons_append, getItem_cons, getItem_cons, inductionHypothesis]
    split <;> simp

theorem getItem_eq_none {d : List (κ × ν)} {k : κ} (absent : d.any (·.1 = k) = false) :
    getItem d k = none := by
  simpa [getItem, List.find?_eq_none] using absent

theorem getItem_setItem (d : List (κ × ν)) (k : κ) (v : ν) (k' : κ) :
    getItem (setItem d k v) k' = if k' = k then some v else getItem d k' := by
  unfold setItem
  split
  · rename_i present
    rw [getItem_map_set, if_pos present]
  · rename_i absent
    rw [getItem_append_single]
    by_cases same : k' = k
    · subst same
      simp [getItem_eq_none (Bool.eq_false_iff.mpr absent)]
    · simp [same, Ne.symm same]

theorem keys_setItem (d : List (κ × ν)) (k : κ) (v : ν) :
    (setItem d k v).map Prod.fst =
      if k ∈ d.map Prod.fst then d.map Prod.fst else d.map Prod.fst ++ [k] := by
  unfold setItem
  by_cases present : k ∈ d.map Prod.fst
  · have : d.any (·.1 = k) := by simpa using present
    simp only [this, if_true, present, List.map_map]
    exact List.map_congr_left fun e _ => by by_cases same : e.1 = k <;> simp [same]
  · have : d.any (·.1 = k) = false := Bool.eq_false_iff.mpr fun found => by
      obtain ⟨e, member, same⟩ := List.any_eq_true.mp found
      exact present (List.mem_map.mpr ⟨e, member, of_decide_eq_true same⟩)
    simp [this, present]

theorem nodup_keys_setItem {d : List (κ × ν)} (distinct : (d.map Prod.fst).Nodup) (k : κ)
    (v : ν) : ((setItem d k v).map Prod.fst).Nodup := by
  rw [keys_setItem]
  split
  · exact distinct
  · rename_i absent
    exact List.nodup_append.mpr
      ⟨distinct, List.nodup_singleton k, List.disjoint_singleton.mpr absent⟩

theorem keys_dictOf (entries : List (κ × ν)) :
    (dictOf entries).map Prod.fst = ((entries.map Prod.fst).reverse.dedup).reverse := by
  induction entries using List.reverseRecOn with
  | nil => rfl
  | append_singleton entries e inductionHypothesis =>
    rw [dictOf, List.foldl_append, List.foldl_cons, List.foldl_nil, ← dictOf, keys_setItem,
      inductionHypothesis, List.map_append, List.map_singleton, List.reverse_append,
          List.reverse_singleton,
      List.singleton_append]
    by_cases seen : e.1 ∈ entries.map Prod.fst
    · rw [List.dedup_cons_of_mem (List.mem_reverse.mpr seen),
        if_pos (by simpa [List.mem_dedup] using seen)]
    · rw [List.dedup_cons_of_not_mem (by simpa using seen),
        if_neg (by simpa [List.mem_dedup] using seen),
        List.reverse_cons]

theorem getItem_dictOf (entries : List (κ × ν)) (k : κ) :
    getItem (dictOf entries) k = (entries.reverse.find? (·.1 = k)).map Prod.snd := by
  induction entries using List.reverseRecOn with
  | nil => rfl
  | append_singleton entries e inductionHypothesis =>
    rw [dictOf, List.foldl_append, List.foldl_cons, List.foldl_nil, ← dictOf, getItem_setItem,
      inductionHypothesis, List.reverse_append, List.reverse_singleton, List.singleton_append]
    by_cases same : e.1 = k
    · simp [same]
    · simp [same, Ne.symm same]

theorem map_eq_map_keys [Inhabited ν] {β : Type} (f : κ → ν → β) :
    ∀ {d : List (κ × ν)}, (d.map Prod.fst).Nodup →
      d.map (fun e => f e.1 e.2) = (d.map Prod.fst).map fun k => f k ((getItem d k).getD default)
  | [], _ => rfl
  | e :: d, distinct => by
    rw [List.map_cons, List.nodup_cons] at distinct
    rw [List.map_cons, List.map_cons, List.map_cons, getItem_cons, if_pos rfl,
        map_eq_map_keys f distinct.2]
    refine congrArg _ (List.map_congr_left fun k member => ?_)
    rw [getItem_cons, if_neg fun same : e.1 = k => distinct.1 (same ▸ member)]

end Dict

end Acropolis.Python
