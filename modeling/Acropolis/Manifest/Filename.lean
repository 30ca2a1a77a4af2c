import Acropolis.Python.Text

/-!
# Block height and hash from a snapshot's file name

`derive_from_filename` reads `<slot>.<block_hash>.cbor`. It takes any name of
at least three dot-separated components whose last one lowercases to `cbor`,
whose first one `int()` accepts and whose second one has only hexadecimal
digits, an empty one included.
-/

namespace Acropolis.Manifest

open Acropolis.Python

variable (u : UnicodeData)

def hexDigitChars : List Char := "0123456789abcdefABCDEF".data

/-- `derive_from_filename(snapshot_path)`, for a path whose last component is `name`. -/
def deriveFromFilename (name : String) : Option Int × Option String :=
  let parts := split '.' name
  if 3 ≤ parts.length ∧ u.lower (parts.getLastD "") = "cbor" then
    match u.int (parts.getD 0 "") with
    | some slot =>
      let hashHex := parts.getD 1 ""
      if hashHex.data.all (· ∈ hexDigitChars) then (some slot, some (u.lower hashHex))
      else (none, none)
    | none => (none, none)
  else (none, none)

/-- What a name must be for `derive_from_filename` to return `(slot, hash)`. -/
def FilenameFields (name : String) (slot : Int) (hash : String) : Prop :=
  ∃ first hashHex rest, split '.' name = first :: hashHex :: rest ∧ rest ≠ [] ∧
    u.lower (rest.getLastD "") = "cbor" ∧ u.int first = some slot ∧
    hashHex.data.all (· ∈ hexDigitChars) ∧ hash = u.lower hashHex

theorem deriveFromFilename_eq_some_iff (name : String) (slot : Int) (hash : String) :
    deriveFromFilename u name = (some slot, some hash) ↔ FilenameFields u name slot hash := by
  unfold deriveFromFilename FilenameFields
  rcases split '.' name with _ | ⟨first, _ | ⟨hashHex, _ | ⟨ext, rest⟩⟩⟩
  · exact iff_of_false (by simp) fun ⟨_, _, _, parts, _⟩ => List.noConfusion parts
  · exact iff_of_false (by simp) fun ⟨_, _, _, parts, _⟩ => List.noConfusion (List.cons.inj parts).2
  · exact iff_of_false (by simp) fun ⟨_, _, _, parts, nonempty, _⟩ =>
      nonempty (List.cons.inj (List.cons.inj parts).2).2.symm
  · have lastD : (first :: hashHex :: ext :: rest).getLastD "" = (ext :: rest).getLastD "" := by
      simp [List.getLastD_eq_getLast?, List.getLast?_cons]
    simp only [List.length_cons, lastD, List.getD_cons_zero, List.getD_cons_succ,
      List.cons.injEq, exists_and_left, exists_eq_left', ne_eq, reduceCtorEq, not_false_eq_true,
      true_and]
    simp only [and_assoc, exists_and_left, exists_eq_left', List.cons_ne_nil, not_false_eq_true,
      true_and]
    by_cases cbor : u.lower ((ext :: rest).getLastD "") = "cbor"
    · rw [if_pos ⟨by omega, cbor⟩]
      cases parsed : u.int first with
      | none => simp only [Prod.mk.injEq, reduceCtorEq, false_and, cbor, true_and, false_iff]
      | some s =>
          by_cases hex : hashHex.data.all (· ∈ hexDigitChars)
          · simp only [hex, if_true, Prod.mk.injEq, Option.some.injEq, cbor, true_and, eq_comm]
          · simp only [hex, Bool.false_eq_true, if_false, Prod.mk.injEq, reduceCtorEq, false_and,
              false_iff, cbor, true_and, and_false, not_false_eq_true]
    · rw [if_neg fun h => cbor h.2]
      simp only [Prod.mk.injEq, reduceCtorEq, false_and, cbor, false_iff, not_false_eq_true]

theorem deriveFromFilename_none_or_some (name : String) :
    deriveFromFilename u name = (none, none) ∨
      ∃ slot hash, deriveFromFilename u name = (some slot, some hash) := by
  unfold deriveFromFilename
  dsimp only
  split
  · split
    · split
      · exact .inr ⟨_, _, rfl⟩
      · exact .inl rfl
    · exact .inl rfl
  · exact .inl rfl

theorem toNat_lt_of_toLower {c : Char} (ascii : c.toLower.toNat < 128) : c.toNat < 128 := by
  unfold Char.toLower at ascii
  dsimp only at ascii
  split at ascii
  · omega
  · exact ascii

theorem mem_cbor_of_mem {ext : List Char} (cbor : ext.map Char.toLower = "cbor".data) {c : Char}
    (member : c ∈ ext) : c.toLower ∈ "cbor".data :=
  cbor ▸ List.mem_map_of_mem Char.toLower member

theorem deriveFromFilename_snapshotName {digits hex ext : List Char} (nonempty : digits ≠ [])
    (decimal : ∀ c ∈ digits, c.isDigit) (short : digits.length ≤ intMaxStrDigits)
    (hexadecimal : ∀ c ∈ hex, c ∈ hexDigitChars) (cbor : ext.map Char.toLower = "cbor".data) :
    deriveFromFilename u (String.mk (digits ++ '.' :: (hex ++ '.' :: ext))) =
      (some (decimalValue digits : Int), some (String.mk (hex.map Char.toLower))) := by
  have dotDigits : '.' ∉ digits := fun dot => absurd (decimal '.' dot) (by decide)
  have dotHex : '.' ∉ hex := fun dot => absurd (hexadecimal '.' dot) (by decide)
  have dotExt : '.' ∉ ext := fun dot => absurd (mem_cbor_of_mem cbor dot) (by decide)
  have parts : split '.' (String.mk (digits ++ '.' :: (hex ++ '.' :: ext))) =
      [String.mk digits, String.mk hex, String.mk ext] := by
    simp only [split, splitOn_append_cons dotDigits, splitOn_append_cons dotHex,
      splitOn_of_not_mem dotExt, List.map_cons, List.map_nil]
  have asciiExt : ∀ c ∈ ext, c.toNat < 128 := fun c member =>
    toNat_lt_of_toLower ((by decide : ∀ d ∈ "cbor".data, d.toNat < 128) _
      (mem_cbor_of_mem cbor member))
  have asciiHex : ∀ c ∈ hex, c.toNat < 128 := fun c member =>
    (by decide : ∀ d ∈ hexDigitChars, d.toNat < 128) c (hexadecimal c member)
  refine (deriveFromFilename_eq_some_iff u _ _ _).mpr ⟨String.mk digits, String.mk hex,
    [String.mk ext], parts, List.cons_ne_nil _ _, ?_, u.int_digits nonempty decimal short,
    List.all_eq_true.mpr fun c member => decide_eq_true (hexadecimal c member),
    (u.lower_ascii asciiHex).symm⟩
  show u.lower (String.mk ext) = "cbor"
  rw [u.lower_ascii asciiExt]
  exact congrArg String.mk cbor

/-- `derive_from_filename` returns both fields or neither. It returns both exactly
when the name splits at `.` into at least three components, the last lowercasing
to `cbor`, the first accepted by `int()` and the second made of hexadecimal
digits only, possibly none; so every `<digits>.<hex>.cbor` name gives its decimal
value and its lowercase hash. -/
theorem deriveFromFilename_spec :
    (∀ name, deriveFromFilename u name = (none, none) ∨
      ∃ slot hash, deriveFromFilename u name = (some slot, some hash)) ∧
    (∀ name slot hash,
      deriveFromFilename u name = (some slot, some hash) ↔ FilenameFields u name slot hash) ∧
    (∀ digits hex ext : List Char, digits ≠ [] → (∀ c ∈ digits, c.isDigit) →
      digits.length ≤ intMaxStrDigits → (∀ c ∈ hex, c ∈ hexDigitChars) →
      ext.map Char.toLower = "cbor".data →
      deriveFromFilename u (String.mk (digits ++ '.' :: (hex ++ '.' :: ext))) =
        (some (decimalValue digits : Int), some (String.mk (hex.map Char.toLower)))) :=
  ⟨deriveFromFilename_none_or_some u, deriveFromFilename_eq_some_iff u,
    fun _ _ _ => deriveFromFilename_snapshotName u⟩

theorem deriveFromFilename_spec_snapshotName :
    deriveFromFilename UnicodeData.asciiOnly "508.AB12.CBOR" = (some 508, some "ab12") := by
  have spelled :
      "508.AB12.CBOR" = String.mk ("508".data ++ '.' :: ("AB12".data ++ '.' :: "CBOR".data)) := rfl
  rw [spelled, (deriveFromFilename_spec .asciiOnly).2.2 "508".data "AB12".data "CBOR".data
    (by decide) (by decide) (by decide) (by decide) (by decide)]
  decide

/-- Names outside `<digits>.<hex>.cbor` that still give a height and a hash: a
fourth component, a signed height, an empty hash. -/
theorem deriveFromFilename_beyond_grammar :
    (split '.' "1.ab.x.cbor").length = 4 ∧
      deriveFromFilename UnicodeData.asciiOnly "1.ab.x.cbor" = (some 1, some "ab") ∧
      deriveFromFilename UnicodeData.asciiOnly "-1.ab.cbor" = (some (-1), some "ab") ∧
      deriveFromFilename UnicodeData.asciiOnly "1..cbor" = (some 1, some "") := by
  decide

end Acropolis.Manifest
