import Mathlib

/-!
# Python text built-ins

`str.lower()`, `str.split(sep)` and `int(str)` as CPython computes them. They
read the Unicode character database only for characters outside ASCII; that
part of the database is the parameter `UnicodeData`, so every table gives the
same results on ASCII text.
-/

namespace Acropolis.Python

/-- The rows of the Unicode database that `str.lower()` and `int(str)` read for
characters outside ASCII. -/
structure UnicodeData where
  /-- The lowercase of a character, given the text before it (nearest first)
  and after it: the context decides the final sigma. -/
  lowerNonAscii : List Char → Char → List Char → List Char
  /-- The decimal value of a character of category Nd. -/
  decimal : Char → Option Nat
  /-- `Py_UNICODE_ISSPACE`. -/
  isSpace : Char → Bool

/-- A table with no non-ASCII case mapping, digit or space, for running the model. -/
def UnicodeData.asciiOnly : UnicodeData := ⟨fun _ c _ => [c], fun _ => none, fun _ => false⟩

/-- `str.lower()`: ASCII letters by the ASCII rule, anything else by the table. -/
def UnicodeData.lowerFrom (u : UnicodeData) (before : List Char) : List Char → List Char
  | [] => []
  | c :: after =>
    (if c.toNat < 128 then [c.toLower] else u.lowerNonAscii before c after) ++
      u.lowerFrom (c :: before) after

def UnicodeData.lower (u : UnicodeData) (s : String) : String := String.mk (u.lowerFrom [] s.data)

theorem UnicodeData.lowerFrom_ascii (u : UnicodeData) (before : List Char) {cs : List Char}
    (ascii : ∀ c ∈ cs, c.toNat < 128) : u.lowerFrom before cs = cs.map Char.toLower := by
  induction cs generalizing before with
  | nil => rfl
  | cons c cs inductionHypothesis =>
      simp only [lowerFrom, if_pos (ascii c (List.mem_cons_self c cs)), List.map_cons,
        List.singleton_append,
        inductionHypothesis _ fun d hd => ascii d (List.mem_cons_of_mem c hd)]

theorem UnicodeData.lower_ascii (u : UnicodeData) {s : String}
    (ascii : ∀ c ∈ s.data, c.toNat < 128) : u.lower s = String.mk (s.data.map Char.toLower) := by
  rw [lower, u.lowerFrom_ascii [] ascii]

/-- `str.split(sep)` for a one-character separator. -/
def split (sep : Char) (s : String) : List String :=
  (s.data.splitOn sep).map String.mk

/-- `Py_ISSPACE`: the six ASCII whitespace characters. -/
def isAsciiSpace (c : Char) : Bool :=
  c = ' ' || c = '\t' || c = '\n' || c = '\x0b' || c = '\x0c' || c = '\r'

/-- `Py_UNICODE_ISSPACE`, the test of `str.isspace()` and `str.strip()`: in
ASCII the six whitespace characters and the separators `\x1c` to `\x1f`. -/
def UnicodeData.isWhitespace (u : UnicodeData) (c : Char) : Bool :=
  if c.toNat < 128 then isAsciiSpace c || (28 ≤ c.toNat && c.toNat ≤ 31) else u.isSpace c

/-- `str.strip()`. -/
def UnicodeData.strip (u : UnicodeData) (s : String) : String :=
  String.mk ((s.data.dropWhile u.isWhitespace).reverse.dropWhile u.isWhitespace).reverse

/-- `_PyUnicode_TransformDecimalAndSpaceToASCII`: ASCII is kept, other spaces
become `' '`, other decimal digits their ASCII digit, anything else `'?'`. -/
def UnicodeData.toAscii (u : UnicodeData) (c : Char) : Char :=
  if c.toNat < 127 then c
  else if u.isSpace c then ' '
  else match u.decimal c with
    | some d => Char.ofNat (48 + d)
    | none => '?'

/-- `sys.int_info.default_max_str_digits`. -/
def intMaxStrDigits : Nat := 4300

def decimalValue (digits : List Char) : Nat :=
  digits.foldl (fun acc c => 10 * acc + (c.toNat - 48)) 0

def isDigitOrUnderscore (c : Char) : Bool := c.isDigit || c = '_'

/-- The unsigned part of `int(s)`: digits with single underscores between them,
at most `intMaxStrDigits` of them, then only whitespace. -/
def parseDigits (cs : List Char) : Option Nat :=
  let run := cs.takeWhile isDigitOrUnderscore
  let digits := run.filter Char.isDigit
  if (run.splitOn '_').all (· ≠ []) && digits.length ≤ intMaxStrDigits &&
      (cs.dropWhile isDigitOrUnderscore).all isAsciiSpace then
    some (decimalValue digits)
  else none

/-- `int(s)` in base 10 (`PyLong_FromUnicodeObject`); `none` is its `ValueError`. -/
def UnicodeData.int (u : UnicodeData) (s : String) : Option Int :=
  match (s.data.map u.toAscii).dropWhile isAsciiSpace with
  | '+' :: cs => (parseDigits cs).map Int.ofNat
  | '-' :: cs => (parseDigits cs).map fun n => -(n : Int)
  | cs => (parseDigits cs).map Int.ofNat

theorem splitOn_of_not_mem {sep : Char} {cs : List Char} (absent : sep ∉ cs) :
    cs.splitOn sep = [cs] := by
  show cs.splitOnP (· == sep) = [cs]
  exact List.splitOnP_eq_single _ _ fun c hc (same : (c == sep) = true) => absent (eq_of_beq same ▸ hc)

theorem splitOn_append_cons {sep : Char} {a : List Char} (absent : sep ∉ a) (b : List Char) :
    (a ++ sep :: b).splitOn sep = a :: b.splitOn sep := by
  show (a ++ sep :: b).splitOnP (· == sep) = a :: b.splitOnP (· == sep)
  exact List.splitOnP_first _ _
    (fun c hc (same : (c == sep) = true) => absent (eq_of_beq same ▸ hc)) sep
    (beq_self_eq_true sep) b

theorem UnicodeData.toAscii_of_lt (u : UnicodeData) {c : Char} (ascii : c.toNat < 127) :
    u.toAscii c = c := by
  simp [UnicodeData.toAscii, ascii]

theorem isDigit_toNat_lt {c : Char} (digit : c.isDigit) : c.toNat < 127 := by
  simp only [Char.isDigit, Bool.and_eq_true, decide_eq_true_eq] at digit
  have : c.toNat ≤ 57 := digit.2
  omega

theorem parseDigits_digits {ds : List Char} (nonempty : ds ≠ [])
    (decimal : ∀ c ∈ ds, c.isDigit) (short : ds.length ≤ intMaxStrDigits) :
    parseDigits ds = some (decimalValue ds) := by
  have run : ds.takeWhile isDigitOrUnderscore = ds :=
    List.takeWhile_eq_self_iff.mpr fun c hc => by simp [isDigitOrUnderscore, decimal c hc]
  have after : ds.dropWhile isDigitOrUnderscore = [] :=
    List.dropWhile_eq_nil_iff.mpr fun c hc => by simp [isDigitOrUnderscore, decimal c hc]
  have noUnderscore : ds.splitOn '_' = [ds] :=
    splitOn_of_not_mem fun underscore => by simpa using decimal '_' underscore
  simp [parseDigits, run, after, noUnderscore, List.filter_eq_self.mpr decimal, nonempty, short]

theorem UnicodeData.int_digits (u : UnicodeData) {ds : List Char} (nonempty : ds ≠ [])
    (decimal : ∀ c ∈ ds, c.isDigit) (short : ds.length ≤ intMaxStrDigits) :
    u.int (String.mk ds) = some (decimalValue ds : Int) := by
  have ascii : ds.map u.toAscii = ds :=
    (List.map_congr_left fun c hc => u.toAscii_of_lt (isDigit_toNat_lt (decimal c hc))).trans
      (List.map_id ds)
  obtain ⟨d, rest, rfl⟩ := List.exists_cons_of_ne_nil nonempty
  have digit := decimal d (List.mem_cons_self d rest)
  have notSpace : isAsciiSpace d = false := by
    have lo : 48 ≤ d.toNat := by
      simp only [Char.isDigit, Bool.and_eq_true, decide_eq_true_eq] at digit
      exact digit.1
    simp only [isAsciiSpace, Bool.or_eq_false_iff, decide_eq_false_iff_not]
    refine ⟨⟨⟨⟨⟨?_, ?_⟩, ?_⟩, ?_⟩, ?_⟩, ?_⟩ <;> (intro same; subst same; simp at lo)
  simp only [UnicodeData.int, ascii, List.dropWhile_cons, notSpace, Bool.false_eq_true, ite_false]
  split
  · rename_i cs plus
    injection plus with plus
    subst plus
    exact absurd digit (by decide)
  · rename_i cs minus
    injection minus with minus
    subst minus
    exact absurd digit (by decide)
  · rw [parseDigits_digits nonempty decimal short]
    rfl

theorem digitChar_digit {m : Nat} (small : m < 10) :
    (Nat.digitChar m).isDigit ∧ (Nat.digitChar m).toNat - 48 = m := by
  revert m
  decide

theorem decimalValue_append_digit (ds : List Char) (c : Char) :
    decimalValue (ds ++ [c]) = 10 * decimalValue ds + (c.toNat - 48) := by
  simp only [decimalValue, List.foldl_append, List.foldl_cons, List.foldl_nil]

theorem toDigitsCore_ten {f n : Nat} (fuel : n < f) (ds : List Char) :
    ∃ digits, Nat.toDigitsCore 10 f n ds = digits ++ ds ∧ digits ≠ [] ∧
      (∀ c ∈ digits, c.isDigit) ∧ decimalValue digits = n := by
  induction f generalizing n ds with
  | zero => omega
  | succ f inductionHypothesis =>
    obtain ⟨digit, value⟩ := digitChar_digit (Nat.mod_lt n (by decide : 10 > 0))
    simp only [Nat.toDigitsCore]
    split
    · refine ⟨[Nat.digitChar (n % 10)], rfl, List.cons_ne_nil _ _, by simpa using digit, ?_⟩
      simp only [decimalValue, List.foldl_cons, List.foldl_nil, value]
      omega
    · obtain ⟨digits, written, -, decimal, higher⟩ :=
        inductionHypothesis (show n / 10 < f by omega) (Nat.digitChar (n % 10) :: ds)
      refine ⟨digits ++ [Nat.digitChar (n % 10)], by simp [written], by simp, ?_, ?_⟩
      · simpa [or_imp, forall_and] using ⟨decimal, digit⟩
      · rw [decimalValue_append_digit, higher, value]
        omega

theorem toString_digits (n : Nat) :
    (toString n).data ≠ [] ∧ (∀ c ∈ (toString n).data, c.isDigit) ∧
      decimalValue (toString n).data = n := by
  obtain ⟨digits, written, rest⟩ := toDigitsCore_ten (Nat.lt_succ_self n) []
  have : (toString n).data = digits := by simpa using written
  exact this ▸ rest

theorem UnicodeData.int_toString (u : UnicodeData) (n : Nat)
    (short : (toString n).data.length ≤ intMaxStrDigits) : u.int (toString n) = some (n : Int) := by
  obtain ⟨nonempty, decimal, value⟩ := toString_digits n
  simpa [value] using u.int_digits nonempty decimal short

theorem intercalate_map_cons_cons {α : Type} (sep : List Char) (t : α → List Char) (a b : α)
    (l : List α) :
    sep.intercalate ((a :: b :: l).map t) = t a ++ sep ++ sep.intercalate ((b :: l).map t) := by
  simp [List.intercalate, List.intersperse]

theorem mem_intercalate_map {α : Type} {sep : List Char} {t : α → List Char} {c : Char} :
    ∀ {xs : List α}, c ∈ sep.intercalate (xs.map t) → c ∈ sep ∨ ∃ x ∈ xs, c ∈ t x
  | [], member => by simp [List.intercalate] at member
  | [x], member => .inr ⟨x, List.mem_singleton_self x, by simpa [List.intercalate] using member⟩
  | x :: y :: rest, member => by
    rw [intercalate_map_cons_cons] at member
    simp only [List.mem_append] at member
    rcases member with (here | between) | later
    · exact .inr ⟨x, List.mem_cons_self _ _, here⟩
    · exact .inl between
    · rcases mem_intercalate_map later with between | ⟨z, member, there⟩
      · exact .inl between
      · exact .inr ⟨z, List.mem_cons_of_mem _ member, there⟩

end Acropolis.Python
