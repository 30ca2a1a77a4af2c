import Acropolis.Python.Text

/-!
# JSON texts of arrays, integers and strings

`convert_governance.py` writes its output files with `%`-formatting, not with
`json.dump`. `loads` is what `json.loads` reads from a text made of arrays,
integers and strings without escapes, the part of JSON those files use. It
refuses everything else (objects, fractions, escapes, literals), so a text it
reads is a JSON text and `json.loads` gives the value `loads` gives. `render`
is the compact text of a value, the way the `%`-formats of the script spell it.
-/

namespace Acropolis.Python

/-- The values of such a text: the `int`, `str` and `list` of `json.loads`. -/
inductive Json where
  | num (n : Int)
  | str (s : List Char)
  | arr (items : List Json)
  deriving Repr

namespace Json

/-- `[ \t\n\r]`, the whitespace between the tokens of JSON. -/
def isSpace (c : Char) : Bool := c = ' ' || c = '\t' || c = '\n' || c = '\r'

def skipSpace (cs : List Char) : List Char := cs.dropWhile isSpace

/-- A character a string holds as it is: not a quote, a backslash or a control character. -/
def isPlain (c : Char) : Bool := c != '"' && c != '\\' && 32 ≤ c.toNat

/-- `0|[1-9][0-9]*`: a `0` is read alone. -/
def readNatural (cs : List Char) : Option (Nat × List Char) :=
  let digits := cs.takeWhile Char.isDigit
  if digits = [] then none
  else if digits.head? = some '0' then some (0, cs.tail)
  else some (decimalValue digits, cs.dropWhile Char.isDigit)

/-- `-?(0|[1-9][0-9]*)`, an integer without fraction or exponent. -/
def readNumber (cs : List Char) : Option (Json × List Char) :=
  if cs.head? = some '-' then (readNatural cs.tail).map fun (n, rest) => (num (-(n : Int)), rest)
  else (readNatural cs).map fun (n, rest) => (num n, rest)

/-- The characters of a string after its opening quote, through the closing one. -/
def readString : List Char → Option (List Char × List Char)
  | [] => none
  | c :: rest =>
    if c = '"' then some ([], rest)
    else if isPlain c then (readString rest).map fun (s, r) => (c :: s, r) else none

mutual
/-- A value at the start of the text, and what follows it; `fuel` bounds the
nesting and the number of items. -/
def readValue : Nat → List Char → Option (Json × List Char)
  | 0, _ => none
  | _ + 1, [] => none
  | fuel + 1, c :: cs =>
    if c = '[' then
      if (skipSpace cs).head? = some ']' then some (arr [], (skipSpace cs).tail)
      else (readItems fuel (skipSpace cs)).map fun (items, rest) => (arr items, rest)
    else if c = '"' then (readString cs).map fun (s, rest) => (str s, rest)
    else readNumber (c :: cs)

/-- The items of an array after its `[` and the whitespace after it, through its `]`. -/
def readItems : Nat → List Char → Option (List Json × List Char)
  | 0, _ => none
  | fuel + 1, cs =>
    match readValue fuel cs with
    | none => none
    | some (item, rest) =>
      match skipSpace rest with
      | ']' :: rest => some ([item], rest)
      | ',' :: rest => (readItems fuel (skipSpace rest)).map fun (items, r) => (item :: items, r)
      | _ => none
end

/-- `json.loads(text)`: one value, with whitespace around it. -/
def loads (text : List Char) : Option Json :=
  match readValue text.length (skipSpace text) with
  | some (value, rest) => if skipSpace rest = [] then some value else none
  | none => none

mutual
/-- The compact text of a value: `%d` of an integer, a string between quotes,
the items of an array between brackets with commas between them. -/
def render : Json → List Char
  | num n => (toString n).data
  | str s => '"' :: s ++ ['"']
  | arr items => '[' :: renderItems items

/-- The items of an array and its closing bracket. -/
def renderItems : List Json → List Char
  | [] => [']']
  | [item] => render item ++ [']']
  | item :: items => render item ++ ',' :: renderItems items
end

mutual
/-- Every string of the value holds its characters as they are. -/
def plain : Json → Bool
  | num _ => true
  | str s => s.all isPlain
  | arr items => plainItems items

def plainItems : List Json → Bool
  | [] => true
  | item :: items => plain item && plainItems items
end

example : loads "[[1,\"ab\"],\n[-20,[]]]\n".data =
    some (arr [arr [num 1, str "ab".data], arr [num (-20), arr []]]) := rfl

/-- The items each followed by `gap`, with commas between them, then `]`. -/
def layout (gap : List Char) (items : List Json) : List Char :=
  [','].intercalate (items.map fun item => render item ++ gap) ++ [']']

theorem renderItems_eq_layout : ∀ items : List Json, renderItems items = layout [] items
  | [] => rfl
  | [item] => by simp [renderItems, layout, List.intercalate]
  | item :: next :: items => by
    rw [renderItems.eq_3 _ _ (by simp), renderItems_eq_layout (next :: items)]
    simp [layout, List.intercalate, List.intersperse]

theorem plainItems_iff : ∀ {items : List Json}, plainItems items ↔ ∀ item ∈ items, plain item
  | [] => by simp [plainItems]
  | item :: items => by simp [plainItems, plainItems_iff]

/-- Nothing after a number can be read as more of it. -/
def NoDigitHead (rest : List Char) : Prop := ∀ c ∈ rest.head?, c.isDigit = false

theorem noDigitHead_of_space {gap : List Char} (spaces : ∀ c ∈ gap, isSpace c) {c : Char}
    (notDigit : c.isDigit = false) (cs : List Char) : NoDigitHead (gap ++ c :: cs) := by
  match gap, spaces with
  | [], _ => simpa [NoDigitHead] using notDigit
  | g :: gap, spaces =>
    intro c member
    obtain rfl : g = c := by simpa using member
    have space := spaces g (List.mem_cons_self _ _)
    simp only [isSpace, Bool.or_eq_true, decide_eq_true_eq] at space
    rcases space with ((rfl | rfl) | rfl) | rfl <;> rfl

theorem close_not_space : isSpace ']' = false := by decide

theorem comma_not_space : isSpace ',' = false := by decide

theorem skipSpace_append {gap rest : List Char} (spaces : ∀ c ∈ gap, isSpace c)
    (stop : ∀ c ∈ rest.head?, isSpace c = false) : skipSpace (gap ++ rest) = rest := by
  induction gap with
  | nil =>
    cases rest with
    | nil => rfl
    | cons c rest => simp [skipSpace, stop c rfl]
  | cons g gap inductionHypothesis =>
    simp only [List.mem_cons, forall_eq_or_imp] at spaces
    simpa [skipSpace, spaces.1] using inductionHypothesis spaces.2

theorem toDigitsCore_head {f n : Nat} (fuel : n < f) (positive : 0 < n) (ds : List Char) :
    ∃ c cs, Nat.toDigitsCore 10 f n ds = c :: cs ∧ c ≠ '0' := by
  induction f generalizing n ds with
  | zero => omega
  | succ f inductionHypothesis =>
    simp only [Nat.toDigitsCore]
    split
    · refine ⟨_, _, rfl, fun zero => ?_⟩
      have value := (digitChar_digit (Nat.mod_lt n (by decide : 10 > 0))).2
      rw [zero, show ('0' : Char).toNat = 48 from rfl] at value
      omega
    · exact inductionHypothesis (by omega) (by omega) _

theorem readNatural_toString (n : Nat) {rest : List Char} (stop : NoDigitHead rest) :
    readNatural ((toString n).data ++ rest) = some (n, rest) := by
  obtain ⟨nonempty, digits, value⟩ := toString_digits n
  have run : ((toString n).data ++ rest).takeWhile Char.isDigit = (toString n).data := by
    rw [List.takeWhile_append_of_pos (by simpa using digits)]
    cases rest with
    | nil => simp
    | cons c rest => simp [stop c rfl]
  have after : ((toString n).data ++ rest).dropWhile Char.isDigit = rest := by
    rw [List.dropWhile_append_of_pos (by simpa using digits)]
    cases rest with
    | nil => rfl
    | cons c rest => simp [stop c rfl]
  rcases Nat.eq_zero_or_pos n with rfl | positive
  · rw [readNatural, run]
    rfl
  · obtain ⟨c, cs, written, notZero⟩ := toDigitsCore_head (Nat.lt_succ_self n) positive []
    have first : (toString n).data = c :: cs := by simpa using written
    rw [readNatural, run, after, value]
    simp [first, notZero]

theorem readNumber_toString (n : Int) {rest : List Char} (stop : NoDigitHead rest) :
    readNumber ((toString n).data ++ rest) = some (num n, rest) := by
  cases n with
  | ofNat m =>
    obtain ⟨nonempty, digits, -⟩ := toString_digits m
    obtain ⟨c, cs, first⟩ := List.exists_cons_of_ne_nil nonempty
    have notMinus : c ≠ '-' := fun minus => by simpa [minus] using digits c (by simp [first])
    have written : (toString (Int.ofNat m)).data = (toString m).data := rfl
    rw [readNumber, written, if_neg (by simp [first, notMinus]), readNatural_toString m stop]
    rfl
  | negSucc m =>
    have written : (toString (Int.negSucc m)).data = '-' :: (toString (m + 1)).data := rfl
    rw [readNumber, written]
    simp [readNatural_toString (m + 1) stop, Int.negSucc_eq]

theorem readString_plain {s : List Char} (plainChars : s.all isPlain) (rest : List Char) :
    readString (s ++ '"' :: rest) = some (s, rest) := by
  induction s with
  | nil => simp [readString]
  | cons c s inductionHypothesis =>
    simp only [List.all_cons, Bool.and_eq_true] at plainChars
    have notQuote : c ≠ '"' := fun quote => by simp [quote, isPlain] at plainChars
    simp [readString, notQuote, plainChars.1, inductionHypothesis plainChars.2]

theorem toString_head (n : Int) : ∃ c cs, (toString n).data = c :: cs ∧ (c.isDigit ∨ c = '-') := by
  cases n with
  | ofNat m =>
    obtain ⟨nonempty, digits, -⟩ := toString_digits m
    obtain ⟨c, cs, first⟩ := List.exists_cons_of_ne_nil nonempty
    exact ⟨c, cs, first, .inl (digits c (by simp [first]))⟩
  | negSucc m => exact ⟨'-', _, rfl, .inr rfl⟩

theorem render_head (item : Json) :
    ∃ c cs, render item = c :: cs ∧ isSpace c = false ∧ c ≠ ']' ∧ c ≠ ',' := by
  cases item with
  | num n =>
    obtain ⟨c, cs, first, digitOrMinus⟩ := toString_head n
    refine ⟨c, cs, first, ?_⟩
    rcases digitOrMinus with digit | rfl
    · simp only [Char.isDigit, Bool.and_eq_true, decide_eq_true_eq, Char.le_def] at digit
      simp only [isSpace, Bool.or_eq_false_iff, decide_eq_false_iff_not]
      refine ⟨⟨⟨⟨?_, ?_⟩, ?_⟩, ?_⟩, ?_, ?_⟩ <;> rintro rfl <;> simp_all
    · decide
  | str s => exact ⟨'"', _, rfl, by decide, by decide, by decide⟩
  | arr items => exact ⟨'[', _, rfl, by decide, by decide, by decide⟩

theorem skipSpace_render (item : Json) (rest : List Char) :
    skipSpace (render item ++ rest) = render item ++ rest := by
  obtain ⟨c, cs, first, space, -⟩ := render_head item
  simp [skipSpace, first, space]

theorem layout_singleton (gap : List Char) (item : Json) :
    layout gap [item] = render item ++ gap ++ [']'] := by
  simp [layout, List.intercalate]

theorem layout_cons (gap : List Char) (item : Json) {items : List Json} (more : items ≠ []) :
    layout gap (item :: items) = render item ++ gap ++ ',' :: layout gap items := by
  obtain ⟨next, items, rfl⟩ := List.exists_cons_of_ne_nil more
  simp [layout, List.intercalate, List.intersperse]

theorem render_length_pos (item : Json) : 0 < (render item).length := by
  obtain ⟨c, cs, first, -⟩ := render_head item
  simp [first]

theorem layout_of_cons (gap : List Char) (item : Json) (items : List Json) :
    ∃ tail, layout gap (item :: items) = render item ++ tail := by
  rcases eq_or_ne items [] with rfl | more
  · exact ⟨_, by rw [layout_singleton, List.append_assoc]⟩
  · exact ⟨_, by rw [layout_cons _ _ more, List.append_assoc]⟩

theorem skipSpace_layout (gap : List Char) (items : List Json) (rest : List Char) :
    skipSpace (layout gap items ++ rest) = layout gap items ++ rest := by
  cases items with
  | nil => simp [layout, skipSpace, isSpace, List.intercalate]
  | cons item items =>
    obtain ⟨tail, written⟩ := layout_of_cons gap item items
    rw [written, List.append_assoc, skipSpace_render]

theorem layout_length_pos (gap : List Char) (items : List Json) :
    0 < (layout gap items).length := by
  simp [layout]

theorem head_not_space {c : Char} (cs : List Char) (notSpace : isSpace c = false) :
    ∀ d ∈ (c :: cs).head?, isSpace d = false := by
  simpa using notSpace

theorem readItems_succ {fuel : Nat} {cs : List Char} {item : Json} {rest : List Char}
    (read : readValue fuel cs = some (item, rest)) :
    readItems (fuel + 1) cs =
      match skipSpace rest with
      | ']' :: rest => some ([item], rest)
      | ',' :: rest => (readItems fuel (skipSpace rest)).map fun (items, r) => (item :: items, r)
      | _ => none := by
  rw [readItems.eq_2, read]

/-- What `readValue` and `readItems` read back with `fuel`. -/
def ReadsBack (fuel : Nat) : Prop :=
  (∀ item rest, (render item).length ≤ fuel → plain item → NoDigitHead rest →
      readValue fuel (render item ++ rest) = some (item, rest)) ∧
  (∀ gap items rest, (∀ c ∈ gap, isSpace c) → items ≠ [] → (layout gap items).length ≤ fuel →
      plainItems items → readItems fuel (layout gap items ++ rest) = some (items, rest))

theorem readValue_render_num {fuel : Nat} (n : Int) {rest : List Char} (stop : NoDigitHead rest) :
    readValue (fuel + 1) (render (num n) ++ rest) = some (num n, rest) := by
  obtain ⟨c, cs, first, digitOrMinus⟩ := toString_head n
  have notOpen : c ≠ '[' ∧ c ≠ '"' := by
    rcases digitOrMinus with digit | rfl
    · exact ⟨fun h => by simp [h] at digit, fun h => by simp [h] at digit⟩
    · decide
  rw [render, first, List.cons_append, readValue.eq_3, if_neg notOpen.1, if_neg notOpen.2,
    ← List.cons_append, ← first, readNumber_toString n stop]

theorem readValue_render_str {fuel : Nat} {s : List Char} (plainChars : s.all isPlain)
    (rest : List Char) : readValue (fuel + 1) (render (str s) ++ rest) = some (str s, rest) := by
  simp [render, readValue.eq_3, readString_plain plainChars]

theorem readsBack_succ {fuel : Nat} (previous : ReadsBack fuel) : ReadsBack (fuel + 1) := by
  obtain ⟨values, items⟩ := previous
  constructor
  · intro item rest enough plainItem stop
    cases item with
    | num n => exact readValue_render_num n stop
    | str s => exact readValue_render_str plainItem rest
    | arr elements =>
      rcases eq_or_ne elements [] with rfl | nonempty
      · simp [render, renderItems, readValue.eq_3, skipSpace, isSpace]
      · obtain ⟨e, es, rfl⟩ := List.exists_cons_of_ne_nil nonempty
        obtain ⟨tail, written⟩ := layout_of_cons [] e es
        obtain ⟨c, cs, first, -, notClose, -⟩ := render_head e
        simp only [render, renderItems_eq_layout, List.length_cons] at enough
        rw [render, renderItems_eq_layout, List.cons_append, readValue.eq_3, if_pos rfl,
          skipSpace_layout, if_neg (by simpa [written, first] using notClose),
          items [] _ rest (by simp) nonempty (by omega) plainItem]
        rfl
  · intro gap elements rest spaces nonempty enough plainElements
    obtain ⟨e, es, rfl⟩ := List.exists_cons_of_ne_nil nonempty
    simp only [plainItems, Bool.and_eq_true] at plainElements
    rcases eq_or_ne es [] with rfl | more
    · rw [layout_singleton] at enough ⊢
      simp only [List.length_append, List.length_singleton] at enough
      rw [List.append_assoc, List.append_assoc, List.singleton_append, readItems_succ
        (values e _ (by omega) plainElements.1 (noDigitHead_of_space spaces (by decide) rest)),
        skipSpace_append spaces (head_not_space rest close_not_space)]
      rfl
    · have shortest := layout_length_pos gap es
      rw [layout_cons _ _ more] at enough ⊢
      simp only [List.length_append, List.length_cons] at enough
      rw [List.append_assoc, List.append_assoc, List.cons_append, readItems_succ
        (values e _ (by omega) plainElements.1 (noDigitHead_of_space spaces (by decide) _)),
        skipSpace_append spaces (head_not_space _ comma_not_space)]
      simp only [skipSpace_layout, items gap es rest spaces more (by omega) plainElements.2]
      rfl

theorem readsBack : ∀ fuel, ReadsBack fuel
  | 0 => ⟨fun item _ enough => absurd enough (Nat.not_le.mpr (render_length_pos item)),
      fun gap items _ _ _ enough => absurd enough (Nat.not_le.mpr (layout_length_pos gap items))⟩
  | fuel + 1 => readsBack_succ (readsBack fuel)

theorem skipSpace_spaces {gap : List Char} (spaces : ∀ c ∈ gap, isSpace c) :
    skipSpace gap = [] := by
  simpa [skipSpace, List.dropWhile_eq_nil_iff] using spaces

theorem loads_layout {gap : List Char} (spaces : ∀ c ∈ gap, isSpace c) {items : List Json}
    (plainAll : ∀ item ∈ items, plain item) :
    loads ('[' :: layout gap items ++ gap) = some (arr items) := by
  have read : readValue ((layout gap items ++ gap).length + 1) ('[' :: (layout gap items ++ gap)) =
      some (arr items, gap) := by
    rw [readValue.eq_3, if_pos rfl, skipSpace_layout]
    rcases eq_or_ne items [] with rfl | nonempty
    · simp [layout, List.intercalate]
    · obtain ⟨e, es, rfl⟩ := List.exists_cons_of_ne_nil nonempty
      obtain ⟨tail, written⟩ := layout_of_cons gap e es
      obtain ⟨c, cs, first, -, notClose, -⟩ := render_head e
      rw [if_neg (by simpa [written, first] using notClose), (readsBack _).2 gap _ gap spaces
        nonempty (by simp) (plainItems_iff.mpr plainAll)]
      rfl
  have opening :
      skipSpace ('[' :: (layout gap items ++ gap)) = '[' :: (layout gap items ++ gap) := by
    simp [skipSpace, isSpace]
  simp only [loads, List.cons_append, opening, List.length_cons, read, skipSpace_spaces spaces,
    if_true]

end Json

end Acropolis.Python
