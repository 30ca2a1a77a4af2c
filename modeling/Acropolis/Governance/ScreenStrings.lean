import Acropolis.Python.Text

/-!
# Commas inside quoted CSV fields

`check_conway_syncdb.py` splits each dbsync CSV row at commas after
`screen_strings` has turned the commas inside quoted fields into `;`. The
loop keeps an `inside` flag and flips it at every character that follows a
quote and is not one. That tracks a quoted field whose body is non-empty and
has no quote; an empty quoted field, or a doubled quote, leaves the flag
inverted for the rest of the row.
-/

namespace Acropolis.Governance

open Acropolis.Python

/-- The variables of the loop in `screen_strings`. -/
structure ScreenState where
  inside : Bool
  prev : Char
  out : List Char

/-- One iteration: flip `inside` after a quote followed by a non-quote, then copy
the character, a comma inside a string becoming `;`. -/
def screenStep (s : ScreenState) (c : Char) : ScreenState :=
  let inside := if s.prev = '"' ∧ c ≠ '"' then !s.inside else s.inside
  ⟨inside, c, s.out ++ [if c = ',' ∧ inside then ';' else c]⟩

def screenStart : ScreenState := ⟨false, ' ', []⟩

/-- `screen_strings(header)`. -/
def screenStrings (header : String) : String :=
  String.mk (header.data.foldl screenStep screenStart).out

/-- A field of a CSV record as RFC 4180 writes it: plain text, or a body
between quotes with each quote doubled. -/
inductive CsvField where
  | plain (text : List Char)
  | quoted (body : List Char)

def escapeQuotes (body : List Char) : List Char :=
  body.flatMap fun c => if c = '"' then ['"', '"'] else [c]

def CsvField.text : CsvField → List Char
  | plain text => text
  | quoted body => '"' :: escapeQuotes body ++ ['"']

/-- Plain text has no comma, quote or newline; a quoted body has no newline. -/
def CsvField.WellFormed : CsvField → Prop
  | plain text => ',' ∉ text ∧ '"' ∉ text ∧ '\n' ∉ text
  | quoted body => '\n' ∉ body

/-- A one-line record: the fields' text joined by commas. -/
def csvLine (fields : List CsvField) : String :=
  String.mk ([','].intercalate (fields.map CsvField.text))

def commaToSemicolon (c : Char) : Char := if c = ',' then ';' else c

/-- The column `split(',')` should give for a field: its text, commas as `;`. -/
def CsvField.column (f : CsvField) : String := String.mk (f.text.map commaToSemicolon)

/-- What `screen_strings` writes for `c` while the flag is `inside`. -/
def screenChar (inside : Bool) (c : Char) : Char := if c = ',' ∧ inside then ';' else c

theorem foldl_screenStep_of_no_quote {cs : List Char} (noQuote : '"' ∉ cs) (s : ScreenState)
    (prevNotQuote : s.prev ≠ '"') :
    cs.foldl screenStep s = ⟨s.inside, cs.getLastD s.prev, s.out ++ cs.map (screenChar s.inside)⟩ := by
  induction cs generalizing s with
  | nil => simp
  | cons c cs inductionHypothesis =>
      have cNotQuote : c ≠ '"' := fun h => noQuote (h ▸ List.mem_cons_self c cs)
      rw [List.foldl_cons, inductionHypothesis (fun h => noQuote (List.mem_cons_of_mem c h)) _
        cNotQuote]
      simp [screenStep, prevNotQuote, screenChar, List.getLast?_cons]

/-- A field the flag tracks: plain text, or a quoted body that is non-empty and has
no quote. -/
def CsvField.Tracked : CsvField → Prop
  | plain text => ',' ∉ text ∧ '"' ∉ text
  | quoted body => body ≠ [] ∧ '"' ∉ body

theorem escapeQuotes_of_no_quote {body : List Char} (noQuote : '"' ∉ body) :
    escapeQuotes body = body := by
  induction body with
  | nil => rfl
  | cons c body inductionHypothesis =>
      have cNotQuote : c ≠ '"' := fun h => noQuote (h ▸ List.mem_cons_self c body)
      simp [escapeQuotes, cNotQuote] at inductionHypothesis ⊢
      exact inductionHypothesis fun h => noQuote (List.mem_cons_of_mem c h)

theorem screenChar_true : screenChar true = commaToSemicolon := by
  funext c
  simp [screenChar, commaToSemicolon]

theorem getLastD_ne_of_not_mem {cs : List Char} {d x : Char} (notMem : x ∉ cs) (ne : d ≠ x) :
    cs.getLastD d ≠ x := by
  induction cs generalizing d with
  | nil => exact ne
  | cons c cs inductionHypothesis =>
      rw [List.getLastD_cons]
      exact inductionHypothesis (fun h => notMem (List.mem_cons_of_mem c h))
        fun h => notMem (h ▸ List.mem_cons_self c cs)

theorem foldl_screenStep_quoted {body : List Char} (nonempty : body ≠ []) (noQuote : '"' ∉ body)
    (s : ScreenState) (outside : s.inside = false) (prevNotQuote : s.prev ≠ '"') :
    (CsvField.quoted body).text.foldl screenStep s =
      ⟨true, '"', s.out ++ (CsvField.quoted body).text.map commaToSemicolon⟩ := by
  obtain ⟨c, rest, rfl⟩ := List.exists_cons_of_ne_nil nonempty
  have cNotQuote : c ≠ '"' := fun h => noQuote (h ▸ List.mem_cons_self c rest)
  have restNoQuote : '"' ∉ rest := fun h => noQuote (List.mem_cons_of_mem c h)
  have lastNotQuote := getLastD_ne_of_not_mem restNoQuote cNotQuote
  simp only [CsvField.text, escapeQuotes_of_no_quote noQuote, List.cons_append, List.foldl_cons,
    List.foldl_append]
  rw [show screenStep s '"' = ⟨false, '"', s.out ++ ['"']⟩ by simp [screenStep, prevNotQuote, outside],
    show screenStep ⟨false, '"', s.out ++ ['"']⟩ c =
      ⟨true, c, s.out ++ ['"'] ++ [commaToSemicolon c]⟩ by
        simp [screenStep, cNotQuote, commaToSemicolon],
    foldl_screenStep_of_no_quote restNoQuote _ cNotQuote]
  simp [screenStep, lastNotQuote, screenChar_true, commaToSemicolon]

theorem map_of_no_comma {text : List Char} (noComma : ',' ∉ text) (inside : Bool) :
    text.map (screenChar inside) = text.map commaToSemicolon := by
  refine List.map_congr_left fun c member => ?_
  have : c ≠ ',' := fun h => noComma (h ▸ member)
  simp [screenChar, commaToSemicolon, this]

theorem foldl_screenStep_field_comma {f : CsvField} (tracked : f.Tracked) (s : ScreenState)
    (outside : s.inside = false) (prevNotQuote : s.prev ≠ '"') :
    (f.text ++ [',']).foldl screenStep s =
      ⟨false, ',', s.out ++ f.text.map commaToSemicolon ++ [',']⟩ := by
  rw [List.foldl_append]
  cases f with
  | plain text =>
      rw [CsvField.text, foldl_screenStep_of_no_quote tracked.2 s prevNotQuote,
        map_of_no_comma tracked.1]
      have lastNotQuote := getLastD_ne_of_not_mem tracked.2 prevNotQuote
      rw [List.getLastD_eq_getLast?] at lastNotQuote
      simp [screenStep, lastNotQuote, outside]
  | quoted body =>
      rw [foldl_screenStep_quoted tracked.1 tracked.2 s outside prevNotQuote]
      simp [screenStep]

theorem foldl_screenStep_last {f : CsvField} (tracked : f.Tracked) (s : ScreenState)
    (outside : s.inside = false) (prevNotQuote : s.prev ≠ '"') :
    (f.text.foldl screenStep s).out = s.out ++ f.text.map commaToSemicolon := by
  cases f with
  | plain text =>
      rw [CsvField.text, foldl_screenStep_of_no_quote tracked.2 s prevNotQuote,
        map_of_no_comma tracked.1]
  | quoted body => rw [foldl_screenStep_quoted tracked.1 tracked.2 s outside prevNotQuote]

theorem foldl_screenStep_fields {fields : List CsvField} (nonempty : fields ≠ [])
    (tracked : ∀ f ∈ fields, f.Tracked) (s : ScreenState) (outside : s.inside = false)
    (prevNotQuote : s.prev ≠ '"') :
    (([','].intercalate (fields.map CsvField.text)).foldl screenStep s).out =
      s.out ++ [','].intercalate (fields.map fun f => f.text.map commaToSemicolon) := by
  induction fields generalizing s with
  | nil => exact absurd rfl nonempty
  | cons f rest inductionHypothesis =>
      rcases rest with _ | ⟨g, rest⟩
      · simpa [List.intercalate] using
          foldl_screenStep_last (tracked f (List.mem_cons_self f [])) s outside prevNotQuote
      · rw [intercalate_map_cons_cons, List.foldl_append,
          foldl_screenStep_field_comma (tracked f (List.mem_cons_self _ _)) s outside prevNotQuote,
          inductionHypothesis (List.cons_ne_nil _ _)
            (fun h member => tracked h (List.mem_cons_of_mem f member))
            ⟨false, ',', s.out ++ f.text.map commaToSemicolon ++ [',']⟩ rfl
            (show ',' ≠ '"' by decide),
          intercalate_map_cons_cons]
        simp

/-- Every record of tracked fields splits into its columns: as many as fields,
each the field's text with its commas as `;`. -/
theorem split_screenStrings_csvLine {fields : List CsvField} (nonempty : fields ≠ [])
    (tracked : ∀ f ∈ fields, f.Tracked) :
    split ',' (screenStrings (csvLine fields)) = fields.map CsvField.column := by
  have screened : (([','].intercalate (fields.map CsvField.text)).foldl screenStep screenStart).out =
      [','].intercalate (fields.map fun f => f.text.map commaToSemicolon) :=
    foldl_screenStep_fields nonempty tracked screenStart rfl (by decide)
  simp only [split, screenStrings, csvLine, screened]
  rw [List.splitOn_intercalate]
  · simp [CsvField.column]
  · intro l member comma
    simp only [List.mem_map] at member
    obtain ⟨f, -, rfl⟩ := member
    obtain ⟨c, -, same⟩ := List.mem_map.mp comma
    unfold commaToSemicolon at same
    split at same <;> simp_all
  · simpa using nonempty

theorem split_screenStrings_csvLine_quoted_comma :
    [CsvField.quoted ['a', ',', 'b'], .plain ['x']] ≠ [] ∧
      (∀ f ∈ [CsvField.quoted ['a', ',', 'b'], .plain ['x']], f.Tracked) ∧
      split ',' (screenStrings (csvLine [.quoted ['a', ',', 'b'], .plain ['x']])) =
        [CsvField.quoted ['a', ',', 'b'], .plain ['x']].map CsvField.column :=
  have tracked : ∀ f ∈ [CsvField.quoted ['a', ',', 'b'], .plain ['x']], f.Tracked := by
    simp [CsvField.Tracked]
  ⟨List.cons_ne_nil _ _, tracked, split_screenStrings_csvLine (List.cons_ne_nil _ _) tracked⟩

/-- An empty quoted field, or a doubled quote in a body, sets the flag at the
comma after the field: the rows `"",x` and `"a""b",x` screen to one column. -/
theorem split_screenStrings_empty_quoted :
    split ',' (screenStrings (csvLine [.quoted [], .plain ['x']])) = ["\"\";x"] ∧
      split ',' (screenStrings (csvLine [.quoted ['a', '"', 'b'], .plain ['x']])) =
        ["\"a\"\"b\";x"] := by
  decide

end Acropolis.Governance