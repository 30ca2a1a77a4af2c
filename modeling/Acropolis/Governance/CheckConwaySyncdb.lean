import Acropolis.Governance.ExecutionLog
import Acropolis.Governance.ScreenStrings

/-!
# Comparing the dbsync export with the Acropolis output

`check_conway_syncdb.py` files every row of the dbsync CSV export that has as
many columns as its header under the key (hash, index), then walks the rows of
the Acropolis output: a row of at least 14 columns whose key (columns 1 and 2)
was filed is counted as found, and its type and its ratified, enacted and
expired epochs are compared with the first record filed under the key.

Both loops skip a row equal to their header split at commas, but both headers
are triple-quoted strings that run over several source lines, so some of their
columns hold a newline; a row read from a file is stripped of its newline
before it is split, and the test never holds. The found count is therefore the
number of Acropolis rows of at least 14 columns whose key some dbsync row of 28
columns has, and the script stops with an `IndexError` exactly when such a row
has 14 columns, since it reads column 14 of every row it finds.
-/

namespace Acropolis.Governance

open Acropolis.Python

/-- `s.strip(chars)` -/
def stripChars (chars : List Char) (s : String) : String :=
  String.mk ((s.data.dropWhile (· ∈ chars)).reverse.dropWhile (· ∈ chars)).reverse

/-- `s.removeprefix(prefix)` -/
def removePrefix (pre s : String) : String :=
  if pre.data <+: s.data then String.mk (s.data.drop pre.data.length) else s

/-- `s.removesuffix(suffix)`: an empty suffix removes nothing. -/
def removeSuffix (suf s : String) : String :=
  if suf.data ≠ [] ∧
      suf.data <:+ s.data then String.mk (s.data.take (s.data.length - suf.data.length))
  else s

/-- `strip_some(s)` -/
def stripSome (s : String) : String := removeSuffix ")" (removePrefix "Some(" s)

/-- `screen_strings(s).strip().split(',')`: the columns of a row. -/
def columns (u : UnicodeData) (s : String) : List String := split ',' (u.strip (screenStrings s))

/-- `header` of the dbsync loop, before `screen_strings`. -/
def dbsyncHeader : String :=
  "id,tx_id,index,prev_gov_action_proposal,deposit,return_address,expiration,\n" ++
  "    voting_anchor_id,type,description,param_proposal,ratified_epoch,enacted_epoch,\n" ++
  "    dropped_epoch,expired_epoch,id,hash,block_id,block_index,out_sum,fee,deposit,size,\n" ++
  "    invalid_before,invalid_hereafter,valid_contract,script_size,treasury_donation"

/-- `hl = screen_strings(header).split(',')` -/
def dbsyncColumns : List String := split ',' (screenStrings dbsyncHeader)

/-- `header_a` -/
def acropolisHeader : String :=
  "id,start,tx_id,index,prev_gov_action_proposal,deposit,return_address,expiration,\n" ++
  "              voting_anchor_id,type,description,param_proposal,ratified_epoch,enacted_epoch,\n" ++
  "              dropped_epoch,expired_epoch"

/-- `al = header_a.split(',')` -/
def acropolisColumns : List String := split ',' acropolisHeader

/-- `(sl[8], sl[11], sl[12], sl[13], sl[14])`: type and the ratified, enacted,
dropped and expired epochs. -/
structure Proposal where
  type : String
  ratified : String
  enacted : String
  dropped : String
  expired : String
  deriving DecidableEq, Repr

/-- `(sl[16].strip("\\x"), sl[2])`; the row has as many columns as the header,
so no index is out of range. -/
def dbsyncKey (sl : List String) : String × String :=
    (stripChars ['\\', 'x'] (sl.getD 16 ""), sl.getD 2 "")

def dbsyncProposal (sl : List String) : Proposal :=
  ⟨sl.getD 8 "", sl.getD 11 "", sl.getD 12 "", sl.getD 13 "", sl.getD 14 ""⟩

/-- One row of `for s in dbsync`. -/
def dbsyncStep (u : UnicodeData) (d : List ((String × String) × List Proposal)) (s : String) :
    List ((String × String) × List Proposal) :=
  let sl := columns u s
  if sl.length ≠ dbsyncColumns.length then d
  else if sl = dbsyncColumns then d
  else appendItem d (dbsyncKey sl) (dbsyncProposal sl)

/-- `dbsync_dict` after the loop over the lines of the export. -/
def readDbsync (u : UnicodeData) (lines : List String) : List ((String × String) × List Proposal) :=
  lines.foldl (dbsyncStep u) []

/-- What the script prints about a row. -/
inductive Finding where
  /-- `print("Rejecting:", s)`: fewer than 14 columns. -/
  | rejecting (s : String)
  /-- `print(idx, " not found\n")` -/
  | notFound (idx : String × String)
  /-- `print(idx, "too many records: ", rec, "\n")` -/
  | tooMany (idx : String × String) (records : List Proposal)
  /-- `print(idx, what, "do not match: ...", expected, actual)`, `what` being
  `types`, `re`, `en` or `ex`. -/
  | differs (what : String) (idx : String × String) (expected actual : String)
  deriving DecidableEq, Repr

/-- `if expected != actual: print(idx, what, "do not match: ...")` -/
def compare (what : String) (idx : String × String) (expected actual : String) : List Finding :=
  if expected ≠ actual then [.differs what idx expected actual] else []

/-- `found` and what has been printed. -/
structure Check where
  found : Nat := 0
  findings : List Finding := []
  deriving DecidableEq, Repr

/-- `sl[14]` of a row of fewer columns. -/
inductive CheckError where
  | indexError
  deriving DecidableEq, Repr

/-- `(sl[1], sl[2])` -/
def acropolisKey (sl : List String) : String × String := (sl.getD 1 "", sl.getD 2 "")

/-- One row of `for s in acropolis`. The columns read before column 14 exist,
since the row has at least 14. -/
def acropolisStep (u : UnicodeData) (d : List ((String × String) × List Proposal)) (state : Check)
    (s : String) : Except CheckError Check :=
  let sl := columns u s
  if sl.length < 14 then .ok { state with findings := state.findings ++ [.rejecting s] }
  else if sl = acropolisColumns then .ok state
  else
    let idx := acropolisKey sl
    match getItem d idx with
    | none => .ok { state with findings := state.findings ++ [.notFound idx] }
    | some rec =>
      match rec, sl.get? 14 with
      | [], _ => .error .indexError
      | _ :: _, none => .error .indexError
      | first :: _, some expired =>
        let ty := if first.type = "InfoAction" then "Information" else first.type
        .ok { found := state.found + 1
              findings := state.findings ++ (if rec.length > 1 then [.tooMany idx rec] else []) ++
                compare "types" idx ty (sl.getD 8 "") ++
                compare "re" idx first.ratified (stripSome (sl.getD 11 "")) ++
                compare "en" idx first.enacted (stripSome (sl.getD 12 "")) ++
                compare "ex" idx first.expired (stripSome expired) }

/-- The loop over the lines of the Acropolis output. -/
def readAcropolis (u : UnicodeData) (d : List ((String × String) × List Proposal))
    (lines : List String) : Except CheckError Check :=
  lines.foldlM (acropolisStep u d) {}

/-- The whole script, from the lines of its two files; the total it prints last
is `found`. -/
def checkConwaySyncdb (u : UnicodeData) (dbsyncLines acropolisLines : List String) :
    Except CheckError Check :=
  readAcropolis u (readDbsync u dbsyncLines) acropolisLines

/-- A dbsync export of one proposal, the same proposal in the Acropolis output,
and a row too short to compare. -/
def sampleDbsync : List String :=
  ["1,7,0,,5,ad,10,,InfoAction,,,Some(3),,,12,7,\\xab01,1,1,0,0,0,0,,,t,0,0\n"]

def sampleAcropolis : List String :=
  ["1,ab01,0,x,x,x,x,x,Information,x,x,3,x,x,12,x\n", "short\n"]

/-- A line as iterating over a text file yields it: a newline, if any, only at its end. -/
def IsLine (s : String) : Prop := '\n' ∉ s.data.dropLast

instance : DecidablePred IsLine := fun s => inferInstanceAs (Decidable ('\n' ∉ s.data.dropLast))

theorem isLine_cases {s : String} (line : IsLine s) :
    ∃ body ending, s.data = body ++ ending ∧ '\n' ∉ body ∧ ∀ c ∈ ending, c = '\n' := by
  rcases List.eq_nil_or_concat s.data with empty | ⟨init, last, split⟩
  · exact ⟨[], [], by simp [empty], List.not_mem_nil _, by simp⟩
  · rw [List.concat_eq_append] at split
    rw [IsLine, split, List.dropLast_concat] at line
    by_cases newline : last = '\n'
    · exact ⟨init, [last], split, line, by simpa using newline⟩
    · exact ⟨s.data, [], by simp, by simp [split, line, Ne.symm newline], by simp⟩

theorem foldl_screenStep_out (cs : List Char) (st : ScreenState) :
    ∃ t, (cs.foldl screenStep st).out = st.out ++ t ∧ ∀ c ∈ t, c ∈ cs ∨ c = ';' := by
  induction cs generalizing st with
  | nil => exact ⟨[], by simp, by simp⟩
  | cons c cs inductionHypothesis =>
    obtain ⟨t, out, within⟩ := inductionHypothesis (screenStep st c)
    refine ⟨screenChar (screenStep st c).inside c :: t,
        by rw [List.foldl_cons, out]; simp [screenStep, screenChar], ?_⟩
    rintro d (_ | ⟨_, member⟩)
    · unfold screenChar
      split <;> simp
    · rcases within d member with old | semicolon
      · exact .inl (List.mem_cons_of_mem c old)
      · exact .inr semicolon

theorem foldl_screenStep_newlines {ending : List Char} (newlines : ∀ c ∈ ending, c = '\n')
    (st : ScreenState) : (ending.foldl screenStep st).out = st.out ++ ending := by
  induction ending generalizing st with
  | nil => simp
  | cons c ending inductionHypothesis =>
    obtain rfl := newlines c (List.mem_cons_self _ _)
    rw [List.foldl_cons,
        inductionHypothesis (fun d member => newlines d (List.mem_cons_of_mem _ member))]
    simp [screenStep]

theorem screenStrings_line {s : String} (line : IsLine s) :
    ∃ t ending, (screenStrings s).data = t ++ ending ∧ '\n' ∉ t ∧ ∀ c ∈ ending, c = '\n' := by
  obtain ⟨body, ending, split, noNewline, newlines⟩ := isLine_cases line
  obtain ⟨t, out, within⟩ := foldl_screenStep_out body screenStart
  refine ⟨t, ending, ?_, fun member => ?_, newlines⟩
  · rw [screenStrings, split, List.foldl_append, foldl_screenStep_newlines newlines, out]
    rfl
  · rcases within '\n' member with inBody | semicolon
    · exact noNewline inBody
    · exact absurd semicolon (by decide)

theorem strip_append_spaces (u : UnicodeData) {x : String} {t w : List Char}
    (split : x.data = t ++ w)
    (spaces : ∀ c ∈ w, u.isWhitespace c) : u.strip x = u.strip (String.mk t) := by
  simp only [UnicodeData.strip, split, List.dropWhile_append]
  split
  · rename_i empty
    rw [List.isEmpty_iff.mp empty, List.dropWhile_eq_nil_iff.mpr spaces]
  · rw [List.reverse_append, List.dropWhile_append_of_pos (by simpa using spaces)]

theorem mem_strip {u : UnicodeData} {x : String} {c : Char} (member : c ∈ (u.strip x).data) :
    c ∈ x.data := by
  simp only [UnicodeData.strip, List.mem_reverse] at member
  exact (dropWhile_suffix _ _).subset (List.mem_reverse.mp ((dropWhile_suffix _ _).subset member))

theorem newline_not_mem_strip (u : UnicodeData) {s : String} (line : IsLine s) :
    '\n' ∉ (u.strip (screenStrings s)).data := by
  obtain ⟨t, ending, screened, noNewline, newlines⟩ := screenStrings_line line
  have spaces : ∀ c ∈ ending, u.isWhitespace c := fun c member => by
    rw [newlines c member]
    rfl
  rw [strip_append_spaces u screened spaces]
  exact fun member => noNewline (mem_strip member)

theorem intercalate_split (s : String) : [','].intercalate ((split ',' s).map String.data) =
    s.data := by
  simpa [split, Function.comp_def] using @List.intercalate_splitOn _ s.data ',' _

theorem columns_ne_of_newline (u : UnicodeData) {s : String} (line : IsLine s)
    {header : List String}
    (newline : '\n' ∈ [','].intercalate (header.map String.data)) : columns u s ≠ header := by
  rintro rfl
  rw [columns, intercalate_split] at newline
  exact newline_not_mem_strip u line newline

theorem screenStrings_dbsyncHeader : screenStrings dbsyncHeader = dbsyncHeader := by
  have keep : screenChar false = id := funext fun c => by simp [screenChar]
  rw [String.ext_iff, screenStrings, foldl_screenStep_of_no_quote (by decide) _ (by decide)]
  simp [screenStart, keep]

theorem dbsyncColumns_length : dbsyncColumns.length = 28 := by
  rw [dbsyncColumns, screenStrings_dbsyncHeader]
  decide

theorem columns_ne_dbsyncColumns (u : UnicodeData) {s : String} (line : IsLine s) :
    columns u s ≠ dbsyncColumns :=
  columns_ne_of_newline u line
      (by rw [dbsyncColumns, intercalate_split, screenStrings_dbsyncHeader]; decide)

theorem columns_ne_acropolisColumns (u : UnicodeData) {s : String} (line : IsLine s) :
    columns u s ≠ acropolisColumns :=
  columns_ne_of_newline u line (by rw [acropolisColumns, intercalate_split]; decide)

/-- The key and the record the loop files for a row of 28 columns. -/
def filedRow (u : UnicodeData) (s : String) : Option ((String × String) × Proposal) :=
  let sl := columns u s
  if sl.length = 28 then some (dbsyncKey sl, dbsyncProposal sl) else none

/-- The records of the rows of 28 columns whose key is `idx`, in file order. -/
def filedUnder (u : UnicodeData) (lines : List String) (idx : String × String) : List Proposal :=
  ((lines.filterMap (filedRow u)).filter (·.1 = idx)).map (·.2)

theorem dbsyncStep_of_line (u : UnicodeData) (d : List ((String × String) × List Proposal))
    {s : String}
    (line : IsLine s) :
    dbsyncStep u d s = match filedRow u s with
      | none => d
      | some (k, p) => appendItem d k p := by
  simp only [dbsyncStep, filedRow, dbsyncColumns_length, columns_ne_dbsyncColumns u line, if_false]
  split <;> simp_all

theorem filedUnder_cons (u : UnicodeData) (s : String) (lines : List String)
    (idx : String × String) :
    filedUnder u (s :: lines) idx =
      (match filedRow u s with
        | some (k, p) => if k = idx then [p] else []
        | none => []) ++ filedUnder u lines idx := by
  simp only [filedUnder, List.filterMap_cons]
  cases filedRow u s with
  | none => rfl
  | some entry => by_cases same : entry.1 = idx <;> simp [same]

theorem foldl_dbsyncStep (u : UnicodeData) (idx : String × String) :
    ∀ (lines : List String) (d : List ((String × String) × List Proposal)),
        (∀ s ∈ lines, IsLine s) →
      getItem (lines.foldl (dbsyncStep u) d) idx =
        if filedUnder u lines idx = [] then getItem d idx
        else some ((getItem d idx).getD [] ++ filedUnder u lines idx)
  | [], d, _ => by simp [filedUnder]
  | s :: lines, d, allLines => by
    rw [List.foldl_cons, dbsyncStep_of_line u d (allLines s (List.mem_cons_self _ _)),
      foldl_dbsyncStep u idx lines _ fun s' member => allLines s' (List.mem_cons_of_mem _ member)]
    rw [filedUnder_cons]
    cases filedRow u s with
    | none => rfl
    | some entry =>
      obtain ⟨k, p⟩ := entry
      by_cases same : k = idx
      · subst same
        by_cases none : filedUnder u lines k = [] <;> simp [none, getItem_appendItem]
      · simp [getItem_appendItem, Ne.symm same, same]

/-- For any lines of a dbsync export, `dbsync_dict` holds under each key the
records of the rows of 28 columns with that key, in file order, and no key
without one: the test for the header row never skips a row. -/
theorem readDbsync_getItem (u : UnicodeData) {lines : List String}
    (allLines : ∀ s ∈ lines, IsLine s)
    (idx : String × String) :
    getItem (readDbsync u lines) idx =
      if filedUnder u lines idx = [] then none else some (filedUnder u lines idx) := by
  rw [readDbsync, foldl_dbsyncStep u idx lines [] allLines]
  simp [getItem]

theorem readDbsync_getItem_sampleDbsync :
    getItem (readDbsync .asciiOnly sampleDbsync) ("ab01", "0") =
      if filedUnder .asciiOnly sampleDbsync ("ab01", "0") = [] then none
      else some (filedUnder .asciiOnly sampleDbsync ("ab01", "0")) :=
  readDbsync_getItem _ (by decide) _

/-- A row the loop counts as found: at least 14 columns, and a key filed in `d`. -/
def foundRow (u : UnicodeData) (d : List ((String × String) × List Proposal)) (s : String) : Bool :=
  14 ≤ (columns u s).length && (getItem d (acropolisKey (columns u s))).isSome

/-- Every key of `dbsync_dict` has a record. -/
def RecordsNonempty (d : List ((String × String) × List Proposal)) : Prop :=
  ∀ idx recs, getItem d idx = some recs → recs ≠ []

section Step

variable {u : UnicodeData} {d : List ((String × String) × List Proposal)} {s : String}

theorem acropolisStep_cases (line : IsLine s) (nonempty : RecordsNonempty d) (state : Check) :
    (foundRow u d s = false ∧ ∃ state', acropolisStep u d state s = .ok state' ∧ state'.found =
        state.found) ∨
    (foundRow u d s = true ∧ (columns u s).length = 14 ∧ acropolisStep u d state s =
        .error .indexError) ∨
    (foundRow u d s = true ∧ 14 < (columns u s).length ∧
      ∃ state', acropolisStep u d state s = .ok state' ∧ state'.found = state.found + 1) := by
  unfold acropolisStep foundRow
  simp only [columns_ne_acropolisColumns u line, if_false]
  by_cases short : (columns u s).length < 14
  · exact .inl
      ⟨by simp [Nat.not_le.mpr short], { state with findings := state.findings ++ [.rejecting s] },
      by simp [short], rfl⟩
  · simp only [short, if_false, Nat.not_lt.mp short, decide_True, Bool.true_and]
    cases found : getItem d (acropolisKey (columns u s)) with
    | none => exact .inl ⟨rfl, _, rfl, rfl⟩
    | some recs =>
      obtain ⟨first, rest, rfl⟩ := List.exists_cons_of_ne_nil (nonempty _ _ found)
      cases column : (columns u s).get? 14 with
      | none =>
        have := List.get?_eq_none.mp column
        exact .inr (.inl ⟨rfl, by omega, rfl⟩)
      | some expired =>
        exact .inr (.inr ⟨rfl, (List.get?_eq_some.mp column).1, _, rfl, rfl⟩)

end Step

theorem foldlM_acropolisStep_found {u : UnicodeData} {d : List ((String × String) × List Proposal)}
    (nonempty : RecordsNonempty d) :
    ∀ {lines : List String} {state state' : Check}, (∀ s ∈ lines, IsLine s) →
      lines.foldlM (acropolisStep u d) state = .ok state' →
        state'.found = state.found + (lines.filter (foundRow u d)).length
  | [], _, _, _, run => by cases run; rfl
  | s :: lines, state, state', allLines, run => by
    rw [List.foldlM_cons] at run
    have tailLines := fun s' member => allLines s' (List.mem_cons_of_mem s member)
    rcases acropolisStep_cases (allLines s (List.mem_cons_self _ _)) nonempty state with
      ⟨notFound, state'', step, same⟩ | ⟨-, -, step⟩ | ⟨found, -, state'', step, counted⟩
    · rw [step] at run
      simp [foldlM_acropolisStep_found nonempty tailLines run, notFound, same]
    · rw [step] at run
      cases run
    · rw [step] at run
      simp only
          [foldlM_acropolisStep_found nonempty tailLines run, List.filter_cons, found, if_true,
        List.length_cons, counted]
      omega

theorem foldlM_acropolisStep_ok_iff {u : UnicodeData} {d : List ((String × String) × List Proposal)}
    (nonempty : RecordsNonempty d) :
    ∀ {lines : List String} (state : Check), (∀ s ∈ lines, IsLine s) →
      ((∃ state', lines.foldlM (acropolisStep u d) state = .ok state') ↔
        ∀ s ∈ lines, foundRow u d s = true → 14 < (columns u s).length)
  | [], state, _ => ⟨fun _ _ member => absurd member (List.not_mem_nil _), fun _ => ⟨state, rfl⟩⟩
  | s :: lines, state, allLines => by
    rw [List.foldlM_cons, List.forall_mem_cons]
    have tailLines := fun s' member => allLines s' (List.mem_cons_of_mem s member)
    rcases acropolisStep_cases (allLines s (List.mem_cons_self _ _)) nonempty state with
      ⟨notFound, state', step, -⟩ | ⟨found, exactly, step⟩ | ⟨-, longer, state', step, -⟩
    · rw [step]
      exact (foldlM_acropolisStep_ok_iff nonempty state' tailLines).trans
          ⟨fun later => ⟨fun found => by simp [notFound] at found, later⟩, And.right⟩
    · rw [step]
      exact ⟨fun ⟨_, run⟩ => (by cases run), fun ⟨first, _⟩ => absurd (first found) (by omega)⟩
    · rw [step]
      exact (foldlM_acropolisStep_ok_iff nonempty state' tailLines).trans
          ⟨fun later => ⟨fun _ => longer, later⟩, And.right⟩

theorem recordsNonempty_readDbsync (u : UnicodeData) {lines : List String}
    (allLines : ∀ s ∈ lines, IsLine s) :
    RecordsNonempty (readDbsync u lines) := by
  intro idx recs found
  rw [readDbsync_getItem u allLines] at found
  split at found
  · cases found
  · cases found
    assumption

theorem foundRow_readDbsync (u : UnicodeData) {lines : List String}
    (allLines : ∀ s ∈ lines, IsLine s)
    (s : String) :
    foundRow u (readDbsync u lines) s =
      (14 ≤ (columns u s).length &&
          !(filedUnder u lines (acropolisKey (columns u s))).isEmpty) := by
  rw [foundRow, readDbsync_getItem u allLines]
  split <;> simp_all

/-- For any two files, when the script ends normally the total it prints is the
number of rows of the Acropolis output with at least 14 columns whose key
(columns 1 and 2) is the key of some row of 28 columns of the dbsync export:
neither header test skips a row. -/
theorem checkConwaySyncdb_found (u : UnicodeData) {dbsyncLines acropolisLines : List String}
    (dbsyncFile : ∀ s ∈ dbsyncLines, IsLine s) (acropolisFile : ∀ s ∈ acropolisLines, IsLine s)
    {result : Check} (run : checkConwaySyncdb u dbsyncLines acropolisLines = .ok result) :
    result.found = (acropolisLines.filter fun s => 14 ≤ (columns u s).length &&
      !(filedUnder u dbsyncLines (acropolisKey (columns u s))).isEmpty).length := by
  rw [foldlM_acropolisStep_found (recordsNonempty_readDbsync u dbsyncFile) acropolisFile run,
    List.filter_congr fun s _ => foundRow_readDbsync u dbsyncFile s]
  exact Nat.zero_add _

theorem checkConwaySyncdb_found_sample : ∃ result,
    checkConwaySyncdb .asciiOnly sampleDbsync sampleAcropolis = .ok result ∧
      result.found = (sampleAcropolis.filter fun s => 14 ≤ (columns .asciiOnly s).length &&
        !(filedUnder .asciiOnly sampleDbsync
            (acropolisKey (columns .asciiOnly s))).isEmpty).length := by
  obtain ⟨result, run⟩ : ∃ result, checkConwaySyncdb .asciiOnly sampleDbsync sampleAcropolis =
      .ok result := by
    rw [checkConwaySyncdb, readDbsync, sampleDbsync, List.foldl_cons, List.foldl_nil,
      dbsyncStep_of_line _ _ (by decide)]
    exact ⟨_, rfl⟩
  exact ⟨result, run, checkConwaySyncdb_found _ (by decide) (by decide) run⟩

/-- The script stops with an `IndexError` exactly when some row of the Acropolis
output has exactly 14 columns and a key some row of 28 columns of the dbsync
export has. -/
theorem checkConwaySyncdb_ok_iff (u : UnicodeData) {dbsyncLines acropolisLines : List String}
    (dbsyncFile : ∀ s ∈ dbsyncLines, IsLine s) (acropolisFile : ∀ s ∈ acropolisLines, IsLine s) :
    (∃ result, checkConwaySyncdb u dbsyncLines acropolisLines = .ok result) ↔
      ∀ s ∈ acropolisLines, (columns u s).length = 14 →
        filedUnder u dbsyncLines (acropolisKey (columns u s)) = [] := by
  rw [checkConwaySyncdb, readAcropolis,
    foldlM_acropolisStep_ok_iff (recordsNonempty_readDbsync u dbsyncFile) _ acropolisFile]
  refine forall₂_congr fun s _ => ?_
  rw [foundRow_readDbsync u dbsyncFile]
  by_cases fourteen : (columns u s).length = 14
  · simp [fourteen]
  · constructor
    · exact fun _ exactly => absurd exactly fourteen
    · intro _ found
      simp only [Bool.and_eq_true, decide_eq_true_eq] at found
      omega

theorem checkConwaySyncdb_ok_iff_sample :
    (∃ result, checkConwaySyncdb .asciiOnly sampleDbsync sampleAcropolis = .ok result) ↔
      ∀ s ∈ sampleAcropolis, (columns .asciiOnly s).length = 14 →
        filedUnder .asciiOnly sampleDbsync (acropolisKey (columns .asciiOnly s)) = [] :=
  checkConwaySyncdb_ok_iff _ (by decide) (by decide)

end Acropolis.Governance
