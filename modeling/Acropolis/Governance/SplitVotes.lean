import Acropolis.Python.Value
import Acropolis.Python.Text

/-!
# Votes of the execution log

`split_votes` of `convert_governance.py` reads the votes on a governance action
from the Rust `Debug` text of its vote map. It splits the text at
`vote_index: N }), ` and matches each piece against
`Kind([key]): (.*, VotingProcedure { vote: V.*`. The model runs both regular
expressions the way Python's backtracking matcher runs these two patterns.

The greedy `.*` settles on the last `, VotingProcedure { vote: ` of a piece,
and an anchor's URL is text any voter chooses: the votes come out right when no
URL holds that text followed by a vote. A URL that holds the split pattern
only cuts off pieces that match nothing, since no match can pass the quote
that closes the URL.
-/

namespace Acropolis.Governance

open Acropolis.Python

/-- `key_type` -/
def keyType : List (String × Nat) :=
  [("ConstitutionalCommitteeKey", 3), ("ConstitutionalCommitteeScript", 4), ("DRepKey", 0),
    ("DRepScript", 1), ("StakePoolKey", 2)]

/-- `array_as_base64(keyhash)`; `none` is the `ValueError` of `bytes`. -/
def arrayAsBase64 (keyhash : List Int) : Option String :=
  (bytesOf keyhash).map fun bs => String.mk (b64encode bs)

/-- `\d` of a `str` pattern: a character with a decimal value. -/
def isReDigit (u : UnicodeData) (c : Char) : Bool :=
  if c.toNat < 128 then c.isDigit else (u.decimal c).isSome

/-- `vote_index: `, the literal text the split pattern starts with. -/
def indexLabel : List Char := "vote_index: ".data

/-- ` }), `, the literal text of the split pattern after the digits. -/
def indexClose : List Char := " \x7d), ".data

/-- The length of the match of `vote_index: \d+ \}\), +` at the start of `cs`.
Both runs are greedy, and neither can give a character back to what follows. -/
def separatorLength (u : UnicodeData) (cs : List Char) : Option Nat :=
  if indexLabel <+: cs then
    let digits := ((cs.drop 12).takeWhile (isReDigit u)).length
    let afterDigits := (cs.drop 12).drop digits
    if digits ≠ 0 ∧ indexClose <+: afterDigits then
      some (12 + digits + 5 + ((afterDigits.drop 5).takeWhile (· = ' ')).length)
    else none
  else none

/-- The scan of `re.split(r'vote_index: \d+ \}\), +', text)` from the left: the
pieces it has finished, and the piece it is building, reversed. A match
finishes the piece and the scan goes on after it; `skip` counts the characters
of the match still to pass. -/
def scanVotes (u : UnicodeData) : List Char → Nat → List Char → List (List Char) × List Char
  | [], _, piece => ([], piece)
  | _ :: rest, skip + 1, piece => scanVotes u rest skip piece
  | c :: rest, 0, piece =>
    match separatorLength u (c :: rest) with
    | some n =>
      let after := scanVotes u rest (n - 1) []
      (piece.reverse :: after.1, after.2)
    | none => scanVotes u rest 0 (c :: piece)

/-- `re.split(r'vote_index: \d+ \}\), +', text)` -/
def splitVoteList (u : UnicodeData) (text : List Char) : List (List Char) :=
  let scan := scanVotes u text 0 []
  scan.1 ++ [scan.2.reverse]

/-- `[a-zA-Z]` -/
def isAsciiLetter (c : Char) : Bool := ('a' ≤ c && c ≤ 'z') || ('A' ≤ c && c ≤ 'Z')

/-- `[,0-9 ]` -/
def isKeyChar (c : Char) : Bool := c = ',' || c.isDigit || c = ' '

inductive Vote where
  | yes
  | no
  | abstain
  deriving DecidableEq, Repr

def Vote.name : Vote → String
  | yes => "Yes"
  | no => "No"
  | abstain => "Abstain"

/-- `, VotingProcedure { vote: `, the literal text before the vote. -/
def votePrefix : List Char := ", VotingProcedure \x7b vote: ".data

/-- `, VotingProcedure { vote: V`, the text a vote is read from. -/
def votePattern (w : Vote) : List Char := votePrefix ++ w.name.data

/-- `, VotingProcedure \{ vote: (Yes|No|Abstain)` at the start of `cs`, the
alternatives tried in order. -/
def voteAt (cs : List Char) : Option Vote :=
  if votePrefix <+: cs then
    let rest := cs.drop votePrefix.length
    if "Yes".data <+: rest then some .yes
    else if "No".data <+: rest then some .no
    else if "Abstain".data <+: rest then some .abstain
    else none
  else none

/-- `.*, VotingProcedure \{ vote: (Yes|No|Abstain)` at the start of `cs`: the
greedy `.*` first takes the whole line and gives characters back one at a time,
so the match furthest along the line wins. -/
def lastVote : List Char → Option Vote
  | [] => none
  | c :: cs =>
    match (if c = '\n' then none else lastVote cs) with
    | some v => some v
    | none => voteAt (c :: cs)

/-- `cs` without the prefix `p`, when it has it. -/
def stripPrefix (p cs : List Char) : Option (List Char) :=
  if p <+: cs then some (cs.drop p.length) else none

/-- The groups of `re.match(r'([a-zA-Z]+)\(\[([,0-9 ]+)\]\): \(.*, VotingProcedure
\{ vote: (Yes|No|Abstain).*', velem)`. The two classes are followed by a
character outside them, so their greedy runs are maximal. -/
def matchVote (velem : List Char) : Option (List Char × List Char × Vote) :=
  let kind := velem.takeWhile isAsciiLetter
  match velem.dropWhile isAsciiLetter with
  | '(' :: '[' :: afterBracket =>
    let key := afterBracket.takeWhile isKeyChar
    match stripPrefix "]): (".data (afterBracket.dropWhile isKeyChar) with
    | some body => if kind = [] ∨ key = [] then none else (lastVote body).map (kind, key, ·)
    | none => none
  | _ => none

/-- `s.split(', ')`, the current piece kept reversed. -/
def splitCommaSpace : List Char → List Char → List (List Char)
  | ',' :: ' ' :: rest, piece => piece.reverse :: splitCommaSpace rest []
  | c :: rest, piece => splitCommaSpace rest (c :: piece)
  | [], piece => [piece.reverse]

/-- The dict `votes` of `split_votes`. -/
structure Votes where
  yes : List (Nat × String) := []
  no : List (Nat × String) := []
  abstain : List (Nat × String) := []
  deriving DecidableEq, Repr

/-- `votes[name] += [voter]` -/
def Votes.add (votes : Votes) : Vote → Nat × String → Votes
  | .yes, voter => { votes with yes := votes.yes ++ [voter] }
  | .no, voter => { votes with no := votes.no ++ [voter] }
  | .abstain, voter => { votes with abstain := votes.abstain ++ [voter] }

/-- One `velem` of the loop of `split_votes`, from the votes so far and
`all_voters_hash`. -/
def splitVotesStep (u : UnicodeData) (state : Votes × List (String × Nat))
    (velem : List Char) : Except PyError (Votes × List (String × Nat)) :=
  match matchVote velem with
  | none => .ok state
  | some (kind, keyText, vote) => do
    let keyhash ← (splitCommaSpace keyText []).mapM fun x =>
      (u.int (String.mk x)).elim (.error .valueError) .ok
    let key ← (arrayAsBase64 keyhash).elim (.error .valueError) .ok
    let allVotersHash := setItem state.2 key 1
    let code ← (getItem keyType (String.mk kind)).elim (.error .keyError) .ok
    pure (state.1.add vote (code, key), allVotersHash)

/-- `split_votes(vstr)` with `all_voters_hash` as it stands: the votes, and the
dict after the loop. -/
def splitVotes (u : UnicodeData) (vstr : String) (allVotersHash : List (String × Nat)) :
    Except PyError (Votes × List (String × Nat)) :=
  (splitVoteList u vstr.data).foldlM (splitVotesStep u) ({}, allVotersHash)

/-- The voters of `key_type`, by their Rust variant names. -/
inductive VoterKind where
  | constitutionalCommitteeKey
  | constitutionalCommitteeScript
  | dRepKey
  | dRepScript
  | stakePoolKey
  deriving DecidableEq, Repr

def VoterKind.name : VoterKind → String
  | constitutionalCommitteeKey => "ConstitutionalCommitteeKey"
  | constitutionalCommitteeScript => "ConstitutionalCommitteeScript"
  | dRepKey => "DRepKey"
  | dRepScript => "DRepScript"
  | stakePoolKey => "StakePoolKey"

/-- An anchor, its URL as `Debug` prints it between the quotes. -/
structure Anchor where
  url : String
  dataHash : List UInt8

/-- A vote on a governance action, as the vote map holds it. -/
structure VoteEntry where
  kind : VoterKind
  voterKey : List UInt8
  voterKey_ne_nil : voterKey ≠ []
  txHash : List UInt8
  vote : Vote
  anchor : Option Anchor
  voteIndex : Nat

/-- The bytes of an array in decimal, joined by `, `. -/
def byteText (bs : List UInt8) : List Char :=
  ", ".data.intercalate (bs.map fun b => (toString b.toNat).data)

/-- `Debug` of a byte array: `[1, 2, 3]`. -/
def bytesDebug (bs : List UInt8) : List Char := '[' :: byteText bs ++ [']']

def anchorDebug : Option Anchor → List Char
  | none => "None".data
  | some a =>
    "Some(Anchor \x7b url: \"".data ++ a.url.data ++ "\", data_hash: ".data ++
      bytesDebug a.dataHash ++ " \x7d)".data

/-- `Kind([key]): ([tx]` -/
def VoteEntry.voterText (v : VoteEntry) : List Char :=
  v.kind.name.data ++ '(' :: bytesDebug v.voterKey ++ "): (".data ++ bytesDebug v.txHash

/-- `Kind([key]): ([tx], VotingProcedure { vote: V, anchor: A, ` -/
def VoteEntry.head (v : VoteEntry) : List Char :=
  v.voterText ++ votePattern v.vote ++ ", anchor: ".data ++ anchorDebug v.anchor ++ ", ".data

/-- `Kind([key]): ([tx], VotingProcedure { vote: V, anchor: A, vote_index: n })` -/
def VoteEntry.debug (v : VoteEntry) : List Char :=
  v.head ++ indexLabel ++ (toString v.voteIndex).data ++ " \x7d)".data

/-- The entries joined with `, `. -/
def votesDebug (votes : List VoteEntry) : String :=
  String.mk (", ".data.intercalate (votes.map VoteEntry.debug))

theorem prefix_append_quote_iff {p a b : List Char} (noQuote : '"' ∉ p) :
    p <+: a ++ '"' :: b ↔ p <+: a := by
  refine ⟨fun starts => ?_, fun starts => starts.trans (List.prefix_append a _)⟩
  rcases le_total p.length a.length with le | le
  · exact List.prefix_of_prefix_length_le starts (List.prefix_append a _) le
  · obtain ⟨extra, rfl⟩ := List.prefix_of_prefix_length_le (List.prefix_append a _) starts le
    cases extra with
    | nil => simp
    | cons c more =>
      have quoteFirst := (List.cons_prefix_cons.mp ((List.prefix_append_right_inj a).mp starts)).1
      exact absurd (by simp [quoteFirst]) noQuote

theorem takeWhile_append_quote (p : Char → Bool) (stop : p '"' = false) (a b : List Char) :
    (a ++ '"' :: b).takeWhile p = a.takeWhile p := by
  induction a with
  | nil => simp [stop]
  | cons c a inductionHypothesis =>
    simp only [List.cons_append, List.takeWhile_cons]
    split <;> simp [inductionHypothesis]

/-- No occurrence of `pat` starts inside `p` when `rest` follows it. -/
def Quiet (pat p rest : List Char) : Prop := ∀ j < p.length, ¬ pat <+: p.drop j ++ rest

/-- Every suffix of `p` disagrees with `pat` before either ends; decided on a
literal `p`. -/
def Disagrees (pat p : List Char) : Prop :=
  ∀ j < p.length, ¬ p.drop j <+: pat ∧ ¬ pat <+: p.drop j

instance (pat p : List Char) : Decidable (Disagrees pat p) :=
  inferInstanceAs (Decidable (∀ j < p.length, _))

theorem quiet_tail {pat p rest : List Char} {c : Char} (quiet : Quiet pat (c :: p) rest) :
    Quiet pat p rest :=
  fun j inside => quiet (j + 1) (Nat.succ_lt_succ inside)

theorem quiet_append {pat a b rest : List Char} (first : Quiet pat a (b ++ rest))
    (second : Quiet pat b rest) : Quiet pat (a ++ b) rest := by
  intro j inside
  by_cases short : j < a.length
  · rw [List.drop_append_of_le_length short.le, List.append_assoc]
    exact first j short
  · rw [List.drop_append_eq_append_drop, List.drop_eq_nil_of_le (by omega), List.nil_append]
    exact second (j - a.length) (by simp only [List.length_append] at inside; omega)

theorem quiet_of_disagrees {pat p : List Char} (disagrees : Disagrees pat p) (rest : List Char) :
    Quiet pat p rest := by
  intro j inside starts
  obtain ⟨short, long⟩ := disagrees j inside
  rcases le_total pat.length (p.drop j).length with le | le
  · exact long (List.prefix_of_prefix_length_le starts (List.prefix_append _ rest) le)
  · exact short (List.prefix_of_prefix_length_le (List.prefix_append _ rest) starts le)

theorem disagrees_of_not_mem {h : Char} {pat p : List Char} (absent : h ∉ p) :
    Disagrees (h :: pat) p := by
  intro j inside
  obtain ⟨c, more, split⟩ := List.exists_cons_of_ne_nil (List.ne_nil_of_length_pos
    (by simp only [List.length_drop]; omega : 0 < (p.drop j).length))
  have other : c ≠ h := fun same => absent (same ▸ List.mem_of_mem_drop (split ▸ List.mem_cons_self c more))
  rw [split, List.cons_prefix_cons, List.cons_prefix_cons]
  exact ⟨fun starts => other starts.1, fun starts => other starts.1.symm⟩

theorem quiet_of_not_mem {h : Char} {pat p : List Char} (absent : h ∉ p) (rest : List Char) :
    Quiet (h :: pat) p rest :=
  quiet_of_disagrees (disagrees_of_not_mem absent) rest

theorem quiet_quoted {pat t : List Char} (absent : ¬ pat <:+: t) (noQuote : '"' ∉ pat)
    (rest : List Char) : Quiet pat t ('"' :: rest) := by
  intro j inside starts
  rw [prefix_append_quote_iff noQuote] at starts
  exact absent (starts.isInfix.trans (List.drop_suffix j t).isInfix)

theorem length_takeWhile_le (p : Char → Bool) (l : List Char) : (l.takeWhile p).length ≤ l.length :=
  (List.takeWhile_prefix p).length_le

section Scan

variable (u : UnicodeData)

theorem separatorLength_of_not_prefix {cs : List Char} (absent : ¬ indexLabel <+: cs) :
    separatorLength u cs = none := by
  simp [separatorLength, absent]

theorem separatorLength_le {cs : List Char} {n : Nat} (found : separatorLength u cs = some n) :
    n ≤ cs.length := by
  simp only [separatorLength] at found
  split_ifs at found with labelled closes
  cases found
  have label := labelled.length_le
  have close := closes.2.length_le
  have digits := length_takeWhile_le (isReDigit u) (cs.drop 12)
  have spaces := length_takeWhile_le (fun c => decide (c = ' '))
    (((cs.drop 12).drop ((cs.drop 12).takeWhile (isReDigit u)).length).drop 5)
  simp only [indexLabel, List.length_drop] at label close digits spaces ⊢
  change 12 ≤ cs.length at label
  change 5 ≤ _ at close
  omega

theorem separatorLength_append_quote (a b : List Char) :
    separatorLength u (a ++ '"' :: b) = separatorLength u a := by
  by_cases labelled : indexLabel <+: a
  · obtain ⟨rest, rfl⟩ := labelled
    have digitsLe := length_takeWhile_le (isReDigit u) rest
    have dropLabel : ∀ t, (indexLabel ++ t).drop 12 = t := fun t => List.drop_left' rfl
    have quoteNotDigit : isReDigit u '"' = false := rfl
    simp only [separatorLength, List.append_assoc, List.prefix_append, if_true, dropLabel,
      takeWhile_append_quote _ quoteNotDigit, List.drop_append_of_le_length digitsLe,
      prefix_append_quote_iff (show '"' ∉ indexClose by decide)]
    by_cases closes : indexClose <+: rest.drop (rest.takeWhile (isReDigit u)).length
    · have closeLe : 5 ≤ (rest.drop (rest.takeWhile (isReDigit u)).length).length :=
        closes.length_le
      simp only [closes, List.drop_append_of_le_length closeLe,
        takeWhile_append_quote (fun c => decide (c = ' ')) rfl]
    · simp only [closes, and_false, if_false]
  · simp [separatorLength, labelled, prefix_append_quote_iff (show '"' ∉ indexLabel by decide)]

theorem scanVotes_succ (c : Char) (rest : List Char) (skip : Nat) (piece : List Char) :
    scanVotes u (c :: rest) (skip + 1) piece = scanVotes u rest skip piece := rfl

theorem scanVotes_of_none {c : Char} {rest : List Char} (none : separatorLength u (c :: rest) = none)
    (piece : List Char) : scanVotes u (c :: rest) 0 piece = scanVotes u rest 0 (c :: piece) := by
  rw [scanVotes, none]

theorem scanVotes_of_some {c : Char} {rest : List Char} {n : Nat}
    (found : separatorLength u (c :: rest) = some n) (piece : List Char) :
    scanVotes u (c :: rest) 0 piece =
      (piece.reverse :: (scanVotes u rest (n - 1) []).1, (scanVotes u rest (n - 1) []).2) := by
  simp only [scanVotes, found]

theorem scanVotes_quiet {p rest : List Char} (quiet : Quiet indexLabel p rest)
    (piece : List Char) : scanVotes u (p ++ rest) 0 piece = scanVotes u rest 0 (p.reverse ++ piece) := by
  induction p generalizing piece with
  | nil => rfl
  | cons c p inductionHypothesis =>
    have here : separatorLength u (c :: (p ++ rest)) = none :=
      separatorLength_of_not_prefix u (quiet 0 (Nat.succ_pos _))
    rw [List.cons_append, scanVotes_of_none u here, inductionHypothesis (quiet_tail quiet)]
    simp

theorem scanVotes_skip (xs ys piece : List Char) :
    scanVotes u (xs ++ ys) xs.length piece = scanVotes u ys 0 piece := by
  induction xs with
  | nil => rfl
  | cons x xs inductionHypothesis =>
    rw [List.cons_append, List.length_cons, scanVotes_succ, inductionHypothesis]

theorem scanVotes_append_quote (a b : List Char) {skip : Nat} (within : skip ≤ a.length)
    (piece : List Char) :
    scanVotes u (a ++ '"' :: b) skip piece =
      ((scanVotes u a skip piece).1 ++ (scanVotes u ('"' :: b) 0 (scanVotes u a skip piece).2).1,
        (scanVotes u ('"' :: b) 0 (scanVotes u a skip piece).2).2) := by
  induction a generalizing skip piece with
  | nil =>
    obtain rfl : skip = 0 := Nat.le_zero.mp within
    rfl
  | cons c a inductionHypothesis =>
    cases skip with
    | succ skip =>
      rw [List.cons_append, scanVotes_succ, scanVotes_succ]
      exact inductionHypothesis (Nat.le_of_succ_le_succ within) piece
    | zero =>
      have barrier := separatorLength_append_quote u (c :: a) b
      simp only [List.cons_append] at barrier ⊢
      cases found : separatorLength u (c :: a) with
      | some n =>
        have fits := separatorLength_le u found
        simp only [List.length_cons] at fits
        rw [scanVotes_of_some u (barrier.trans found), scanVotes_of_some u found,
          inductionHypothesis (by omega : n - 1 ≤ a.length)]
        rfl
      | none =>
        rw [scanVotes_of_none u (barrier.trans found), scanVotes_of_none u found,
          inductionHypothesis (Nat.zero_le _)]

theorem isReDigit_of_isDigit {c : Char} (digit : c.isDigit) : isReDigit u c := by
  simp [isReDigit, isDigit_toNat_lt digit, Nat.lt_trans (isDigit_toNat_lt digit), digit]

theorem separatorLength_index (n : Nat) {next : List Char} (noSpace : next.head? ≠ some ' ') :
    separatorLength u (indexLabel ++ (toString n).data ++ indexClose ++ next) =
      some (12 + (toString n).data.length + 5) := by
  obtain ⟨nonempty, decimal, -⟩ := toString_digits n
  have spaceNotDigit : isReDigit u ' ' = false := rfl
  have digits : ((toString n).data ++ (indexClose ++ next)).takeWhile (isReDigit u) =
      (toString n).data := by
    rw [List.takeWhile_append_of_pos fun c hc => isReDigit_of_isDigit u (decimal c hc)]
    simp [indexClose, spaceNotDigit]
  have spaces : next.takeWhile (· = ' ') = [] := by
    cases next with
    | nil => rfl
    | cons c more => simpa using noSpace
  simp only [separatorLength, List.append_assoc, List.prefix_append, if_true,
    List.drop_left' (show indexLabel.length = 12 from rfl), digits, List.drop_left,
    List.drop_left' (show indexClose.length = 5 from rfl), spaces, List.length_nil, add_zero,
    ne_eq, List.length_eq_zero, nonempty, not_false_eq_true, true_and]

theorem scanVotes_index (n : Nat) {next : List Char} (noSpace : next.head? ≠ some ' ')
    (piece : List Char) :
    scanVotes u (indexLabel ++ (toString n).data ++ indexClose ++ next) 0 piece =
      (piece.reverse :: (scanVotes u next 0 []).1, (scanVotes u next 0 []).2) := by
  have found := separatorLength_index u n noSpace
  have text : indexLabel ++ (toString n).data ++ indexClose ++ next =
      'v' :: (("ote_index: ".data ++ (toString n).data ++ indexClose) ++ next) := rfl
  have skipped : 12 + (toString n).data.length + 5 - 1 =
      ("ote_index: ".data ++ (toString n).data ++ indexClose).length := by
    simp only [List.length_append, show "ote_index: ".data.length = 11 from rfl,
      show indexClose.length = 5 from rfl]
    omega
  rw [text] at found ⊢
  rw [scanVotes_of_some u found, skipped, scanVotes_skip]

theorem scanVotes_last (n : Nat) (piece : List Char) :
    scanVotes u (indexLabel ++ (toString n).data ++ " \x7d)".data) 0 piece =
      ([], (indexLabel ++ (toString n).data ++ " \x7d)".data).reverse ++ piece) := by
  obtain ⟨-, decimal, -⟩ := toString_digits n
  have spaceNotDigit : isReDigit u ' ' = false := rfl
  have digits : ((toString n).data ++ " \x7d)".data).takeWhile (isReDigit u) =
      (toString n).data := by
    rw [List.takeWhile_append_of_pos fun c hc => isReDigit_of_isDigit u (decimal c hc)]
    simp [spaceNotDigit]
  have noMatch : separatorLength u (indexLabel ++ (toString n).data ++ " \x7d)".data) = none := by
    simp only [separatorLength, List.append_assoc, List.prefix_append, if_true,
      List.drop_left' (show indexLabel.length = 12 from rfl), digits, List.drop_left,
      show ¬ indexClose <+: " \x7d)".data by decide, and_false, if_false]
  have text : indexLabel ++ (toString n).data ++ " \x7d)".data =
      'v' :: (("ote_index: ".data ++ (toString n).data ++ " \x7d)".data) ++ []) := by simp; rfl
  have noV : 'v' ∉ "ote_index: ".data ++ (toString n).data ++ " \x7d)".data := by
    simp only [List.mem_append, not_or]
    exact ⟨⟨by decide, fun digit => by simpa using decimal 'v' digit⟩, by decide⟩
  rw [text] at noMatch ⊢
  rw [scanVotes_of_none u noMatch, scanVotes_quiet u (quiet_of_not_mem noV [])]
  simp [scanVotes]

theorem scanVotes_piece (cs : List Char) (skip : Nat) (piece : List Char) :
    scanVotes u cs skip piece =
      match scanVotes u cs skip [] with
      | ([], current) => ([], current ++ piece)
      | (first :: done, current) => ((piece.reverse ++ first) :: done, current) := by
  induction cs generalizing skip piece with
  | nil => rfl
  | cons c cs inductionHypothesis =>
    cases skip with
    | succ skip => simp only [scanVotes_succ, inductionHypothesis skip piece]
    | zero =>
      cases found : separatorLength u (c :: cs) with
      | some n => simp [scanVotes_of_some u found]
      | none =>
        rw [scanVotes_of_none u found, scanVotes_of_none u found, inductionHypothesis 0 (c :: piece),
          inductionHypothesis 0 [c]]
        rcases scanVotes u cs 0 [] with ⟨_ | ⟨first, done⟩, current⟩ <;> simp

theorem scanVotes_current {cs piece : List Char} (unfinished : (scanVotes u cs 0 piece).1 = []) :
    (scanVotes u cs 0 piece).2 = cs.reverse ++ piece := by
  induction cs generalizing piece with
  | nil => rfl
  | cons c cs inductionHypothesis =>
    cases found : separatorLength u (c :: cs) with
    | some n => simp [scanVotes_of_some u found] at unfinished
    | none =>
      rw [scanVotes_of_none u found] at unfinished ⊢
      simp [inductionHypothesis unfinished]

theorem scanVotes_within (cs : List Char) (skip : Nat) :
    (∀ x ∈ (scanVotes u cs skip []).1, x <:+: cs) ∧ (scanVotes u cs skip []).2.reverse <:+: cs := by
  suffices ∀ piece, (skip = 0 ∨ piece = []) →
      (∀ x ∈ (scanVotes u cs skip piece).1, x <:+: piece.reverse ++ cs) ∧
        (scanVotes u cs skip piece).2.reverse <:+: piece.reverse ++ cs from
    this [] (.inr rfl)
  induction cs generalizing skip with
  | nil => exact fun piece _ => ⟨fun _ member => absurd member (List.not_mem_nil _), by simp [scanVotes]⟩
  | cons c cs inductionHypothesis =>
    intro piece fresh
    have later : cs <:+: piece.reverse ++ c :: cs :=
      ((List.suffix_cons c cs).trans (List.suffix_append _ _)).isInfix
    cases skip with
    | succ skip =>
      obtain rfl : piece = [] := fresh.resolve_left (Nat.succ_ne_zero skip)
      obtain ⟨done, current⟩ := inductionHypothesis skip [] (.inr rfl)
      rw [scanVotes_succ]
      exact ⟨fun x member => (done x member).trans later, current.trans later⟩
    | zero =>
      cases found : separatorLength u (c :: cs) with
      | some n =>
        obtain ⟨done, current⟩ := inductionHypothesis (n - 1) [] (.inr rfl)
        rw [scanVotes_of_some u found]
        refine ⟨fun x member => ?_, current.trans later⟩
        rcases List.mem_cons.mp member with rfl | member
        · exact (List.prefix_append _ _).isInfix
        · exact (done x member).trans later
      | none =>
        obtain ⟨done, current⟩ := inductionHypothesis 0 (c :: piece) (.inl rfl)
        rw [scanVotes_of_none u found]
        simpa using And.intro done current

end Scan

/-- No vote of `, VotingProcedure \{ vote: (Yes|No|Abstain)` lies in `t`. -/
def VoteFree (t : List Char) : Prop := ∀ w, ¬ votePattern w <:+: t

instance (t : List Char) : Decidable (VoteFree t) :=
  decidable_of_iff (¬ votePattern .yes <:+: t ∧ ¬ votePattern .no <:+: t ∧
      ¬ votePattern .abstain <:+: t)
    ⟨fun ⟨yes, no, abstain⟩ w => by cases w <;> assumption, fun free => ⟨free _, free _, free _⟩⟩

theorem infix_iff_exists_drop {pat t : List Char} : pat <:+: t ↔ ∃ j, pat <+: t.drop j := by
  constructor
  · rintro ⟨s, r, rfl⟩
    exact ⟨s.length, by simp⟩
  · rintro ⟨j, starts⟩
    exact starts.isInfix.trans (List.drop_suffix j t).isInfix

theorem voteAt_some {cs : List Char} {w : Vote} (found : voteAt cs = some w) :
    votePattern w <+: cs := by
  simp only [voteAt] at found
  split_ifs at found with labelled <;> cases found <;>
    · obtain ⟨rest, rfl⟩ := labelled
      simp only [votePattern, Vote.name, List.drop_left] at *
      exact (List.prefix_append_right_inj votePrefix).mpr ‹_›

theorem lastVote_some {cs : List Char} {w : Vote} (found : lastVote cs = some w) :
    votePattern w <:+: cs := by
  induction cs with
  | nil => cases found
  | cons c cs inductionHypothesis =>
    simp only [lastVote] at found
    split at found
    · rename_i later
      split_ifs at later
      exact (inductionHypothesis (found ▸ later)).trans (List.suffix_cons c cs).isInfix
    · exact (voteAt_some found).isInfix

theorem lastVote_of_voteFree {cs : List Char} (free : VoteFree cs) : lastVote cs = none := by
  cases found : lastVote cs with
  | none => rfl
  | some w => exact absurd (lastVote_some found) (free w)

theorem VoteFree.mono {x t : List Char} (free : VoteFree t) (inside : x <:+: t) : VoteFree x :=
  fun w found => free w (found.trans inside)

theorem voteFree_quote {x y : List Char} (first : VoteFree x) (second : VoteFree y) :
    VoteFree (x ++ '"' :: y) := by
  intro w found
  obtain ⟨j, starts⟩ := infix_iff_exists_drop.mp found
  have noQuote : '"' ∉ votePattern w := by cases w <;> decide
  by_cases short : j ≤ x.length
  · rw [List.drop_append_of_le_length short, prefix_append_quote_iff noQuote] at starts
    exact first w (starts.isInfix.trans (List.drop_suffix j x).isInfix)
  · rw [List.drop_append_eq_append_drop, List.drop_eq_nil_of_le (by omega), List.nil_append,
      show j - x.length = (j - x.length - 1) + 1 by omega, List.drop_succ_cons] at starts
    exact second w (starts.isInfix.trans (List.drop_suffix _ y).isInfix)

theorem voteFree_of_not_mem {t : List Char} (noV : 'V' ∉ t) : VoteFree t := by
  intro w found
  have hasV : 'V' ∈ votePattern w := by cases w <;> decide
  exact noV (found.subset hasV)

theorem voteFree_append {x y : List Char} (disagrees : Disagrees votePrefix x)
    (second : VoteFree y) : VoteFree (x ++ y) := by
  intro w found
  obtain ⟨j, starts⟩ := infix_iff_exists_drop.mp found
  by_cases short : j < x.length
  · rw [List.drop_append_of_le_length short.le] at starts
    exact quiet_of_disagrees disagrees y j short ((List.prefix_append _ _).trans starts)
  · rw [List.drop_append_eq_append_drop, List.drop_eq_nil_of_le (by omega), List.nil_append]
      at starts
    exact second w (starts.isInfix.trans (List.drop_suffix _ y).isInfix)


/-- Its value in `key_type`. -/
def VoterKind.code : VoterKind → Nat
  | constitutionalCommitteeKey => 3
  | constitutionalCommitteeScript => 4
  | dRepKey => 0
  | dRepScript => 1
  | stakePoolKey => 2

/-- `(key_type[Kind], base64 of the voter key)` of an entry. -/
def VoteEntry.voter (v : VoteEntry) : Nat × String :=
  (v.kind.code, String.mk (b64encode v.voterKey))

theorem getItem_keyType (k : VoterKind) : getItem keyType (String.mk k.name.data) = some k.code := by
  cases k <;> rfl

theorem mem_byteText {bs : List UInt8} {c : Char} (member : c ∈ byteText bs) :
    c.isDigit ∨ c = ',' ∨ c = ' ' := by
  rcases mem_intercalate_map member with between | ⟨b, -, digit⟩
  · exact .inr (by simpa using between)
  · exact .inl ((toString_digits b.toNat).2.1 c digit)

theorem byteText_ne_nil {bs : List UInt8} (nonempty : bs ≠ []) : byteText bs ≠ [] := by
  obtain ⟨b, rest, rfl⟩ := List.exists_cons_of_ne_nil nonempty
  cases rest with
  | nil => simpa [byteText, List.intercalate] using (toString_digits b.toNat).1
  | cons c rest =>
    rw [byteText, intercalate_map_cons_cons]
    simp

theorem splitCommaSpace_cons {c : Char} (notComma : c ≠ ',') (rest piece : List Char) :
    splitCommaSpace (c :: rest) piece = splitCommaSpace rest (c :: piece) := by
  rcases rest with _ | ⟨d, more⟩ <;> simp [splitCommaSpace, notComma]

theorem splitCommaSpace_append {d : List Char} (noComma : ',' ∉ d) (rest piece : List Char) :
    splitCommaSpace (d ++ rest) piece = splitCommaSpace rest (d.reverse ++ piece) := by
  induction d generalizing piece with
  | nil => rfl
  | cons c d inductionHypothesis =>
    rw [List.cons_append, splitCommaSpace_cons (fun same => noComma (same ▸ List.mem_cons_self _ _)),
      inductionHypothesis (fun comma => noComma (List.mem_cons_of_mem _ comma))]
    simp

theorem splitCommaSpace_byteText {bs : List UInt8} (nonempty : bs ≠ []) :
    splitCommaSpace (byteText bs) [] = bs.map fun b => (toString b.toNat).data := by
  induction bs with
  | nil => exact absurd rfl nonempty
  | cons b rest inductionHypothesis =>
    have noComma : ',' ∉ (toString b.toNat).data :=
      fun comma => by simpa using (toString_digits b.toNat).2.1 ',' comma
    cases rest with
    | nil =>
      simpa [byteText, List.intercalate, splitCommaSpace] using
        splitCommaSpace_append noComma [] []
    | cons c more =>
      have separator : ∀ rest piece, splitCommaSpace (", ".data ++ rest) piece =
          piece.reverse :: splitCommaSpace rest [] := fun _ _ => rfl
      rw [byteText, intercalate_map_cons_cons, List.append_assoc, splitCommaSpace_append noComma,
        List.append_nil, separator, List.reverse_reverse, List.map_cons]
      exact congrArg _ (inductionHypothesis (List.cons_ne_nil _ _))

theorem mapM_int_byteText (u : UnicodeData) (bs : List UInt8) :
    (bs.map fun b => (toString b.toNat).data).mapM
        (fun x => (u.int (String.mk x)).elim (.error .valueError) .ok) =
      (Except.ok (bs.map fun b => (b.toNat : Int)) : Except PyError (List Int)) := by
  induction bs with
  | nil => rfl
  | cons b rest inductionHypothesis =>
    have short : (toString b.toNat).data.length ≤ intMaxStrDigits :=
      (Nat.repr_length b.toNat 3 (by decide)
        (lt_of_lt_of_le b.toNat_lt_size (by decide))).trans (by decide)
    have parsed : u.int (String.mk (toString b.toNat).data) = some (b.toNat : Int) :=
      u.int_toString b.toNat short
    rw [List.map_cons, List.mapM_cons, parsed, inductionHypothesis]
    rfl

theorem bytesOf_toNat (bs : List UInt8) : bytesOf (bs.map fun b => (b.toNat : Int)) = some bs := by
  induction bs with
  | nil => rfl
  | cons b rest inductionHypothesis =>
    have small : b.toNat < 256 := b.toNat_lt_size
    have back : (b.toNat : Int).toNat.toUInt8 = b :=
      UInt8.toNat.inj (by simpa using UInt8.toNat_ofNat_of_lt small)
    have inRange : (0 : Int) ≤ b.toNat ∧ (b.toNat : Int) < 256 := by omega
    unfold bytesOf at inductionHypothesis ⊢
    rw [List.map_cons, List.mapM_cons, if_pos inRange, back, inductionHypothesis]
    rfl

theorem stripPrefix_append (p rest : List Char) : stripPrefix p (p ++ rest) = some rest := by
  simp [stripPrefix]

theorem voteAt_votePattern (w : Vote) (rest : List Char) :
    voteAt (votePattern w ++ rest) = some w := by
  cases w <;> simp [voteAt, votePattern, Vote.name]

theorem lastVote_append {a b : List Char} {w : Vote} (noNewline : '\n' ∉ a)
    (found : lastVote b = some w) : lastVote (a ++ b) = some w := by
  induction a with
  | nil => exact found
  | cons c a inductionHypothesis =>
    have notNewline : c ≠ '\n' := fun same => noNewline (same ▸ List.mem_cons_self _ _)
    rw [List.cons_append, lastVote, if_neg notNewline,
      inductionHypothesis (fun member => noNewline (List.mem_cons_of_mem _ member))]

theorem lastVote_votePattern (w : Vote) {rest : List Char} (free : VoteFree rest) :
    lastVote (votePattern w ++ ", anchor: ".data ++ rest) = some w := by
  have noComma : ',' ∉ votePrefix.tail ++ w.name.data := by cases w <;> decide
  have later : VoteFree (votePrefix.tail ++ w.name.data ++ ", anchor: ".data ++ rest) := by
    rw [List.append_assoc]
    exact voteFree_append (disagrees_of_not_mem noComma) (voteFree_append (by decide) free)
  have text : votePattern w ++ ", anchor: ".data ++ rest =
      ',' :: (votePrefix.tail ++ w.name.data ++ ", anchor: ".data ++ rest) := rfl
  rw [text, lastVote, if_neg (by decide), lastVote_of_voteFree later, ← text, List.append_assoc,
    voteAt_votePattern]

theorem not_mem_bytesDebug (c : Char) (notDigit : c.isDigit = false) (notComma : c ≠ ',')
    (notSpace : c ≠ ' ') (notBracket : c ≠ '[' ∧ c ≠ ']') (bs : List UInt8) : c ∉ bytesDebug bs := by
  intro member
  simp only [bytesDebug, List.mem_cons, List.mem_append, List.not_mem_nil, or_false] at member
  rcases member with (rfl | inside) | rfl
  · exact notBracket.1 rfl
  · rcases mem_byteText inside with digit | rfl | rfl
    · simp [digit] at notDigit
    · exact notComma rfl
    · exact notSpace rfl
  · exact notBracket.2 rfl

theorem matchVote_entry (v : VoteEntry) {rest : List Char} (free : VoteFree rest) :
    matchVote (v.voterText ++ votePattern v.vote ++ ", anchor: ".data ++ rest) =
      some (v.kind.name.data, byteText v.voterKey, v.vote) := by
  have letters : ∀ c ∈ v.kind.name.data, isAsciiLetter c := by cases v.kind <;> decide
  have named : v.kind.name.data ≠ [] := by cases v.kind <;> decide
  have keyChars : ∀ c ∈ byteText v.voterKey, isKeyChar c := fun c member => by
    rcases mem_byteText member with digit | rfl | rfl
    · simp [isKeyChar, digit]
    all_goals rfl
  have text : v.voterText ++ votePattern v.vote ++ ", anchor: ".data ++ rest =
      v.kind.name.data ++ '(' :: '[' :: (byteText v.voterKey ++ ("]): (".data ++
        (bytesDebug v.txHash ++ (votePattern v.vote ++ ", anchor: ".data ++ rest)))) := by
    simp only [VoteEntry.voterText, bytesDebug, List.append_assoc, List.cons_append]
    rfl
  have found := lastVote_append (not_mem_bytesDebug '\n' rfl (by decide) (by decide) (by decide)
    v.txHash) (lastVote_votePattern v.vote free)
  have kindTake : (v.kind.name.data ++ '(' :: '[' :: (byteText v.voterKey ++ ("]): (".data ++
      (bytesDebug v.txHash ++ (votePattern v.vote ++ ", anchor: ".data ++ rest))))).takeWhile
      isAsciiLetter = v.kind.name.data := by
    rw [List.takeWhile_append_of_pos letters]
    exact List.append_nil _
  have kindDrop : (v.kind.name.data ++ '(' :: '[' :: (byteText v.voterKey ++ ("]): (".data ++
      (bytesDebug v.txHash ++ (votePattern v.vote ++ ", anchor: ".data ++ rest))))).dropWhile
      isAsciiLetter = '(' :: '[' :: (byteText v.voterKey ++ ("]): (".data ++
      (bytesDebug v.txHash ++ (votePattern v.vote ++ ", anchor: ".data ++ rest)))) := by
    rw [List.dropWhile_append_of_pos letters]
    rfl
  have keyTake : (byteText v.voterKey ++ ("]): (".data ++ (bytesDebug v.txHash ++
      (votePattern v.vote ++ ", anchor: ".data ++ rest)))).takeWhile isKeyChar =
      byteText v.voterKey := by
    rw [List.takeWhile_append_of_pos keyChars]
    exact List.append_nil _
  have keyDrop : (byteText v.voterKey ++ ("]): (".data ++ (bytesDebug v.txHash ++
      (votePattern v.vote ++ ", anchor: ".data ++ rest)))).dropWhile isKeyChar =
      "]): (".data ++ (bytesDebug v.txHash ++ (votePattern v.vote ++ ", anchor: ".data ++ rest)) := by
    rw [List.dropWhile_append_of_pos keyChars]
    rfl
  rw [text]
  simp only [matchVote, kindTake, kindDrop, keyTake, keyDrop, stripPrefix_append, named,
    byteText_ne_nil v.voterKey_ne_nil, found, or_self, if_false, Option.map_some']

theorem dropWhile_suffix (p : Char → Bool) (l : List Char) : l.dropWhile p <:+ l :=
  ⟨_, List.takeWhile_append_dropWhile p l⟩

theorem matchVote_of_voteFree {piece : List Char} (free : VoteFree piece) :
    matchVote piece = none := by
  simp only [matchVote]
  split
  · rename_i afterBracket bracketed
    split
    · rename_i body stripped
      have fromStrip : body <:+ afterBracket.dropWhile isKeyChar := by
        unfold stripPrefix at stripped
        split_ifs at stripped
        cases stripped
        exact List.drop_suffix _ _
      have fromBracket : afterBracket <:+ piece := by
        have suffix := dropWhile_suffix isAsciiLetter piece
        rw [bracketed] at suffix
        exact (List.suffix_cons _ _).trans ((List.suffix_cons _ _).trans suffix)
      have inPiece := fromStrip.trans ((dropWhile_suffix _ _).trans fromBracket)
      simp [lastVote_of_voteFree (free.mono inPiece.isInfix)]
    · rfl
  · rfl

/-- The entry's voter, added to the votes and to `all_voters_hash`. -/
def addVoter (state : Votes × List (String × Nat)) (v : VoteEntry) :
    Votes × List (String × Nat) :=
  (state.1.add v.vote v.voter, setItem state.2 v.voter.2 1)

theorem splitVotesStep_entry (u : UnicodeData) (v : VoteEntry) {rest : List Char}
    (free : VoteFree rest) (state : Votes × List (String × Nat)) :
    splitVotesStep u state (v.voterText ++ votePattern v.vote ++ ", anchor: ".data ++ rest) =
      .ok (addVoter state v) := by
  simp only [splitVotesStep, matchVote_entry v free, splitCommaSpace_byteText v.voterKey_ne_nil,
    mapM_int_byteText, bind, Except.bind, arrayAsBase64, bytesOf_toNat, getItem_keyType]
  rfl

theorem splitVotesStep_of_voteFree (u : UnicodeData) {piece : List Char} (free : VoteFree piece)
    (state : Votes × List (String × Nat)) : splitVotesStep u state piece = .ok state := by
  simp only [splitVotesStep, matchVote_of_voteFree free]

theorem foldlM_voteFree (u : UnicodeData) {pieces : List (List Char)}
    (free : ∀ x ∈ pieces, VoteFree x) (state : Votes × List (String × Nat)) :
    pieces.foldlM (splitVotesStep u) state = .ok state := by
  induction pieces with
  | nil => rfl
  | cons x rest inductionHypothesis =>
    rw [List.foldlM_cons, splitVotesStep_of_voteFree u (free x (List.mem_cons_self x rest))]
    exact inductionHypothesis fun y member => free y (List.mem_cons_of_mem x member)

section Entry

variable (u : UnicodeData)

theorem not_mem_voterText (v : VoteEntry) : 'v' ∉ v.voterText := by
  have kindNoV : 'v' ∉ v.kind.name.data := by cases v.kind <;> decide
  have bytesNoV := not_mem_bytesDebug 'v' rfl (by decide) (by decide) (by decide)
  simp only [VoteEntry.voterText, List.mem_append, List.mem_cons, not_or]
  exact ⟨⟨⟨kindNoV, by decide, bytesNoV _⟩, by decide⟩, bytesNoV _⟩

theorem quiet_front (v : VoteEntry) {anchorText : List Char} (noV : 'v' ∉ anchorText)
    (rest : List Char) :
    Quiet indexLabel (v.voterText ++ (votePattern v.vote ++ ", anchor: ".data ++ anchorText)) rest := by
  have nameNoV : 'v' ∉ v.vote.name.data := by cases v.vote <;> decide
  have text : votePattern v.vote ++ ", anchor: ".data ++ anchorText = ", VotingProcedure \x7b ".data ++
      ("vote: ".data ++ (v.vote.name.data ++ (", anchor: ".data ++ anchorText))) := by
    simp only [votePattern, votePrefix, List.append_assoc]
    rfl
  rw [text]
  refine quiet_append (quiet_of_not_mem (not_mem_voterText v) _) (quiet_append
    (quiet_of_not_mem (by decide) _) (quiet_append (quiet_of_disagrees (by decide) _)
      (quiet_of_not_mem ?_ rest)))
  exact List.not_mem_append nameNoV (List.not_mem_append (by decide) noV)

theorem head_of_none {v : VoteEntry} (noAnchor : v.anchor = none) :
    v.head = v.voterText ++ (votePattern v.vote ++ ", anchor: ".data ++ "None, ".data) := by
  simp only [VoteEntry.head, noAnchor, anchorDebug, List.append_assoc]
  rfl

theorem head_of_some {v : VoteEntry} {a : Anchor} (anchored : v.anchor = some a) :
    v.head = v.voterText ++ (votePattern v.vote ++ ", anchor: ".data ++ "Some(Anchor \x7b url: \"".data) ++
      (a.url.data ++ '"' :: (", data_hash: ".data ++ bytesDebug a.dataHash ++ " \x7d), ".data)) := by
  simp only [VoteEntry.head, anchorDebug, anchored, List.append_assoc]
  rfl

theorem splitVotesStep_front (v : VoteEntry) {anchorText : List Char}
    (free : VoteFree anchorText) (state : Votes × List (String × Nat)) :
    splitVotesStep u state (v.voterText ++ (votePattern v.vote ++ ", anchor: ".data ++ anchorText)) =
      .ok (addVoter state v) := by
  simpa only [List.append_assoc] using splitVotesStep_entry u v free state

theorem scanVotes_head (v : VoteEntry) (plainUrl : ∀ a ∈ v.anchor, VoteFree a.url.data)
    (rest : List Char) :
    ∃ done current, scanVotes u (v.head ++ rest) 0 [] =
        (done ++ (scanVotes u rest 0 current.reverse).1, (scanVotes u rest 0 current.reverse).2) ∧
      ∀ trailer, 'V' ∉ trailer → ∀ state,
        (done ++ [current ++ trailer]).foldlM (splitVotesStep u) state = .ok (addVoter state v) := by
  cases anchored : v.anchor with
  | none =>
    refine ⟨[], v.head, ?_, fun trailer noV state => ?_⟩
    · have quiet : Quiet indexLabel v.head rest := by
        rw [head_of_none anchored]
        exact quiet_front v (by decide) rest
      rw [scanVotes_quiet u quiet, List.append_nil, List.nil_append]
    · have free : VoteFree ("None, ".data ++ trailer) :=
        voteFree_of_not_mem (List.not_mem_append (by decide) noV)
      rw [List.nil_append, List.foldlM_cons, head_of_none anchored, List.append_assoc,
        List.append_assoc, splitVotesStep_front u v free]
      rfl
  | some a =>
    have url : VoteFree a.url.data := plainUrl a anchored
    obtain ⟨front, frontEq⟩ : ∃ front, front =
        v.voterText ++ (votePattern v.vote ++ ", anchor: ".data ++ "Some(Anchor \x7b url: \"".data) :=
      ⟨_, rfl⟩
    obtain ⟨back, backEq⟩ : ∃ back, back =
        ", data_hash: ".data ++ bytesDebug a.dataHash ++ " \x7d), ".data := ⟨_, rfl⟩
    have closeNoV : ∀ c, c.isDigit = false → c ≠ ',' → c ≠ ' ' → c ∉ ", data_hash: ".data →
        c ∉ " \x7d), ".data → c ≠ '[' ∧ c ≠ ']' → c ∉ back := fun c notDigit notComma notSpace
        notLabel notClose notBracket => by
      rw [backEq]
      exact List.not_mem_append (List.not_mem_append notLabel
        (not_mem_bytesDebug c notDigit notComma notSpace notBracket _)) notClose
    have closeScan : ∀ piece, scanVotes u ('"' :: (back ++ rest)) 0 piece =
        scanVotes u rest 0 (('"' :: back).reverse ++ piece) := fun piece =>
      scanVotes_quiet u (quiet_of_not_mem (List.not_mem_cons_of_ne_of_not_mem (by decide)
        (closeNoV 'v' rfl (by decide) (by decide) (by decide) (by decide) (by decide))) rest) piece
    have scan : scanVotes u (v.head ++ rest) 0 [] =
        ((scanVotes u a.url.data 0 front.reverse).1 ++
          (scanVotes u rest 0 (('"' :: back).reverse ++ (scanVotes u a.url.data 0 front.reverse).2)).1,
          (scanVotes u rest 0 (('"' :: back).reverse ++ (scanVotes u a.url.data 0 front.reverse).2)).2) := by
      have quiet : Quiet indexLabel front (a.url.data ++ '"' :: (back ++ rest)) := by
        rw [frontEq]
        exact quiet_front v (by decide) _
      rw [head_of_some anchored, ← frontEq, ← backEq, List.append_assoc, List.append_assoc,
        List.cons_append, scanVotes_quiet u quiet, List.append_nil,
        scanVotes_append_quote u _ _ (Nat.zero_le _), closeScan]
    have closeFree : ∀ trailer, 'V' ∉ trailer → VoteFree (back ++ trailer) := fun trailer noV =>
      voteFree_of_not_mem (List.not_mem_append
        (closeNoV 'V' rfl (by decide) (by decide) (by decide) (by decide) (by decide)) noV)
    have frontStep : ∀ {first}, VoteFree first → ∀ state,
        splitVotesStep u state (front ++ first) = .ok (addVoter state v) := fun free state => by
      rw [frontEq, List.append_assoc, List.append_assoc,
        splitVotesStep_front u v (voteFree_append (disagrees_of_not_mem (by decide)) free)]
    obtain ⟨urlPieces, urlCurrent⟩ := scanVotes_within u a.url.data 0
    rw [scanVotes_piece u a.url.data 0 front.reverse] at scan
    rcases scanned : scanVotes u a.url.data 0 [] with ⟨_ | ⟨first, others⟩, current⟩ <;>
      rw [scanned] at scan urlPieces urlCurrent
    · have whole : current = a.url.data.reverse := by
        simpa [scanned] using scanVotes_current u (congrArg Prod.fst scanned)
      refine ⟨[], front ++ a.url.data ++ '"' :: back, ?_, fun trailer noV state => ?_⟩
      · simp [scan, whole]
      · rw [List.nil_append, List.foldlM_cons, List.append_assoc, List.append_assoc,
          List.cons_append, frontStep (voteFree_quote url (closeFree trailer noV))]
        rfl
    · refine ⟨(front ++ first) :: others, current.reverse ++ '"' :: back, ?_,
        fun trailer noV state => ?_⟩
      · simp [scan]
      · have later : ∀ x ∈ others ++ [current.reverse ++ '"' :: back ++ trailer], VoteFree x := by
          intro x member
          rcases List.mem_append.mp member with inOthers | last
          · exact url.mono (urlPieces x (List.mem_cons_of_mem first inOthers))
          · rw [List.mem_singleton.mp last, List.append_assoc, List.cons_append]
            exact voteFree_quote (url.mono (by simpa using urlCurrent)) (closeFree trailer noV)
        rw [List.cons_append, List.foldlM_cons,
          frontStep (url.mono (urlPieces first (List.mem_cons_self first others)))]
        exact foldlM_voteFree u later _

theorem head?_entries (w : VoteEntry) (rest : List VoteEntry) :
    (", ".data.intercalate ((w :: rest).map VoteEntry.debug)).head? ≠ some ' ' := by
  have debugStart : w.debug = w.kind.name.data ++ ('(' :: bytesDebug w.voterKey ++ "): (".data ++
      bytesDebug w.txHash ++ votePattern w.vote ++ ", anchor: ".data ++ anchorDebug w.anchor ++
      ", ".data ++ indexLabel ++ (toString w.voteIndex).data ++ " \x7d)".data) := by
    simp only [VoteEntry.debug, VoteEntry.head, VoteEntry.voterText, List.append_assoc]
  have named : w.kind.name.data ≠ [] := by cases w.kind <;> decide
  obtain ⟨tail, text⟩ : ∃ tail, ", ".data.intercalate ((w :: rest).map VoteEntry.debug) =
      w.debug ++ tail := by
    cases rest with
    | nil => exact ⟨[], by simp [List.intercalate]⟩
    | cons x more => exact ⟨_, by rw [intercalate_map_cons_cons, List.append_assoc]⟩
  rw [text, debugStart, List.append_assoc, List.head?_append_of_ne_nil _ named]
  cases w.kind <;> decide

theorem not_mem_indexEnd (c : Char) (notDigit : c.isDigit = false)
    (notLiteral : c ∉ indexLabel ∧ c ∉ " \x7d)".data) (n : Nat) :
    c ∉ indexLabel ++ (toString n).data ++ " \x7d)".data := by
  have notDecimal : c ∉ (toString n).data := fun member => by
    simpa [notDigit] using (toString_digits n).2.1 c member
  exact List.not_mem_append (List.not_mem_append notLiteral.1 notDecimal) notLiteral.2

theorem splitVoteList_entries (rest : List VoteEntry) :
    ∀ (v : VoteEntry), (∀ w ∈ v :: rest, ∀ a ∈ w.anchor, VoteFree a.url.data) →
      ∀ state, (splitVoteList u (", ".data.intercalate ((v :: rest).map VoteEntry.debug))).foldlM
        (splitVotesStep u) state = .ok ((v :: rest).foldl addVoter state) := by
  induction rest with
  | nil =>
    intro v plainUrls state
    obtain ⟨done, current, scan, entry⟩ := scanVotes_head u v (plainUrls v (List.mem_singleton_self v))
      (indexLabel ++ (toString v.voteIndex).data ++ " \x7d)".data)
    have text : ", ".data.intercalate ([v].map VoteEntry.debug) =
        v.head ++ (indexLabel ++ (toString v.voteIndex).data ++ " \x7d)".data) := by
      simp [List.intercalate, VoteEntry.debug]
    rw [text, splitVoteList, scan, scanVotes_last]
    simpa only [List.append_nil, List.reverse_append, List.reverse_reverse, List.append_assoc,
      List.foldl_cons, List.foldl_nil] using entry _ (not_mem_indexEnd 'V' rfl (by decide) _) state
  | cons w more inductionHypothesis =>
    intro v plainUrls state
    obtain ⟨next, nextEq⟩ : ∃ next, next = ", ".data.intercalate ((w :: more).map VoteEntry.debug) :=
      ⟨_, rfl⟩
    obtain ⟨done, current, scan, entry⟩ := scanVotes_head u v (plainUrls v (List.mem_cons_self v _))
      (indexLabel ++ (toString v.voteIndex).data ++ indexClose ++ next)
    have text : ", ".data.intercalate ((v :: w :: more).map VoteEntry.debug) =
        v.head ++ (indexLabel ++ (toString v.voteIndex).data ++ indexClose ++ next) := by
      rw [intercalate_map_cons_cons, ← nextEq]
      simp only [VoteEntry.debug, List.append_assoc]
      rfl
    have pieces : splitVoteList u (", ".data.intercalate ((v :: w :: more).map VoteEntry.debug)) =
        (done ++ [current ++ []]) ++ splitVoteList u next := by
      rw [text, splitVoteList, scan, scanVotes_index u _ (nextEq ▸ head?_entries w more),
        List.reverse_reverse]
      simp [splitVoteList]
    rw [pieces, List.foldlM_append, entry [] (List.not_mem_nil _) state, nextEq]
    exact inductionHypothesis w (fun x member => plainUrls x (List.mem_cons_of_mem v member)) _

end Entry

/-- The voters of the entries with vote `w`, in order. -/
def votersOf (votes : List VoteEntry) (w : Vote) : List (Nat × String) :=
  (votes.filter (·.vote = w)).map VoteEntry.voter

theorem foldl_addVoter (votes : List VoteEntry) (tally : Votes) (allVotersHash : List (String × Nat)) :
    votes.foldl addVoter (tally, allVotersHash) =
      (⟨tally.yes ++ votersOf votes .yes, tally.no ++ votersOf votes .no,
          tally.abstain ++ votersOf votes .abstain⟩,
        votes.foldl (fun d v => setItem d v.voter.2 1) allVotersHash) := by
  induction votes generalizing tally allVotersHash with
  | nil => simp [votersOf]
  | cons v rest inductionHypothesis =>
    rw [List.foldl_cons, addVoter, inductionHypothesis]
    cases voted : v.vote <;> simp [Votes.add, votersOf, List.filter_cons, voted]

/-- `split_votes` on the `Debug` text of a vote map reads each vote once, in
order, when no anchor URL holds a vote. -/
theorem splitVotes_votesDebug (u : UnicodeData) (votes : List VoteEntry)
    (plainUrls : ∀ v ∈ votes, ∀ a ∈ v.anchor, VoteFree a.url.data)
    (allVotersHash : List (String × Nat)) :
    splitVotes u (votesDebug votes) allVotersHash =
      .ok (⟨votersOf votes .yes, votersOf votes .no, votersOf votes .abstain⟩,
        votes.foldl (fun d v => setItem d v.voter.2 1) allVotersHash) := by
  cases votes with
  | nil => rfl
  | cons v rest =>
    rw [splitVotes, votesDebug, splitVoteList_entries u rest v plainUrls, foldl_addVoter]
    rfl

/-- A `Yes` of a `DRepKey`, its anchor URL holding the split pattern. -/
def anchoredVote : VoteEntry :=
  { kind := .dRepKey, voterKey := [7, 200], voterKey_ne_nil := List.cons_ne_nil _ _, txHash := [1],
    vote := .yes, anchor := some ⟨"https://a.io/vote_index: 3 \x7d), x", [9]⟩, voteIndex := 12 }

theorem splitVotes_votesDebug_anchored :
    (∀ v ∈ [anchoredVote], ∀ a ∈ v.anchor, VoteFree a.url.data) ∧
      splitVotes .asciiOnly (votesDebug [anchoredVote]) [] =
        .ok (⟨votersOf [anchoredVote] .yes, votersOf [anchoredVote] .no,
            votersOf [anchoredVote] .abstain⟩,
          [anchoredVote].foldl (fun d v => setItem d v.voter.2 1) []) :=
  ⟨by decide, splitVotes_votesDebug .asciiOnly [anchoredVote] (by decide) []⟩

/-- A `No` of a `StakePoolKey`, its anchor URL holding a `Yes`. -/
def spoofedVote : VoteEntry :=
  { kind := .stakePoolKey, voterKey := [5], voterKey_ne_nil := List.cons_ne_nil _ _, txHash := [2],
    vote := .no, anchor := some ⟨", VotingProcedure \x7b vote: Yes", []⟩, voteIndex := 0 }

set_option maxRecDepth 2000 in
/-- The greedy `.*` reads the vote in the URL: the `No` comes out as a `Yes`. -/
theorem splitVotes_spoofed_url :
    spoofedVote.vote = .no ∧
      splitVotes .asciiOnly (votesDebug [spoofedVote]) [] = .ok (⟨[(2, "BQ==")], [], []⟩, [("BQ==", 1)]) :=
  ⟨rfl, rfl⟩

end Acropolis.Governance
