import Acropolis.Governance.SplitVotes
import Acropolis.Python.Regex

/-!
# The loop over the execution log

`convert_governance.py` reads `execution_log.txt` line by line and tries three
patterns on each line. A line that announces the votes on a governance action at
the start of an epoch files the action, with what `split_votes` reads from its
votes, under the epoch before; a parameter line stores its text under its epoch;
a line of voting statistics adds the five numbers of its epoch, and stops the
script when the committee is not 7.

`split_votes` sets every voter key it returns in `all_voters_hash`, and only
those, so after any run of the loop the dict holds exactly the keys of the
votes filed in `votes_hash`, over all epochs.
-/

namespace Acropolis.Governance

open Acropolis.Python Acropolis.Python.Regex

/-- What stops `convert_governance.py`: an exception of a built-in the model
shares with the other scripts, or one of those only this script raises. -/
inductive ConvertError where
  | raised (e : PyError)
  | indexError
  | overflowError
  | unboundLocalError
  /-- `sys.exit(1)` in a script that never imports `sys`. -/
  | nameError
  /-- `str()` of a float, a list or a dict, whose text the model does not write. -/
  | unmodelled
  deriving DecidableEq, Repr

/-- `re.match(r'.*Epoch start (\d+), (gov_action1[^:]+):  \([0-9]+, .*\)  => {(.+)}$', v)`:
the epoch, the action and the text of its votes. -/
def matchEpochStart (u : UnicodeData) : List Char → Option (List Char × List Char × List Char) :=
  star anyChar fun _ =>
    lit "Epoch start ".data <|
    plus (isReDigit u) fun epoch =>
    lit ", gov_action1".data <|
    plus (· != ':') fun action =>
    lit ":  (".data <|
    plus Char.isDigit fun _ =>
    lit ", ".data <|
    star anyChar fun _ =>
    lit ")  => \x7b".data <|
    plus anyChar fun votes =>
    lit "\x7d".data <|
    eol (some (epoch, "gov_action1".data ++ action, votes))

/-- `re.match(r'.*acropolis_module_parameters_state: NPPX: \[(\d+),(.*)\]$', v)`:
the epoch and the text of its parameters. -/
def matchParameters (u : UnicodeData) : List Char → Option (List Char × List Char) :=
  star anyChar fun _ =>
    lit "acropolis_module_parameters_state: NPPX: [".data <|
    plus (isReDigit u) fun epoch =>
    lit ",".data <|
    star anyChar fun params =>
    lit "]".data <|
    eol (some (epoch, params))

/-- The six groups of the statistics pattern. -/
structure VotingStats where
  epoch : List Char
  spos : List Char
  dreps : List Char
  noConfidence : List Char
  abstain : List Char
  committee : List Char

/-- `re.match('.*acropolis_module_governance_state::state: Conway voting, epoch (\d+) .*' +
r'spos reg. (\d+), dreps (\d+) \(no-confidence (\d+), abstain (\d+)\), committee (\d+),', v)`;
the `.` of `reg.` is any character. -/
def matchVotingStats (u : UnicodeData) : List Char → Option VotingStats :=
  star anyChar fun _ =>
    lit "acropolis_module_governance_state::state: Conway voting, epoch ".data <|
    plus (isReDigit u) fun epoch =>
    lit " ".data <|
    star anyChar fun _ =>
    lit "spos reg".data <|
    one anyChar <|
    lit " ".data <|
    plus (isReDigit u) fun spos =>
    lit ", dreps ".data <|
    plus (isReDigit u) fun dreps =>
    lit " (no-confidence ".data <|
    plus (isReDigit u) fun noConfidence =>
    lit ", abstain ".data <|
    plus (isReDigit u) fun abstain =>
    lit "), committee ".data <|
    plus (isReDigit u) fun committee =>
    lit ",".data fun _ => some ⟨epoch, spos, dreps, noConfidence, abstain, committee⟩

/-- What each repeat of the Epoch-start pattern consumed, and that the repeat
before `)  => {` is the longest one after which the rest of the pattern matches. -/
theorem matchEpochStart_parts {u : UnicodeData} {v epoch action votes : List Char}
    (matched : matchEpochStart u v = some (epoch, action, votes)) :
    ∃ before x count middle ending,
      v = before ++ "Epoch start ".data ++ epoch ++ ", gov_action1".data ++ x ++ ":  (".data ++
        count ++ ", ".data ++ middle ++ ")  => \x7b".data ++ votes ++ "\x7d".data ++ ending ∧
      action = "gov_action1".data ++ x ∧ (∀ c ∈ before, anyChar c) ∧ epoch ≠ [] ∧
      (∀ c ∈ epoch, isReDigit u c) ∧ x ≠ [] ∧ (∀ c ∈ x, c != ':') ∧ count ≠ [] ∧
      (∀ c ∈ count, c.isDigit) ∧ (∀ c ∈ middle, anyChar c) ∧ votes ≠ [] ∧
      (∀ c ∈ votes, anyChar c) ∧ (ending = [] ∨ ending = ['\n']) ∧
      ∀ run rest, middle ++ ")  => \x7b".data ++ votes ++ "\x7d".data ++ ending = run ++ rest →
        (∀ c ∈ run, anyChar c) → middle.length < run.length →
        lit ")  => \x7b".data (plus anyChar fun votes =>
          lit "\x7d".data (eol (some (epoch, action, votes)))) rest = none := by
  obtain ⟨before, _, rfl, beforeAny, atStart⟩ := star_eq_some matched
  obtain ⟨_, rfl, atEpoch⟩ := lit_eq_some atStart
  obtain ⟨e, _, rfl, eNonempty, eDigits, afterEpoch⟩ := plus_eq_some atEpoch
  obtain ⟨_, rfl, atAction⟩ := lit_eq_some afterEpoch
  obtain ⟨x, _, rfl, xNonempty, xNoColon, afterAction⟩ := plus_eq_some atAction
  obtain ⟨_, rfl, atCount⟩ := lit_eq_some afterAction
  obtain ⟨count, _, rfl, countNonempty, countDigits, afterCount⟩ := plus_eq_some atCount
  obtain ⟨_, rfl, atMiddle⟩ := lit_eq_some afterCount
  obtain ⟨middle, _, rfl, middleAny, afterMiddle, longest⟩ := star_longest atMiddle
  obtain ⟨_, rfl, atVotes⟩ := lit_eq_some afterMiddle
  obtain ⟨w, _, rfl, wNonempty, wAny, afterVotes⟩ := plus_eq_some atVotes
  obtain ⟨ending, rfl, atEnd⟩ := lit_eq_some afterVotes
  obtain ⟨ends, found⟩ := eol_eq_some atEnd
  simp only [Option.some.injEq, Prod.mk.injEq] at found
  obtain ⟨rfl, rfl, rfl⟩ := found
  exact ⟨before, x, count, middle, ending, by simp only [List.append_assoc], rfl, beforeAny, eNonempty, eDigits, xNonempty,
    xNoColon, countNonempty, countDigits, middleAny, wNonempty, wAny, ends,
    fun run rest split => longest run rest (by simpa only [List.append_assoc] using split)⟩

/-- The repeat before `)  => {` is greedy, so the votes group never holds that
separator with a character after it: when the text of the votes holds it, the
group starts after its last occurrence that leaves a character before `}`. -/
theorem matchEpochStart_votes_last {u : UnicodeData} {v epoch action votes : List Char}
    (matched : matchEpochStart u v = some (epoch, action, votes)) :
    ∀ a b, votes = a ++ ")  => \x7b".data ++ b → b = [] := by
  intro a b split
  obtain ⟨-, x, -, middle, ending, -, rfl, -, -, -, -, -, -, -, middleAny, -, votesAny, ends,
    longest⟩ := matchEpochStart_parts matched
  subst split
  by_contra nonempty
  have separatorAny : ∀ c ∈ ")  => \x7b".data, anyChar c := by decide
  have refused := longest (middle ++ ")  => \x7b".data ++ a)
    (")  => \x7b".data ++ b ++ "\x7d".data ++ ending) (by simp) (by
      intro c member
      simp only [List.mem_append] at member
      rcases member with (inMiddle | inSeparator) | inA
      · exact middleAny c inMiddle
      · exact separatorAny c inSeparator
      · exact votesAny c (by simp [inA]))
    (by simp)
  rw [List.append_assoc, List.append_assoc, lit_append] at refused
  have follows : (plus anyChar
      (fun votes => lit "\x7d".data (eol (some (epoch, "gov_action1".data ++ x, votes))))
      (b ++ ("\x7d".data ++ ending))).isSome :=
    plus_isSome _ nonempty (fun c member => votesAny c (by simp [member]))
      (by rcases ends with rfl | rfl <;> rfl)
  rw [refused] at follows
  cases follows

theorem matchEpochStart_votes_last_sample :
    matchEpochStart .asciiOnly "Epoch start 5, gov_action1x:  (1, 2)  => \x7bq)  => \x7b\x7d".data =
      some ("5".data, "gov_action1x".data, "q)  => \x7b".data) ∧ ([] : List Char) = [] :=
  have matched : matchEpochStart .asciiOnly
      "Epoch start 5, gov_action1x:  (1, 2)  => \x7bq)  => \x7b\x7d".data =
      some ("5".data, "gov_action1x".data, "q)  => \x7b".data) := by decide
  ⟨matched, matchEpochStart_votes_last matched "q".data [] (by decide)⟩

/-- The globals the loop fills. -/
structure LogState where
  /-- `votes_hash`: per epoch, the actions whose votes were read at the start
  of the next epoch, with those votes. -/
  votesHash : List (Int × List (List Char × Votes)) := []
  /-- `param_hash` -/
  paramHash : List (Int × List Char) := []
  /-- `epoch_data` -/
  epochData : List (Int × Int × Int × Int × Int) := []
  /-- `all_voters_hash` -/
  allVotersHash : List (String × Nat) := []

/-- `int(text)` of a group. -/
def intOf (u : UnicodeData) (text : List Char) : Except ConvertError Int :=
  (u.int (String.mk text)).elim (.error (.raised .valueError)) .ok

/-- `if k not in d: d[k] = []`, then `d[k] += [x]`. -/
def appendItem {κ ν : Type} [DecidableEq κ] (d : List (κ × List ν)) (k : κ) (x : ν) :
    List (κ × List ν) :=
  let d := if (getItem d k).isSome then d else setItem d k []
  setItem d k ((getItem d k).getD [] ++ [x])

/-- The first `if g:` of the loop: `votes_hash[e - 1] += [(action, split_votes(votes))]`. -/
def readEpochStart (u : UnicodeData) (state : LogState) (v : List Char) :
    Except ConvertError LogState :=
  match matchEpochStart u v with
  | none => .ok state
  | some (epoch, action, votes) => do
    let key := (← intOf u epoch) - 1
    let (split, allVotersHash) ←
      (splitVotes u (String.mk votes) state.allVotersHash).mapError .raised
    pure { state with votesHash := appendItem state.votesHash key (action, split), allVotersHash }

/-- The second `if g:`: `param_hash[int(epoch)] = params`. -/
def readParameters (u : UnicodeData) (state : LogState) (v : List Char) :
    Except ConvertError LogState :=
  match matchParameters u v with
  | none => .ok state
  | some (epoch, params) => do
    pure { state with paramHash := setItem state.paramHash (← intOf u epoch) params }

/-- The third `if g:`: the five numbers go to `epoch_data`, then a committee
other than `'7'` stops the script. -/
def readVotingStats (u : UnicodeData) (state : LogState) (v : List Char) :
    Except ConvertError LogState :=
  match matchVotingStats u v with
  | none => .ok state
  | some stats => do
    let entry := (← intOf u stats.epoch, ← intOf u stats.spos, ← intOf u stats.dreps,
      ← intOf u stats.noConfidence, ← intOf u stats.abstain)
    let state := { state with epochData := state.epochData ++ [entry] }
    if stats.committee ≠ ['7'] then .error .nameError else pure state

/-- The body of `for v in votes_src`. -/
def logStep (u : UnicodeData) (state : LogState) (v : List Char) :
    Except ConvertError LogState := do
  let state ← readEpochStart u state v
  let state ← readParameters u state v
  readVotingStats u state v

/-- The loop over the lines of the log, each with its newline as file iteration
yields it. -/
def readLog (u : UnicodeData) (log : List (List Char)) : Except ConvertError LogState :=
  log.foldlM (logStep u) {}

/-- A log with one line of each kind. -/
def sampleLog : List (List Char) :=
  ["Epoch start 508, gov_action1a:  (5, 0)  => \x7bDRepKey([1, 2, 3]): ([9], VotingProcedure \x7b vote: Yes\x7d\n".data,
   "acropolis_module_parameters_state: NPPX: [508,x]\n".data,
   ("acropolis_module_governance_state::state: Conway voting, epoch 508 spos reg. 5, dreps 3 " ++
     "(no-confidence 1, abstain 2), committee 7,\n").data]

/-- What the loop leaves after `sampleLog`. -/
def sampleState : LogState :=
  { votesHash := [(507, [("gov_action1a".data, ⟨[(0, "AQID")], [], []⟩)])]
    paramHash := [(508, "x".data)]
    epochData := [(508, 5, 3, 1, 2)]
    allVotersHash := [("AQID", 1)] }

set_option maxRecDepth 1000 in
theorem readLog_sampleLog : readLog .asciiOnly sampleLog = .ok sampleState := rfl

section Dict

variable {κ ν : Type} [DecidableEq κ]

theorem getItem_appendItem (d : List (κ × List ν)) (k : κ) (x : ν) (k' : κ) :
    getItem (appendItem d k x) k' =
      if k' = k then some ((getItem d k).getD [] ++ [x]) else getItem d k' := by
  unfold appendItem
  rw [getItem_setItem]
  split
  · by_cases present : (getItem d k).isSome
    · simp [present]
    · simp [present, getItem_setItem, Option.not_isSome_iff_eq_none.mp present]
  · split <;> simp [getItem_setItem, *]

end Dict

theorem eq_some_of_elim {α ε : Type} {o : Option α} {e : ε} {a : α}
    (found : o.elim (Except.error e) Except.ok = Except.ok a) : o = some a := by
  cases o with
  | none => cases found
  | some b => exact congrArg some (Except.ok.inj found)

/-- An invariant of every step of a fold in `Except` holds after the fold. -/
theorem foldlM_except_invariant {α β ε : Type} (P : α → Prop) {f : α → β → Except ε α}
    {l : List β} (step : ∀ a b a', b ∈ l → P a → f a b = .ok a' → P a') :
    ∀ {a a' : α}, P a → l.foldlM f a = .ok a' → P a' := by
  induction l with
  | nil => exact fun holds run => by cases run; exact holds
  | cons b l inductionHypothesis =>
    intro a a' holds run
    rw [List.foldlM_cons] at run
    cases next : f a b with
    | error e => rw [next] at run; cases run
    | ok a'' =>
      rw [next] at run
      exact inductionHypothesis (fun a b a' member => step a b a' (List.mem_cons_of_mem _ member))
        (step a b a'' (List.mem_cons_self _ _) holds next) run

theorem splitVotesStep_cases {u : UnicodeData} {state state' : Votes × List (String × Nat)}
    {velem : List Char} (step : splitVotesStep u state velem = .ok state') :
    state' = state ∨ ∃ vote code bs, state' =
      (state.1.add vote (code, String.mk (b64encode bs)),
        setItem state.2 (String.mk (b64encode bs)) 1) := by
  unfold splitVotesStep at step
  split at step
  · exact .inl (Except.ok.inj step).symm
  · simp only [bind, Except.bind] at step
    split at step
    · cases step
    split at step
    · cases step
    rename_i found
    split at step
    · cases step
    obtain ⟨bs, -, rfl⟩ := Option.map_eq_some'.mp (eq_some_of_elim found)
    exact .inr ⟨_, _, bs, (Except.ok.inj step).symm⟩

/-- The keys of the voters of a `Votes`: Yes, then No, then Abstain. -/
def Votes.keys (votes : Votes) : List String := (votes.yes ++ votes.no ++ votes.abstain).map (·.2)

theorem mem_keys_add (votes : Votes) (w : Vote) (code : Nat) (key k : String) :
    k ∈ (votes.add w (code, key)).keys ↔ k ∈ votes.keys ∨ k = key := by
  cases w <;> simp only [Votes.add, Votes.keys, List.map_append, List.mem_append, List.map_cons,
    List.map_nil, List.mem_cons, List.mem_singleton, List.not_mem_nil, or_false] <;> tauto

theorem splitVotes_voters {u : UnicodeData} {vstr : String} {before after : List (String × Nat)}
    {votes : Votes} (split : splitVotes u vstr before = .ok (votes, after)) (key : String) :
    (getItem after key).isSome ↔ (getItem before key).isSome ∨ key ∈ votes.keys := by
  refine foldlM_except_invariant
    (fun state => ∀ key, (getItem state.2 key).isSome ↔ (getItem before key).isSome ∨
        key ∈ state.1.keys)
    ?_ (fun key => by simp [Votes.keys]) split key
  rintro ⟨votes, voters⟩ piece state' - holds step key
  rcases splitVotesStep_cases step with rfl | ⟨vote, code, bs, rfl⟩
  · exact holds key
  · rw [getItem_setItem, mem_keys_add, ← or_assoc, ← holds key]
    by_cases same : key = String.mk (b64encode bs) <;> simp [same]

theorem splitVotes_base64 {u : UnicodeData} {vstr : String} {before after : List (String × Nat)}
    {votes : Votes} (split : splitVotes u vstr before = .ok (votes, after)) :
    ∀ key ∈ votes.keys, ∃ bs, key = String.mk (b64encode bs) := by
  refine foldlM_except_invariant
      (fun state => ∀ key ∈ state.1.keys, ∃ bs, key = String.mk (b64encode bs))
    ?_ (by simp [Votes.keys]) split
  rintro ⟨votes, voters⟩ piece state' - holds step
  rcases splitVotesStep_cases step with rfl | ⟨vote, code, bs, rfl⟩
  · exact holds
  · intro key member
    rcases (mem_keys_add _ _ _ _ _).mp member with old | rfl
    · exact holds key old
    · exact ⟨bs, rfl⟩

section Step

variable {u : UnicodeData} {state state' : LogState} {v : List Char}

theorem readEpochStart_cases (read : readEpochStart u state v = .ok state') :
    (matchEpochStart u v = none ∧ state' = state) ∨
    ∃ epoch action votes e split, matchEpochStart u v = some (epoch, action, votes) ∧
      intOf u epoch = .ok e ∧
      splitVotes u (String.mk votes) state.allVotersHash = .ok (split, state'.allVotersHash) ∧
      state'.votesHash = appendItem state.votesHash (e - 1) (action, split) ∧
      state'.paramHash = state.paramHash ∧ state'.epochData = state.epochData := by
  unfold readEpochStart at read
  split at read
  · exact .inl ⟨‹_›, (Except.ok.inj read).symm⟩
  · rename_i epoch action votes matched
    simp only [bind, Except.bind] at read
    split at read
    · cases read
    rename_i e parsed
    cases split : splitVotes u (String.mk votes) state.allVotersHash with
    | error err => simp [split, Except.mapError] at read
    | ok result =>
      simp only [split, Except.mapError] at read
      cases read
      exact .inr ⟨epoch, action, votes, e, result.1, matched, parsed, split, rfl, rfl, rfl⟩

theorem readParameters_cases (read : readParameters u state v = .ok state') :
    state'.votesHash = state.votesHash ∧ state'.allVotersHash = state.allVotersHash ∧
      state'.epochData = state.epochData ∧
      ((matchParameters u v = none ∧ state'.paramHash = state.paramHash) ∨
        ∃ epoch params e, matchParameters u v = some (epoch, params) ∧ intOf u epoch = .ok e ∧
          state'.paramHash = setItem state.paramHash e params) := by
  unfold readParameters at read
  split at read
  · cases read
    exact ⟨rfl, rfl, rfl, .inl ⟨‹_›, rfl⟩⟩
  · simp only [bind, Except.bind] at read
    split at read
    · cases read
    · cases read
      exact ⟨rfl, rfl, rfl, .inr ⟨_, _, _, ‹_›, ‹_›, rfl⟩⟩

theorem readVotingStats_cases (read : readVotingStats u state v = .ok state') :
    state'.votesHash = state.votesHash ∧ state'.allVotersHash = state.allVotersHash ∧
      state'.paramHash = state.paramHash ∧
      ((matchVotingStats u v = none ∧ state'.epochData = state.epochData) ∨
        ∃ stats e s d n a, matchVotingStats u v = some stats ∧ stats.committee = ['7'] ∧
          intOf u stats.epoch = .ok e ∧ intOf u stats.spos = .ok s ∧ intOf u stats.dreps = .ok d ∧
          intOf u stats.noConfidence = .ok n ∧ intOf u stats.abstain = .ok a ∧
          state'.epochData = state.epochData ++ [(e, s, d, n, a)]) := by
  unfold readVotingStats at read
  split at read
  · cases read
    exact ⟨rfl, rfl, rfl, .inl ⟨‹_›, rfl⟩⟩
  · simp only [bind, Except.bind] at read
    repeat' (split at read; · cases read)
    cases read
    refine ⟨rfl, rfl, rfl, .inr ⟨_, _, _, _, _, _, ‹_›, ?_, ‹_›, ‹_›, ‹_›, ‹_›, ‹_›, rfl⟩⟩
    exact not_ne_iff.mp ‹_›
theorem logStep_cases (step : logStep u state v = .ok state') :
    ∃ first second, readEpochStart u state v = .ok first ∧ readParameters u first v = .ok second ∧
      readVotingStats u second v = .ok state' := by
  simp only [logStep, bind, Except.bind] at step
  split at step
  · cases step
  split at step
  · cases step
  exact ⟨_, _, ‹_›, ‹_›, step⟩

end Step

/-- `all_voters_hash` holds exactly the keys of the votes filed in `votes_hash`. -/
def VotersFiled (votesHash : List (Int × List (List Char × Votes)))
    (allVotersHash : List (String × Nat)) :
    Prop :=
  ∀ key, (getItem allVotersHash key).isSome ↔
    ∃ epoch actions, getItem votesHash epoch = some actions ∧ ∃ action ∈ actions,
        key ∈ action.2.keys

theorem votersFiled_appendItem {votesHash : List (Int × List (List Char × Votes))}
    {before after : List (String × Nat)} (filed : VotersFiled votesHash before) {split : Votes}
    (voters : ∀ key, (getItem after key).isSome ↔ (getItem before key).isSome ∨ key ∈ split.keys)
    (k : Int) (action : List Char) : VotersFiled (appendItem votesHash k (action, split))
        after := by
  intro key
  rw [voters key, filed key]
  simp only [getItem_appendItem]
  constructor
  · rintro (⟨e, actions, found, a, member, inKeys⟩ | inSplit)
    · by_cases same : e = k
      · subst same
        exact ⟨e, _, if_pos rfl, a, by simp [found, member], inKeys⟩
      · exact ⟨e, actions, by rw [if_neg same]; exact found, a, member, inKeys⟩
    · exact ⟨k, _, if_pos rfl, (action, split), by simp, inSplit⟩
  · rintro ⟨e, actions, found, a, member, inKeys⟩
    split at found
    · cases found
      rcases List.mem_append.mp member with old | new
      · cases filedBefore : getItem votesHash k with
        | none => simp [filedBefore] at old
        | some earlier =>
          rw [filedBefore, Option.getD_some] at old
          exact .inl ⟨k, earlier, filedBefore, a, old, inKeys⟩
      · obtain rfl : a = (action, split) := by simpa using new
        exact .inr inKeys
    · exact .inl ⟨e, actions, found, a, member, inKeys⟩

theorem logStep_votersFiled (filed : VotersFiled state.votesHash state.allVotersHash)
    (step : logStep u state v = .ok state') :
    VotersFiled state'.votesHash state'.allVotersHash := by
  obtain ⟨first, second, start, parameters, stats⟩ := logStep_cases step
  have kept : VotersFiled first.votesHash first.allVotersHash := by
    rcases readEpochStart_cases start with ⟨-, rfl⟩
        | ⟨_, action, _, e, split, -, -, voters, filedAt, -⟩
    · exact filed
    · rw [filedAt]
      exact votersFiled_appendItem filed (splitVotes_voters voters) (e - 1) action
  obtain ⟨votes₁, voters₁, -⟩ := readParameters_cases parameters
  obtain ⟨votes₂, voters₂, -⟩ := readVotingStats_cases stats
  rwa [votes₂, voters₂, votes₁, voters₁]

theorem votersFiled_readLog {log : List (List Char)} (run : readLog u log = .ok state) :
    VotersFiled state.votesHash state.allVotersHash :=
  foldlM_except_invariant (fun state : LogState => VotersFiled state.votesHash state.allVotersHash)
    (fun _ _ _ _ filed step => logStep_votersFiled filed step)
    (fun _ =>
        ⟨fun held => by simp [getItem] at held, fun ⟨_, _, found, _⟩ => by simp [getItem] at found⟩)
    run

/-- After any run of the loop over the log, a key is in `all_voters_hash`
exactly when some action filed in `votes_hash`, in any epoch, has a vote by it. -/
theorem readLog_votersFiled {log : List (List Char)} (run : readLog u log = .ok state)
    (key : String) :
    (getItem state.allVotersHash key).isSome ↔
      ∃ epoch actions, getItem state.votesHash epoch = some actions ∧
        ∃ action ∈ actions, key ∈ action.2.keys :=
  votersFiled_readLog run key

theorem readLog_votersFiled_sampleLog :
    (getItem sampleState.allVotersHash "AQID").isSome ↔
      ∃ epoch actions, getItem sampleState.votesHash epoch = some actions ∧
        ∃ action ∈ actions, "AQID" ∈ action.2.keys :=
  readLog_votersFiled readLog_sampleLog "AQID"

/-- Whether some action filed in `votes_hash`, under any epoch, has a vote by `key`. -/
def votedIn (votesHash : List (Int × List (List Char × Votes))) (key : String) : Bool :=
  (votesHash.map Prod.fst).any fun epoch => ((getItem votesHash epoch).getD []).any fun action =>
      key ∈ action.2.keys

theorem votedIn_iff (votesHash : List (Int × List (List Char × Votes))) (key : String) :
    votedIn votesHash key = true ↔
      ∃ epoch actions, getItem votesHash epoch = some actions ∧ ∃ action ∈ actions,
          key ∈ action.2.keys := by
  simp only [votedIn, List.any_eq_true, decide_eq_true_eq]
  constructor
  · rintro ⟨epoch, -, action, member, voted⟩
    cases found : getItem votesHash epoch with
    | none => simp [found] at member
    | some actions => exact ⟨epoch, actions, found, action, by simpa [found] using member, voted⟩
  · rintro ⟨epoch, actions, found, action, member, voted⟩
    exact ⟨epoch, List.mem_map_of_mem _ (mem_of_getItem found), action, by simpa [found]
        using member, voted⟩

theorem voted_readLog {log : List (List Char)} (run : readLog u log = .ok state) (key : String) :
    (getItem state.allVotersHash key).isSome = votedIn state.votesHash key :=
  Bool.eq_iff_iff.mpr ((votersFiled_readLog run key).trans (votedIn_iff _ key).symm)

/-- Every action filed in `votes_hash` was read from a line of the log, and
every key of its votes is the base64 text of some bytes. -/
def FiledFrom (u : UnicodeData) (log : List (List Char))
    (votesHash : List (Int × List (List Char × Votes))) : Prop :=
  ∀ epoch actions, getItem votesHash epoch = some actions → ∀ action ∈ actions,
    (∃ v ∈ log, ∃ e w, matchEpochStart u v = some (e, action.1, w)) ∧
      ∀ key ∈ action.2.keys, ∃ bs, key = String.mk (b64encode bs)

theorem logStep_filedFrom {log : List (List Char)} (line : v ∈ log)
    (filed : FiledFrom u log state.votesHash) (step : logStep u state v = .ok state') :
    FiledFrom u log state'.votesHash := by
  obtain ⟨first, second, start, parameters, stats⟩ := logStep_cases step
  rw [(readVotingStats_cases stats).1, (readParameters_cases parameters).1]
  rcases readEpochStart_cases start with ⟨-, rfl⟩
      | ⟨epoch, action, votes, e, split, matched, -, voters,
    filedAt, -⟩
  · exact filed
  · rw [filedAt]
    intro epoch' actions found a member
    rw [getItem_appendItem] at found
    split at found
    · cases found
      rcases List.mem_append.mp member with old | new
      · cases filedBefore : getItem state.votesHash (e - 1) with
        | none => simp [filedBefore] at old
        | some earlier =>
          rw [filedBefore, Option.getD_some] at old
          exact filed _ earlier filedBefore a old
      · obtain rfl : a = (action, split) := by simpa using new
        exact ⟨⟨v, line, epoch, votes, matched⟩, splitVotes_base64 voters⟩
    · exact filed epoch' actions found a member

theorem readLog_filedFrom {log : List (List Char)} (run : readLog u log = .ok state) :
    FiledFrom u log state.votesHash :=
  foldlM_except_invariant (fun state : LogState => FiledFrom u log state.votesHash)
    (fun _ _ _ line filed step => logStep_filedFrom line filed step)
    (fun _ _ found => by simp [getItem] at found) run

theorem readLog_filedFrom_sampleLog : FiledFrom .asciiOnly sampleLog sampleState.votesHash :=
  readLog_filedFrom readLog_sampleLog

/-- The five numbers of a statistics line, when it is one and its numbers are read. -/
def statsOf (u : UnicodeData) (v : List Char) : Option (Int × Int × Int × Int × Int) := do
  let stats ← matchVotingStats u v
  pure ((← (intOf u stats.epoch).toOption), (← (intOf u stats.spos).toOption),
    (← (intOf u stats.dreps).toOption), (← (intOf u stats.noConfidence).toOption),
    (← (intOf u stats.abstain).toOption))

theorem logStep_epochData (step : logStep u state v = .ok state') :
    state'.epochData = state.epochData ++ (statsOf u v).toList := by
  obtain ⟨first, second, start, parameters, stats⟩ := logStep_cases step
  have kept : second.epochData = state.epochData := by
    rw [(readParameters_cases parameters).2.2.1]
    rcases readEpochStart_cases start with ⟨-, rfl⟩ | ⟨_, _, _, _, _, -, -, -, -, -, same⟩
    · rfl
    · exact same
  rcases (readVotingStats_cases stats).2.2.2 with ⟨none, same⟩ | ⟨stats, e, s, d, n, a, matched, -,
    epoch, spos, dreps, noConfidence, abstain, appended⟩
  · rw [same, kept, statsOf, none]
    exact (List.append_nil _).symm
  · rw [appended, kept, statsOf, matched]
    simp only
        [Option.bind_eq_bind, Option.some_bind, Except.toOption, epoch, spos, dreps, noConfidence,
      abstain]
    rfl

/-- `epoch_data` after a run: the five numbers of every statistics line, in the
order of the log. -/
theorem readLog_epochData {log : List (List Char)} (run : readLog u log = .ok state) :
    state.epochData = log.filterMap (statsOf u) := by
  suffices ∀ (l : List (List Char)) (s : LogState), l.foldlM (logStep u) s = .ok state →
      state.epochData = s.epochData ++ l.filterMap (statsOf u) from
    (this log {} run).trans (List.nil_append _)
  intro l
  induction l with
  | nil =>
    intro s run
    cases run
    simp
  | cons v l inductionHypothesis =>
    intro s run
    rw [List.foldlM_cons] at run
    cases next : logStep u s v with
    | error e => rw [next] at run; cases run
    | ok s' =>
      rw [next] at run
      rw [inductionHypothesis s' run, logStep_epochData next, List.filterMap_cons]
      cases statsOf u v <;> simp

theorem readLog_epochData_sampleLog :
    sampleState.epochData = sampleLog.filterMap (statsOf .asciiOnly) :=
  readLog_epochData readLog_sampleLog

/-- The epoch and the text of an NPPX line whose epoch `int()` reads. -/
def paramsOf (u : UnicodeData) (v : List Char) : Option (Int × List Char) := do
  let (epoch, params) ← matchParameters u v
  pure ((← (intOf u epoch).toOption), params)

theorem logStep_paramHash (step : logStep u state v = .ok state') :
    state'.paramHash = (paramsOf u v).elim state.paramHash fun e =>
        setItem state.paramHash e.1 e.2 := by
  obtain ⟨first, second, start, parameters, stats⟩ := logStep_cases step
  have kept : first.paramHash = state.paramHash := by
    rcases readEpochStart_cases start with ⟨-, rfl⟩ | ⟨_, _, _, _, _, -, -, -, -, same, -⟩
    · rfl
    · exact same
  rw [(readVotingStats_cases stats).2.2.1]
  rcases (readParameters_cases parameters).2.2.2 with ⟨none, same⟩
      | ⟨epoch, params, e, matched, read, set⟩
  · simp [paramsOf, none, same, kept]
  · simp [paramsOf, matched, read, set, kept, Except.toOption]

theorem readLog_paramHash {log : List (List Char)} (run : readLog u log = .ok state) :
    state.paramHash = dictOf (log.filterMap (paramsOf u)) := by
  suffices ∀ (l : List (List Char)) (s : LogState), l.foldlM (logStep u) s = .ok state →
      state.paramHash = (l.filterMap (paramsOf u)).foldl (fun d e => setItem d e.1 e.2)
          s.paramHash from
    this log {} run
  intro l
  induction l with
  | nil =>
    intro s run
    cases run
    rfl
  | cons v l inductionHypothesis =>
    intro s run
    rw [List.foldlM_cons] at run
    cases next : logStep u s v with
    | error e => rw [next] at run; cases run
    | ok s' =>
      rw [next] at run
      rw [inductionHypothesis s' run, logStep_paramHash next, List.filterMap_cons]
      cases paramsOf u v <;> rfl

end Acropolis.Governance
