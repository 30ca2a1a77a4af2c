import Acropolis.Python.Text

/-!
# Python regular expressions, piece by piece

`re.match` runs a pattern by backtracking from the start of the text: a greedy
repeat first takes the longest run its class allows and gives characters back
one at a time, and the first way through the whole pattern is the match. Each
piece here is given what has to match after it as a continuation, so a pattern
is written piece for piece as its source spells it, and the continuation is
tried in the order the backtracking matcher tries it. Only the pieces the
scripts use are here: literal text, one character of a class, the greedy `*`
and `+` of a class with the run as their group, `$` and `\Z`.

A repeat that can be followed after some run of its class matches, and the run
it matches with is the longest one after which the rest of the pattern matches.

When what follows a run never starts with a character of its class, only the
longest run can be followed, and the backtracking is idle.
-/

namespace Acropolis.Python.Regex

variable {α : Type}

/-- Literal text. -/
def lit (p : List Char) (k : List Char → Option α) (cs : List Char) : Option α :=
  if p <+: cs then k (cs.drop p.length) else none

/-- One character of a class: `.` or `[...]`. -/
def one (cls : Char → Bool) (k : List Char → Option α) : List Char → Option α
  | c :: cs => if cls c then k cs else none
  | [] => none

/-- `[...]*`, greedy: the longest run is tried first. The continuation is given
the run and what follows it. -/
def star (cls : Char → Bool) (k : List Char → List Char → Option α) : List Char → Option α
  | [] => k [] []
  | c :: cs => (if cls c then star cls (fun run => k (c :: run)) cs else none).or (k [] (c :: cs))

/-- `[...]+`, greedy. -/
def plus (cls : Char → Bool) (k : List Char → List Char → Option α) : List Char → Option α
  | c :: cs => if cls c then star cls (fun run => k (c :: run)) cs else none
  | [] => none

/-- `$` without `re.MULTILINE`: the end of the text, or a newline that ends it. -/
def eol (result : Option α) (cs : List Char) : Option α :=
  if cs = [] ∨ cs = ['\n'] then result else none

/-- `\Z`: the end of the text. -/
def textEnd (result : Option α) (cs : List Char) : Option α :=
  if cs = [] then result else none

/-- `.` without `re.DOTALL`. -/
def anyChar (c : Char) : Bool := c != '\n'

/-- `.` with `re.DOTALL`, as in `(?s:...)`. -/
def anyCharDotAll (_ : Char) : Bool := true

variable {cls : Char → Bool} {cs : List Char} {r : α}

@[simp] theorem lit_append {p : List Char} {k : List Char → Option α} (rest : List Char) :
    lit p k (p ++ rest) = k rest := by
  rw [lit, if_pos (List.prefix_append p rest), List.drop_left]

theorem lit_eq_some {p : List Char} {k : List Char → Option α} (matched : lit p k cs = some r) :
    ∃ rest, cs = p ++ rest ∧ k rest = some r := by
  unfold lit at matched
  split at matched
  · rename_i isPrefix
    exact ⟨_, (List.prefix_iff_eq_append.mp isPrefix).symm, matched⟩
  · cases matched

theorem one_eq_some {k : List Char → Option α} (matched : one cls k cs = some r) :
    ∃ c rest, cs = c :: rest ∧ cls c ∧ k rest = some r := by
  cases cs with
  | nil => cases matched
  | cons c rest =>
    simp only [one] at matched
    split at matched
    · exact ⟨c, rest, rfl, ‹_›, matched⟩
    · cases matched

theorem star_eq_some : ∀ {k : List Char → List Char → Option α} {cs : List Char},
    star cls k cs = some r → ∃ run rest, cs = run ++ rest ∧ (∀ c ∈ run, cls c) ∧ k run rest = some r
  | _, [], matched => ⟨[], [], rfl, by simp, matched⟩
  | k, c :: cs, matched => by
    rw [star, Option.or_eq_some] at matched
    rcases matched with longer | ⟨-, here⟩
    · split at longer
      · obtain ⟨run, rest, rfl, within, matched⟩ := star_eq_some longer
        exact ⟨c :: run, rest, rfl, by simpa [*] using within, matched⟩
      · cases longer
    · exact ⟨[], c :: cs, rfl, by simp, here⟩

theorem plus_eq_some {k : List Char → List Char → Option α} (matched : plus cls k cs = some r) :
    ∃ run rest, cs = run ++ rest ∧ run ≠ [] ∧ (∀ c ∈ run, cls c) ∧ k run rest = some r := by
  cases cs with
  | nil => cases matched
  | cons c cs =>
    simp only [plus] at matched
    split at matched
    · obtain ⟨run, rest, rfl, within, matched⟩ := star_eq_some matched
      exact ⟨c :: run, rest, rfl, List.cons_ne_nil _ _, by simpa [*] using within, matched⟩
    · cases matched

theorem eol_eq_some {result : Option α} (matched : eol result cs = some r) :
    (cs = [] ∨ cs = ['\n']) ∧ result = some r := by
  unfold eol at matched
  split at matched
  · exact ⟨‹_›, matched⟩
  · cases matched

theorem star_isSome : ∀ {k : List Char → List Char → Option α} (run rest : List Char),
    (∀ c ∈ run, cls c) → (k run rest).isSome → (star cls k (run ++ rest)).isSome
  | _, [], [], _, follows => follows
  | k, [], c :: rest, _, follows => by
    rw [List.nil_append, star, Option.isSome_or, Bool.or_eq_true]
    exact Or.inr follows
  | k, c :: run, rest, within, follows => by
    rw [List.cons_append, star, Option.isSome_or, Bool.or_eq_true,
      if_pos (within c (List.mem_cons_self c run))]
    exact Or.inl (star_isSome run rest
      (fun d member => within d (List.mem_cons_of_mem c member)) follows)

theorem plus_isSome {k : List Char → List Char → Option α} {run : List Char} (rest : List Char)
    (nonempty : run ≠ []) (within : ∀ c ∈ run, cls c) (follows : (k run rest).isSome) :
    (plus cls k (run ++ rest)).isSome := by
  obtain ⟨c, run, rfl⟩ := List.exists_cons_of_ne_nil nonempty
  rw [List.cons_append, plus, if_pos (within c (List.mem_cons_self c run))]
  exact star_isSome run rest
    (fun d member => within d (List.mem_cons_of_mem c member)) follows

theorem star_longest : ∀ {k : List Char → List Char → Option α} {cs : List Char},
    star cls k cs = some r → ∃ run rest, cs = run ++ rest ∧ (∀ c ∈ run, cls c) ∧ k run rest = some r ∧
      ∀ run' rest', cs = run' ++ rest' → (∀ c ∈ run', cls c) → run.length < run'.length →
        k run' rest' = none
  | _, [], matched => ⟨[], [], rfl, by simp, matched, fun run' _ split _ longer => by
      obtain ⟨rfl, -⟩ := List.append_eq_nil.mp split.symm
      cases longer⟩
  | k, c :: cs, matched => by
    rw [star, Option.or_eq_some] at matched
    rcases matched with longer | ⟨shorter, here⟩
    · split at longer
      · rename_i inClass
        obtain ⟨run, rest, rfl, within, matched, longest⟩ := star_longest longer
        refine ⟨c :: run, rest, rfl, by simpa [inClass] using within, matched, ?_⟩
        intro run' rest' split within' longer'
        obtain ⟨d, run', rfl⟩ := List.exists_cons_of_ne_nil (List.ne_nil_of_length_pos
          (show 0 < run'.length by simp only [List.length_cons] at longer'; omega))
        obtain ⟨rfl, tail⟩ := List.cons_eq_cons.mp (split.trans (List.cons_append _ _ _))
        exact longest run' rest' tail (fun e member => within' e (List.mem_cons_of_mem _ member))
          (by simpa using longer')
      · cases longer
    · refine ⟨[], c :: cs, rfl, by simp, here, fun run' rest' split within' longer' => ?_⟩
      obtain ⟨d, run', rfl⟩ := List.exists_cons_of_ne_nil (List.ne_nil_of_length_pos longer')
      obtain ⟨rfl, tail⟩ := List.cons_eq_cons.mp (split.trans (List.cons_append _ _ _))
      rw [if_pos (within' _ (List.mem_cons_self _ run'))] at shorter
      subst tail
      cases follows : k (_ :: run') rest'
      · rfl
      · have : (star cls (fun run => k (c :: run)) (run' ++ rest')).isSome :=
          star_isSome run' rest' (fun e member => within' e (List.mem_cons_of_mem _ member))
            (by simp [follows])
        simp [shorter] at this

/-- The continuation refuses any text that starts with a character of `cls`. -/
def StopsAt (cls : Char → Bool) (k : List Char → List Char → Option α) : Prop :=
  ∀ run c rest, cls c → k run (c :: rest) = none

theorem star_of_stopsAt : ∀ {k : List Char → List Char → Option α} (cs : List Char),
    StopsAt cls k → star cls k cs = k (cs.takeWhile cls) (cs.dropWhile cls)
  | _, [], _ => rfl
  | k, c :: cs, stops => by
    by_cases inClass : cls c
    · rw [star, if_pos inClass, star_of_stopsAt cs fun run d rest => stops (c :: run) d rest,
        stops [] c cs inClass]
      simp [inClass]
    · simp [star, inClass]

theorem plus_of_stopsAt {k : List Char → List Char → Option α} (cs : List Char)
    (stops : StopsAt cls k) :
    plus cls k cs =
      if cs.takeWhile cls = [] then none else k (cs.takeWhile cls) (cs.dropWhile cls) := by
  match cs with
  | [] => rfl
  | c :: cs =>
    by_cases inClass : cls c
    · rw [plus, if_pos inClass, star_of_stopsAt cs fun run d rest => stops (c :: run) d rest]
      simp [inClass]
    · simp [plus, inClass]

theorem stopsAt_lit {p : List Char} {d : Char} {ps : List Char} (starts : p = d :: ps)
    (outside : cls d = false) (k : List Char → List Char → Option α) :
    StopsAt cls fun run => lit p (k run) := by
  intro run c rest inClass
  subst starts
  have : d ≠ c := fun same => by simp_all
  simp [lit, this]

end Acropolis.Python.Regex
