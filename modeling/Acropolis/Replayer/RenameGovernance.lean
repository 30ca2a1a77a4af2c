import Acropolis.Python.Value
import Acropolis.Python.Regex

/-!
# Renumbering the governance logs

`rename-governance.py` lists the files `governance-logs/gov_00*.json`, sorts
their paths, and copies the `i`-th of them, read by `json.load` and written back
by `json.dump`, to `governance-logs/i.json`. The copies are written while the
loop still has files to read, and the script is right because no path it writes
is a path it lists: a target's name starts with a digit, a listed name with
`gov_00`. So every listed file ends up under the number of listed paths that
sort before its own, and every other file keeps its contents. When a file does
not decode, the script stops with that error, and only the files before it in
name order have been copied.

The JSON codec is a parameter: what is proved holds whatever `json.load` and
`json.dump` do.
-/

namespace Acropolis.Replayer

open Acropolis.Python Acropolis.Python.Regex

/-- The files of the working tree by path, each path once. -/
structure Disk (β : Type) where
  files : List (String × β)
  distinct : (files.map Prod.fst).Nodup

namespace Disk

variable {β : Type}

/-- What `open(path)` reads, if there is a file at `path`. -/
def read (disk : Disk β) (path : String) : Option β := getItem disk.files path

/-- `open(path, 'wt')` and a write of `text`: the file is created, or truncated
and written again. -/
def write (disk : Disk β) (path : String) (text : β) : Disk β :=
  ⟨setItem disk.files path text, nodup_keys_setItem disk.distinct path text⟩

@[simp] theorem read_write (disk : Disk β) (path : String) (text : β) (path' : String) :
    (disk.write path text).read path' = if path' = path then some text else disk.read path' :=
  getItem_setItem disk.files path text path'

theorem read_isSome {disk : Disk β} {path : String} (present : path ∈ disk.files.map Prod.fst) :
    (disk.read path).isSome := by
  obtain ⟨e, member, rfl⟩ := List.mem_map.mp present
  rw [read, getItem, Option.isSome_map', List.find?_isSome]
  exact ⟨e, member, by simp⟩

end Disk

/-- The directory the script lists and writes. -/
def logDir : String := "governance-logs/"

/-- `fnmatch` with the pattern `gov_00*.json`, which it runs as the regular
expression `(?s:gov_00.*\.json)\Z`. -/
def matchesPattern (name : List Char) : Bool :=
  (lit "gov_00".data (Regex.star anyCharDotAll fun _ => lit ".json".data (textEnd (some ())))
    name).isSome

/-- The name of a file directly in `governance-logs`. -/
def entryName (path : String) : Option (List Char) :=
  if logDir.data <+: path.data ∧ '/' ∉ path.data.drop logDir.length then
    some (path.data.drop logDir.length)
  else none

variable {β : Type}

/-- `glob.glob('governance-logs/gov_00*.json')`: the paths of the files directly
in `governance-logs` whose name matches, in the order of the listing. -/
def jsonFiles (disk : Disk β) : List String :=
  (disk.files.map Prod.fst).filter fun path => (entryName path).any matchesPattern

/-- Python's `<=` on `str`, which compares code points in order, decided on the
characters. -/
def pathLe (a b : String) : Decidable (a ≤ b) :=
  decidable_of_iff (a.data ≤ b.data) String.le_iff_toList_le.symm

/-- `sorted(json_files)`: the paths in increasing order, the one such order of
distinct paths. -/
def sortedFiles (disk : Disk β) : List String :=
  @List.insertionSort String (· ≤ ·) pathLe (jsonFiles disk)

/-- `'governance-logs/%d.json' % idx`. -/
def targetPath (idx : Nat) : String := logDir ++ toString idx ++ ".json"

theorem mem_jsonFiles {disk : Disk β} {path : String} (member : path ∈ jsonFiles disk) :
    path ∈ disk.files.map Prod.fst ∧
      ∃ rest, path.data = logDir.data ++ "gov_00".data ++ rest := by
  obtain ⟨present, matched⟩ := List.mem_filter.mp member
  refine ⟨present, ?_⟩
  unfold entryName at matched
  split at matched
  · rename_i listed
    rw [Option.any_some, matchesPattern, Option.isSome_iff_exists] at matched
    obtain ⟨rest, named, -⟩ := lit_eq_some matched.choose_spec
    have split : logDir.data ++ path.data.drop logDir.length = path.data :=
      List.prefix_iff_eq_append.mp listed.1
    exact ⟨rest, by rw [List.append_assoc, ← named, split]⟩
  · cases matched

theorem nodup_jsonFiles (disk : Disk β) : (jsonFiles disk).Nodup :=
  disk.distinct.filter _

theorem targetPath_not_mem_jsonFiles (disk : Disk β) (t : Nat) :
    targetPath t ∉ jsonFiles disk := by
  intro member
  obtain ⟨-, rest, spelled⟩ := mem_jsonFiles member
  obtain ⟨nonempty, digits, -⟩ := toString_digits t
  obtain ⟨c, cs, written⟩ := List.exists_cons_of_ne_nil nonempty
  rw [targetPath, String.data_append, String.data_append, written, List.append_assoc,
    List.append_assoc] at spelled
  have heads := List.head_eq_of_cons_eq (List.append_cancel_left spelled)
  have : c.isDigit := digits c (written ▸ List.mem_cons_self c cs)
  rw [heads] at this
  exact absurd this (by decide)

theorem targetPath_injective : Function.Injective targetPath := by
  intro i t same
  have spelled := congrArg String.data same
  simp only [targetPath, String.data_append, List.append_assoc] at spelled
  have digits := List.append_cancel_right (List.append_cancel_left spelled)
  rw [← (toString_digits i).2.2, ← (toString_digits t).2.2, digits]

theorem perm_sortedFiles (disk : Disk β) : (sortedFiles disk).Perm (jsonFiles disk) :=
  @List.perm_insertionSort String (· ≤ ·) pathLe (jsonFiles disk)

theorem sorted_sortedFiles (disk : Disk β) : (sortedFiles disk).Sorted (· < ·) :=
  (@List.sorted_insertionSort String (· ≤ ·) pathLe _ _ (jsonFiles disk)).lt_of_le
    ((perm_sortedFiles disk).nodup_iff.mpr (nodup_jsonFiles disk))

/-- The number of listed paths that sort before `path`: the number the script
gives the file at `path`. -/
def rank (disk : Disk β) (path : String) : Nat :=
  ((jsonFiles disk).filter fun p => p < path).length

theorem length_filter_lt_getElem :
    ∀ {l : List String}, l.Sorted (· < ·) → ∀ i (h : i < l.length),
      (l.filter fun p => p < l[i]).length = i
  | [], _, _, h => absurd h (Nat.not_lt_zero _)
  | a :: l, sorted, 0, _ => by
    have above := (List.sorted_cons.mp sorted).1
    rw [List.getElem_cons_zero, List.filter_cons_of_neg (by simp),
      List.filter_eq_nil_iff.mpr fun p member => by simpa using (above p member).le]
    rfl
  | a :: l, sorted, i + 1, h => by
    have bound : i < l.length := Nat.lt_of_succ_lt_succ h
    have below : a < l[i] := (List.sorted_cons.mp sorted).1 _ (List.getElem_mem _)
    rw [List.getElem_cons_succ, List.filter_cons_of_pos (by simpa using below), List.length_cons,
      length_filter_lt_getElem (List.sorted_cons.mp sorted).2 i]

theorem rank_sortedFiles (disk : Disk β) (i : Nat) (h : i < (sortedFiles disk).length) :
    rank disk (sortedFiles disk)[i] = i := by
  rw [rank, ← ((perm_sortedFiles disk).filter _).length_eq]
  exact length_filter_lt_getElem (sorted_sortedFiles disk) i h

theorem sortedFiles_lt_iff (disk : Disk β) {i k : Nat} (hi : i < (sortedFiles disk).length)
    (hk : k < (sortedFiles disk).length) :
    (sortedFiles disk)[i] < (sortedFiles disk)[k] ↔ i < k :=
  (sorted_sortedFiles disk).get_strictMono.lt_iff_lt.trans Fin.mk_lt_mk

/-- The exceptions that stop the loop. -/
inductive RenameError (ε : Type) where
  /-- `open(j)` of a path where there is no file. -/
  | fileNotFound (path : String)
  /-- `json.load(f)` of a text it does not decode. -/
  | load (e : ε)
  deriving DecidableEq, Repr

section Run

variable {α ε : Type} (load : β → Except ε α) (dump : α → β)

/-- `f = open(j)`, then `data = json.load(f)`. -/
def readFile (disk : Disk β) (j : String) : Except (RenameError ε) α :=
  match disk.read j with
  | none => .error (.fileNotFound j)
  | some text => (load text).mapError .load

/-- The loop from the file numbered `idx` on: the disk when the script ends,
and the exception it ends with, if any. -/
def renameLoop : List String → Disk β → Nat → Disk β × Option (RenameError ε)
  | [], disk, _ => (disk, none)
  | j :: js, disk, idx =>
    match readFile load disk j with
    | .error e => (disk, some e)
    | .ok data => renameLoop js (disk.write (targetPath idx) (dump data)) (idx + 1)

/-- The script. -/
def renameGovernance (disk : Disk β) : Disk β × Option (RenameError ε) :=
  renameLoop load dump (sortedFiles disk) disk 0

theorem readFile_write {disk : Disk β} {path j : String} (other : j ≠ path) (text : β) :
    readFile load (disk.write path text) j = readFile load disk j := by
  simp only [readFile, Disk.read_write, if_neg other]

theorem readFile_eq_error {disk : Disk β} {j : String} (present : j ∈ disk.files.map Prod.fst)
    {e : RenameError ε} (failed : readFile load disk j = .error e) :
    ∃ text e', disk.read j = some text ∧ load text = .error e' ∧ e = .load e' := by
  obtain ⟨text, found⟩ := Option.isSome_iff_exists.mp (Disk.read_isSome present)
  rw [readFile, found] at failed
  cases decoded : load text with
  | error e' =>
    exact ⟨text, e', found, decoded, by simpa [decoded, Except.mapError] using failed.symm⟩
  | ok _ => simp [decoded, Except.mapError] at failed

/-- The run of the loop over paths none of which it writes: it copies a prefix of
them, reading each on the disk it started from, to the numbers from `idx` on;
it leaves every other file as it was; and it stops at the first path that does
not read, with that path's exception, or at the end with none. -/
theorem renameLoop_spec : ∀ (js : List String) (disk : Disk β) (idx : Nat),
    (∀ j ∈ js, ∀ t, j ≠ targetPath t) →
    ∃ k ≤ js.length,
      (∀ i j, i < k → js[i]? = some j → ∃ data, readFile load disk j = .ok data ∧
        (renameLoop load dump js disk idx).1.read (targetPath (idx + i)) = some (dump data)) ∧
      (∀ path, (∀ i < k, path ≠ targetPath (idx + i)) →
        (renameLoop load dump js disk idx).1.read path = disk.read path) ∧
      (∀ j, js[k]? = some j → ∃ e, readFile load disk j = .error e ∧
        (renameLoop load dump js disk idx).2 = some e) ∧
      (k = js.length → (renameLoop load dump js disk idx).2 = none)
  | [], disk, idx, _ => ⟨0, le_rfl, by simp, fun _ _ => rfl, by simp, fun _ => rfl⟩
  | j :: js, disk, idx, sources => by
    cases read : readFile load disk j with
    | error e =>
      have stops : renameLoop load dump (j :: js) disk idx = (disk, some e) := by
        rw [renameLoop, read]
      rw [stops]
      refine ⟨0, Nat.zero_le _, by simp, fun _ _ => rfl, fun j' first => ?_, by simp⟩
      obtain rfl : j = j' := by simpa using first
      exact ⟨e, read, rfl⟩
    | ok data =>
      have continues : renameLoop load dump (j :: js) disk idx =
          renameLoop load dump js (disk.write (targetPath idx) (dump data)) (idx + 1) := by
        rw [renameLoop, read]
      rw [continues]
      have unwritten : ∀ j' ∈ js, j' ≠ targetPath idx := fun j' member =>
        sources j' (List.mem_cons_of_mem j member) idx
      obtain ⟨k, within, copied, kept, failed, finished⟩ := renameLoop_spec js
        (disk.write (targetPath idx) (dump data)) (idx + 1)
        (fun j' member => sources j' (List.mem_cons_of_mem j member))
      have later : ∀ i, targetPath idx ≠ targetPath (idx + 1 + i) := fun i same => by
        have := targetPath_injective same
        omega
      refine ⟨k + 1, by simpa using within, ?_, ?_, ?_, ?_⟩
      · rintro (_ | i) j' below found
        · obtain rfl : j = j' := by simpa using found
          refine ⟨data, read, ?_⟩
          simp only [Nat.add_zero]
          rw [kept _ fun i _ => later i, Disk.read_write, if_pos rfl]
        · rw [List.getElem?_cons_succ] at found
          have member : j' ∈ js := List.getElem?_mem found
          obtain ⟨data', decoded, written⟩ := copied i j' (by omega) found
          rw [readFile_write load (unwritten j' member)] at decoded
          exact ⟨data', decoded, by rwa [show idx + (i + 1) = idx + 1 + i by omega]⟩
      · intro path other
        rw [kept path fun i below => by simpa [Nat.add_right_comm] using other (i + 1) (by omega),
          Disk.read_write, if_neg (by simpa using other 0 (by omega))]
      · intro j' found
        rw [List.getElem?_cons_succ] at found
        obtain ⟨e, decoded, stopped⟩ := failed j' found
        rw [readFile_write load (unwritten j' (List.getElem?_mem found))] at decoded
        exact ⟨e, decoded, stopped⟩
      · intro ended
        exact finished (by simpa using ended)

theorem sources_not_written (disk : Disk β) :
    ∀ j ∈ sortedFiles disk, ∀ t, j ≠ targetPath t :=
  fun _ member t same =>
    targetPath_not_mem_jsonFiles disk t (same ▸ (perm_sortedFiles disk).mem_iff.mp member)

theorem mem_jsonFiles_getElem (disk : Disk β) {i : Nat} (bound : i < (sortedFiles disk).length) :
    (sortedFiles disk)[i] ∈ jsonFiles disk :=
  (perm_sortedFiles disk).mem_iff.mp (List.getElem_mem bound)

theorem exists_getElem_of_mem_jsonFiles {disk : Disk β} {j : String}
    (member : j ∈ jsonFiles disk) :
    ∃ i, ∃ bound : i < (sortedFiles disk).length, (sortedFiles disk)[i] = j :=
  List.mem_iff_getElem.mp ((perm_sortedFiles disk).mem_iff.mpr member)

/-- Two logs, a stale `0.json`, a file of another name, and a log outside the directory. -/
def sampleDisk (second : String) : Disk String :=
  ⟨[("governance-logs/gov_002.json", second), ("governance-logs/gov_001.json", "a"),
    ("governance-logs/0.json", "old"), ("governance-logs/notes.txt", "n"), ("gov_003.json", "c")],
    by simp only [List.map_cons, List.map_nil]; decide⟩

/-- A codec that refuses the text `bad` and reads any other text as itself. -/
def sampleLoad (text : String) : Except Unit String := if text = "bad" then .error () else .ok text

example : (renameGovernance sampleLoad id (sampleDisk "b")).1.files =
    [("governance-logs/gov_002.json", "b"), ("governance-logs/gov_001.json", "a"),
      ("governance-logs/0.json", "a"), ("governance-logs/notes.txt", "n"), ("gov_003.json", "c"),
      ("governance-logs/1.json", "b")] := by decide

example : (renameGovernance sampleLoad id (sampleDisk "bad")).1.files =
    [("governance-logs/gov_002.json", "bad"), ("governance-logs/gov_001.json", "a"),
      ("governance-logs/0.json", "a"), ("governance-logs/notes.txt", "n"),
      ("gov_003.json", "c")] := by
  decide

end Run

end Acropolis.Replayer
