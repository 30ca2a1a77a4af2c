import Acropolis.Python.Text
import Acropolis.Python.Value

/-!
# Weekly status: the three data sources

The records `weekly_status_markdown.py` builds from the GitHub API: the status
buckets of a Projects v2 board, the issues of some labels, and the recent issues
split by state. An answer of the API is the data the script reads from it. A
timestamp carries its text, which the report sorts by, and the instant
`datetime.fromisoformat` reads from that text; only the form the API writes is
modelled.

Only `get_recent_issues_by_state` puts a `state` key into its records.
-/

namespace Acropolis.Status

open Acropolis.Python

/-- `int` of two or four ASCII digits. -/
def digitsValue (ds : List Char) : Option Nat :=
  if ds.all Char.isDigit then some (decimalValue ds) else none

/-- The days of a month of the proleptic Gregorian calendar, as `datetime` checks them. -/
def daysInMonth (year month : Nat) : Nat :=
  if month = 2 then (if year % 4 = 0 ∧ (year % 100 ≠ 0 ∨ year % 400 = 0) then 29 else 28)
  else if month = 4 ∨ month = 6 ∨ month = 9 ∨ month = 11 then 30 else 31

/-- Days from 1970-01-01 to `year-month-day`, for a year of at least 1. -/
def daysFromCivil (year month day : Nat) : Int :=
  let y : Int := if month ≤ 2 then year - 1 else year
  let era := y / 400
  let yoe := y - era * 400
  let shifted : Int := if 2 < month then month - 3 else month + 9
  let dayOfYear := (153 * shifted + 2) / 5 + day - 1
  let dayOfEra := yoe * 365 + yoe / 4 - yoe / 100 + dayOfYear
  era * 146097 + dayOfEra - 719468

/-- The UTC offset after the seconds, in seconds: `Z` (which the script turns into
`+00:00`) or `±HH:MM`. -/
def isoOffset : List Char → Option Int
  | ['Z'] => some 0
  | [sign, h1, h2, ':', m1, m2] => do
    let hours ← digitsValue [h1, h2]
    let minutes ← digitsValue [m1, m2]
    guard (hours < 24 ∧ minutes < 60)
    if sign = '+' then some (hours * 3600 + minutes * 60)
    else if sign = '-' then some (-(hours * 3600 + minutes * 60 : Int))
    else none
  | _ => none

/-- `datetime(year, month, day, hour, minute, second, tzinfo=timezone(offset))`:
`none` for a field out of range, where it raises `ValueError`; otherwise the
instant in seconds since the epoch. -/
def datetime (year month day hour minute second : Nat) (offset : Int) : Option Int := do
  guard (1 ≤ year ∧ 1 ≤ month ∧ month ≤ 12 ∧ 1 ≤ day ∧ day ≤ daysInMonth year month ∧
    hour < 24 ∧ minute < 60 ∧ second < 60)
  pure (daysFromCivil year month day * 86400 + hour * 3600 + minute * 60 + second - offset)

/-- `datetime.fromisoformat(v.replace("Z", "+00:00"))` on a text of the form the
API writes, `YYYY-MM-DDTHH:MM:SS` and an offset; `none` for every other form. -/
def fromIsoformat (text : String) : Option Int :=
  match text.data with
  | y1 :: y2 :: y3 :: y4 :: '-' :: m1 :: m2 :: '-' :: d1 :: d2 :: 'T' :: h1 :: h2 :: ':' ::
      n1 :: n2 :: ':' :: s1 :: s2 :: zone => do
    let year ← digitsValue [y1, y2, y3, y4]
    let month ← digitsValue [m1, m2]
    let day ← digitsValue [d1, d2]
    let hour ← digitsValue [h1, h2]
    let minute ← digitsValue [n1, n2]
    let second ← digitsValue [s1, s2]
    let offset ← isoOffset zone
    datetime year month day hour minute second offset
  | _ => none

/-- A timestamp of the API: its text, and the instant `fromIsoformat` reads from
it. Texts of other forms, which `fromisoformat` reads otherwise or refuses, are
not timestamps of the model. -/
structure Timestamp where
  text : String
  instant : Int
  parsed : fromIsoformat text = some instant
  deriving DecidableEq, Repr

example : fromIsoformat "2024-05-08T12:00:00Z" = some 1715169600 := by decide

/-- The dict every source builds for an issue or a pull request. A key the
source leaves out is `none`, as `it.get(key)` reads it. -/
structure Record where
  type : String
  title : String
  url : String
  number : Nat
  closedAt : Option Timestamp
  mergedAt : Option Timestamp
  updatedAt : Option Timestamp
  state : Option String
  deriving DecidableEq, Repr

/-- The `content` of a project item: an issue, a pull request or a draft. -/
structure Content where
  typename : String
  number : Nat
  title : String
  url : String
  /-- `repository.nameWithOwner` -/
  repository : String
  closedAt : Option Timestamp
  mergedAt : Option Timestamp

/-- A node of an item's `fieldValues`. -/
structure FieldValue where
  typename : String
  /-- `field.id` of a single-select value -/
  fieldId : Option String
  optionId : Option String

structure ProjectItem where
  updatedAt : Timestamp
  content : Option Content
  fieldValues : List FieldValue

/-- A field of the project, with its options as `(name, id)` pairs. -/
structure ProjectField where
  id : String
  name : String
  options : List (String × String)

/-- What the GraphQL queries read of a project: its fields, and the pages of
items the loop reads until `hasNextPage` is false. -/
structure Project where
  fields : List ProjectField
  pages : List (List ProjectItem)

/-- `get_project_and_status_field`: the id of the first field named `Status`
and its options by name; `none` is the `RuntimeError` of a project without one. -/
def getProjectAndStatusField (fields : List ProjectField) :
    Option (String × List (String × String)) :=
  match fields.find? (·.name = "Status") with
  | some f => if f.id = "" then none else some (f.id, dictOf f.options)
  | none => none

/-- The option of an item's first single-select value of the status field. -/
def statusOption (statusFieldId : String) (it : ProjectItem) : Option String :=
  (it.fieldValues.find? fun fv =>
    fv.typename = "ProjectV2ItemFieldSingleSelectValue" ∧ fv.fieldId = some statusFieldId).bind
    (·.optionId)

/-- The record `items_by_status_from_project` appends: it has no `state`. -/
def projectRecord (it : ProjectItem) (content : Content) : Record :=
  { type := content.typename, title := content.title, url := content.url,
    number := content.number, closedAt := content.closedAt, mergedAt := content.mergedAt,
    updatedAt := some it.updatedAt, state := none }

section Project

variable (u : UnicodeData) (repo statusFieldId : String) (options : List (String × String))
  (wantedIds : List String)

/-- One item of the loop of `items_by_status_from_project`; `none` is the
`KeyError` of a status name that has no bucket. -/
def projectStep (results : List (String × List Record)) (it : ProjectItem) :
    Option (List (String × List Record)) :=
  match statusOption statusFieldId it, it.content with
  | some optionId, some content =>
    if optionId ∉ wantedIds then some results
    else if content.typename ≠ "Issue" ∧ content.typename ≠ "PullRequest" then some results
    else if u.lower content.repository ≠ u.lower repo then some results
    else match options.find? (·.2 = optionId) with
      | some (name, _) =>
        if name = "" then some results
        else (getItem results name).map fun bucket =>
          setItem results name (bucket ++ [projectRecord it content])
      | none => some results
  | _, _ => some results

theorem projectStep_state {results results' : List (String × List Record)} {it : ProjectItem}
    (stateless : ∀ e ∈ results, ∀ r ∈ e.2, r.state = none)
    (step : projectStep u repo statusFieldId options wantedIds results it = some results') :
    ∀ e ∈ results', ∀ r ∈ e.2, r.state = none := by
  unfold projectStep at step
  split at step
  · split_ifs at step
    all_goals try (cases step; exact stateless)
    split at step
    · split_ifs at step
      · cases step; exact stateless
      · obtain ⟨bucket, found, rfl⟩ := Option.map_eq_some'.mp step
        intro e member r record
        rcases mem_setItem member with old | rfl
        · exact stateless e old r record
        · rcases List.mem_append.mp record with old | new
          · exact stateless _ (mem_of_getItem found) r old
          · rw [List.mem_singleton.mp new]; rfl
    · cases step; exact stateless
  · cases step; exact stateless

end Project

/-- `items_by_status_from_project`: one bucket per wanted status name; `none`
when a query or the function raises. -/
def itemsByStatusFromProject (u : UnicodeData) (project : Option Project)
    (wantedStatusNames : List String) (repoFullname : String) :
    Option (List (String × List Record)) := do
  let p ← project
  let (statusFieldId, statusOptions) ← getProjectAndStatusField p.fields
  let wantedOptionIds := wantedStatusNames.filterMap (getItem statusOptions)
  p.pages.flatten.foldlM (projectStep u repoFullname statusFieldId statusOptions wantedOptionIds)
    (dictOf (wantedStatusNames.map fun n => (n, [])))

/-- An issue of the REST API (`pull_request` in it for a pull request). -/
structure Issue where
  title : String
  htmlUrl : String
  number : Nat
  closedAt : Option Timestamp
  updatedAt : Option Timestamp
  state : Option String
  pullRequest : Bool

/-- The issues a `while True` loop over `page = 1, 2, ...` reads: it stops
after a page of fewer than 100 issues, an empty one included. -/
def readPages {α : Type} : List (List α) → List α
  | [] => []
  | page :: rest => if page.length < 100 then page else page ++ readPages rest

/-- The record `search_by_labels` appends: it has no `state`. -/
def labelRecord (it : Issue) : Record :=
  { type := if it.pullRequest then "PullRequest" else "Issue", title := it.title,
    url := it.htmlUrl, number := it.number, closedAt := it.closedAt, mergedAt := none,
    updatedAt := it.updatedAt, state := none }

/-- The record `get_recent_issues_by_state` appends, with the issue's `state`. -/
def stateRecord (it : Issue) : Record := { labelRecord it with state := it.state }

/-- `search_by_labels`: the issues of every label's pages, then one record per
number, the last one read, in the order the numbers first appear. -/
def searchByLabels (labelPages : String → List (List Issue)) (labels : List String) :
    List Record :=
  let items := labels.flatMap fun lab => (readPages (labelPages lab)).map labelRecord
  (dictOf (items.map fun x => (x.number, x))).map (·.2)

/-- `get_recent_issues_by_state(token, repo, state="all", days=14)`. -/
def getRecentIssuesByState (pages : List (List Issue)) : List Record :=
  (readPages pages).map stateRecord

theorem searchByLabels_state (labelPages : String → List (List Issue)) (labels : List String) :
    ∀ r ∈ searchByLabels labelPages labels, r.state = none := by
  intro r member
  obtain ⟨e, entry, rfl⟩ := List.mem_map.mp member
  obtain ⟨x, read, rfl⟩ := List.mem_map.mp (mem_dictOf entry)
  obtain ⟨lab, -, labelled⟩ := List.mem_flatMap.mp read
  obtain ⟨it, -, rfl⟩ := List.mem_map.mp labelled
  rfl

theorem foldlM_option_invariant {α β : Type} (P : α → Prop) {f : α → β → Option α}
    (step : ∀ a x b, P a → f a x = some b → P b) :
    ∀ {xs : List β} {a b : α}, P a → xs.foldlM f a = some b → P b
  | [], _, _, holds, done => Option.some.inj done ▸ holds
  | x :: xs, a, b, holds, done => by
    obtain ⟨a', first, rest⟩ := Option.bind_eq_some.mp done
    exact foldlM_option_invariant P step (step a x a' holds first) rest

theorem itemsByStatusFromProject_state {u : UnicodeData} {project : Option Project}
    {wanted : List String} {repo : String} {buckets : List (String × List Record)}
    (found : itemsByStatusFromProject u project wanted repo = some buckets) :
    ∀ e ∈ buckets, ∀ r ∈ e.2, r.state = none := by
  obtain ⟨p, -, found⟩ := Option.bind_eq_some.mp found
  obtain ⟨⟨fieldId, options⟩, -, found⟩ := Option.bind_eq_some.mp found
  refine foldlM_option_invariant _ (fun a it b => projectStep_state u repo fieldId options _)
    ?_ found
  intro e member r record
  obtain ⟨n, -, rfl⟩ := List.mem_map.mp (mem_dictOf member)
  exact absurd record (List.not_mem_nil r)

end Acropolis.Status
