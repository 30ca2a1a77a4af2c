import Acropolis.Status.Sources

/-!
# Weekly status: the report

`main` of `weekly_status_markdown.py` picks a data source, takes a done and an
in-progress bucket from it, keeps the achievements closed last week and the
plans that are open and recently updated, and prints both as markdown
sections. The run is taken at one instant `now`, in seconds since the epoch.

The plans filter asks for `state == "open"`, which only the recent-issues
source sets: through a project or labels the plans section is always empty.
-/

namespace Acropolis.Status

open Acropolis.Python

/-- `date.weekday()` of a day counted from 1970-01-01, a Thursday; Monday is 0. -/
def weekday (day : Int) : Int := (day + 3) % 7

/-- `date - timedelta(seconds=s)`: a date moves by the whole days of the
timedelta only. -/
def subTimedelta (day seconds : Int) : Int := day - seconds / 86400

/-- `datetime.combine(day, time(h, m, s), tzinfo=timezone.utc)`, in seconds. -/
def combine (day h m s : Int) : Int := day * 86400 + h * 3600 + m * 60 + s

def previousMonday (day : Int) : Int := subTimedelta day (weekday day * 86400)

/-- `last_week_window(today)`. -/
def lastWeekWindow (today : Int) : Int × Int :=
  let thisMonday := previousMonday today
  let lastMonday := subTimedelta thisMonday (7 * 86400)
  let lastSunday := subTimedelta thisMonday 1
  (combine lastMonday 0 0 0, combine lastSunday 23 59 59)

/-- The window runs from the Monday of last week to the last second of this
week's Monday, eight days: `timedelta(seconds=1)` holds no whole day, so the
"last Sunday" of the code is this Monday. -/
theorem lastWeekWindow_eq (today : Int) :
    weekday (previousMonday today) = 0 ∧
      previousMonday today ≤ today ∧ today < previousMonday today + 7 ∧
      lastWeekWindow today =
        (combine (previousMonday today - 7) 0 0 0, combine (previousMonday today) 23 59 59) := by
  simp only [lastWeekWindow, previousMonday, subTimedelta, weekday, combine, Prod.mk.injEq]
  omega

/-- `closed_last_week`: merged or closed inside the window. -/
def closedLastWeek (window : Int × Int) (it : Record) : Bool :=
  [it.mergedAt, it.closedAt].any fun v => match v with
    | some t => t.text ≠ "" && window.1 ≤ t.instant && t.instant ≤ window.2
    | none => false

/-- `updated_recent(it, days)`: `(now - t).days <= days`, where `timedelta.days`
rounds down. -/
def updatedRecent (now : Int) (it : Record) (days : Int) : Bool :=
  match it.updatedAt with
  | some t => t.text ≠ "" && (now - t.instant) / 86400 ≤ days
  | none => false

/-- The sort key of `format_markdown`: `x.get("updatedAt") or ""`. -/
def sortKey (it : Record) : String :=
  match it.updatedAt with
  | some t => t.text
  | none => ""

/-- `sorted(items, key=sortKey, reverse=True)`: stable, by descending key. -/
def sortByUpdated (items : List Record) : List Record :=
  items.mergeSort fun a b => !(sortKey a < sortKey b)

def itemLine (it : Record) : String :=
  "- [" ++ (if it.type = "PullRequest" then "PR" else "Issue") ++ " #" ++ toString it.number ++
    "](" ++ it.url ++ ") — " ++ it.title

/-- `fmt` inside `format_markdown`. -/
def fmt : List Record → String
  | [] => "_(none)_"
  | items => "\n".intercalate ((sortByUpdated items).map itemLine)

def formatMarkdown (doneItems inprogItems : List Record) : String :=
  "\n".intercalate ["## Last week's achievements", "", fmt doneItems, "",
    "## Plans for next week", "", fmt inprogItems]

/-- The environment variables `main` reads; `none` is an unset variable. -/
structure Environment where
  ghToken : Option String := none
  githubToken : Option String := none
  repo : Option String := none
  projectOwner : Option String := none
  projectNumber : Option String := none
  statusDoneValue : Option String := none
  statusInProgressValue : Option String := none
  doneLabels : Option String := none
  inProgressLabels : Option String := none

/-- The answers of the GitHub API during a run. -/
structure GitHub where
  /-- `discover_projects`: the numbers of an owner's projects, none when the
  query fails. -/
  projects : String → List Nat
  /-- The queries of `items_by_status_from_project` for an owner and a number;
  `none` when one of them raises. -/
  project : String → Int → Option Project
  /-- The issue pages of one label's search. -/
  labelPages : String → List (List Issue)
  /-- The issue pages of `get_recent_issues_by_state`. -/
  recentPages : List (List Issue)

/-- Python truth of an optional string. -/
def truthy : Option String → Bool
  | some s => s ≠ ""
  | none => false

/-- The source a run takes its buckets from. -/
inductive Source where
  | project
  | labels
  | recentIssues
  deriving DecidableEq, Repr

/-- The project `main` tries: owner and number from the environment, the gaps
filled from the repository owner's first project. -/
def selectProject (gh : GitHub) (repo : String) (owner number : Option String) :
    Option String × Option String :=
  if truthy owner && truthy number then (owner, number)
  else
    let repoOwner := (split '/' repo).headD ""
    match gh.projects repoOwner with
    | [] => (owner, number)
    | first :: _ =>
      (if truthy owner then owner else some repoOwner,
        if truthy number then number else some (toString first))

/-- `[s.strip() for s in value.split(",") if s.strip()]`. -/
def labelList (u : UnicodeData) (value : Option String) : List String :=
  ((split ',' (value.getD "")).map u.strip).filter (· ≠ "")

/-- The `try` block of `main`: the buckets of the project it tries, `none`
when it tries none or the lookup raises. -/
def projectLookup (u : UnicodeData) (env : Environment) (gh : GitHub) (repo : String) :
    Option (List (String × List Record)) :=
  let (owner, number) := selectProject gh repo env.projectOwner env.projectNumber
  if truthy owner && truthy number then
    (u.int (number.getD "")).bind fun n =>
      itemsByStatusFromProject u (gh.project (owner.getD "") n)
        [env.statusDoneValue.getD "Done", env.statusInProgressValue.getD "In Progress"] repo
  else none

/-- The `if not try_projects` block: labels when some are configured, else the
recent issues split by state. -/
def fallbackBuckets (u : UnicodeData) (env : Environment) (gh : GitHub) :
    Source × List Record × List Record :=
  let doneLabels := labelList u env.doneLabels
  let inProgressLabels := labelList u env.inProgressLabels
  if doneLabels ≠ [] ∨ inProgressLabels ≠ [] then
    (.labels, if doneLabels ≠ [] then searchByLabels gh.labelPages doneLabels else [],
      if inProgressLabels ≠ [] then searchByLabels gh.labelPages inProgressLabels else [])
  else
    let allRecent := getRecentIssuesByState gh.recentPages
    (.recentIssues, allRecent.filter (·.state = some "closed"),
      allRecent.filter (·.state = some "open"))

/-- The source of a run and its done and in-progress buckets. -/
def buckets (u : UnicodeData) (env : Environment) (gh : GitHub) (repo : String) :
    Source × List Record × List Record :=
  match projectLookup u env gh repo with
  | some b =>
    (.project, (getItem b (env.statusDoneValue.getD "Done")).getD [],
      (getItem b (env.statusInProgressValue.getD "In Progress")).getD [])
  | none => fallbackBuckets u env gh

/-- `os.environ.get("GH_TOKEN") or os.environ.get("GITHUB_TOKEN")`. -/
def token (env : Environment) : Option String :=
  if truthy env.ghToken then env.ghToken else env.githubToken

/-- `main`: the markdown it prints; `none` when it exits for want of a token
or a repository. -/
def main (u : UnicodeData) (env : Environment) (gh : GitHub) (now : Int) : Option String :=
  if truthy (token env) && truthy env.repo then
    let (_, doneItems, inprogItems) := buckets u env gh (env.repo.getD "")
    let window := lastWeekWindow (now / 86400)
    some (formatMarkdown (doneItems.filter (closedLastWeek window))
      (inprogItems.filter fun it => it.state = some "open" && updatedRecent now it 7))
  else none

def plannedIssue : Content :=
  ⟨"Issue", 1, "Plan", "https://github.com/o/r/issues/1", "o/r", none, none⟩

/-- An issue of `o/r` in progress on a project board, last updated at noon on
Wednesday 2024-05-08. -/
def plannedItem : ProjectItem :=
  { updatedAt := ⟨"2024-05-08T12:00:00Z", 1715169600, by decide⟩,
    content := some plannedIssue,
    fieldValues := [⟨"ProjectV2ItemFieldSingleSelectValue", some "F", some "P"⟩] }

/-- A run on `o/r` with the project `o` 1 configured, whose board has a `Status`
field with the options `Done` and `In Progress` and holds `plannedItem`. -/
def plannedEnvironment : Environment :=
  { ghToken := some "t", repo := some "o/r", projectOwner := some "o", projectNumber := some "1" }

def plannedGitHub : GitHub :=
  { projects := fun _ => [],
    project := fun _ _ => some
      ⟨[⟨"F", "Status", [("Done", "D"), ("In Progress", "P")]⟩], [[plannedItem]]⟩,
    labelPages := fun _ => [],
    recentPages := [] }

section Run

variable {u : UnicodeData} {env : Environment} {gh : GitHub} {repo : String}

theorem projectLookup_state {b : List (String × List Record)}
    (found : projectLookup u env gh repo = some b) : ∀ e ∈ b, ∀ r ∈ e.2, r.state = none := by
  unfold projectLookup at found
  split at found
  split_ifs at found
  obtain ⟨n, -, found⟩ := Option.bind_eq_some.mp found
  exact itemsByStatusFromProject_state found

theorem buckets_state (source : (buckets u env gh repo).1 ≠ .recentIssues) :
    ∀ r ∈ (buckets u env gh repo).2.2, r.state = none := by
  unfold buckets at source ⊢
  cases found : projectLookup u env gh repo with
  | some b =>
    intro r member
    cases bucket : getItem b (env.statusInProgressValue.getD "In Progress") with
    | none => simp only [found, bucket, Option.getD_none, List.not_mem_nil] at member
    | some records =>
      simp only [found, bucket, Option.getD_some] at member
      exact projectLookup_state found _ (mem_of_getItem bucket) r member
  | none =>
    simp only [found, fallbackBuckets] at source ⊢
    split_ifs at source ⊢
    all_goals first
      | exact searchByLabels_state _ _
      | exact fun r member => absurd member (List.not_mem_nil r)
      | exact absurd rfl source

theorem main_eq {now : Int} {md : String} (ran : main u env gh now = some md) :
    md = formatMarkdown
      ((buckets u env gh (env.repo.getD "")).2.1.filter
        (closedLastWeek (lastWeekWindow (now / 86400))))
      ((buckets u env gh (env.repo.getD "")).2.2.filter
        fun it => it.state = some "open" && updatedRecent now it 7) := by
  unfold main at ran
  by_cases credentials : (truthy (token env) && truthy env.repo) = true
  · rw [if_pos credentials] at ran
    split at ran
    rename_i run
    rw [run]
    exact (Option.some.inj ran).symm
  · rw [if_neg credentials] at ran
    cases ran

/-- Through a project or labels the plans section is empty, whatever the API answers. -/
theorem main_plans_of_stateless {now : Int} {md : String} (ran : main u env gh now = some md)
    (source : (buckets u env gh (env.repo.getD "")).1 ≠ .recentIssues) :
    md = formatMarkdown
      ((buckets u env gh (env.repo.getD "")).2.1.filter
        (closedLastWeek (lastWeekWindow (now / 86400)))) [] := by
  rw [main_eq ran]
  congr 1
  exact List.filter_eq_nil_iff.mpr fun r member => by simp [buckets_state source r member]

theorem main_plans_of_stateless_planned :
    main .asciiOnly plannedEnvironment plannedGitHub 1715169600 =
        some "## Last week's achievements\n\n_(none)_\n\n## Plans for next week\n\n_(none)_" ∧
      (buckets .asciiOnly plannedEnvironment plannedGitHub "o/r").1 ≠ .recentIssues ∧
      "## Last week's achievements\n\n_(none)_\n\n## Plans for next week\n\n_(none)_" =
        formatMarkdown ((buckets .asciiOnly plannedEnvironment plannedGitHub "o/r").2.1.filter
          (closedLastWeek (lastWeekWindow (1715169600 / 86400)))) [] :=
  have ran : main .asciiOnly plannedEnvironment plannedGitHub 1715169600 =
      some "## Last week's achievements\n\n_(none)_\n\n## Plans for next week\n\n_(none)_" := by
    decide
  have source : (buckets .asciiOnly plannedEnvironment plannedGitHub "o/r").1 ≠ .recentIssues := by
    decide
  ⟨ran, source, main_plans_of_stateless ran source⟩

theorem main_plans_of_recentIssues {now : Int} {md : String} (ran : main u env gh now = some md)
    (source : (buckets u env gh (env.repo.getD "")).1 = .recentIssues) :
    md = formatMarkdown
      ((buckets u env gh (env.repo.getD "")).2.1.filter
        (closedLastWeek (lastWeekWindow (now / 86400))))
      ((buckets u env gh (env.repo.getD "")).2.2.filter fun it => updatedRecent now it 7) := by
  rw [main_eq ran]
  congr 1
  apply List.filter_congr
  intro r member
  suffices r.state = some "open" by simp [this]
  unfold buckets at source member
  cases found : projectLookup u env gh (env.repo.getD "") with
  | some b => simp [found] at source
  | none =>
    simp only [found, fallbackBuckets] at source member
    split_ifs at source member
    simpa using (List.mem_filter.mp member).2

end Run

/-- At that instant the in-progress bucket holds the issue and it passes
`updated_recent(it, 7)`, yet the plans section is empty. -/
theorem main_drops_project_plans :
    buckets .asciiOnly plannedEnvironment plannedGitHub "o/r" =
        (.project, [], [projectRecord plannedItem plannedIssue]) ∧
      updatedRecent 1715169600 (projectRecord plannedItem plannedIssue) 7 ∧
      main .asciiOnly plannedEnvironment plannedGitHub 1715169600 =
        some "## Last week's achievements\n\n_(none)_\n\n## Plans for next week\n\n_(none)_" := by
  decide

end Acropolis.Status
