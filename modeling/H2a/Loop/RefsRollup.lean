import H2a.Loop.Decision
/-!
# The statuses of the refs of a loop

`readRefsRollup` of `runtime/loop/engine/adapters.ts`: "one query per loop repo, indexed by id".
-/

namespace H2a.Loop

open H2a.Library

/-- A row of `track query --format json`: the fields that are read, and the workspace of the
item. -/
structure TrackQueryRow where
  id : Option JsString
  workspace : Option JsString
  bucket : Option JsString
  realization : Option JsString
  acceptance : Option JsString
  deriving DecidableEq

/-- `String.prototype.toUpperCase` and `toLowerCase`. -/
structure LetterCase where
  toUpperCase : JsString → JsString
  toLowerCase : JsString → JsString

variable (letters : LetterCase)

/-- The bucket of a row is `DONE`. -/
def TrackQueryRow.isDone (row : TrackQueryRow) : Bool :=
  letters.toUpperCase (row.bucket.getD (js "")) = js "DONE"

/-- `mapTrackAggregateToRefStatus` -/
def mapTrackAggregateToRefStatus : Option TrackQueryRow → RefStatus
  | none => .unknown
  | some item =>
      let bucket := letters.toUpperCase (item.bucket.getD (js ""))
      let acceptance := letters.toLowerCase (item.acceptance.getD (js ""))
      let realization := letters.toLowerCase (item.realization.getD (js ""))
      if bucket = js "DONE" then
        if acceptance = js "accepted" ∨ acceptance = js "pass" then .accepted else .done
      else if bucket = js "DROPPED" ∨ realization = js "cancelled" then .rejected
      else if bucket = js "AWAITED" ∨ bucket = js "TO-DO" then .pending
      else .unknown

/-- A ref is satisfied exactly when the row found for it is `DONE`. -/
theorem satisfied_mapTrackAggregateToRefStatus (item : Option TrackQueryRow) :
    (mapTrackAggregateToRefStatus letters item).satisfied = item.any (·.isDone letters) := by
  cases item with
  | none => rfl
  | some item =>
      simp only [mapTrackAggregateToRefStatus, Option.any_some, TrackQueryRow.isDone]
      split
      case isTrue hdone =>
          rw [decide_eq_true hdone]
          split <;> rfl
      case isFalse hdone =>
          rw [decide_eq_false hdone]
          split
          · rfl
          · split <;> rfl

/-- The directories that are asked; `cwd` is that of the process. -/
def queryDirs (cwd : JsString) (loop : H2AObjectiveLoop) : List JsString :=
  let paths := (loop.repos.map (·.path)).filter (· ≠ js "")
  if paths.isEmpty then [cwd] else paths

/-- The answers of the directories that have answered with rows. -/
def queryAnswers (cwd : JsString) (query : JsString → Option (List TrackQueryRow))
    (loop : H2AObjectiveLoop) : List (List TrackQueryRow) :=
  (queryDirs cwd loop).filterMap query

/-- `itemsById.get(id)`: of the rows of one id the last counts. -/
def itemsById (rows : List TrackQueryRow) (id : JsString) : Option TrackQueryRow :=
  rows.reverse.find? (·.id = some id)

/-- `readRefsRollup`; a directory where `track` fails, or where its output is no list, has no
answer. -/
def readRefsRollup (cwd : JsString) (query : JsString → Option (List TrackQueryRow))
    (loop : H2AObjectiveLoop) : RefsRollup :=
  if loop.refs.isEmpty then ⟨false, []⟩
  else
    let answers := queryAnswers cwd query loop
    if answers.isEmpty then ⟨true, []⟩
    else
      ⟨false, loop.refs.map fun ref =>
        ⟨loopRefLocator ref,
          mapTrackAggregateToRefStatus letters (itemsById answers.flatten ref.aggregateId)⟩⟩

/-- The row the status of a ref is taken from: by the id of the last ref of the same locator. -/
def rowFor (refs : List H2ALoopTrackRef) (rows : List TrackQueryRow) (ref : H2ALoopTrackRef) :
    Option TrackQueryRow :=
  (refs.reverse.find? fun other => loopRefLocator other = loopRefLocator ref).bind fun other =>
    itemsById rows other.aggregateId

theorem statusByLocator_map (rows : List TrackQueryRow) (refs : List H2ALoopTrackRef)
    (ref : H2ALoopTrackRef) :
    (statusByLocator (refs.map fun ref => ⟨loopRefLocator ref,
      mapTrackAggregateToRefStatus letters (itemsById rows ref.aggregateId)⟩)
        (loopRefLocator ref)).satisfied = (rowFor refs rows ref).any (·.isDone letters) := by
  unfold statusByLocator rowFor
  rw [← List.map_reverse, List.find?_map]
  change RefStatus.satisfied ((((refs.reverse.find? fun other =>
    decide (loopRefLocator other = loopRefLocator ref)).map _).map _).getD _) = _
  cases refs.reverse.find? fun other => decide (loopRefLocator other = loopRefLocator ref) with
  | none => rfl
  | some other => exact satisfied_mapTrackAggregateToRefStatus letters _

end H2a.Loop
