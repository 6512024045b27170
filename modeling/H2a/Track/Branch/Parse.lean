import H2a.Library.Regex
import H2a.Track.Facade.Branch
/-!
# Reading a branch file

`packages/track/src/branch/parse.ts`: the lots of a `BRANCH.md` and the boxes nested under
them, and the slugs they are known by.
-/

namespace H2a.Track.Branch

open H2a.Library H2a.Track.Model H2a.Track.Facade

/-- `String.prototype.normalize('NFKD')` and `toLowerCase`. -/
structure Letters where
  normalize : JsString → JsString
  toLowerCase : JsString → JsString

variable (letters : Letters)

/-! ## Slugs -/

/-- What `[^a-z0-9]` leaves alone. -/
def slugUnit (u : UInt16) : Bool := Regex.digit u || (0x61 ≤ u && u ≤ 0x7A)

/-- `replace(/[^a-z0-9]+/g, '-')`; `inRun` when the unit before has been replaced. -/
def dashed (inRun : Bool) : List UInt16 → List UInt16
  | [] => []
  | u :: rest =>
      if slugUnit u then u :: dashed false rest
      else if inRun then dashed true rest
      else 0x2D :: dashed true rest

/-- `replace(/^-+|-+$/g, '')` -/
def undashed (units : List UInt16) : List UInt16 :=
  ((units.dropWhile (· == 0x2D)).reverse.dropWhile (· == 0x2D)).reverse

def slugify (s : JsString) : JsString :=
  ⟨undashed (dashed false (letters.toLowerCase (letters.normalize s)).units)⟩

/-! ## The patterns -/

open Regex (concat text spaces dot black digit alphanumeric oneOf space)

/-- `/^#\s*Feature:\s*(.+?)\s*$/` -/
def FEATURE : Regex :=
  concat [.start, text "#", spaces, text "Feature:", spaces, .group 1 (.many true 1 dot), spaces,
    .stop]

/-- `/^##\s+(.+?)\s*$/` -/
def HEADING : Regex :=
  concat [.start, text "##", .many false 1 space, .group 1 (.many true 1 dot), spaces, .stop]

/-- `\[([^\]])\]` -/
def box : Regex := concat [text "[", .group 1 (.unit (· != 0x5D)), text "]"]

/-- `/^-\s*\[([^\]])\]\s*\*\*(.+?)\*\*\s*(.*)$/` -/
def LOT : Regex :=
  concat [.start, text "-", spaces, box, spaces, text "**", .group 2 (.many true 1 dot), text "**",
    spaces, .group 3 (.many false 0 dot), .stop]

/-- `/^Lot\s+(\S+)(?:\s+[—–-]\s+(.+))?$/` -/
def LOT_LABEL : Regex :=
  concat [.start, text "Lot", .many false 1 space, .group 1 (.many false 1 black),
    .optional (concat [.many false 1 space, .unit (oneOf "—–-"), .many false 1 space,
      .group 2 (.many false 1 dot)]), .stop]

/-- `/^\s+-\s*\[([^\]])\]\s*(.+?)\s*$/` -/
def NESTED : Regex :=
  concat [.start, .many false 1 space, text "-", spaces, box, spaces, .group 2 (.many true 1 dot),
    spaces, .stop]

/-- `/\bBR-?\d[A-Za-z0-9]*/` -/
def BR_ID : Regex :=
  concat [.boundary, text "BR", .optional (text "-"), .unit digit, .many false 0 alphanumeric]

/-- `/\buat\b/i` -/
def UAT : Regex :=
  concat [.boundary, .unit (oneOf "uU"), .unit (oneOf "aA"), .unit (oneOf "tT"), .boundary]

/-- `match[n]!` of a group that takes part in every match. -/
def groupOf (groups : Regex.Groups) (n : Nat) : JsString := (groups n).getD (js "")

/-! ## The file -/

def lotTitle (boldText trailing : JsString) : Option JsString :=
  (LOT_LABEL.exec boldText.trim).map fun m =>
    let dashTitle := ((m 2).map (·.trim)).getD (js "")
    if ¬emptyString dashTitle then dashTitle
    else if 0 < trailing.trim.length then trailing.trim
    else groupOf m 1

def branchId (content : JsString) : Option JsString := (BR_ID.exec content).map (groupOf · 0)

def deriveBranchSlug (content title : JsString) (fileSlug : Option JsString) : JsString :=
  match branchId content with
  | some brId => slugify letters brId
  | none =>
      let name := fileSlug.getD (js "")
      slugify letters (if ¬emptyString name then name else title)

inductive Section where
  | none
  | objective
  | scope
  | plan
  | other

/-- What the reading of the lines has gathered; `current` is the last lot while boxes
may go under it. -/
structure Reading where
  title : JsString
  objective : List JsString
  scope : List JsString
  lots : List ParsedLot
  current : Option ParsedLot
  section_ : Section

def Reading.initial : Reading := ⟨js "", [], [], [], none, .none⟩

/-- The lots read so far, the current one included. -/
def Reading.allLots (r : Reading) : List ParsedLot := r.lots ++ r.current.toList

def sectionOf (name : JsString) : Section :=
  if name.startsWith (js "objective") then .objective
  else if name.startsWith (js "scope") then .scope
  else if name.startsWith (js "plan") then .plan
  else .other

/-- Whether the marker of a box is an `x`. -/
def checked (groups : Regex.Groups) : Bool := letters.toLowerCase (groupOf groups 1) = js "x"

/-- The acceptance criterion a nested box stands for. -/
def uatOf (nested : Regex.Groups) : ParsedUat :=
  let statement := groupOf nested 2
  ⟨slugify letters statement, statement, checked letters nested⟩

/-- A line of the plan. -/
def readPlan (r : Reading) (line : JsString) : Reading :=
  match LOT.exec line with
  | some lot =>
      match lotTitle (groupOf lot 2) (groupOf lot 3) with
      | some derived =>
          { r with
            lots := r.allLots
            current := some ⟨slugify letters derived, derived, checked letters lot, []⟩ }
      | none => r
  | none =>
      match NESTED.exec line, r.current with
      | some nested, some lot =>
          if UAT.test (groupOf nested 2) then
            { r with current := some { lot with uat := lot.uat ++ [uatOf letters nested] } }
          else r
      | _, _ => r

/-- A line that is not blank, without the space around it, after the ones before. -/
def keepLine (lines : List JsString) (line : JsString) : List JsString :=
  if emptyString line.trim then lines else lines ++ [line.trim]

def readLine (r : Reading) (line : JsString) : Reading :=
  match FEATURE.exec line with
  | some feature => { r with title := groupOf feature 1, section_ := .none }
  | none =>
      match HEADING.exec line with
      | some heading =>
          { r with
            lots := r.allLots
            current := none
            section_ := sectionOf (letters.toLowerCase (groupOf heading 1)) }
      | none =>
          match r.section_ with
          | .objective => { r with objective := keepLine r.objective line }
          | .scope => { r with scope := keepLine r.scope line }
          | .plan => readPlan letters r line
          | .none | .other => r

/-- `content.split('\n')` -/
def linesOf (content : JsString) : List JsString := (content.units.splitOn 0x0A).map (⟨·⟩)

def readLines (content : JsString) : Reading :=
  (linesOf content).foldl (readLine letters) .initial

/-- `texts.join(separator)` -/
def joined (separator : JsString) (texts : List JsString) : JsString :=
  ⟨separator.units.intercalate (texts.map (·.units))⟩

def parseBranch (content : JsString) (fileSlug : Option JsString) : ParsedBranch :=
  let r := readLines letters content
  { branchSlug := deriveBranchSlug letters content r.title fileSlug
    featureTitle := r.title
    featureBody := joined (js "\n\n")
      ([joined (js "\n") r.objective, joined (js "\n") r.scope].filter (!emptyString ·))
    lots := r.allLots }

/-- Every box is known by the slug of its statement. -/
def Slugged (lots : List ParsedLot) : Prop :=
  ∀ lot ∈ lots, ∀ uat ∈ lot.uat, uat.uatSlug = slugify letters uat.statement

variable {letters}

theorem slugged_readPlan {r : Reading} (h : Slugged letters r.allLots) (line : JsString) :
    Slugged letters (readPlan letters r line).allLots := by
  unfold readPlan
  split
  · split
    · intro lot hlot uat huat
      rcases List.mem_append.mp hlot with hlot | hlot
      · exact h lot hlot uat huat
      · obtain rfl := List.mem_singleton.mp hlot
        simp at huat
    · exact h
  · split
    · rename_i nested last hnested hcurrent
      split
      · intro lot hlot uat huat
        rcases List.mem_append.mp hlot with hlot | hlot
        · exact h lot (List.mem_append_left _ hlot) uat huat
        · obtain rfl := List.mem_singleton.mp hlot
          rcases List.mem_append.mp huat with huat | huat
          · have hlast : last ∈ r.allLots := List.mem_append_right _ (by simp [hcurrent])
            exact h last hlast uat huat
          · obtain rfl := List.mem_singleton.mp huat
            rfl
      · exact h
    · exact h

theorem slugged_readLine {r : Reading} (h : Slugged letters r.allLots) (line : JsString) :
    Slugged letters (readLine letters r line).allLots := by
  unfold readLine
  split
  · exact h
  · split
    · have hclosed : Slugged letters (r.allLots ++ []) := by rwa [List.append_nil]
      exact hclosed
    · split
      · exact h
      · exact h
      · exact slugged_readPlan h line
      · exact h
      · exact h

theorem slugged_parseBranch (content : JsString) (fileSlug : Option JsString) :
    Slugged letters (parseBranch letters content fileSlug).lots := by
  have hlines : ∀ (lines : List JsString) (r : Reading), Slugged letters r.allLots →
      Slugged letters (lines.foldl (readLine letters) r).allLots := by
    intro lines
    induction lines with
    | nil => exact fun _ h => h
    | cons line lines ih => exact fun r h => ih _ (slugged_readLine h line)
  exact hlines _ _ fun lot hlot => by simp [Reading.initial, Reading.allLots] at hlot

end H2a.Track.Branch

namespace H2a.Track.Facade

open H2a.Library H2a.Track.Branch

/-- The options of `importBranch`. -/
structure ImportOpts where
  locator : JsString
  fileSlug : Option JsString
  commit : Option JsString

/-- What of `importBranch` only marks where a branch came from: the hash of its text and
`branchSignature`. -/
structure ImportHashes where
  computeHash : JsString → JsString
  branchSignature : JsString → JsString → JsString

/-- What `importBranch` makes of the text of a file. -/
def branchImportOf (letters : Letters) (hashes : ImportHashes) (content : JsString)
    (opts : ImportOpts) : BranchImport :=
  let parsed := parseBranch letters content opts.fileSlug
  { parsed
    locator := opts.locator
    commit := opts.commit
    sourceHash := hashes.computeHash content
    structureHash := hashes.branchSignature content parsed.branchSlug
    slugify := slugify letters }

end H2a.Track.Facade
