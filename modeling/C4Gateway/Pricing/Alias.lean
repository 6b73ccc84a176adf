import C4Gateway.Lib.Best
import C4Gateway.Lib.Text
import Mathlib.Data.Char
import Mathlib.Data.List.Lex

/-! The lookup of a requested model among the keys of a price table.  An exact key wins; otherwise
the keys are ranked by how they are spelled.  A name is here the list of its bytes, each as a
character, and an index into a name is a byte index as in the source. -/

namespace C4Gateway.Pricing

open Text

/-- The functions of package `strings` that go by Unicode tables. -/
structure Strings where
  trimSpace : List Char → List Char
  toLower : List Char → List Char
  equalFold : List Char → List Char → Bool
  trimSpace_trimSpace : ∀ s, trimSpace (trimSpace s) = trimSpace s

/-- What they do on ASCII names. -/
def Strings.ascii : Strings where
  trimSpace := Text.trimSpace
  toLower s := s.map Char.toLower
  equalFold s t := s.map Char.toLower = t.map Char.toLower
  trimSpace_trimSpace := Text.trimSpace_trimSpace

def isDigit (c : Char) : Bool := '0' ≤ c && c ≤ '9'

def allDigits (value : List Char) : Bool := value.all isDigit && value ≠ []

def atoiFixed (value : List Char) : Nat :=
  value.foldl (fun result c => result * 10 + (c.toNat - '0'.toNat)) 0

def monthDays (year month : Nat) : Nat :=
  if month = 2 ∧ (year % 400 = 0 ∨ (year % 4 = 0 ∧ year % 100 ≠ 0)) then 29
  else [0, 31, 28, 31, 30, 31, 30, 31, 31, 30, 31, 30, 31].getD month 0

def validCalendarDate (year month day : List Char) : Bool :=
  if year.length ≠ 4 ∨ month.length ≠ 2 ∨ day.length ≠ 2 ∨ !allDigits year ∨ !allDigits month ∨
      !allDigits day then false
  else
    let y := atoiFixed year
    let m := atoiFixed month
    let d := atoiFixed day
    if y < 1900 ∨ m < 1 ∨ m > 12 ∨ d < 1 ∨ d > 31 then false else d ≤ monthDays y m

def validMonthDay (month day : List Char) : Bool := validCalendarDate ['2', '0', '2', '4'] month day

def dateSeparators : List Char := ['-', '_', '.']

/-- The dashed date of `splitTrailingDate` with five parts: base, year, month and day. -/
def splitDashedDate (model : List Char) : Option (List Char × List Char × List Char × List Char) :=
  dateSeparators.findSome? fun sep => do
    let (beforeDay, day) ← cutLast [sep] model
    if day = [] then none
    else
      let (beforeMonth, month) ← cutLast [sep] beforeDay
      let (base, year) ← cutLast [sep] beforeMonth
      if base ≠ [] then some (base, year, month, day) else none

/-- The month and day of `splitTrailingDate` with four parts. -/
def splitMonthDay (model : List Char) : Option (List Char × List Char × List Char) :=
  dateSeparators.findSome? fun sep => do
    let (before, after) ← cutLast [sep] model
    if after = [] then none
    else if after.length = 4 ∧ allDigits after then some (before, after.take 2, after.drop 2)
    else
      let (base, month) ← cutLast [sep] before
      if base ≠ [] then some (base, month, after) else none

/-- The compact date of `splitTrailingDate` with three parts. -/
def splitCompactDate (model : List Char) : Option (List Char × List Char) :=
  dateSeparators.findSome? fun sep => do
    let (base, raw) ← cutLast [sep] model
    if base ≠ [] ∧ (raw.length = 8 ∨ raw.length = 6) then some (base, raw) else none

def validCompactDate (raw : List Char) : Bool :=
  if raw.length = 8 then validCalendarDate (raw.take 4) ((raw.drop 4).take 2) (raw.drop 6)
  else raw.length = 6 && ['2', '0'] ≤ raw.take 2 && raw.take 2 ≤ ['3', '9'] &&
    validCalendarDate (['2', '0'] ++ raw.take 2) ((raw.drop 2).take 2) (raw.drop 4)

section
variable (S : Strings)

def previewMarkers : List (List Char) :=
  ["-preview-".toList, "_preview_".toList, ".preview.".toList, "-exp-".toList, "_exp_".toList,
    ".exp.".toList]

def splitTrailingPreviewDate (model : List Char) : Option (List Char × List Char × List Char) :=
  previewMarkers.findSome? fun marker => do
    let (before, _) ← cutLast marker (S.toLower model)
    let rest := model.drop (before.length + marker.length)
    dateSeparators.findSome? fun sep =>
      match rest.splitOn sep with
      | [month, day] =>
        if month.length = 2 ∧ day.length = 2 then
          some (model.take (before.length + marker.length - 1), month, day)
        else none
      | _ => none

/-- The name without the first of the suffixes that it ends in, in either case. -/
def stripSuffix (suffixes : List (List Char)) (model : List Char) : List Char × Bool :=
  match suffixes.find? fun suffix =>
      suffix.isSuffixOf (S.toLower model) && suffix.length < model.length with
  | some suffix => (model.take (model.length - suffix.length), true)
  | none => (model, false)

def servingSuffixes : List (List Char) :=
  ["-high".toList, "-low".toList, "-medium".toList, "-tiered".toList, "-thinking".toList,
    "-nothinking".toList]

def stripServingVariant (model : List Char) : List Char × Bool :=
  stripSuffix S servingSuffixes (S.trimSpace model)

def releaseSuffixes : List (List Char) :=
  ["-latest".toList, "_latest".toList, ".latest".toList, "-stable".toList, "_stable".toList,
    ".stable".toList]

/-- The release token that a name ends in is cut off; the flag says whether there is one. -/
def stripModelSnapshot (model : List Char) : List Char × Bool :=
  let model := S.trimSpace model
  let dashed := (splitDashedDate model).filter fun p => validCalendarDate p.2.1 p.2.2.1 p.2.2.2
  let compact := (splitCompactDate model).filter fun p => validCompactDate p.2
  let monthDay := (splitMonthDay model).filter fun p => validMonthDay p.2.1 p.2.2
  let preview := (splitTrailingPreviewDate S model).filter fun p => validMonthDay p.2.1 p.2.2
  match (dashed.map Prod.fst).or ((compact.map Prod.fst).or
      ((monthDay.map Prod.fst).or (preview.map Prod.fst))) with
  | some base => (base, true)
  | none => stripSuffix S releaseSuffixes model

def modelBasename (model : List Char) : List Char :=
  let model := S.trimSpace model
  match cutLast ['/'] model with
  | some (_, after) => if after ≠ [] then after else model
  | none => model

def modelNamespace (model : List Char) : List Char :=
  match cutLast ['/'] (S.trimSpace model) with
  | some (before, _) => before
  | none => []

/-- The separators of a name as dashes, without repeated ones. -/
def dashed : Bool → List Char → List Char
  | _, [] => []
  | lastDash, c :: s =>
    let r := if c = '_' ∨ c = '.' then '-' else c
    if r = '-' then if lastDash then dashed true s else '-' :: dashed true s
    else r :: dashed false s

def modelMatchKey (model : List Char) : List Char :=
  let key := dashed false (S.toLower (S.trimSpace model))
  ((key.dropWhile (· = '-')).reverse.dropWhile (· = '-')).reverse

def isShortModelToken (value : List Char) : Bool :=
  match value with
  | [] => false
  | c :: digits => 2 ≤ value.length && value.length ≤ 4 && 'a' ≤ c && c ≤ 'z' && digits.all isDigit

def shortModelAliasMatches (model requested : List Char) : Bool :=
  let requested := S.toLower (S.trimSpace requested)
  isShortModelToken requested &&
    requested ∈ ((S.toLower (S.trimSpace model)).splitOnP fun r =>
      r = '-' || r = '_' || r = '.').filter (· ≠ [])

end

/-- A dash or underscore between two numbers of at most two digits becomes a dot.  Each round
consumes a character, so the length of the name is fuel enough. -/
def numericParts : Nat → List Char → List Char
  | 0, _ => []
  | _, [] => []
  | fuel + 1, c :: s =>
    if !isDigit c then c :: numericParts fuel s
    else
      let left := (c :: s).takeWhile isDigit
      let after := (c :: s).dropWhile isDigit
      match after with
      | sep :: t =>
        let right := t.takeWhile isDigit
        if (sep = '-' ∨ sep = '_') ∧ left.length ≤ 2 ∧ right ≠ [] ∧ right.length ≤ 2 then
          left ++ '.' :: right ++ numericParts fuel (t.dropWhile isDigit)
        else left ++ numericParts fuel after
      | [] => left

def numericModelAlias (model : List Char) : List Char := numericParts model.length model

section
variable (S : Strings)

/-- What the ranking reads of the requested name. -/
structure Requested where
  name : List Char
  base : List Char
  snapshot : List Char
  snapshotBase : List Char
  hasSnapshot : Bool
  qualified : Bool

def Requested.of (requested : List Char) : Requested :=
  let snapshot := stripModelSnapshot S requested
  ⟨requested, modelBasename S requested, snapshot.1, modelBasename S snapshot.1, snapshot.2,
    '/' ∈ requested⟩

/-- How well a key stands for the requested name; zero is not at all. -/
def modelAliasRank (key : List Char) (r : Requested) : Nat :=
  let keyBase := modelBasename S key
  let keySnapshot := (stripModelSnapshot S key).1
  let keyHasSnapshot := (stripModelSnapshot S key).2
  let keySnapshotBase := modelBasename S keySnapshot
  let keyQualified : Bool := '/' ∈ key
  let keyNumericBase := numericModelAlias keyBase
  let requestedNumericBase := numericModelAlias r.base
  let keyNumericSnapshotBase := numericModelAlias keySnapshotBase
  let requestedNumericSnapshotBase := numericModelAlias r.snapshotBase
  let requestedVariantBase := (stripServingVariant S r.base).1
  let requestedHasVariant := (stripServingVariant S r.base).2
  -- A key of a provider, for a request that names none.
  let provider := !r.qualified && keyQualified
  let root := !r.qualified && !keyQualified
  let variantRank := if provider then 54 else 74
  if r.qualified ∧ keyQualified ∧ modelNamespace S key ≠ modelNamespace S r.name then 0
  else if key = r.name then 100
  else if root ∧ r.hasSnapshot ∧ key = r.snapshot then 90
  else if keyBase = r.base then if provider then 55 else 80
  else if S.equalFold (modelMatchKey S keyBase) (modelMatchKey S r.base) then
    if provider then 55 else 79
  else if S.equalFold keyNumericBase requestedNumericBase then if provider then 55 else 79
  else if keyHasSnapshot ∧ !r.hasSnapshot ∧ keySnapshotBase = r.base then
    if provider then 54 else 78
  else if keyNumericBase = requestedNumericBase ∧ keyNumericBase ≠ keyBase then
    if provider then 54 else 79
  else if requestedHasVariant ∧ keyBase = requestedVariantBase then variantRank
  else if requestedHasVariant ∧
      S.equalFold (modelMatchKey S keyBase) (modelMatchKey S requestedVariantBase) then
    variantRank - 1
  else if requestedHasVariant ∧
      numericModelAlias keyBase = numericModelAlias requestedVariantBase then variantRank - 2
  else if keyHasSnapshot ∧ !r.hasSnapshot ∧ keyNumericSnapshotBase = requestedNumericBase then
    if provider then 53 else 77
  else if provider ∧ S.equalFold keyBase r.base then 55
  else if r.hasSnapshot ∧ keyHasSnapshot ∧ keySnapshot = r.snapshot then if root then 75 else 70
  else if r.hasSnapshot ∧ keyHasSnapshot ∧ keySnapshotBase = r.snapshotBase then
    if root then 65 else 60
  else if r.hasSnapshot ∧ keyHasSnapshot ∧ keyNumericSnapshotBase = requestedNumericSnapshotBase ∧
      keySnapshotBase ≠ r.snapshotBase then
    if root then 64 else 59
  else if r.hasSnapshot ∧ provider ∧ keyHasSnapshot ∧
      S.equalFold keySnapshotBase r.snapshotBase then 55
  else if !r.qualified ∧ shortModelAliasMatches S keyBase r.base then
    if keyQualified then 35 else 40
  else if r.qualified ∧ keySnapshotBase = r.snapshotBase then 50
  else 0

def modelLookupCandidates (keys : List (List Char)) (requested : List Char) : List (List Char) :=
  let requested := S.trimSpace requested
  if requested = [] then []
  else if requested ∈ keys then [requested]
  else Best.collect (fun key => modelAliasRank S key (.of S requested))
    ((keys.map S.trimSpace).filter (· ≠ []))

def modelLookupKeyCoalesced (keys : List (List Char)) (requested : List Char)
    (equivalent : List Char → List Char → Bool) : Option (List Char) :=
  match modelLookupCandidates S keys requested with
  | [] => none
  | first :: rest => if rest.all (equivalent first) then some first else none

end
end C4Gateway.Pricing
