import MidnightReferendum.Js.Calendar
import MidnightReferendum.Js.Numbers

/-!
# The machine-readable zone of a passport

`mrz.ts`: check digits, lines, dates without a century, and the reading of the two lines of a passport. A moment is
given in milliseconds since 1970-01-01.
-/

namespace MidnightReferendum.Documents

open Js

inductive MrzSex where
  | M
  | F
  | X
  deriving DecidableEq

structure MrzRecord where
  documentCode : JsString
  issuingState : JsString
  primaryIdentifier : JsString
  secondaryIdentifier : JsString
  documentNumber : JsString
  nationality : JsString
  birthDate : JsString
  expiryDate : JsString
  sex : MrzSex
  deriving DecidableEq

inductive MrzFailure where
  | malformed
  | unsupportedFormat
  | checkDocumentNumber
  | checkBirthDate
  | checkExpiryDate
  | checkComposite
  | invalidDate
  deriving DecidableEq

/-! ## Check digits -/

/-- `'<'` -/
def filler : UInt16 := 0x3C

/-- A digit at face value, a letter from 10, the filler as 0. -/
def characterValue (u : UInt16) : Option ℕ :=
  if 0x30 ≤ u ∧ u ≤ 0x39 then some (u.toNat - 48)
  else if 0x41 ≤ u ∧ u ≤ 0x5A then some (u.toNat - 55)
  else if u = filler then some 0
  else none

/-- `WEIGHTS[index % 3]` -/
def weight (index : ℕ) : ℕ := if index % 3 = 0 then 7 else if index % 3 = 1 then 3 else 1

/-- The sum of the characters from an index on. -/
def weightedSum : ℕ → JsString → Option ℕ
  | _, [] => some 0
  | index, u :: rest => do
    let digit ← characterValue u
    let sum ← weightedSum (index + 1) rest
    some (digit * weight index + sum)

/-- `computeCheckDigit`, which is `NaN` for another character. -/
def computeCheckDigit (value : JsString) : Option ℕ := (weightedSum 0 value).map (· % 10)

def checkMatches (value expected : JsString) : Bool :=
  match computeCheckDigit value with
  | none => false
  | some digit => decimal digit == expected

/-! ## Lines -/

/-- What a unit becomes when it is brought to upper case and all but the characters of the zone is removed. Outside of
ASCII and the two quotation marks for the filler these are the characters whose upper case has letters of ASCII. -/
def normalizeUnit (u : UInt16) : JsString :=
  if (0x41 ≤ u ∧ u ≤ 0x5A) ∨ (0x30 ≤ u ∧ u ≤ 0x39) then [u]
  else if u = filler ∨ u = 0xAB ∨ u = 0x2039 then [filler]
  else if 0x61 ≤ u ∧ u ≤ 0x7A then [u - 0x20]
  else if u = 0xDF then js "SS"
  else if u = 0x131 then js "I"
  else if u = 0x149 then js "N"
  else if u = 0x17F then js "S"
  else if u = 0x1F0 then js "J"
  else if u = 0x1E96 then js "H"
  else if u = 0x1E97 then js "T"
  else if u = 0x1E98 then js "W"
  else if u = 0x1E99 then js "Y"
  else if u = 0x1E9A then js "A"
  else if u = 0xFB00 then js "FF"
  else if u = 0xFB01 then js "FI"
  else if u = 0xFB02 then js "FL"
  else if u = 0xFB03 then js "FFI"
  else if u = 0xFB04 then js "FFL"
  else if u = 0xFB05 ∨ u = 0xFB06 then js "ST"
  else []

def normalizeMrzLine (line : JsString) : JsString := line.flatMap normalizeUnit

def isLineEnd (u : UInt16) : Bool := u == 0x0D || u == 0x0A

/-- `input.split(/[\r\n]+/u)` but for empty lines -/
def splitLines : JsString → List JsString
  | [] => [[]]
  | u :: rest =>
    if isLineEnd u then [] :: splitLines rest
    else
      match splitLines rest with
      | [] => [[u]]
      | line :: lines => (u :: line) :: lines

def splitMrzLines (input : JsString) : List JsString :=
  ((splitLines input).map normalizeMrzLine).filter fun line ↦ 0 < line.length

/-! ## Dates -/

inductive DateKind where
  | birth
  | expiry
  deriving DecidableEq

/-- The year that two digits stand for. -/
def expandYear (kind : DateKind) (reference : ℤ) (yy : ℕ) : ℤ :=
  let currentYY := (utcDate reference).year.tmod 100
  let currentCentury := (utcDate reference).year - currentYY
  match kind with
  | .birth => if yy > currentYY then currentCentury - 100 + yy else currentCentury + yy
  | .expiry => if yy < currentYY - 50 then currentCentury + 100 + yy else currentCentury + yy

def expandMrzDate (yymmdd : JsString) (kind : DateKind) (reference : ℤ) : Option ℤ :=
  if yymmdd.length ≠ 6 ∨ ¬yymmdd.all isDecimalDigit then none
  else
    let yy := numeral (yymmdd.take 2)
    let month := numeral ((yymmdd.drop 2).take 2)
    let day := numeral ((yymmdd.drop 4).take 2)
    if month < 1 ∨ month > 12 ∨ day < 1 ∨ day > 31 then none
    else
      -- A day that the month does not have is one of the next month.
      (dateUTC (expandYear kind reference yy) (month - 1) day).filter fun date ↦
        (utcDate date).month = month ∧ (utcDate date).day = day

/-- Whole years between the dates of two moments. -/
def yearsBetween (start finish : ℤ) : ℤ :=
  let a := utcDate start
  let b := utcDate finish
  let years := b.year - a.year
  if b.month < a.month ∨ b.month = a.month ∧ b.day < a.day then years - 1 else years

/-! ## Passports -/

/-- `field.split('<<')` -/
def splitFillers : JsString → List JsString
  | u :: v :: rest =>
    if u = filler ∧ v = filler then [] :: splitFillers rest
    else
      match splitFillers (v :: rest) with
      | [] => [[u]]
      | part :: parts => (u :: part) :: parts
  | [u] => [[u]]
  | [] => [[]]

/-- `value.replace(/\s+/gu, ' ')` on a text whose white space are spaces -/
def collapseSpaces : JsString → JsString
  | u :: v :: rest => if u = 0x20 ∧ v = 0x20 then collapseSpaces (v :: rest) else u :: collapseSpaces (v :: rest)
  | text => text

def cleanName (value : JsString) : JsString :=
  collapseSpaces (trimmed (value.map fun u ↦ if u = filler then 0x20 else u))

/-- `readName`, with the primary and the secondary identifier -/
def readName (field : JsString) : JsString × JsString :=
  let parts := splitFillers field
  (cleanName (parts.getD 0 []), cleanName (parts.getD 1 []))

/-- `value.replace(/</gu, '')` -/
def withoutFillers (value : JsString) : JsString := value.filter (· ≠ filler)

/-- `line.slice(start, end)` -/
def slice (line : JsString) (start finish : ℕ) : JsString := (line.drop start).take (finish - start)

def td3LineLength : ℕ := 44

/-- The text over which the composite digit is computed. -/
def compositeText (line2 : JsString) : JsString :=
  slice line2 0 9 ++ slice line2 9 10 ++ slice line2 13 19 ++ slice line2 19 20 ++ slice line2 21 27 ++
    slice line2 27 28 ++ slice line2 28 42 ++ slice line2 42 43

/-- The record of two lines. -/
def td3Record (line1 line2 : JsString) : MrzRecord :=
  let issuingState := withoutFillers (slice line1 2 5)
  let nationality := withoutFillers (slice line2 10 13)
  { documentCode := withoutFillers (slice line1 0 2)
    issuingState
    primaryIdentifier := (readName (line1.drop 5)).1
    secondaryIdentifier := (readName (line1.drop 5)).2
    documentNumber := withoutFillers (slice line2 0 9)
    nationality := if nationality = [] then issuingState else nationality
    birthDate := slice line2 13 19
    expiryDate := slice line2 21 27
    sex := if slice line2 20 21 = js "M" then .M else if slice line2 20 21 = js "F" then .F else .X }

def parseTd3Lines (line1 line2 : JsString) (reference : ℤ) : Except MrzFailure MrzRecord :=
  if line1.length ≠ td3LineLength ∨ line2.length ≠ td3LineLength then .error .malformed
  else if line1.head? ≠ some 0x50 then .error .unsupportedFormat
  else if !checkMatches (slice line2 0 9) (slice line2 9 10) then .error .checkDocumentNumber
  else if !checkMatches (slice line2 13 19) (slice line2 19 20) then .error .checkBirthDate
  else if !checkMatches (slice line2 21 27) (slice line2 27 28) then .error .checkExpiryDate
  else if !checkMatches (compositeText line2) (slice line2 43 44) then .error .checkComposite
  else if (expandMrzDate (slice line2 13 19) .birth reference).isNone then .error .invalidDate
  else if (expandMrzDate (slice line2 21 27) .expiry reference).isNone then .error .invalidDate
  else .ok (td3Record line1 line2)

/-- `parseTd3` reads the last two lines. -/
def parseTd3 (input : JsString) (reference : ℤ) : Except MrzFailure MrzRecord :=
  match (splitMrzLines input).reverse with
  | line2 :: line1 :: _ => parseTd3Lines line1 line2 reference
  | _ => .error .malformed

structure MrzEligibility where
  country : JsString
  isAdult : Bool
  isExpired : Bool
  deriving DecidableEq

def toEligibility (record : MrzRecord) (reference : ℤ) (adultAge : ℤ) : Option MrzEligibility := do
  let birth ← expandMrzDate record.birthDate .birth reference
  let expiry ← expandMrzDate record.expiryDate .expiry reference
  some
    { country := record.nationality
      isAdult := adultAge ≤ yearsBetween birth reference
      isExpired := expiry < reference }

end MidnightReferendum.Documents
