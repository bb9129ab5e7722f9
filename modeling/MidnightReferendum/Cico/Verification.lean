import MidnightReferendum.Cico.Issuance

/-!
# Verification requests

What the browser asks the verificator to prove about a document, and the evidence that the gateway makes
of a proof.
-/

namespace MidnightReferendum.Cico

open Js

/-- `RarimoVerificationRequest` -/
structure RarimoVerificationRequest where
  requestId : JsString
  eventId : JsString
  eventData : JsString
  eventDataDecimal : JsString
  selector : JsString
  citizenshipMask : Option JsString
  birthDateLowerBound : JsString
  birthDateUpperBound : JsString
  identityCounterLowerBound : JsString
  identityCounterUpperBound : JsString
  expirationDateLowerBound : JsString
  expirationDateUpperBound : JsString
  timestampLowerBound : JsString
  timestampUpperBound : JsString
  deriving DecidableEq

inductive RarimoVerificationStatus where
  | notVerified
  | verified
  | failedVerification
  | uniquenessCheckFailed
  deriving DecidableEq

/-- `RarimoVerifiedEvidence` -/
structure RarimoVerifiedEvidence where
  requestId : JsString
  userIdHash : JsString
  evidenceAuthorization : JsString
  evidenceFingerprint : JsString
  eventId : JsString
  eventDataDecimal : JsString
  selector : JsString
  timestampUpperBound : JsString
  identityCounterUpperBound : JsString
  birthDateUpperBound : JsString
  expirationDateLowerBound : JsString
  citizenshipAlpha3 : JsString
  adultPredicateSatisfied : Bool
  deriving DecidableEq

/-- `RarimoCountryMapper`, between alpha-3 and numeric codes. -/
structure RarimoCountryMapper where
  fromAlpha3 : JsString → Option JsString
  toAlpha3 : JsString → Option JsString

/-- `DEFAULT_DATE_HEX`, a bound that bounds nothing. -/
def defaultDateHex : JsString := js "0x303030303030"

/-! ## Numbers in texts -/

/-- The number of a text of hexadecimal digits. -/
def hexNumber (digits : JsString) : ℕ := digits.foldl (fun n u ↦ n * 16 + (hexValue? u).getD 0) 0

/-- `/^0x[0-9a-f]+$/iu` -/
def isHexText (value : JsString) : Bool :=
  match value with
  | zero :: x :: digits =>
    zero == 0x30 && (x == 0x78 || x == 0x58) && !digits.isEmpty && digits.all fun u ↦ (hexValue? u).isSome
  | _ => false

/-- `hexToDecimal`, which throws for anything but hexadecimal digits. -/
def hexToDecimal (value : JsString) : Option JsString :=
  if isHexText value then some (decimal (hexNumber (value.drop 2))) else none

example : hexToDecimal (js "0X0A") = some (js "10") := by decide +kernel

end MidnightReferendum.Cico
