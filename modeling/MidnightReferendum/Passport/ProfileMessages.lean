import MidnightReferendum.Js.Numbers
import MidnightReferendum.Passport.SessionAdapter

/-!
# Messages of the profile bridge

The readers of `passport.ts`. The data of a window message is any value; a message of Passport is a record with the
protocol's name.
-/

namespace MidnightReferendum.ProfileBridge

open Js SessionAdapter

def passportProfileProtocol : JsString := js "org.midnight.passport.profile/v1"

def passportProfileFields : List JsString := [js "displayName", js "passportContract", js "midnightAddresses"]

inductive BridgeNetwork where
  | preview
  | devnet
  | stagenet
  deriving DecidableEq

def BridgeNetwork.text : BridgeNetwork → JsString
  | .preview => js "preview"
  | .devnet => js "devnet"
  | .stagenet => js "stagenet"

structure HandshakePair where
  requestId : JsString
  nonce : JsString
  network : Option BridgeNetwork
  deriving DecidableEq

structure PassportContract where
  address : JsString
  network : JsString

structure MidnightAddresses where
  unshielded : JsString
  shielded : Option JsString
  dust : Option JsString

structure PassportProfile where
  displayName : Option JsString
  passportContract : Option PassportContract
  midnightAddresses : Option MidnightAddresses

/-- `ProfileResponse`. The error is any value whose text is the name of an error. -/
structure ProfileResponse where
  requestId : JsString
  nonce : JsString
  approved : Bool
  network : Option BridgeNetwork
  profile : Option PassportProfile
  error : Option Json

/-- A string that `boundedString` accepts. -/
def boundedString (max : ℕ) (value : Json) : Option JsString :=
  value.string?.filter fun s ↦ !s.isEmpty && s.length ≤ max && s.all fun u ↦ !(u < 0x20 || u == 0x7F)

/-- A value that `isBridgeNetwork` accepts. -/
def bridgeNetwork? (value : Json) : Option BridgeNetwork :=
  value.string?.bind fun s ↦
    if s = js "preview" then some .preview
    else if s = js "devnet" then some .devnet
    else if s = js "stagenet" then some .stagenet
    else none

/-- A field that may be `undefined`. -/
def optional {α : Type} (fields : List (JsString × Json)) (name : JsString) (read : Json → Option α) :
    Option (Option α) :=
  match field? fields name with
  | none => some none
  | some value => (read value).map some

def protocolMessage (value : Json) (type : JsString) : Bool :=
  (value.record?.bind fun fields ↦ do
    let protocol ← (← field? fields (js "protocol")).string?
    let actual ← (← field? fields (js "type")).string?
    some (protocol == passportProfileProtocol && actual == type)).getD false

def isField (value : JsString) : Bool := passportProfileFields.contains value

/-- The pair of a message that `isReady` accepts. -/
def isReady (value : Json) : Option HandshakePair := do
  let fields ← value.record?
  guard (protocolMessage value (js "passport.profile.ready"))
  let requestId ← (field? fields (js "requestId")).bind (boundedString 256)
  let nonce ← (field? fields (js "nonce")).bind (boundedString 256)
  let network ← optional fields (js "network") bridgeNetwork?
  some ⟨requestId, nonce, network⟩

def parseContract (value : Json) : Option PassportContract := do
  let fields ← value.record?
  let address ← (field? fields (js "address")).bind (boundedString 512)
  let network ← (field? fields (js "network")).bind (boundedString 256)
  some ⟨address, network⟩

def parseAddresses (value : Json) : Option MidnightAddresses := do
  let fields ← value.record?
  let unshielded ← (field? fields (js "unshielded")).bind (boundedString 512)
  let shielded ← optional fields (js "shielded") (boundedString 512)
  let dust ← optional fields (js "dust") (boundedString 512)
  some ⟨unshielded, shielded, dust⟩

def parseProfile (value : Json) : Option PassportProfile := do
  let fields ← value.record?
  let displayName ← optional fields (js "displayName") (boundedString 256)
  let passportContract ← optional fields (js "passportContract") parseContract
  let midnightAddresses ← optional fields (js "midnightAddresses") parseAddresses
  some ⟨displayName, passportContract, midnightAddresses⟩

mutual

/-- `String(value)`, which throws for an object that has a `toString` of its own. -/
def stringOf : Json → Option JsString
  | .null => some (js "null")
  | .bool value => some (if value then js "true" else js "false")
  | .number (.finite value) => some (numberText value)
  | .number (.infinite negative) => some (if negative then js "-Infinity" else js "Infinity")
  | .string value => some value
  | .array items => (stringsOf items).map (js ",").intercalate
  | .object fields => if (field? fields (js "toString")).isSome then none else some (js "[object Object]")

/-- The texts that `join` puts together. -/
def stringsOf : List Json → Option (List JsString)
  | [] => some []
  | .null :: items => (stringsOf items).map ([] :: ·)
  | item :: items => do some ((← stringOf item) :: (← stringsOf items))

end

def profileErrors : List JsString := [js "denied", js "profile_unavailable", js "invalid_request"]

/-- `parseResponse`, which fails where `String` throws. -/
def parseResponse (value : Json) : Except Unit (Option ProfileResponse) :=
  let head : Option (List (JsString × Json) × ProfileResponse) := do
    let fields ← value.record?
    guard (protocolMessage value (js "passport.profile.response"))
    let requestId ← (field? fields (js "requestId")).bind (boundedString 256)
    let nonce ← (field? fields (js "nonce")).bind (boundedString 256)
    let approved ← match field? fields (js "approved") with
      | some (.bool approved) => some approved
      | _ => none
    let network ← optional fields (js "network") bridgeNetwork?
    some (fields, ⟨requestId, nonce, approved, network, none, field? fields (js "error")⟩)
  match head with
  | none => .ok none
  | some (fields, response) =>
    if response.approved then
      if response.error.isSome then .ok none
      else
        .ok (((field? fields (js "profile")).bind parseProfile).map fun profile ↦
          { response with profile := some profile })
    else
      match response.error with
      | none => .ok none
      | some error =>
        match stringOf error with
        | none => .error ()
        | some text =>
          if !profileErrors.contains text || (field? fields (js "profile")).isSome then .ok none
          else .ok (some response)

end MidnightReferendum.ProfileBridge
