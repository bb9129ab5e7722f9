import MidnightReferendum.Js.Library
import MidnightReferendum.Systems.Execution
import MidnightReferendum.Systems.Tables

/-!
# The Passport session adapter

`MidnightPassportSessionAdapter` of `passport-session-port.ts`. `connect` and `requestCapability` wait for the bridge
and then write the session. Any number of calls wait at a time, and the bridge answers each of them at any later time
or never.
-/

namespace MidnightReferendum.SessionAdapter

open Js

inductive PassportCapability where
  | session
  | profile
  | scopedGrant
  | credentialEnrollment
  | privateWitness
  | transactionAuthorization
  deriving DecidableEq

def PassportCapability.text : PassportCapability → JsString
  | .session => js "session"
  | .profile => js "profile"
  | .scopedGrant => js "scoped-grant"
  | .credentialEnrollment => js "credential-enrollment"
  | .privateWitness => js "private-witness"
  | .transactionAuthorization => js "transaction-authorization"

inductive PassportNetwork where
  | preview
  | devnet
  | stagenet
  | mainnet
  deriving DecidableEq

def PassportNetwork.text : PassportNetwork → JsString
  | .preview => js "preview"
  | .devnet => js "devnet"
  | .stagenet => js "stagenet"
  | .mainnet => js "mainnet"

inductive PassportProfileBridgeField where
  | displayName
  | passportContract
  | midnightAddresses
  deriving DecidableEq

inductive PassportSessionStatus where
  | connected
  | expired
  | disconnected
  deriving DecidableEq

structure PassportSessionRequest where
  origin : JsString
  network : PassportNetwork
  requestedCapabilities : List PassportCapability

/-- `PassportSession` of the port, with the display name of its profile. -/
structure PassportSession where
  sessionId : JsString
  origin : JsString
  network : PassportNetwork
  status : PassportSessionStatus
  profile : Option JsString
  accountAddress : Option JsString
  capabilities : List PassportCapability

/-- `PassportProfileBridgeSession` -/
structure PassportProfileBridgeSession where
  requestId : JsString
  network : Option PassportNetwork
  displayName : Option JsString
  /-- `passportContract?.address` -/
  passportContract : Option JsString
  /-- `midnightAddresses?.unshielded` -/
  midnightAddresses : Option JsString

structure PassportCapabilityGrant where
  capability : PassportCapability
  scope : JsString
  grantedAt : JsString

/-- The options without the bridge and the clock. -/
structure Options where
  profileFields : List PassportProfileBridgeField := [.displayName]

inductive Failure where
  /-- `CivicCredentialError` -/
  | civic (code message : JsString)
  /-- what the bridge threw -/
  | bridge
  /-- `toISOString` of an invalid date -/
  | rangeError

def supportedCapabilities : List PassportCapability := [.session, .profile]

/-! ## Checks and sessions -/

def assertNetwork (network : PassportNetwork) : Except Failure Unit :=
  if network = .mainnet then
    .error (.civic (js "CAPABILITY_UNAVAILABLE")
      (js "CICO Passport is restricted to Stagenet, Preview or local devnet"))
  else .ok ()

def assertBridgeNetwork (actual : Option PassportNetwork) (expected : PassportNetwork) : Except Failure Unit :=
  match actual with
  | none => .ok ()
  | some actual =>
    if actual ≠ expected then
      .error (.civic (js "CONFLICT")
        (js "Passport responded for " ++ actual.text ++ js ", but this app requested " ++ expected.text))
    else .ok ()

def unsupportedCapability (capability : PassportCapability) : Failure :=
  .civic (js "CAPABILITY_UNAVAILABLE")
    (js "Midnight Passport does not currently expose " ++ capability.text ++ js " through the profile bridge")

def noProfileFields : Failure :=
  .civic (js "CAPABILITY_UNAVAILABLE") (js "Midnight Passport no tiene campos de perfil habilitados para esta sesión")

def sessionRequired : Failure :=
  .civic (js "PASSPORT_SESSION_REQUIRED") (js "Connect Midnight Passport before requesting a capability")

/-- The display name of an answer. -/
def profileName (profileRequested : Bool) (raw : PassportProfileBridgeSession) : Option JsString :=
  if profileRequested then present raw.displayName else none

namespace Options

variable (o : Options)

/-- The fields that the bridge is asked for. -/
def fields (profileRequested : Bool) : List PassportProfileBridgeField :=
  if profileRequested then o.profileFields else []

/-- The account address of an answer. -/
def accountAddress (profileRequested : Bool) (raw : PassportProfileBridgeSession) : Option JsString :=
  if profileRequested && o.profileFields.contains .midnightAddresses && truthy raw.midnightAddresses then
    raw.midnightAddresses
  else if profileRequested && o.profileFields.contains .passportContract && truthy raw.passportContract then
    raw.passportContract
  else none

/-- `connect` before the bridge is called, with the fields for which it is called. -/
def checkConnect (request : PassportSessionRequest) : Except Failure (List PassportProfileBridgeField) := do
  assertNetwork request.network
  match request.requestedCapabilities.find? fun capability ↦ !supportedCapabilities.contains capability with
  | some unsupported => .error (unsupportedCapability unsupported)
  | none =>
    let profileRequested := request.requestedCapabilities.contains .profile
    if profileRequested && o.profileFields.isEmpty then .error noProfileFields
    else .ok (o.fields profileRequested)

/-- The session of an answer to `connect`. -/
def connected (request : PassportSessionRequest) (raw : PassportProfileBridgeSession) : PassportSession :=
  let profileRequested := request.requestedCapabilities.contains .profile
  { sessionId := raw.requestId
    origin := request.origin
    network := request.network
    status := .connected
    profile := profileName profileRequested raw
    accountAddress := o.accountAddress profileRequested raw
    capabilities := request.requestedCapabilities }

/-- `requestCapability` before the bridge is called, with the session it goes on from. -/
def checkCapability (session : Option PassportSession) (capability : PassportCapability) :
    Except Failure (PassportSession × List PassportProfileBridgeField) :=
  match session with
  | none => .error sessionRequired
  | some current =>
    if current.status ≠ .connected then .error sessionRequired
    else if !supportedCapabilities.contains capability then .error (unsupportedCapability capability)
    else if capability = .profile ∧ o.profileFields = [] then .error noProfileFields
    else .ok (current, o.fields (capability = .profile))

/-- The session of an answer to `requestCapability`. -/
def escalated (current : PassportSession) (capability : PassportCapability) (raw : PassportProfileBridgeSession) :
    PassportSession :=
  { current with
    sessionId := raw.requestId
    profile := (profileName (capability = .profile) raw).or current.profile
    accountAddress := (o.accountAddress (capability = .profile) raw).or current.accountAddress
    capabilities :=
      if current.capabilities.contains capability then current.capabilities
      else current.capabilities ++ [capability] }

end Options

/-! ## Steps -/

/-- A call that waits for the bridge. The session of a call for a capability is that of an earlier `connect`. -/
inductive Frame where
  /-- `since` counts the calls of `disconnect` before it. -/
  | connecting (request : PassportSessionRequest) (since : ℕ)
  | requesting (capability : PassportCapability) (current : PassportSession) (owner : Option ℕ)

/-- What a call has answered. A session and a grant are kept with the `connect` they come from, and with the last one
that was started after the last disconnect and had resolved. -/
inductive Outcome where
  | session (session : Option PassportSession) (owner last : Option ℕ)
  | granted (grant : PassportCapabilityGrant) (owner last : Option ℕ)
  | done
  | rejected (failure : Failure)

/-- The adapter, its calls, and what has been approved. -/
structure World where
  session : Option PassportSession
  calls : ℕ → Option Frame
  /-- the fields and the network that a call has asked the bridge for -/
  asked : ℕ → Option (List PassportProfileBridgeField × PassportNetwork)
  outcomes : ℕ → Option Outcome
  disconnects : ℕ
  /-- the `connect` that the session comes from -/
  owner : Option ℕ
  /-- the last `connect` that was started after the last disconnect and has resolved -/
  last : Option ℕ
  /-- what has been approved for the session of a `connect` -/
  approved : ℕ → List PassportCapability

def init : World where
  session := none
  calls _ := none
  asked _ := none
  outcomes _ := none
  disconnects := 0
  owner := none
  last := none
  approved _ := []

inductive Event where
  | connect (c : ℕ) (request : PassportSessionRequest)
  | getSession (c : ℕ)
  | requestCapability (c : ℕ) (capability : PassportCapability)
  | disconnect (c : ℕ)
  /-- the bridge answers a call -/
  | answer (c : ℕ) (raw : PassportProfileBridgeSession) (now : ℤ)
  /-- the bridge rejects a call -/
  | reject (c : ℕ)

namespace World

variable (w : World) (c : ℕ)

def wait (frame : Frame) (fields : List PassportProfileBridgeField) (network : PassportNetwork) : World :=
  { w with
    calls := Function.update w.calls c (some frame)
    asked := Function.update w.asked c (some (fields, network)) }

def resolve (outcome : Outcome) : World :=
  { w with
    calls := Function.update w.calls c none
    outcomes := Function.update w.outcomes c (some outcome) }

/-- Passport has approved capabilities for the session of a `connect`. -/
def approve (owner : Option ℕ) (capabilities : List PassportCapability) : World :=
  { w with
    approved := fun d ↦ if owner = some d then w.approved d ++ capabilities else w.approved d }

def setSession (session : PassportSession) (owner : Option ℕ) : World :=
  { w with session := some session, owner := owner }

end World

/-- `connect` goes on with the answer of the bridge. -/
def finishConnect (o : Options) (w : World) (c : ℕ) (request : PassportSessionRequest) (since : ℕ)
    (raw : PassportProfileBridgeSession) : World :=
  match assertBridgeNetwork raw.network request.network with
  | .error failure => w.resolve c (.rejected failure)
  | .ok () =>
    let session := o.connected request raw
    let last := if since = w.disconnects then some c else w.last
    ({ (w.approve (some c) request.requestedCapabilities).setSession session (some c) with last := last }).resolve c
      (.session (some session) (some c) last)

/-- `requestCapability` goes on with the answer of the bridge. -/
def finishCapability (o : Options) (w : World) (c : ℕ) (capability : PassportCapability) (current : PassportSession)
    (owner : Option ℕ) (raw : PassportProfileBridgeSession) (now : ℤ) : World :=
  match assertBridgeNetwork raw.network current.network with
  | .error failure => w.resolve c (.rejected failure)
  | .ok () =>
    let session := o.escalated current capability raw
    ((w.approve owner [capability]).setSession session owner).resolve c
      (match toISOString now with
        | none => .rejected .rangeError
        | some grantedAt => .granted ⟨capability, session.origin, grantedAt⟩ owner w.last)

def step (o : Options) (w : World) : Event → Except Unit World
  | .connect c request =>
    if w.calls c ≠ none ∨ w.outcomes c ≠ none then .error ()
    else
      match o.checkConnect request with
      | .error failure => .ok (w.resolve c (.rejected failure))
      | .ok fields => .ok (w.wait c (.connecting request w.disconnects) fields request.network)
  | .getSession c =>
    if w.calls c ≠ none ∨ w.outcomes c ≠ none then .error ()
    else .ok (w.resolve c (.session w.session w.owner w.last))
  | .requestCapability c capability =>
    if w.calls c ≠ none ∨ w.outcomes c ≠ none then .error ()
    else
      match o.checkCapability w.session capability with
      | .error failure => .ok (w.resolve c (.rejected failure))
      | .ok (current, fields) => .ok (w.wait c (.requesting capability current w.owner) fields current.network)
  | .disconnect c =>
    if w.calls c ≠ none ∨ w.outcomes c ≠ none then .error ()
    else
      .ok (({ w with session := none, owner := none, last := none, disconnects := w.disconnects + 1 }).resolve c .done)
  | .answer c raw now =>
    match w.calls c with
    | none => .error ()
    | some (.connecting request since) => .ok (finishConnect o w c request since raw)
    | some (.requesting capability current owner) => .ok (finishCapability o w c capability current owner raw now)
  | .reject c => (w.calls c).elim (.error ()) fun _ ↦ .ok (w.resolve c (.rejected .bridge))

end MidnightReferendum.SessionAdapter
