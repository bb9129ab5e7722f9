import MidnightReferendum.Passport.ProfileMessages
import MidnightReferendum.Systems.Execution

/-!
# The profile bridge

`PassportIdentityBridge` of `passport.ts` in one window. Calls of `connect` listen to the messages of the window until
they are settled. When Passport is the parent window, one watcher keeps the pair of its first `ready` message for all
of them; otherwise each call draws a pair and opens a window with it.

The network and the requested fields of a call are inputs, and so are the messages of all windows, the time-outs and
what `open` returns.
-/

namespace MidnightReferendum.ProfileBridge

open Js SessionAdapter

inductive ErrorCode where
  | unavailable
  | timeout
  | denied
  | closed
  | invalidResponse
  | invalidConfiguration
  | invalidRelyingPartyOrigin
  | wrongNetwork
  deriving DecidableEq

structure PassportBridgeError where
  message : JsString
  code : ErrorCode

/-- What the bridge reads of its window. The parent is another window, if there is one, and a referrer is given by its
origin. -/
structure SourceWindow where
  protocol : JsString
  hostname : JsString
  parent : Option ℕ
  ancestorOrigins : List JsString
  referrerOrigin : Option JsString

structure Bridge where
  origin : JsString
  configuredNetwork : Option BridgeNetwork
  sourceWindow : SourceWindow

/-- `PassportBridgeSession` -/
structure PassportBridgeSession where
  requestId : JsString
  nonce : JsString
  origin : JsString
  network : BridgeNetwork
  displayName : Option JsString
  passportContract : Option PassportContract
  midnightAddresses : Option MidnightAddresses

/-- A message event, with the index of the post to which it was sent in answer. -/
structure Message where
  origin : JsString
  source : Option ℕ
  data : Json
  answers : Option ℕ

/-! ## Errors -/

def getPassportOriginError (w : SourceWindow) : Option JsString :=
  if w.protocol = js "https:" ∨ w.hostname = js "localhost" ∧ w.protocol = js "http:" then none
  else if w.hostname = js "127.0.0.1" ∨ w.hostname = js "::1" then
    some (js "Passport requiere localhost o HTTPS. Abrí http://localhost:4173 en lugar de 127.0.0.1.")
  else some (js "Passport requiere una conexión HTTPS para crear o usar tu passkey.")

def isPassportEmbedded (w : SourceWindow) (origin : JsString) : Bool :=
  w.parent.isSome && (w.ancestorOrigins.contains origin || w.referrerOrigin == some origin)

def wrongNetwork (subject actual : JsString) (expected : BridgeNetwork) : PassportBridgeError :=
  ⟨subject ++ actual ++ js ", not " ++ expected.text, .wrongNetwork⟩

def respondedFor (actual expected : BridgeNetwork) : PassportBridgeError :=
  ⟨js "Passport responded for " ++ actual.text ++ js ", not " ++ expected.text ++ js ".", .wrongNetwork⟩

def malformedReady : PassportBridgeError := ⟨js "Passport returned a malformed ready message.", .invalidResponse⟩

def malformedResponse : PassportBridgeError :=
  ⟨js "Passport returned a malformed profile response.", .invalidResponse⟩

/-- The error is one of the names, not a value with such a text. -/
def passportDenialMessage (error : Option Json) : JsString :=
  match error.bind Json.string? with
  | none => js "Passport no aprobó el pedido de perfil."
  | some name =>
    if name = js "denied" then js "No aprobaste el pedido de perfil en Passport."
    else if name = js "profile_unavailable" then
      js "Passport todavía no tiene un perfil para compartir. Completá el onboarding y probá otra vez."
    else if name = js "invalid_request" then
      js "Passport ya tiene un pedido abierto para esta app. Resolvelo en Passport antes de reintentar."
    else js "Passport no aprobó el pedido de perfil."

def openFailed : PassportBridgeError :=
  ⟨js "No se pudo abrir Passport. Permití las ventanas emergentes y probá otra vez.", .unavailable⟩

def popupBlocked : PassportBridgeError :=
  ⟨js "El navegador bloqueó la ventana de Passport. Permití las ventanas emergentes y probá otra vez.", .unavailable⟩

def popupClosed : PassportBridgeError :=
  ⟨js "La ventana de Passport se cerró antes de aprobar el perfil.", .closed⟩

def embeddedTimeout : PassportBridgeError :=
  ⟨js "Passport no respondió a tiempo. Volvé a intentarlo desde la app de Passport.", .timeout⟩

def standaloneTimeout : PassportBridgeError :=
  ⟨js "Passport no respondió a tiempo. Volvé a abrir Passport e intentá de nuevo.", .timeout⟩

/-! ## Calls -/

/-- A call that is not settled. -/
inductive Frame where
  | embedded (fields : List JsString) (network : BridgeNetwork) (pair : Option HandshakePair)
  /-- `open` has not returned; the `ready` message that came last is held with its source -/
  | opening (fields : List JsString) (network : BridgeNetwork) (pair : HandshakePair)
    (earlyReady : Option (Option ℕ × HandshakePair))
  | opened (fields : List JsString) (network : BridgeNetwork) (pair : HandshakePair) (popup : ℕ)

inductive Post where
  | hello (window : Option ℕ)
  | request (c : ℕ) (window : Option ℕ) (pair : HandshakePair) (network : BridgeNetwork) (fields : List JsString)
  deriving DecidableEq

inductive Reaction where
  | keep (frame : Frame) (posts : List Post)
  | reject (error : PassportBridgeError)
  | resolve (session : PassportBridgeSession) (message : Message)

/-- What a call has answered. A session is kept with the message, its number, and the post that it answers. -/
inductive Outcome where
  | resolved (session : PassportBridgeSession) (number : ℕ) (message : Message) (answered : Option Post)
  | rejected (error : PassportBridgeError)

namespace Bridge

variable (b : Bridge)

def embedded : Bool := isPassportEmbedded b.sourceWindow b.origin

/-- The network that `connect` expects. -/
def expectedNetwork (network : Option PassportNetwork) : Option BridgeNetwork :=
  match network with
  | none => some (b.configuredNetwork.getD .preview)
  | some .preview => some .preview
  | some .devnet => some .devnet
  | some .stagenet => some .stagenet
  | some .mainnet => none

/-- `connect` before the two kinds of connection part, with the requested fields and the expected network. -/
def checkConnect (fields : Option (List JsString)) (network : Option PassportNetwork) :
    Except PassportBridgeError (List JsString × BridgeNetwork) :=
  match getPassportOriginError b.sourceWindow with
  | some message => .error ⟨message, .invalidRelyingPartyOrigin⟩
  | none =>
    let requestedFields := (fields.map fun fields ↦ fields.eraseDups.filter isField).getD [js "displayName"]
    if requestedFields = [] then .error ⟨js "Passport profile requires at least one field", .invalidConfiguration⟩
    else
      match b.expectedNetwork network with
      | none =>
        .error ⟨js "Passport profile consent is restricted to Stagenet, Preview or local devnet", .wrongNetwork⟩
      | some expected =>
        match b.configuredNetwork with
        | none => .ok (requestedFields, expected)
        | some configured =>
          if configured ≠ expected then .error (wrongNetwork (js "Passport is configured for ") configured.text expected)
          else .ok (requestedFields, expected)

/-- `session` after the network of the response has been checked -/
def session (pair : HandshakePair) (response : ProfileResponse) (expected : BridgeNetwork) :
    Except PassportBridgeError PassportBridgeSession :=
  let contract := response.profile.bind (·.passportContract)
  if contract.any fun contract ↦ contract.network ≠ expected.text then
    .error (wrongNetwork (js "Passport profile belongs to ") ((contract.map (·.network)).getD []) expected)
  else
    .ok
      { requestId := pair.requestId
        nonce := pair.nonce
        origin := b.origin
        network := expected
        displayName := response.profile.bind (·.displayName)
        passportContract := contract
        midnightAddresses := response.profile.bind (·.midnightAddresses) }

/-- A call hears a message that is not a `ready` message. -/
def hearResponse (frame : Frame) (pair : Option HandshakePair) (expected : BridgeNetwork) (m : Message) : Reaction :=
  match parseResponse m.data with
  | .error () => .keep frame []
  | .ok none =>
    if protocolMessage m.data (js "passport.profile.response") then .reject malformedResponse else .keep frame []
  | .ok (some response) =>
    match pair with
    | none => .keep frame []
    | some pair =>
      if response.requestId ≠ pair.requestId ∨ response.nonce ≠ pair.nonce then .keep frame []
      else if let some actual := response.network.filter (· ≠ expected) then .reject (respondedFor actual expected)
      else if !response.approved then .reject ⟨passportDenialMessage response.error, .denied⟩
      else
        match b.session pair response expected with
        | .error error => .reject error
        | .ok session => .resolve session m

/-- `onMessage` of a call. -/
def onMessage (m : Message) (c : ℕ) (frame : Frame) : Reaction :=
  match frame with
  | .embedded _ network pair =>
    if m.origin ≠ b.origin ∨ m.source ≠ b.sourceWindow.parent then .keep frame []
    else if protocolMessage m.data (js "passport.profile.ready") then
      match isReady m.data with
      | none => .reject malformedReady
      | some ready =>
        if let some actual := ready.network.filter (· ≠ network) then .reject (respondedFor actual network)
        else .keep frame []
    else b.hearResponse frame pair network m
  | .opening fields network pair _ =>
    if m.origin ≠ b.origin then .keep frame []
    else
      match isReady m.data with
      | none => .keep frame []
      | some ready => .keep (.opening fields network pair (some (m.source, ready))) []
  | .opened fields network pair popup =>
    if m.origin ≠ b.origin ∨ m.source ≠ some popup then .keep frame []
    else if protocolMessage m.data (js "passport.profile.ready") then
      match isReady m.data with
      | none => .reject malformedReady
      | some ready =>
        if ready.requestId ≠ pair.requestId ∨ ready.nonce ≠ pair.nonce then .keep frame []
        else if let some actual := ready.network.filter (· ≠ network) then .reject (respondedFor actual network)
        else .keep frame [.request c (some popup) pair network fields]
    else b.hearResponse frame (some pair) network m

/-- The pair of the watcher is handed to a call that waits for it. -/
def settle (pair : HandshakePair) (c : ℕ) (frame : Frame) : Reaction :=
  match frame with
  | .embedded fields network none =>
    if let some actual := pair.network.filter (· ≠ network) then .reject (respondedFor actual network)
    else .keep (.embedded fields network (some pair)) [.request c b.sourceWindow.parent pair network fields]
  | frame => .keep frame []

end Bridge

/-- `open` returns. -/
def onOpen (popup : Option ℕ) (c : ℕ) (frame : Frame) : Reaction :=
  match frame with
  | .opening fields network pair earlyReady =>
    match popup with
    | none => .reject popupBlocked
    | some popup =>
      match earlyReady with
      | none => .keep (.opened fields network pair popup) []
      | some (source, ready) =>
        if source ≠ some popup ∨ ready.requestId ≠ pair.requestId ∨ ready.nonce ≠ pair.nonce then
          .keep (.opened fields network pair popup) []
        else if let some actual := ready.network.filter (· ≠ network) then .reject (respondedFor actual network)
        else .keep (.opened fields network pair popup) [.request c (some popup) pair network fields]
  | frame => .keep frame []

def onOpenFailed : Frame → Reaction
  | .opening _ _ _ _ => .reject openFailed
  | frame => .keep frame []

def onTimeout : Frame → Reaction
  | .embedded _ _ _ => .reject embeddedTimeout
  | .opened _ _ _ _ => .reject standaloneTimeout
  | frame => .keep frame []

def onClosed : Frame → Reaction
  | .opened _ _ _ _ => .reject popupClosed
  | frame => .keep frame []

/-! ## Steps -/

/-- The watcher, if it has been created, with its pair; the listeners in their order; what has been settled and
posted. -/
structure World where
  watcher : Option (Option HandshakePair)
  listeners : List (ℕ × Frame)
  settled : List (ℕ × Outcome)
  posts : List Post
  started : ℕ
  messages : ℕ

def init : World := ⟨none, [], [], [], 0, 0⟩

/-- The post to which a message was sent in answer. -/
def World.answered (w : World) (m : Message) : Option Post := m.answers.bind (w.posts[·]?)

def Reaction.frame? : Reaction → Option Frame
  | .keep frame _ => some frame
  | .reject _ | .resolve _ _ => none

def Reaction.posts : Reaction → List Post
  | .keep _ posts => posts
  | .reject _ | .resolve _ _ => []

def Reaction.outcome? (w : World) : Reaction → Option Outcome
  | .keep _ _ => none
  | .reject error => some (.rejected error)
  | .resolve session m => some (.resolved session w.messages m (w.answered m))

/-- Every listener reacts. -/
def World.each (w : World) (react : ℕ → Frame → Reaction) : World :=
  { w with
    listeners := w.listeners.filterMap fun e ↦ (react e.1 e.2).frame?.map fun frame ↦ (e.1, frame)
    settled := w.settled ++ w.listeners.filterMap fun e ↦
      ((react e.1 e.2).outcome? w).map fun outcome ↦ (e.1, outcome)
    posts := w.posts ++ w.listeners.flatMap fun e ↦ (react e.1 e.2).posts }

/-- The reaction of one listener. -/
def only (c : ℕ) (react : ℕ → Frame → Reaction) (d : ℕ) (frame : Frame) : Reaction :=
  if d = c then react d frame else .keep frame []

/-- `onMessage` of the watcher. The calls that wait for its pair go on at once. -/
def World.watch (w : World) (b : Bridge) (m : Message) : World :=
  if w.watcher = some none ∧ m.origin = b.origin ∧ m.source = b.sourceWindow.parent then
    match isReady m.data with
    | none => w
    | some pair =>
      { w with
        watcher := some (some pair)
        posts := w.posts ++ [Post.hello b.sourceWindow.parent] }.each (b.settle pair)
  else w

/-- A new call listens. -/
def World.start (w : World) (frame : Frame) : World :=
  { w with listeners := w.listeners ++ [(w.started, frame)], started := w.started + 1 }

/-- `embeddedWatcher` -/
def World.createWatcher (w : World) : World := { w with watcher := some (w.watcher.getD none) }

/-- `connectEmbedded`. A pair that the watcher has is handed to the call before any message. -/
def World.connectEmbedded (w : World) (b : Bridge) (fields : List JsString) (network : BridgeNetwork) : World :=
  let started := w.createWatcher.start (.embedded fields network none)
  match w.watcher.getD none with
  | none => started
  | some pair => started.each (only w.started (b.settle pair))

inductive Event where
  /-- `startPassportHandshakeWatch` -/
  | startWatch
  /-- `connect`, with what `connectStandalone` draws -/
  | connect (fields : Option (List JsString)) (network : Option PassportNetwork) (uuid nonce : JsString)
  | opened (c : ℕ) (popup : Option ℕ)
  | openFailed (c : ℕ)
  | message (m : Message)
  | timeout (c : ℕ)
  /-- the poll finds the window closed -/
  | closed (c : ℕ)

/-- An event for a call that is not settled. -/
def World.react (w : World) (c : ℕ) (react : ℕ → Frame → Reaction) : Except Unit World :=
  if (w.listeners.lookup c).isNone then .error () else .ok (w.each (only c react))

def step (b : Bridge) (w : World) : Event → Except Unit World
  | .startWatch => .ok (if b.embedded then w.createWatcher else w)
  | .connect fields network uuid nonce =>
    match b.checkConnect fields network with
    | .error error => .ok { w with settled := w.settled ++ [(w.started, .rejected error)], started := w.started + 1 }
    | .ok (fields, network) =>
      .ok (if b.embedded then w.connectEmbedded b fields network
        else w.start (.opening fields network ⟨uuid, nonce, some network⟩ none))
  | .opened c popup => w.react c (onOpen popup)
  | .openFailed c => w.react c fun _ ↦ onOpenFailed
  | .message m => .ok { (w.watch b m).each (b.onMessage m) with messages := w.messages + 1 }
  | .timeout c => w.react c fun _ ↦ onTimeout
  | .closed c => w.react c fun _ ↦ onClosed

end MidnightReferendum.ProfileBridge
