import MidnightReferendum.Passport.ProfileBridge

/-!
# Approvals of the profile bridge

An invariant of the runs of the bridge says what each listening call has sent and why each resolved call was resolved.
Each reaction of a call is checked once, and the run rule gives the rest.
-/

namespace MidnightReferendum.ProfileBridge

open Js SessionAdapter Execution

abbrev History := List (World × Event)

variable {b : Bridge} {h h' : History} {watcher watcher' : Option (Option HandshakePair)} {posts posts' : List Post}
  {c number : ℕ} {frame : Frame} {m : Message} {session : PassportBridgeSession} {w w' : World}

/-- Call `c` was made, with what it asks for and what it drew. -/
def Called (b : Bridge) (h : History) (c : ℕ) (fields : List JsString) (expected : BridgeNetwork)
    (uuid nonce : JsString) : Prop :=
  ∃ v asked network, (v, Event.connect asked network uuid nonce) ∈ h ∧ v.started = c ∧
    b.checkConnect asked network = .ok (fields, expected)

/-- The response that approves a request with the pair, and the session that its profile gives. -/
structure Approval (b : Bridge) (pair : HandshakePair) (expected : BridgeNetwork) (m : Message)
    (session : PassportBridgeSession) (response : ProfileResponse) (profile : PassportProfile) : Prop where
  origin : m.origin = b.origin
  wellFormed : parseResponse m.data = .ok (some response)
  approved : response.approved = true
  shared : response.profile = some profile
  requestId : response.requestId = pair.requestId
  nonce : response.nonce = pair.nonce
  network : ∀ actual ∈ response.network, actual = expected
  contract : ∀ contract ∈ profile.passportContract, contract.network = expected.text
  given : session =
    ⟨pair.requestId, pair.nonce, b.origin, expected, profile.displayName, profile.passportContract,
      profile.midnightAddresses⟩

/-- What a listening call has sent. -/
inductive Listens (b : Bridge) (h : History) (watcher : Option (Option HandshakePair)) (posts : List Post) (c : ℕ) :
    Frame → Prop where
  | waiting {fields expected uuid nonce} (hembedded : b.embedded = true) (hcall : Called b h c fields expected uuid nonce) :
    Listens b h watcher posts c (.embedded fields expected none)
  | requested {fields expected uuid nonce pair} (hembedded : b.embedded = true)
    (hcall : Called b h c fields expected uuid nonce) (hwatcher : watcher = some (some pair))
    (hposted : Post.request c b.sourceWindow.parent pair expected fields ∈ posts) :
    Listens b h watcher posts c (.embedded fields expected (some pair))
  | opening {fields expected uuid nonce earlyReady} (hembedded : b.embedded = false)
    (hcall : Called b h c fields expected uuid nonce) :
    Listens b h watcher posts c (.opening fields expected ⟨uuid, nonce, some expected⟩ earlyReady)
  | opened {fields expected uuid nonce popup u} (hembedded : b.embedded = false)
    (hcall : Called b h c fields expected uuid nonce) (hopened : (u, Event.opened c (some popup)) ∈ h) :
    Listens b h watcher posts c (.opened fields expected ⟨uuid, nonce, some expected⟩ popup)

/-- Why call `c` was resolved by a message. In an embedded window the pair is the watcher's, and the call had posted a
request with it before the message came. Otherwise the pair is what the call drew, and the message came from the window
that was opened for this call. -/
inductive Resolved (b : Bridge) (h : History) (watcher : Option (Option HandshakePair)) (c : ℕ)
    (session : PassportBridgeSession) (number : ℕ) (m : Message) : Prop where
  | embedded {fields expected uuid nonce pair response profile v} (hembedded : b.embedded = true)
    (hcall : Called b h c fields expected uuid nonce) (hwatcher : watcher = some (some pair))
    (hheard : (v, Event.message m) ∈ h) (hnumber : v.messages = number) (hsource : m.source = b.sourceWindow.parent)
    (hposted : Post.request c b.sourceWindow.parent pair expected fields ∈ v.posts)
    (happroval : Approval b pair expected m session response profile)
  | standalone {fields expected uuid nonce popup response profile u v} (hembedded : b.embedded = false)
    (hcall : Called b h c fields expected uuid nonce) (hopened : (u, Event.opened c (some popup)) ∈ h)
    (hheard : (v, Event.message m) ∈ h) (hnumber : v.messages = number) (hsource : m.source = some popup)
    (happroval : Approval b ⟨uuid, nonce, some expected⟩ expected m session response profile)

/-! ## Longer histories -/

theorem Called.mono {fields : List JsString} {expected : BridgeNetwork} {uuid nonce : JsString} (hh : h ⊆ h')
    (hcall : Called b h c fields expected uuid nonce) : Called b h' c fields expected uuid nonce := by
  obtain ⟨v, asked, network, hmem, hstarted, hcheck⟩ := hcall
  exact ⟨v, asked, network, hh hmem, hstarted, hcheck⟩

theorem Listens.mono (hh : h ⊆ h') (hwatcher : ∀ pair, watcher = some (some pair) → watcher' = some (some pair))
    (hposts : posts ⊆ posts') (hlistens : Listens b h watcher posts c frame) : Listens b h' watcher' posts' c frame := by
  cases hlistens with
  | waiting hembedded hcall => exact .waiting hembedded (hcall.mono hh)
  | requested hembedded hcall hpair hposted =>
    exact .requested hembedded (hcall.mono hh) (hwatcher _ hpair) (hposts hposted)
  | opening hembedded hcall => exact .opening hembedded (hcall.mono hh)
  | opened hembedded hcall hopened => exact .opened hembedded (hcall.mono hh) (hh hopened)

theorem Resolved.mono (hh : h ⊆ h') (hwatcher : ∀ pair, watcher = some (some pair) → watcher' = some (some pair))
    (hresolved : Resolved b h watcher c session number m) : Resolved b h' watcher' c session number m := by
  cases hresolved with
  | embedded hembedded hcall hpair hheard hnumber hsource hposted happroval =>
    exact .embedded hembedded (hcall.mono hh) (hwatcher _ hpair) (hh hheard) hnumber hsource hposted happroval
  | standalone hembedded hcall hopened hheard hnumber hsource happroval =>
    exact .standalone hembedded (hcall.mono hh) (hh hopened) (hh hheard) hnumber hsource happroval

/-! ## Messages -/

theorem isReady_of_not_protocolMessage {value : Json}
    (hready : protocolMessage value (js "passport.profile.ready") = false) : isReady value = none := by
  unfold isReady
  cases value.record? with
  | none => rfl
  | some fields => simp only [hready, Option.bind_eq_bind, Option.bind_some]; rfl

theorem watch_of_not_protocolMessage (hready : protocolMessage m.data (js "passport.profile.ready") = false) :
    w.watch b m = w := by
  unfold World.watch
  rw [isReady_of_not_protocolMessage hready]
  exact ite_self w

/-- An approved response that is well formed shares a profile. -/
theorem parseResponse_approved {value : Json} {response : ProfileResponse}
    (hparse : parseResponse value = .ok (some response)) (happroved : response.approved = true) :
    ∃ profile, response.profile = some profile := by
  unfold parseResponse at hparse
  dsimp only at hparse
  split at hparse
  · cases hparse
  · rename_i fields head _
    split at hparse
    · split at hparse
      · cases hparse
      · rw [Except.ok.injEq, Option.map_eq_some_iff] at hparse
        obtain ⟨profile, _, rfl⟩ := hparse
        exact ⟨profile, rfl⟩
    · rename_i hnot
      split at hparse
      · cases hparse
      · split at hparse
        · cases hparse
        · split at hparse
          · cases hparse
          · cases hparse
            exact absurd happroved hnot

/-! ## Reactions -/

/-- A reaction leaves a call that listens, or resolves it as it should. -/
def Allowed (b : Bridge) (h : History) (watcher : Option (Option HandshakePair)) (posts : List Post) (number c : ℕ) :
    Reaction → Prop
  | .keep frame new => Listens b h watcher (posts ++ new) c frame
  | .reject _ => True
  | .resolve session m => Resolved b h watcher c session number m

theorem allowed_reject (error : PassportBridgeError) : Allowed b h watcher posts number c (.reject error) := trivial

theorem allowed_keep (hlistens : Listens b h watcher posts c frame) (new : List Post) :
    Allowed b h watcher posts number c (.keep frame new) :=
  hlistens.mono (List.Subset.refl h) (fun _ hpair ↦ hpair) (List.subset_append_left posts new)

theorem allowed_ite {P : Prop} [Decidable P] {yes no : Reaction} (hyes : P → Allowed b h watcher posts number c yes)
    (hno : ¬P → Allowed b h watcher posts number c no) :
    Allowed b h watcher posts number c (if P then yes else no) := by
  by_cases hP : P
  · rw [if_pos hP]; exact hyes hP
  · rw [if_neg hP]; exact hno hP

/-- The check of a network that may be missing. -/
theorem allowed_network {network : Option BridgeNetwork} {expected : BridgeNetwork} {next : Reaction}
    (hnext : (∀ actual ∈ network, actual = expected) → Allowed b h watcher posts number c next) :
    Allowed b h watcher posts number c
      (if let some actual := network.filter (· ≠ expected) then .reject (respondedFor actual expected) else next) := by
  cases network with
  | none => exact hnext fun actual hactual ↦ by cases hactual
  | some actual =>
    by_cases hne : actual = expected
    · subst hne
      simpa using hnext fun other hother ↦ (Option.some.inj hother).symm
    · simp only [Option.filter_some, ne_eq, hne, not_false_eq_true, decide_true, if_true]
      exact allowed_reject _

/-- The session of a profile that names no other network. -/
theorem session_eq_ok {pair : HandshakePair} {response : ProfileResponse} {profile : PassportProfile}
    {expected : BridgeNetwork} (hprofile : response.profile = some profile)
    (hsession : b.session pair response expected = .ok session) :
    (∀ contract ∈ profile.passportContract, contract.network = expected.text) ∧
      session = ⟨pair.requestId, pair.nonce, b.origin, expected, profile.displayName, profile.passportContract,
        profile.midnightAddresses⟩ := by
  unfold Bridge.session at hsession
  simp only [hprofile, Option.bind_some] at hsession
  split at hsession
  · cases hsession
  · rename_i hnetwork
    constructor
    · intro contract hcontract
      by_contra hne
      apply hnetwork
      rw [Option.mem_def.mp hcontract, Option.any_some]
      exact decide_eq_true hne
    · exact (Except.ok.inj hsession).symm

/-- A response resolves a call only as an approval of its pair. -/
theorem allowed_hearResponse {pair : Option HandshakePair} {expected : BridgeNetwork} (horigin : m.origin = b.origin)
    (hlistens : Listens b h watcher posts c frame)
    (hresolved : ∀ p session response profile, pair = some p →
      Approval b p expected m session response profile → Resolved b h watcher c session number m) :
    Allowed b h watcher posts number c (b.hearResponse frame pair expected m) := by
  unfold Bridge.hearResponse
  split
  · exact allowed_keep hlistens []
  · exact allowed_ite (fun _ ↦ allowed_reject _) fun _ ↦ allowed_keep hlistens []
  · rename_i response hparse
    cases pair with
    | none => exact allowed_keep hlistens []
    | some pair =>
      apply allowed_ite (fun _ ↦ allowed_keep hlistens [])
      intro hpair
      apply allowed_network
      intro hnetwork
      apply allowed_ite (fun _ ↦ allowed_reject _)
      intro hrejected
      have happroved : response.approved = true := by simpa using hrejected
      obtain ⟨profile, hprofile⟩ := parseResponse_approved hparse happroved
      cases hsession : b.session pair response expected with
      | error error => exact allowed_reject error
      | ok session =>
        obtain ⟨hcontract, hgiven⟩ := session_eq_ok hprofile hsession
        have hrequestId : response.requestId = pair.requestId := by
          by_contra hne
          exact hpair (Or.inl hne)
        have hnonce : response.nonce = pair.nonce := by
          by_contra hne
          exact hpair (Or.inr hne)
        exact hresolved pair session response profile rfl
          ⟨horigin, hparse, happroved, hprofile, hrequestId, hnonce, hnetwork, hcontract, hgiven⟩

/-- A call hears a message after it has been recorded. Only a message that is not a `ready` message resolves it, and
then it has posted its request before. -/
theorem allowed_onMessage {v : World} (hheard : (v, Event.message m) ∈ h) (hnumber : v.messages = number)
    (hposts : protocolMessage m.data (js "passport.profile.ready") = false → posts ⊆ v.posts)
    (hlistens : Listens b h watcher posts c frame) :
    Allowed b h watcher posts number c (b.onMessage m c frame) := by
  have hkeep : Allowed b h watcher posts number c (.keep frame []) := allowed_keep hlistens []
  unfold Bridge.onMessage
  cases hlistens with
  | waiting hembedded hcall =>
    apply allowed_ite (fun _ ↦ hkeep)
    intro hfrom
    apply allowed_ite
    · intro _
      split
      · exact allowed_reject _
      · exact allowed_network fun _ ↦ hkeep
    · intro _
      apply allowed_hearResponse (by_contra fun hne ↦ hfrom (Or.inl hne)) (.waiting hembedded hcall)
      intro p _ _ _ hpair _
      cases hpair
  | requested hembedded hcall hwatcher hposted =>
    apply allowed_ite (fun _ ↦ hkeep)
    intro hfrom
    have hsource : m.source = b.sourceWindow.parent := by_contra fun hne ↦ hfrom (Or.inr hne)
    apply allowed_ite
    · intro _
      split
      · exact allowed_reject _
      · exact allowed_network fun _ ↦ hkeep
    · intro hready
      apply allowed_hearResponse (by_contra fun hne ↦ hfrom (Or.inl hne)) (.requested hembedded hcall hwatcher hposted)
      intro p session response profile hpair happroval
      cases hpair
      exact .embedded hembedded hcall hwatcher hheard hnumber hsource (hposts (by simpa using hready) hposted) happroval
  | opening hembedded hcall =>
    apply allowed_ite (fun _ ↦ hkeep)
    intro _
    split
    · exact hkeep
    · exact allowed_keep (.opening hembedded hcall) []
  | opened hembedded hcall hopened =>
    apply allowed_ite (fun _ ↦ hkeep)
    intro hfrom
    apply allowed_ite
    · intro _
      split
      · exact allowed_reject _
      · apply allowed_ite (fun _ ↦ hkeep)
        intro _
        exact allowed_network fun _ ↦ allowed_keep (.opened hembedded hcall hopened) _
    · intro _
      apply allowed_hearResponse (by_contra fun hne ↦ hfrom (Or.inl hne)) (.opened hembedded hcall hopened)
      intro p session response profile hpair happroval
      cases hpair
      exact .standalone hembedded hcall hopened hheard hnumber (by_contra fun hne ↦ hfrom (Or.inr hne)) happroval

/-- A waiting call posts its request with the pair of the watcher. -/
theorem allowed_settle {pair : HandshakePair} (hwatcher : watcher = some (some pair))
    (hlistens : Listens b h watcher posts c frame) : Allowed b h watcher posts number c (b.settle pair c frame) := by
  unfold Bridge.settle
  cases hlistens with
  | waiting hembedded hcall =>
    apply allowed_network
    intro _
    exact .requested hembedded hcall hwatcher (List.mem_append_right posts List.mem_cons_self)
  | requested hembedded hcall hpair hposted => exact allowed_keep (.requested hembedded hcall hpair hposted) []
  | opening hembedded hcall => exact allowed_keep (.opening hembedded hcall) []
  | opened hembedded hcall hopened => exact allowed_keep (.opened hembedded hcall hopened) []

theorem allowed_onOpen {popup : Option ℕ} {u : World} (hopened : (u, Event.opened c popup) ∈ h)
    (hlistens : Listens b h watcher posts c frame) : Allowed b h watcher posts number c (onOpen popup c frame) := by
  unfold onOpen
  cases hlistens with
  | waiting hembedded hcall => exact allowed_keep (.waiting hembedded hcall) []
  | requested hembedded hcall hwatcher hposted => exact allowed_keep (.requested hembedded hcall hwatcher hposted) []
  | opened hembedded hcall hearlier => exact allowed_keep (.opened hembedded hcall hearlier) []
  | @opening fields expected uuid nonce earlyReady hembedded hcall =>
    cases popup with
    | none => exact allowed_reject _
    | some popup =>
      have hlistens : Listens b h watcher posts c (.opened fields expected ⟨uuid, nonce, some expected⟩ popup) :=
        .opened hembedded hcall hopened
      cases earlyReady with
      | none => exact allowed_keep hlistens []
      | some early =>
        apply allowed_ite (fun _ ↦ allowed_keep hlistens [])
        intro _
        exact allowed_network fun _ ↦ allowed_keep hlistens _

theorem allowed_onOpenFailed (hlistens : Listens b h watcher posts c frame) :
    Allowed b h watcher posts number c (onOpenFailed frame) := by
  cases frame with
  | opening => exact allowed_reject _
  | embedded => exact allowed_keep hlistens []
  | opened => exact allowed_keep hlistens []

theorem allowed_onTimeout (hlistens : Listens b h watcher posts c frame) :
    Allowed b h watcher posts number c (onTimeout frame) := by
  cases frame with
  | opening => exact allowed_keep hlistens []
  | embedded => exact allowed_reject _
  | opened => exact allowed_reject _

theorem allowed_onClosed (hlistens : Listens b h watcher posts c frame) :
    Allowed b h watcher posts number c (onClosed frame) := by
  cases frame with
  | opening => exact allowed_keep hlistens []
  | embedded => exact allowed_keep hlistens []
  | opened => exact allowed_reject _

/-! ## Runs -/

/-- What every listening call has sent, and why every resolved call was resolved. -/
structure Sound (b : Bridge) (h : History) (w : World) : Prop where
  listens : ∀ c frame, (c, frame) ∈ w.listeners → Listens b h w.watcher w.posts c frame
  resolved : ∀ c session number m answered,
    (c, Outcome.resolved session number m answered) ∈ w.settled → Resolved b h w.watcher c session number m

theorem sound_init : Sound b [] init where
  listens _ _ hmem := by cases hmem
  resolved _ _ _ _ _ hmem := by cases hmem

theorem Sound.mono (hh : h ⊆ h') (hsound : Sound b h w) : Sound b h' w where
  listens c frame hmem := (hsound.listens c frame hmem).mono hh (fun _ hpair ↦ hpair) (List.Subset.refl _)
  resolved c session number m answered hmem :=
    (hsound.resolved c session number m answered hmem).mono hh fun _ hpair ↦ hpair

/-- Every listener reacts as it may. -/
theorem Sound.each {react : ℕ → Frame → Reaction} (hsound : Sound b h w)
    (hreact : ∀ c frame, (c, frame) ∈ w.listeners → Allowed b h w.watcher w.posts w.messages c (react c frame)) :
    Sound b h (w.each react) where
  listens c frame hmem := by
    obtain ⟨⟨d, old⟩, hold, hframe⟩ := List.mem_filterMap.mp hmem
    have hallowed := hreact d old hold
    cases hreaction : react d old with
    | keep next new =>
      rw [hreaction] at hframe hallowed
      cases hframe
      apply Listens.mono (List.Subset.refl h) (fun _ hpair ↦ hpair) _ hallowed
      apply List.append_subset.mpr
      constructor
      · exact List.subset_append_left _ _
      · intro post hpost
        apply List.mem_append_right
        exact List.mem_flatMap.mpr ⟨(d, old), hold, by rw [hreaction]; exact hpost⟩
    | reject error => rw [hreaction] at hframe; cases hframe
    | resolve session m => rw [hreaction] at hframe; cases hframe
  resolved c session number m answered hmem := by
    rcases List.mem_append.mp hmem with hmem | hmem
    · exact hsound.resolved c session number m answered hmem
    · obtain ⟨⟨d, old⟩, hold, houtcome⟩ := List.mem_filterMap.mp hmem
      have hallowed := hreact d old hold
      cases hreaction : react d old with
      | keep next new => rw [hreaction] at houtcome; cases houtcome
      | reject error => rw [hreaction] at houtcome; cases houtcome
      | resolve given heard =>
        rw [hreaction] at houtcome hallowed
        cases houtcome
        exact hallowed

/-- Only one listener reacts. -/
theorem Sound.each_only {react : ℕ → Frame → Reaction} (hsound : Sound b h w)
    (hreact : ∀ frame, Listens b h w.watcher w.posts c frame → Allowed b h w.watcher w.posts w.messages c (react c frame)) :
    Sound b h (w.each (only c react)) := by
  apply hsound.each
  intro d frame hmem
  have hlistens := hsound.listens d frame hmem
  apply allowed_ite
  · rintro rfl
    exact hreact frame hlistens
  · intro _
    exact allowed_keep hlistens []

theorem Sound.createWatcher (hsound : Sound b h w) : Sound b h w.createWatcher := by
  have hkept : ∀ pair, w.watcher = some (some pair) → w.createWatcher.watcher = some (some pair) := by
    intro pair hpair
    rw [World.createWatcher, hpair, Option.getD_some]
  constructor
  · intro c frame hmem
    exact (hsound.listens c frame hmem).mono (List.Subset.refl h) hkept (List.Subset.refl _)
  · intro c session number m answered hmem
    exact (hsound.resolved c session number m answered hmem).mono (List.Subset.refl h) hkept

theorem Sound.start (hsound : Sound b h w) (hlistens : Listens b h w.watcher w.posts w.started frame) :
    Sound b h (w.start frame) where
  listens d other hmem := by
    rcases List.mem_append.mp hmem with hmem | hmem
    · exact hsound.listens d other hmem
    · cases List.mem_singleton.mp hmem
      exact hlistens
  resolved := hsound.resolved

/-- The watcher takes its first pair. -/
theorem Sound.watch (hsound : Sound b h w) : Sound b h (w.watch b m) := by
  unfold World.watch
  split
  · rename_i hwaiting
    split
    · exact hsound
    · rename_i pair _
      have hkept : ∀ other, w.watcher = some (some other) → some (some pair) = some (some other) := by
        intro other hother
        rw [hwaiting.1] at hother
        cases hother
      apply Sound.each
      · constructor
        · intro c frame hmem
          exact (hsound.listens c frame hmem).mono (List.Subset.refl h) hkept (List.subset_append_left _ _)
        · intro c session number m answered hmem
          exact (hsound.resolved c session number m answered hmem).mono (List.Subset.refl h) hkept
      · intro c frame hmem
        apply allowed_settle rfl
        exact (hsound.listens c frame hmem).mono (List.Subset.refl h) hkept (List.subset_append_left _ _)
  · exact hsound

theorem Sound.connectEmbedded {fields : List JsString} {expected : BridgeNetwork} {uuid nonce : JsString}
    (hsound : Sound b h w) (hembedded : b.embedded = true) (hcall : Called b h w.started fields expected uuid nonce) :
    Sound b h (w.connectEmbedded b fields expected) := by
  have hstarted := hsound.createWatcher.start (.waiting hembedded hcall)
  unfold World.connectEmbedded
  cases hpair : w.watcher.getD none with
  | none => exact hstarted
  | some pair =>
    apply hstarted.each_only
    intro frame hlistens
    apply allowed_settle _ hlistens
    exact congrArg some hpair

theorem Sound.hear (hsound : Sound b h w) (hheard : (w, Event.message m) ∈ h) :
    Sound b h ((w.watch b m).each (b.onMessage m)) := by
  apply hsound.watch.each
  intro c frame hmem
  apply allowed_onMessage hheard
  · unfold World.watch
    split
    · split <;> rfl
    · rfl
  · intro hready
    rw [watch_of_not_protocolMessage hready]
    exact List.Subset.refl _
  · exact hsound.watch.listens c frame hmem

theorem sound_react {react : ℕ → Frame → Reaction} (hsound : Sound b h w) (hok : w.react c react = .ok w')
    (hreact : ∀ frame, Listens b h w.watcher w.posts c frame → Allowed b h w.watcher w.posts w.messages c (react c frame)) :
    Sound b h w' := by
  unfold World.react at hok
  split at hok
  · cases hok
  · cases hok
    exact hsound.each_only hreact

/-- The step lemma: one event keeps the invariant, with the event recorded. -/
theorem sound_step {event : Event} (hsound : Sound b h w) (hok : step b w event = .ok w') :
    Sound b (h ++ [(w, event)]) w' := by
  have hheard : (w, event) ∈ h ++ [(w, event)] := List.mem_append_right h List.mem_cons_self
  have hlater := hsound.mono (List.subset_append_left h [(w, event)])
  cases event with
  | startWatch =>
    cases hok
    by_cases hembedded : b.embedded = true
    · rw [if_pos hembedded]; exact hlater.createWatcher
    · rw [if_neg hembedded]; exact hlater
  | connect asked network uuid nonce =>
    simp only [step] at hok
    cases hcheck : b.checkConnect asked network with
    | error error =>
      rw [hcheck] at hok
      cases hok
      refine ⟨hlater.listens, ?_⟩
      intro c session number m answered hmem
      apply hlater.resolved c session number m answered
      simpa using hmem
    | ok checked =>
      rw [hcheck] at hok
      cases hok
      have hcall : Called b (h ++ [(w, .connect asked network uuid nonce)]) w.started checked.1 checked.2 uuid nonce :=
        ⟨w, asked, network, hheard, rfl, hcheck⟩
      cases hembedded : b.embedded with
      | true => exact hlater.connectEmbedded hembedded hcall
      | false => exact hlater.start (.opening hembedded hcall)
  | opened c popup => exact sound_react hlater hok fun _ ↦ allowed_onOpen hheard
  | openFailed c => exact sound_react hlater hok fun _ ↦ allowed_onOpenFailed
  | timeout c => exact sound_react hlater hok fun _ ↦ allowed_onTimeout
  | closed c => exact sound_react hlater hok fun _ ↦ allowed_onClosed
  | message m =>
    cases hok
    have hheard := hlater.hear hheard
    exact ⟨hheard.listens, hheard.resolved⟩

theorem sound_run (b : Bridge) (events : List Event) :
    Sound b (accepted (step b) init events) (run (step b) init events) :=
  run_history_unconditional (f := step b) (I := Sound b) (fun _ _ _ _ hsound hok ↦ sound_step hsound hok) sound_init events

/-! ## Sessions -/

/-- The calls that were made, with what they drew. -/
def drawn (h : History) : List (ℕ × JsString × JsString) :=
  h.filterMap fun e ↦
    match e.2 with
    | .connect _ _ uuid nonce => some (e.1.started, uuid, nonce)
    | _ => none

/-- No two calls draw the same pair. -/
def DistinctDraws (h : History) : Prop := ∀ x ∈ drawn h, ∀ y ∈ drawn h, x.2 = y.2 → x.1 = y.1

instance (h : History) : Decidable (DistinctDraws h) :=
  inferInstanceAs (Decidable (∀ x ∈ drawn h, ∀ y ∈ drawn h, x.2 = y.2 → x.1 = y.1))

theorem Called.mem_drawn {fields : List JsString} {expected : BridgeNetwork} {uuid nonce : JsString}
    (hcall : Called b h c fields expected uuid nonce) : (c, uuid, nonce) ∈ drawn h := by
  obtain ⟨v, asked, network, hmem, hstarted, _⟩ := hcall
  apply List.mem_filterMap.mpr
  exact ⟨_, hmem, by rw [← hstarted]⟩

/-- Two calls that one response resolves have drawn the same pair, if the window is not embedded. -/
theorem Resolved.same_call {c' number' : ℕ} {session' : PassportBridgeSession} {m' : Message}
    (hstandalone : b.embedded = false) (hdraws : DistinctDraws h) (hdata : m.data = m'.data)
    (hfirst : Resolved b h watcher c session number m) (hsecond : Resolved b h watcher' c' session' number' m') :
    c = c' := by
  cases hfirst with
  | embedded hembedded => rw [hstandalone] at hembedded; cases hembedded
  | @standalone fields expected uuid nonce _ response _ _ _ _ hcall _ _ _ _ hfirst =>
    cases hsecond with
    | embedded hembedded => rw [hstandalone] at hembedded; cases hembedded
    | @standalone fields' expected' uuid' nonce' _ response' _ _ _ _ hcall' _ _ _ _ hsecond =>
      have hresponse : response = response' := by
        have hparse := hfirst.wellFormed
        rw [hdata, hsecond.wellFormed] at hparse
        exact (Option.some.inj (Except.ok.inj hparse)).symm
      have huuid : uuid = uuid' :=
        calc
          uuid = response.requestId := hfirst.requestId.symm
          _ = response'.requestId := congrArg _ hresponse
          _ = uuid' := hsecond.requestId
      have hnonce : nonce = nonce' :=
        calc
          nonce = response.nonce := hfirst.nonce.symm
          _ = response'.nonce := congrArg _ hresponse
          _ = nonce' := hsecond.nonce
      apply hdraws _ hcall.mem_drawn _ hcall'.mem_drawn
      rw [huuid, hnonce]

/-- Every session is given for an approval of the call's own pair, and where calls draw their pairs no two of them are
resolved by one response or by copies of it. -/
theorem sessions_approved_for_own_pair (b : Bridge) (events : List Event) :
    (∀ c session number m answered,
      (c, Outcome.resolved session number m answered) ∈ (run (step b) init events).settled →
      Resolved b (accepted (step b) init events) (run (step b) init events).watcher c session number m) ∧
    (b.embedded = false → DistinctDraws (accepted (step b) init events) →
      ∀ c c' session session' number number' m m' answered answered',
        (c, Outcome.resolved session number m answered) ∈ (run (step b) init events).settled →
        (c', Outcome.resolved session' number' m' answered') ∈ (run (step b) init events).settled →
        m.data = m'.data → c = c') := by
  have hsound := sound_run b events
  constructor
  · exact hsound.resolved
  · intro hstandalone hdraws c c' session session' number number' m m' answered answered' hfirst hsecond hdata
    exact (hsound.resolved _ _ _ _ _ hfirst).same_call hstandalone hdraws hdata (hsound.resolved _ _ _ _ _ hsecond)

/-! ## Samples -/

/-- What a run has resolved: the calls, each with the number of the response and the post that it answers. -/
def World.resolutions (w : World) : List (ℕ × ℕ × Option Post) :=
  w.settled.filterMap fun e ↦
    match e.2 with
    | .resolved _ number _ answered => some (e.1, number, answered)
    | .rejected _ => none

theorem mem_resolutions {answered : Option Post} (hmem : (c, number, answered) ∈ w.resolutions) :
    ∃ session m, (c, Outcome.resolved session number m answered) ∈ w.settled := by
  obtain ⟨⟨d, outcome⟩, hsettled, hview⟩ := List.mem_filterMap.mp hmem
  cases outcome with
  | rejected error => cases hview
  | resolved session _ m _ =>
    cases hview
    exact ⟨session, m, hsettled⟩

def sampleOrigin : JsString := js "https://midnightpassport.com"

def framedBridge : Bridge := ⟨sampleOrigin, none, ⟨js "https:", js "app", some 1, [sampleOrigin], none⟩⟩

def standaloneBridge : Bridge := ⟨sampleOrigin, none, ⟨js "https:", js "app", none, [], none⟩⟩

def sampleMessage (type requestId nonce : JsString) (fields : List (JsString × Json)) : Json :=
  .object ([(js "protocol", .string passportProfileProtocol), (js "type", .string type),
    (js "requestId", .string requestId), (js "nonce", .string nonce)] ++ fields)

def sampleReady (requestId nonce : JsString) : Json := sampleMessage (js "passport.profile.ready") requestId nonce []

def sampleResponse (requestId nonce : JsString) : Json :=
  sampleMessage (js "passport.profile.response") requestId nonce
    [(js "approved", .bool true), (js "profile", .object [(js "displayName", .string (js "Ana"))])]

/-- Two calls of one window, one answer each. -/
def twoCalls : List Event :=
  [.connect none none (js "r0") (js "n0"), .opened 0 (some 7), .connect none none (js "r1") (js "n1"),
    .opened 1 (some 7), .message ⟨sampleOrigin, some 7, sampleReady (js "r0") (js "n0"), none⟩,
    .message ⟨sampleOrigin, some 7, sampleResponse (js "r0") (js "n0"), some 0⟩,
    .message ⟨sampleOrigin, some 7, sampleReady (js "r1") (js "n1"), none⟩,
    .message ⟨sampleOrigin, some 7, sampleResponse (js "r1") (js "n1"), some 1⟩]

theorem sessions_approved_for_own_pair_twoCalls :
    ∃ session session' m m' answered answered',
      (0, Outcome.resolved session 1 m answered) ∈ (run (step standaloneBridge) init twoCalls).settled ∧
      (1, Outcome.resolved session' 3 m' answered') ∈ (run (step standaloneBridge) init twoCalls).settled ∧
      Resolved standaloneBridge (accepted (step standaloneBridge) init twoCalls)
        (run (step standaloneBridge) init twoCalls).watcher 0 session 1 m ∧
      m.data ≠ m'.data := by
  have hresolutions : (run (step standaloneBridge) init twoCalls).resolutions =
      [(0, 1, some (.request 0 (some 7) ⟨js "r0", js "n0", some .preview⟩ .preview [js "displayName"])),
        (1, 3, some (.request 1 (some 7) ⟨js "r1", js "n1", some .preview⟩ .preview [js "displayName"]))] := by
    decide +kernel
  have hdraws : DistinctDraws (accepted (step standaloneBridge) init twoCalls) := by decide +kernel
  obtain ⟨session, m, hfirst⟩ := mem_resolutions (hresolutions ▸ List.mem_cons_self)
  obtain ⟨session', m', hsecond⟩ := mem_resolutions (hresolutions ▸ List.mem_cons_of_mem _ List.mem_cons_self)
  have happroved := sessions_approved_for_own_pair standaloneBridge twoCalls
  refine ⟨session, session', m, m', _, _, hfirst, hsecond, happroved.1 _ _ _ _ _ hfirst, ?_⟩
  intro hdata
  cases happroved.2 (by decide +kernel) hdraws 0 1 _ _ _ _ _ _ _ _ hfirst hsecond hdata

/-- Every session was given for an answer to a request that the same call had posted. -/
def AnswersOwnRequest (w : World) : Prop :=
  ∀ c session number m answered, (c, Outcome.resolved session number m answered) ∈ w.settled →
    ∃ window pair network fields, answered = some (.request c window pair network fields)

/-- No response resolves two calls. -/
def OneCallPerResponse (w : World) : Prop :=
  ∀ c c' session session' number m m' answered answered',
    (c, Outcome.resolved session number m answered) ∈ w.settled →
    (c', Outcome.resolved session' number m' answered') ∈ w.settled → c = c'

/-- Two calls of an embedded window for different fields, and one answer to the request of the first. -/
def sharedPair : List Event :=
  [.connect (some [js "displayName"]) none [] [], .connect (some [js "midnightAddresses"]) none [] [],
    .message ⟨sampleOrigin, some 1, sampleReady (js "r") (js "n"), none⟩,
    .message ⟨sampleOrigin, some 1, sampleResponse (js "r") (js "n"), some 1⟩]

/-- A window that answers the pair of its address before a request has been posted. -/
def unasked : List Event :=
  [.connect none none (js "r0") (js "n0"), .opened 0 (some 7),
    .message ⟨sampleOrigin, some 7, sampleResponse (js "r0") (js "n0"), none⟩]

theorem shared_pair_resolves_both :
    ¬AnswersOwnRequest (run (step framedBridge) init sharedPair) ∧
    ¬OneCallPerResponse (run (step framedBridge) init sharedPair) ∧
    ¬AnswersOwnRequest (run (step standaloneBridge) init unasked) := by
  have hshared : (run (step framedBridge) init sharedPair).resolutions =
      [(0, 1, some (.request 0 (some 1) ⟨js "r", js "n", none⟩ .preview [js "displayName"])),
        (1, 1, some (.request 0 (some 1) ⟨js "r", js "n", none⟩ .preview [js "displayName"]))] := by
    decide +kernel
  have hunasked : (run (step standaloneBridge) init unasked).resolutions = [(0, 0, none)] := by decide +kernel
  obtain ⟨session, m, hfirst⟩ := mem_resolutions (hshared ▸ List.mem_cons_self)
  obtain ⟨session', m', hsecond⟩ := mem_resolutions (hshared ▸ List.mem_cons_of_mem _ List.mem_cons_self)
  obtain ⟨session'', m'', halone⟩ := mem_resolutions (hunasked ▸ List.mem_cons_self)
  refine ⟨?_, ?_, ?_⟩
  · intro hown
    obtain ⟨_, _, _, _, hanswered⟩ := hown _ _ _ _ _ hsecond
    cases hanswered
  · intro hone
    cases hone _ _ _ _ _ _ _ _ _ hfirst hsecond
  · intro hown
    obtain ⟨_, _, _, _, hanswered⟩ := hown _ _ _ _ _ halone
    cases hanswered

end MidnightReferendum.ProfileBridge
