import Krill.Pubd.RepositoryContent

namespace Krill.Pubd

open Rpki

variable [Rpki]

class UriText where
  toText : Uri → String
  fromStr : String → Option Uri
  canonical : Uri → List Char

open UriText

variable [UriText]

/-- Only scheme and authority are compared without regard to case, and a URI is below the
parent that its text starts with. -/
structure UriLaws : Prop where
  canonical_fromStr : ∀ {base uri : Uri} {rest : String},
    fromStr (toText base ++ rest) = some uri → canonical uri = canonical base ++ rest.toList
  isParentOf : ∀ {base uri : Uri}, isParentOf base uri = true →
    canonical base <+: canonical uri

def isHandleChar (char : Char) : Bool :=
  char.isAlphanum || char == '-' || char == '_' || char == '/' || char == '\\'

def isHandle (name : PublisherHandle) : Bool :=
  name ≠ "" && name.length ≤ 255 && name.toList.all isHandleChar

structure Publisher where
  baseUri : Uri
  deriving DecidableEq

/-- An RFC 8183 request. The certificate in it is only checked here. -/
structure PublisherRequest where
  publisherHandle : PublisherHandle
  valid : Bool

inductive RepositoryAccessEvent where
  | publisherAdded (name : PublisherHandle) (publisher : Publisher)
  | publisherRemoved (name : PublisherHandle)

inductive RepoAccessCmd where
  | addPublisher (name : PublisherHandle) (baseUri : Uri)
  | removePublisher (name : PublisherHandle)

inductive RepositoryError where
  | rfc8183
  | custom (message : String)
  | publisherDuplicate (name : PublisherHandle)
  | publisherUnknown (name : PublisherHandle)
  | content (error : PublishError)
  deriving DecidableEq

structure RepositoryAccess where
  version : Nat
  publishers : HashMap PublisherHandle Publisher
  rsyncBase : Uri

namespace RepositoryAccess

def init (rsyncBase : Uri) : RepositoryAccess :=
  { version := 1, publishers := .empty, rsyncBase }

def apply (self : RepositoryAccess) : RepositoryAccessEvent → RepositoryAccess
  | .publisherAdded name publisher =>
    { self with
      version := self.version + 1, publishers := self.publishers.insert name publisher }
  | .publisherRemoved name =>
    { self with
      version := self.version + 1, publishers := self.publishers.remove name }

def processCommand (self : RepositoryAccess) :
    RepoAccessCmd → Except RepositoryError (List RepositoryAccessEvent)
  | .addPublisher name baseUri =>
    if self.publishers.containsKey name then .error (.publisherDuplicate name)
    else .ok [.publisherAdded name { baseUri }]
  | .removePublisher name =>
    if ¬ self.publishers.containsKey name then .error (.publisherUnknown name)
    else .ok [.publisherRemoved name]

def command (self : RepositoryAccess) (cmd : RepoAccessCmd) :
    Except RepositoryError RepositoryAccess := do
  return (← self.processCommand cmd).foldl apply self

def baseUriFor (self : RepositoryAccess) (name : PublisherHandle) :
    Except RepositoryError Uri :=
  match fromStr (toText self.rsyncBase ++ (name ++ "/")) with
  | some uri => .ok uri
  | none => .error (.custom ("Cannot derive base uri for " ++ name))

def getPublisher (self : RepositoryAccess) (name : PublisherHandle) :
    Except RepositoryError Publisher :=
  match self.publishers.get name with
  | some publisher => .ok publisher
  | none => .error (.publisherUnknown name)

def addPublisher (self : RepositoryAccess) (request : PublisherRequest) :
    Except RepositoryError RepositoryAccess := do
  if ¬ request.valid then throw .rfc8183
  let baseUri ← self.baseUriFor request.publisherHandle
  self.command (.addPublisher request.publisherHandle baseUri)

def removePublisher (self : RepositoryAccess) (name : PublisherHandle) :
    Except RepositoryError RepositoryAccess :=
  self.command (.removePublisher name)

variable {self : RepositoryAccess}

omit [UriText] in
theorem getPublisher_eq_ok :
    self.getPublisher name = .ok publisher ↔ self.publishers.get name = some publisher := by
  unfold getPublisher
  cases self.publishers.get name with
  | none | some => simp

theorem baseUriFor_eq_ok : self.baseUriFor name = .ok uri ↔
      fromStr (toText self.rsyncBase ++ (name ++ "/")) = some uri := by
  unfold baseUriFor
  cases fromStr (toText self.rsyncBase ++ (name ++ "/")) with
  | none | some => simp

theorem addPublisher_eq_ok : self.addPublisher request = .ok after ↔
    request.valid = true ∧ self.publishers.get request.publisherHandle = none ∧
      ∃ baseUri, fromStr (toText self.rsyncBase ++ (request.publisherHandle ++ "/")) =
          some baseUri ∧
        self.apply (.publisherAdded request.publisherHandle { baseUri }) = after := by
  have added (baseUri : Uri) :
      self.command (.addPublisher request.publisherHandle baseUri) = .ok after ↔
        self.publishers.get request.publisherHandle = none ∧
          self.apply (.publisherAdded request.publisherHandle { baseUri }) = after := by
    unfold command processCommand
    cases known : self.publishers.get request.publisherHandle with
    | none => simp [HashMap.containsKey, known, pure, Except.pure, bind, Except.bind]
    | some found => simp [HashMap.containsKey, known, bind, Except.bind]
  unfold addPublisher
  by_cases valid : request.valid = true
  · simp only [valid, not_true, if_false, true_and]
    rw [Fallible.bind_eq_ok]
    simp only [added, baseUriFor_eq_ok]
    constructor
    · rintro ⟨baseUri, derived, unknown, applied⟩
      exact ⟨unknown, baseUri, derived, applied⟩
    · rintro ⟨unknown, baseUri, derived, applied⟩
      exact ⟨baseUri, derived, unknown, applied⟩
  · simp [valid, throw, throwThe, MonadExceptOf.throw, bind, Except.bind]

omit [UriText] in
theorem removePublisher_eq_ok : self.removePublisher name = .ok after ↔
    (self.publishers.get name).isSome ∧ self.apply (.publisherRemoved name) = after := by
  unfold removePublisher command processCommand
  cases known : self.publishers.get name with
  | none => simp [HashMap.containsKey, known, bind, Except.bind]
  | some found => simp [HashMap.containsKey, known, pure, Except.pure, bind, Except.bind]

end RepositoryAccess

structure RepositoryStores where
  access : RepositoryAccess
  content : RepositoryContent

namespace RepositoryStores

def init (rsyncBase : Uri) (env : Surroundings) : RepositoryStores :=
  { access := .init rsyncBase, content := .init env }

def addAccess (self : RepositoryStores) (request : PublisherRequest) :
    Except RepositoryError RepositoryStores := do
  return { self with access := ← self.access.addPublisher request }

def removeAccess (self : RepositoryStores) (name : PublisherHandle) :
    Except RepositoryError RepositoryStores := do
  return { self with access := ← self.access.removePublisher name }

def sendContent (self : RepositoryStores) (env : Surroundings)
    (command : RepositoryContentCommand) : Except RepositoryError RepositoryStores :=
  match self.content.sendCommand env command with
  | .ok content => .ok { self with content }
  | .error failure => .error (.content failure)

def publishContent (self : RepositoryStores) (env : Surroundings) (name : PublisherHandle)
    (delta : PublishDelta) (jail : Uri) : Except RepositoryError RepositoryStores :=
  match self.content.verifyRequest name (.from delta) jail with
  | .ok () => self.sendContent env (.publish name (.from delta))
  | .error failure => .error (.content failure)

/-- Two steps in turn. When the second one fails, what the first one did stays done. -/
def inTurn (self : RepositoryStores)
    (first second : RepositoryStores → Except RepositoryError RepositoryStores) :
    Except RepositoryError Unit × RepositoryStores :=
  match first self with
  | .error failure => (.error failure, self)
  | .ok between =>
    match second between with
    | .error failure => (.error failure, between)
    | .ok after => (.ok (), after)

def createPublisher (self : RepositoryStores) (env : Surroundings)
    (request : PublisherRequest) : Except RepositoryError Unit × RepositoryStores :=
  self.inTurn (·.addAccess request) (·.sendContent env (.addPublisher request.publisherHandle))

def removePublisher (self : RepositoryStores) (env : Surroundings) (name : PublisherHandle) :
    Except RepositoryError Unit × RepositoryStores :=
  self.inTurn (·.sendContent env (.removePublisher name)) (·.removeAccess name)

def publish (self : RepositoryStores) (env : Surroundings) (name : PublisherHandle)
    (delta : PublishDelta) : Except RepositoryError Unit × RepositoryStores :=
  match self.access.getPublisher name with
  | .error failure => (.error failure, self)
  | .ok publisher => self.inTurn .ok (·.publishContent env name delta publisher.baseUri)

variable {self : RepositoryStores}

theorem addAccess_eq_ok : self.addAccess request = .ok after ↔
    ∃ access, self.access.addPublisher request = .ok access ∧ { self with access } = after := by
  unfold addAccess
  rw [Fallible.bind_eq_ok]
  simp [pure, Except.pure]

omit [UriText] in
theorem removeAccess_eq_ok : self.removeAccess name = .ok after ↔
    ∃ access, self.access.removePublisher name = .ok access ∧ { self with access } = after := by
  unfold removeAccess
  rw [Fallible.bind_eq_ok]
  simp [pure, Except.pure]

omit [UriText] in
theorem sendContent_eq_ok : self.sendContent env command = .ok after ↔
      ∃ content, self.content.sendCommand env command = .ok content ∧
        { self with content } = after := by
  unfold sendContent
  cases self.content.sendCommand env command with
  | error | ok => simp

omit [UriText] in
theorem publishContent_eq_ok : self.publishContent env name delta jail = .ok after ↔
      self.content.verifyRequest name (.from delta) jail = .ok () ∧
        self.sendContent env (.publish name (.from delta)) = .ok after := by
  unfold publishContent
  cases self.content.verifyRequest name (.from delta) jail with
  | error | ok => simp

end RepositoryStores

inductive RepositoryRequest where
  | createPublisher (request : PublisherRequest)
  | removePublisher (name : PublisherHandle)
  | publish (name : PublisherHandle) (delta : PublishDelta)
  | updateRrdp (config : RrdpUpdatesConfig)
  | sessionReset

def RepositoryRequest.handle : RepositoryRequest → Option PublisherHandle
  | .createPublisher request => some request.publisherHandle
  | .removePublisher name => some name
  | .publish name _ => some name
  | .updateRrdp _ => none
  | .sessionReset => none

namespace RepositoryStores

def serve (self : RepositoryStores) (env : Surroundings) :
    RepositoryRequest → Except RepositoryError Unit × RepositoryStores
  | .createPublisher request => self.createPublisher env request
  | .removePublisher name => self.removePublisher env name
  | .publish name delta => self.publish env name delta
  | .updateRrdp config => self.inTurn .ok (·.sendContent env (.createRrdpDelta config))
  | .sessionReset => self.inTurn .ok (·.sendContent env .resetSession)

inductive Serves (self : RepositoryStores) (env : Surroundings) :
    RepositoryRequest → RepositoryStores → Prop
  | refused : Serves self env request self
  | created {content : RepositoryContent}
      (unknown : self.access.publishers.get request.publisherHandle = none)
      (derived : fromStr (toText self.access.rsyncBase ++ (request.publisherHandle ++ "/")) =
        some baseUri) (sent : self.content.sendCommand env (.addPublisher request.publisherHandle) =
        .ok content) :
      Serves self env (.createPublisher request)
        ⟨self.access.apply (.publisherAdded request.publisherHandle { baseUri }), content⟩
  | removed {access : RepositoryAccess} {content : RepositoryContent}
      (sent : self.content.sendCommand env (.removePublisher name) = .ok content)
      (rest : access = self.access ∨ access = self.access.apply (.publisherRemoved name)) :
      Serves self env (.removePublisher name) ⟨access, content⟩
  | published {content : RepositoryContent}
      (known : self.access.publishers.get name = some publisher)
      (verified : self.content.verifyRequest name (.from delta) publisher.baseUri = .ok ())
      (sent : self.content.sendCommand env (.publish name (.from delta)) = .ok content) :
      Serves self env (.publish name delta) { self with content }
  | updated {content : RepositoryContent}
      (sent : self.content.sendCommand env (.createRrdpDelta config) = .ok content) :
      Serves self env (.updateRrdp config) { self with content }
  | reset {content : RepositoryContent}
      (sent : self.content.sendCommand env .resetSession = .ok content) :
      Serves self env .sessionReset { self with content }

variable {self : RepositoryStores}

omit [UriText] in
theorem inTurn_cases (first second : RepositoryStores → Except RepositoryError RepositoryStores) :
    (self.inTurn first second).2 = self ∨ ∃ between, first self = .ok between ∧
        ((∃ failure, second between = .error failure) ∧ (self.inTurn first second).2 = between ∨
          ∃ after, second between = .ok after ∧ (self.inTurn first second).2 = after) := by
  unfold inTurn
  cases first self with
  | error failure => simp
  | ok between =>
    refine .inr ⟨between, rfl, ?_⟩
    cases finished : second between with
    | error failure => simp [finished]
    | ok after => simp [finished]

theorem serves_createPublisher :
    self.Serves env (.createPublisher request) (self.createPublisher env request).2 := by
  unfold createPublisher
  obtain same | ⟨between, added, rest⟩ := self.inTurn_cases (·.addAccess request)
    (·.sendContent env (.addPublisher request.publisherHandle))
  · rw [same]
    exact .refused
  obtain ⟨access, done, rfl⟩ := addAccess_eq_ok.mp added
  obtain ⟨-, unknown, baseUri, derived, rfl⟩ := RepositoryAccess.addPublisher_eq_ok.mp done
  obtain ⟨⟨failure, failed⟩, -⟩ | ⟨after, finished, same⟩ := rest
  · cases failed
  · obtain ⟨content, sent, rfl⟩ := sendContent_eq_ok.mp finished
    rw [same]
    exact .created unknown derived sent

theorem serves_removePublisher :
    self.Serves env (.removePublisher name) (self.removePublisher env name).2 := by
  unfold removePublisher
  obtain same | ⟨between, removed, rest⟩ := self.inTurn_cases
    (·.sendContent env (.removePublisher name)) (·.removeAccess name)
  · rw [same]
    exact .refused
  obtain ⟨content, sent, rfl⟩ := sendContent_eq_ok.mp removed
  obtain ⟨-, same⟩ | ⟨after, finished, same⟩ := rest
  · rw [same]
    exact .removed sent (.inl rfl)
  · obtain ⟨access, done, rfl⟩ := removeAccess_eq_ok.mp finished
    obtain ⟨-, rfl⟩ := RepositoryAccess.removePublisher_eq_ok.mp done
    rw [same]
    exact .removed sent (.inr rfl)

theorem serves_publish : self.Serves env (.publish name delta) (self.publish env name delta).2 := by
  unfold publish
  cases found : self.access.getPublisher name with
  | error failure => exact .refused
  | ok publisher =>
    have known := RepositoryAccess.getPublisher_eq_ok.mp found
    obtain same | ⟨between, started, rest⟩ := self.inTurn_cases .ok
      (·.publishContent env name delta publisher.baseUri)
    · rw [same]
      exact .refused
    cases started
    obtain ⟨-, same⟩ | ⟨after, finished, same⟩ := rest
    · rw [same]
      exact .refused
    · obtain ⟨verified, sends⟩ := publishContent_eq_ok.mp finished
      obtain ⟨content, sent, rfl⟩ := sendContent_eq_ok.mp sends
      rw [same]
      exact .published known verified sent

omit [UriText] in
theorem inTurn_sendContent (command : RepositoryContentCommand) :
    (self.inTurn .ok (·.sendContent env command)).2 = self ∨
      ∃ content, self.content.sendCommand env command = .ok content ∧
        (self.inTurn .ok (·.sendContent env command)).2 = { self with content } := by
  obtain same | ⟨between, started, rest⟩ := self.inTurn_cases .ok (·.sendContent env command)
  · exact .inl same
  cases started
  obtain ⟨-, same⟩ | ⟨after, finished, same⟩ := rest
  · exact .inl same
  · obtain ⟨content, sent, rfl⟩ := sendContent_eq_ok.mp finished
    exact .inr ⟨content, sent, same⟩

theorem serves (request : RepositoryRequest) :
    self.Serves env request (self.serve env request).2 := by
  cases request with
  | createPublisher request => exact serves_createPublisher
  | removePublisher name => exact serves_removePublisher
  | publish name delta => exact serves_publish
  | updateRrdp config =>
    unfold serve
    obtain same | ⟨content, sent, same⟩ := self.inTurn_sendContent (.createRrdpDelta config)
    · rw [same]
      exact .refused
    · rw [same]
      exact .updated sent
  | sessionReset =>
    unfold serve
    obtain same | ⟨content, sent, same⟩ := self.inTurn_sendContent .resetSession
    · rw [same]
      exact .refused
    · rw [same]
      exact .reset sent

inductive Runs (condition : RepositoryStores → RepositoryRequest → Prop) :
    RepositoryStores → Prop
  | init (rsyncBase : Uri) (env : Surroundings) : Runs condition (.init rsyncBase env)
  | step {stores : RepositoryStores} (runs : Runs condition stores) (env : Surroundings)
      (request : RepositoryRequest) (valid : request.handle.all isHandle)
      (met : condition stores request) : Runs condition (stores.serve env request).2

theorem Runs.invariant {invariant : RepositoryStores → Prop}
    (init : ∀ rsyncBase env, invariant (.init rsyncBase env))
    (step : ∀ {stores env request after}, invariant stores → condition stores request →
      stores.Serves env request after → invariant after) (runs : Runs condition stores) :
    invariant stores := by
  induction runs with
  | init rsyncBase env => exact init rsyncBase env
  | step runs env request valid met induction => exact step induction met (serves request)

def serveAll (env : Surroundings) (self : RepositoryStores) :
    List RepositoryRequest → RepositoryStores
  | [] => self
  | request :: rest => serveAll env (self.serve env request).2 rest

def Meets (condition : RepositoryStores → RepositoryRequest → Prop) (env : Surroundings) :
    RepositoryStores → List RepositoryRequest → Prop
  | _, [] => True
  | stores, request :: rest => request.handle.all isHandle ∧ condition stores request ∧
      Meets condition env (stores.serve env request).2 rest

theorem Runs.serveAll (runs : Runs condition stores) (meets : Meets condition env stores requests) :
    Runs condition (stores.serveAll env requests) := by
  induction requests generalizing stores with
  | nil => exact runs
  | cons request rest induction =>
    exact induction (runs.step env request meets.1 meets.2.1) meets.2.2

end RepositoryStores

end Krill.Pubd

namespace Krill.Pubd.Texts

open Rpki

scoped instance : Rpki where
  Uri := String
  Base64 := Nat
  Hash := Nat
  toHash := id
  sizeApprox := fun _ => 1
  isParentOf := fun base uri => base.toList.isPrefixOf uri.toList

scoped instance : UriText where
  toText := id
  fromStr := fun text => if "rsync://".toList.isPrefixOf text.toList then some text else none
  canonical := String.toList

theorem laws : UriLaws where
  canonical_fromStr := by
    intro (base : String) (uri : String) rest parsed
    change (if _ then some (base ++ rest) else none) = some uri at parsed
    split at parsed
    · cases parsed
      exact String.toList_append
    · cases parsed
  isParentOf := List.isPrefixOf_iff_prefix.mp

def env : Surroundings := { now := 0, random := "", session := 1, order := .stored }

def base : Uri := "rsync://localhost/repo/"

def add (name : PublisherHandle) : RepositoryRequest :=
  .createPublisher { publisherHandle := name, valid := true }

def put (name : PublisherHandle) (uri : Uri) (content : Nat) : RepositoryRequest :=
  .publish name [.publish none uri content]

def start : RepositoryStores := .init base env

end Krill.Pubd.Texts
