import Krill.Pubd.RrdpRuns

namespace Krill.Pubd

open Rpki
open RepositoryContent

variable [Rpki] {ι : Type}

/-! Publication requests that run side by side. Each one reads the latest
content and verifies its delta against it, and only then sends the command that
applies the delta, under a lock of its own. -/

structure PublishRequest where
  publisher : PublisherHandle
  delta : PublishDelta
  jail : Uri

namespace PublishRequest

def elements (self : PublishRequest) : DeltaElements := DeltaElements.from self.delta

def verify (self : PublishRequest) (content : RepositoryContent) :
    Except PublishError Unit :=
  content.verifyRequest self.publisher self.elements self.jail

def send (self : PublishRequest) (content : RepositoryContent) (env : Surroundings) :
    Except PublishError RepositoryContent :=
  content.sendCommand env (.publish self.publisher self.elements)

def publish (self : PublishRequest) (content : RepositoryContent)
    (env : Surroundings) : Except PublishError RepositoryContent := do
  self.verify content
  self.send content env

end PublishRequest

/-- How far a request has come. A verified request still has the content that it
was verified against. -/
inductive RequestPhase where
  | waiting
  | verified (seen : RepositoryContent)
  | published
  | rejected (error : PublishError)

structure PublicationServer (ι : Type) where
  content : RepositoryContent
  phase : ι → RequestPhase

namespace PublicationServer

variable (requests : ι → PublishRequest)

def start (content : RepositoryContent) : PublicationServer ι :=
  ⟨content, fun _ => .waiting⟩

def advance [DecidableEq ι] (self : PublicationServer ι) (env : Surroundings)
    (i : ι) : PublicationServer ι :=
  match self.phase i with
  | .waiting =>
    match (requests i).verify self.content with
    | .ok () =>
      { self with phase := Function.update self.phase i (.verified self.content) }
    | .error failure =>
      { self with phase := Function.update self.phase i (.rejected failure) }
  | .verified _ =>
    match (requests i).send self.content env with
    | .ok content =>
      { content, phase := Function.update self.phase i .published }
    | .error failure =>
      { self with phase := Function.update self.phase i (.rejected failure) }
  | .published => self
  | .rejected _ => self

def Done (self : PublicationServer ι) (i : ι) : Prop :=
  match self.phase i with
  | .waiting => False
  | .verified _ => False
  | .published => True
  | .rejected _ => True

/-- The requests in one order, each in one step. A rejected one changes nothing. -/
def serve (env : Surroundings) (content : RepositoryContent) (order : List ι) :
    RepositoryContent :=
  order.foldl
    (fun content i => ((requests i).publish content env).toOption.getD content) content

end PublicationServer

namespace RepositoryContent

def objectAt (self : RepositoryContent) (publisher : PublisherHandle)
    (hash : Hash) : Option PublishElement :=
  (self.publishers.get publisher).bind fun objects => objects.map.get hash

end RepositoryContent

/-- The hashes under which the verification of a delta looks for an object. -/
def DeltaElements.Checks (self : DeltaElements) (hash : Hash) : Prop :=
  (∃ p ∈ self.publishes, hash = toHash p.base64) ∨
  (∃ u ∈ self.updates, hash = u.hash) ∨
  (∃ w ∈ self.withdraws, hash = w.hash)

theorem CurrentObjects.verifyDelta_congr {left right : CurrentObjects}
    (same : ∀ hash, delta.Checks hash → left.map.get hash = right.map.get hash)
    (verified : left.verifyDelta delta jail = .ok ()) : right.verifyDelta delta jail = .ok () := by
  obtain ⟨publishes, updates, withdraws⟩ := verifyDelta_eq_ok.mp verified
  refine verifyDelta_eq_ok.mpr ⟨?_, ?_, ?_⟩
  · intro p listed
    obtain ⟨inside, absent⟩ := publishes p listed
    rw [← same _ (.inl ⟨p, listed, rfl⟩)]
    exact ⟨inside, absent⟩
  · intro u listed
    obtain ⟨inside, matched⟩ := updates u listed
    rw [hasMatch, ← same _ (.inr (.inl ⟨u, listed, rfl⟩))]
    exact ⟨inside, matched⟩
  · intro w listed
    obtain ⟨inside, matched⟩ := withdraws w listed
    rw [hasMatch, ← same _ (.inr (.inr ⟨w, listed, rfl⟩))]
    exact ⟨inside, matched⟩

namespace PublicationServer

variable (requests : ι → PublishRequest)

/-- Nothing under the hashes that a verified request checked has changed since
it checked them. -/
def Undisturbed (self : PublicationServer ι) (i : ι) : Prop :=
  ∀ seen, self.phase i = .verified seen →
    ∀ hash, (requests i).elements.Checks hash →
      self.content.objectAt (requests i).publisher hash =
        seen.objectAt (requests i).publisher hash

def Step [DecidableEq ι] (condition : PublicationServer ι → ι → Prop)
    (before after : PublicationServer ι) : Prop :=
  ∃ env i, condition before i ∧ after = before.advance requests env i

abbrev Run [DecidableEq ι] (condition : PublicationServer ι → ι → Prop) :
    PublicationServer ι → PublicationServer ι → Prop :=
  Relation.ReflTransGen (Step requests condition)

structure Serializable (env : Surroundings) (initial : RepositoryContent)
    (server : PublicationServer ι) : Prop where
  verified : ∀ {i seen}, server.phase i = .verified seen →
    (requests i).verify seen = .ok ()
  known : ∀ {i seen}, server.phase i = .verified seen →
    ∃ objects, server.content.publishers.get (requests i).publisher = some objects
  ordered : ∃ order : List ι, order.Nodup ∧ (∀ i, i ∈ order ↔ server.Done i) ∧
    serve requests env initial order = server.content

variable {requests} {env : Surroundings} {initial : RepositoryContent}
  {server : PublicationServer ι}

theorem Serializable.start (env : Surroundings) (initial : RepositoryContent) :
    Serializable requests env initial (PublicationServer.start initial) where
  verified := by
    intro i seen impossible
    cases impossible
  known := by
    intro i seen impossible
    cases impossible
  ordered := by
    refine ⟨[], List.nodup_nil, ?_, rfl⟩
    intro i
    simp [Done, PublicationServer.start]

theorem Serializable.still_valid (serializable : Serializable requests env initial server) {i : ι}
    (phase : server.phase i = .verified seen) (undisturbed : server.Undisturbed requests i) :
    (requests i).verify server.content = .ok () := by
  obtain ⟨before, knownBefore, valid⟩ :=
    verifyRequest_eq_ok.mp (serializable.verified phase)
  obtain ⟨now, knownNow⟩ := serializable.known phase
  refine verifyRequest_eq_ok.mpr ⟨now, knownNow, ?_⟩
  refine CurrentObjects.verifyDelta_congr ?_ valid
  intro hash checked
  have same := undisturbed seen phase hash checked
  simp only [objectAt, knownBefore, knownNow, Option.bind_some] at same
  exact same.symm

theorem serve_concat (env : Surroundings) (content : RepositoryContent) (i : ι) :
    serve requests env content (order ++ [i]) =
      ((requests i).publish (serve requests env content order) env).toOption.getD
        (serve requests env content order) := by
  simp [serve]

theorem ordered_concat {after : PublicationServer ι}
    (ordered : ∃ order : List ι, order.Nodup ∧ (∀ j, j ∈ order ↔ server.Done j) ∧
      serve requests env initial order = server.content) (unfinished : ¬ server.Done i)
    (done : ∀ j, after.Done j ↔ server.Done j ∨ j = i)
    (served : ((requests i).publish server.content env).toOption.getD server.content =
      after.content) :
    ∃ order : List ι, order.Nodup ∧ (∀ j, j ∈ order ↔ after.Done j) ∧
      serve requests env initial order = after.content := by
  obtain ⟨order, distinct, finished, reached⟩ := ordered
  refine ⟨order ++ [i], ?_, ?_, ?_⟩
  · rw [List.nodup_append]
    refine ⟨distinct, List.nodup_singleton i, ?_⟩
    intro first inOrder second isLast same
    cases List.mem_singleton.mp isLast
    subst same
    exact unfinished ((finished first).mp inOrder)
  · intro j
    rw [List.mem_append, finished j, List.mem_singleton, done j]
  · rw [serve_concat, reached, served]

section Interleaving

variable [DecidableEq ι]

variable {content : RepositoryContent} {i : ι} {phase : RequestPhase}

theorem done_update : Done ⟨content, Function.update server.phase i phase⟩ j ↔
      if j = i then Done ⟨content, fun _ => phase⟩ i else server.Done j := by
  unfold Done
  by_cases same : j = i
  · subst same
    simp
  · simp [same]

theorem phase_of_update {phase : ι → RequestPhase} (different : ∀ seen, next ≠ .verified seen)
    (found : Function.update phase i next j = .verified seen) : phase j = .verified seen := by
  by_cases same : j = i
  · subst same
    rw [Function.update_self] at found
    exact absurd found (different seen)
  · rw [Function.update_of_ne same] at found
    exact found

theorem done_outcome (outcome : Done ⟨content, fun _ => phase⟩ i) (j : ι) :
    Done ⟨content, Function.update server.phase i phase⟩ j ↔ server.Done j ∨ j = i := by
  rw [done_update]
  by_cases same : j = i
  · simp [same, outcome]
  · simp [same]

theorem Serializable.advance (serializable : Serializable requests env initial server)
    (undisturbed : server.Undisturbed requests i) :
    Serializable requests env initial (server.advance requests now i) := by
  unfold PublicationServer.advance
  cases phase : server.phase i with
  | published | rejected => exact serializable
  | waiting =>
    have unfinished : ¬ server.Done i := by simp [Done, phase]
    cases verified : (requests i).verify server.content with
    | ok _ =>
      refine ⟨?_, ?_, ?_⟩
      · intro j seen found
        by_cases same : j = i
        · subst same
          simp only [Function.update_self, RequestPhase.verified.injEq] at found
          rw [← found]
          exact verified
        · simp only [Function.update_of_ne same] at found
          exact serializable.verified found
      · intro j seen found
        by_cases same : j = i
        · subst same
          obtain ⟨objects, known, -⟩ :=
            verifyRequest_eq_ok.mp verified
          exact ⟨objects, known⟩
        · simp only [Function.update_of_ne same] at found
          exact serializable.known found
      · obtain ⟨order, distinct, finished, reached⟩ := serializable.ordered
        refine ⟨order, distinct, ?_, reached⟩
        intro j
        rw [finished j, done_update]
        by_cases same : j = i
        · subst same
          simp [Done, phase]
        · simp [same]
    | error failure =>
      refine ⟨?_, ?_, ?_⟩
      · intro j seen found
        exact serializable.verified (phase_of_update (by simp) found)
      · intro j seen found
        exact serializable.known (phase_of_update (by simp) found)
      · apply ordered_concat serializable.ordered unfinished
        · exact done_outcome trivial
        · simp [PublishRequest.publish, verified, bind, Except.bind,
            Except.toOption]
  | verified seen =>
    have unfinished : ¬ server.Done i := by simp [Done, phase]
    have valid := serializable.still_valid phase undisturbed
    obtain ⟨objects, known⟩ := serializable.known phase
    have sent : ∀ env, (requests i).send server.content env = .ok _ :=
      fun _ => sendCommand_publish known
    rw [sent now]
    refine ⟨?_, ?_, ?_⟩
    · intro j other found
      exact serializable.verified (phase_of_update (by simp) found)
    · intro j other found
      obtain ⟨held, knownHeld⟩ := serializable.known (phase_of_update (by simp) found)
      simp only [HashMap.get_insert]
      split
      · exact ⟨_, rfl⟩
      · exact ⟨held, knownHeld⟩
    · apply ordered_concat serializable.ordered unfinished
      · exact done_outcome trivial
      · simp [PublishRequest.publish, valid, sent env, bind, Except.bind,
          Except.toOption]

theorem Serializable.run (serializable : Serializable requests env initial server)
    (run : Run requests (fun server i => server.Undisturbed requests i) server after) :
    Serializable requests env initial after := by
  induction run with
  | refl => exact serializable
  | tail _ step induction =>
    obtain ⟨now, i, undisturbed, rfl⟩ := step
    exact induction.advance undisturbed

end Interleaving

end PublicationServer

end Krill.Pubd

namespace Krill.Pubd.Flat

open PublicationServer

def requests : Bool → PublishRequest
  | true => ⟨"alice", [.update none file (2 : Nat) (1 : Nat)], jail "alice"⟩
  | false => ⟨"alice", [.withdraw none file (1 : Nat)], jail "alice"⟩

def verifiedUpdate : PublicationServer Bool := (start updated).advance requests env true

def bothVerified : PublicationServer Bool := verifiedUpdate.advance requests env false

end Krill.Pubd.Flat
