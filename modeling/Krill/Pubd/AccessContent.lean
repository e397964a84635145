import Mathlib.Logic.Relation
import Krill.Pubd.RepositoryAccess

namespace Krill.Pubd

open Rpki

variable [Rpki] [UriText] {ι : Type}

/-! Requests for publishers that run side by side. Each of them takes a step in the one store
and then a step in the other, and anything can happen in between. -/

inductive PublisherCall where
  | createPublisher (request : PublisherRequest)
  | addContent (name : PublisherHandle)
  | removePublisher (name : PublisherHandle)
  | removeAccess (name : PublisherHandle)
  | publish (name : PublisherHandle) (delta : PublishDelta)
  | publishContent (name : PublisherHandle) (delta : PublishDelta) (jail : Uri)
  | returned (result : Except RepositoryError Unit)

namespace PublisherCall

/-- The publisher that is in only one of the stores while the request is halfway. -/
def changing : PublisherCall → Option PublisherHandle
  | .addContent name => some name
  | .removeAccess name => some name
  | _ => none

def isNew : PublisherCall → Bool
  | .createPublisher _ => true
  | .removePublisher _ => true
  | .publish _ _ => true
  | _ => false

def starting : PublisherCall → Option PublisherHandle
  | .createPublisher request => some request.publisherHandle
  | .removePublisher name => some name
  | _ => none

end PublisherCall

namespace RepositoryStores

def advance (self : RepositoryStores) (env : Surroundings) :
    PublisherCall → RepositoryStores × PublisherCall
  | .createPublisher request =>
    match self.addAccess request with
    | .ok next => (next, .addContent request.publisherHandle)
    | .error failure => (self, .returned (.error failure))
  | .addContent name =>
    match self.sendContent env (.addPublisher name) with
    | .ok next => (next, .returned (.ok ()))
    | .error failure => (self, .returned (.error failure))
  | .removePublisher name =>
    match self.sendContent env (.removePublisher name) with
    | .ok next => (next, .removeAccess name)
    | .error failure => (self, .returned (.error failure))
  | .removeAccess name =>
    match self.removeAccess name with
    | .ok next => (next, .returned (.ok ()))
    | .error failure => (self, .returned (.error failure))
  | .publish name delta =>
    match self.access.getPublisher name with
    | .ok publisher => (self, .publishContent name delta publisher.baseUri)
    | .error failure => (self, .returned (.error failure))
  | .publishContent name delta jail =>
    match self.publishContent env name delta jail with
    | .ok next => (next, .returned (.ok ()))
    | .error failure => (self, .returned (.error failure))
  | .returned result => (self, .returned result)

def HasAccess (self : RepositoryStores) (name : PublisherHandle) : Prop :=
  (self.access.publishers.get name).isSome

def HasContent (self : RepositoryStores) (name : PublisherHandle) : Prop :=
  (self.content.publishers.get name).isSome

def SamePublishers (self : RepositoryStores) : Prop :=
  ∀ name, self.HasAccess name ↔ self.HasContent name

variable (self : RepositoryStores) in
/-- What a step makes of the publishers in both stores. -/
inductive Effect : PublisherCall → RepositoryStores → PublisherCall → Prop
  | created (unknown : ¬ self.HasAccess request.publisherHandle)
      (access : ∀ {name}, next.HasAccess name ↔
        name = request.publisherHandle ∨ self.HasAccess name)
      (content : ∀ {name}, next.HasContent name ↔ self.HasContent name) :
      Effect (.createPublisher request) next (.addContent request.publisherHandle)
  | filled (access : ∀ {name}, next.HasAccess name ↔ self.HasAccess name)
      (content : ∀ {name}, next.HasContent name ↔ name = added ∨ self.HasContent name) :
      Effect (.addContent added) next (.returned (.ok ()))
  | emptied (access : ∀ {name}, next.HasAccess name ↔ self.HasAccess name)
      (content : ∀ {name}, next.HasContent name ↔ name ≠ removed ∧ self.HasContent name) :
      Effect (.removePublisher removed) next (.removeAccess removed)
  | removed (access : ∀ {name}, next.HasAccess name ↔ name ≠ removed ∧ self.HasAccess name)
      (content : ∀ {name}, next.HasContent name ↔ self.HasContent name) :
      Effect (.removeAccess removed) next (.returned result)
  | quiet (before : call.changing = none) (after : later.changing = none)
      (access : ∀ {name}, next.HasAccess name ↔ self.HasAccess name)
      (content : ∀ {name}, next.HasContent name ↔ self.HasContent name) : Effect call next later

omit [UriText] in
theorem Effect.unchanged (before : call.changing = none) (after : later.changing = none) :
    Effect self call self later :=
  .quiet before after .rfl .rfl

theorem effect_of_advance (self : RepositoryStores) (env : Surroundings) (call : PublisherCall) :
    Effect self call (self.advance env call).1 (self.advance env call).2 := by
  cases call with
  | createPublisher request =>
    cases done : self.addAccess request with
    | error failure =>
      simp only [advance, done]
      exact .unchanged rfl rfl
    | ok next =>
      simp only [advance, done]
      obtain ⟨access, added, rfl⟩ := addAccess_eq_ok.mp done
      obtain ⟨-, unknown, baseUri, -, rfl⟩ := RepositoryAccess.addPublisher_eq_ok.mp added
      refine .created ?_ HashMap.isSome_get_insert .rfl
      unfold HasAccess
      rw [unknown]
      exact Bool.false_ne_true
  | addContent name => exact .filled .rfl HashMap.isSome_get_insert
  | removePublisher name =>
    cases done : self.sendContent env (.removePublisher name) with
    | error failure =>
      simp only [advance, done]
      exact .unchanged rfl rfl
    | ok next =>
      simp only [advance, done]
      obtain ⟨content, sent, rfl⟩ := sendContent_eq_ok.mp done
      cases RepositoryContent.sent_of_ok sent with
      | unknown unknown =>
        refine .emptied .rfl (and_iff_right_of_imp ?_).symm
        rintro present rfl
        simp [HasContent, unknown] at present
      | removed known => exact .emptied .rfl HashMap.isSome_get_remove
  | removeAccess name =>
    cases done : self.removeAccess name with
    | error failure =>
      simp only [advance, done]
      refine .removed (and_iff_right_of_imp ?_).symm .rfl
      rintro known rfl
      have removed := removeAccess_eq_ok.mpr
        ⟨_, RepositoryAccess.removePublisher_eq_ok.mpr ⟨known, rfl⟩, rfl⟩
      rw [done] at removed
      cases removed
    | ok next =>
      simp only [advance, done]
      obtain ⟨access, removed, rfl⟩ := removeAccess_eq_ok.mp done
      obtain ⟨-, rfl⟩ := RepositoryAccess.removePublisher_eq_ok.mp removed
      exact .removed HashMap.isSome_get_remove .rfl
  | publish name delta =>
    cases done : self.access.getPublisher name with
    | error | ok =>
      simp only [advance, done]
      exact .unchanged rfl rfl
  | publishContent name delta jail =>
    cases done : self.publishContent env name delta jail with
    | error failure =>
      simp only [advance, done]
      exact .unchanged rfl rfl
    | ok next =>
      simp only [advance, done]
      obtain ⟨verified, sends⟩ := publishContent_eq_ok.mp done
      obtain ⟨objects, known, -⟩ := RepositoryContent.verifyRequest_eq_ok.mp verified
      obtain ⟨content, sent, rfl⟩ := sendContent_eq_ok.mp sends
      rw [RepositoryContent.sendCommand_publish known] at sent
      cases sent
      refine .quiet rfl rfl .rfl (HashMap.isSome_get_insert.trans (or_iff_right_of_imp ?_))
      intro same
      simp [same, known]
  | returned result => exact .unchanged rfl rfl

end RepositoryStores

structure SideBySide (ι : Type) where
  stores : RepositoryStores
  call : ι → PublisherCall

namespace SideBySide

variable [DecidableEq ι]

def advance (self : SideBySide ι) (env : Surroundings) (i : ι) : SideBySide ι :=
  let (stores, call) := self.stores.advance env (self.call i)
  { stores, call := Function.update self.call i call }

omit [UriText] [DecidableEq ι] in
/-- A publisher is only added or removed while no other request is adding or removing it. -/
def Exclusive (self : SideBySide ι) (i : ι) : Prop :=
  ∀ name, (self.call i).starting = some name → ∀ j, (self.call j).changing ≠ some name

def Step (condition : SideBySide ι → ι → Prop) (before after : SideBySide ι) : Prop :=
  ∃ env i, condition before i ∧ after = before.advance env i

abbrev Run (condition : SideBySide ι → ι → Prop) : SideBySide ι → SideBySide ι → Prop :=
  Relation.ReflTransGen (Step condition)

def follow (env : Surroundings) (self : SideBySide ι) : List ι → SideBySide ι
  | [] => self
  | i :: rest => follow env (self.advance env i) rest

def Meets (condition : SideBySide ι → ι → Prop) (env : Surroundings) :
    SideBySide ι → List ι → Prop
  | _, [] => True
  | self, i :: rest => condition self i ∧ Meets condition env (self.advance env i) rest

theorem run_follow {steps : List ι} (meets : Meets condition env self steps) :
    Run condition self (self.follow env steps) := by
  induction steps generalizing self with
  | nil => exact .refl
  | cons i rest induction =>
    exact .head ⟨env, i, meets.1, rfl⟩ (induction meets.2)

/-- There is content just for the publishers that have access and that no request is changing. -/
structure Agrees (server : SideBySide ι) : Prop where
  added : ∀ {i name}, server.call i = .addContent name → server.stores.HasAccess name
  unique : ∀ {i j name}, (server.call i).changing = some name →
    (server.call j).changing = some name → i = j
  content : ∀ {name}, server.stores.HasContent name ↔
    server.stores.HasAccess name ∧ ∀ i, (server.call i).changing ≠ some name

variable {self : SideBySide ι} {i : ι} {stores : RepositoryStores} {call : PublisherCall}

omit [UriText] in
theorem Agrees.update (agrees : self.Agrees)
    (alone : ∀ {name}, call.changing = some name → ∀ j ≠ i, (self.call j).changing ≠ some name)
    (added : ∀ {name}, call = .addContent name → stores.HasAccess name)
    (kept : ∀ {j name}, j ≠ i → self.call j = .addContent name → stores.HasAccess name)
    (content : ∀ {name}, stores.HasContent name ↔ stores.HasAccess name ∧
      call.changing ≠ some name ∧ ∀ j ≠ i, (self.call j).changing ≠ some name) :
    Agrees { stores, call := Function.update self.call i call } where
  added := fun {j name} adding => by
    by_cases own : j = i
    · subst own
      exact added (by simpa using adding)
    · exact kept own (by simpa [own] using adding)
  unique := fun {j k name} first second => by
    by_cases ownFirst : j = i <;> by_cases ownSecond : k = i <;>
      simp only [ownFirst, ownSecond, Function.update_self, ne_eq, not_false_eq_true,
        Function.update_of_ne] at first second ⊢
    · exact absurd second (alone first k ownSecond)
    · exact absurd first (alone second j ownFirst)
    · exact agrees.unique first second
  content := fun {name} => by
    rw [Function.forall_update_iff self.call fun _ call => call.changing ≠ some name]
    exact content

theorem Agrees.step (agrees : self.Agrees) (exclusive : self.Exclusive i) (env : Surroundings) :
    (self.advance env i).Agrees := by
  have effect := RepositoryStores.effect_of_advance self.stores env (self.call i)
  unfold advance
  generalize self.stores.advance env (self.call i) = outcome at effect ⊢
  obtain ⟨stores, later⟩ := outcome
  dsimp only at effect ⊢
  have before {name : PublisherHandle} : self.stores.HasContent name ↔
      self.stores.HasAccess name ∧ (self.call i).changing ≠ some name ∧
        ∀ j ≠ i, (self.call j).changing ≠ some name := by
    rw [agrees.content, ← Function.forall_update_iff self.call fun _ call =>
      call.changing ≠ some name, Function.update_eq_self]
  have others {name : PublisherHandle} (changes : (self.call i).changing = some name) (j : ι)
      (different : j ≠ i) : (self.call j).changing ≠ some name :=
    fun also => different (agrees.unique also changes)
  generalize current : self.call i = call at effect before others
  cases effect with
  | @created request _ unknown access content =>
    have nobody := exclusive _ (by rw [current]; rfl)
    refine agrees.update (fun changes j _ => Option.some.inj changes ▸ nobody j)
      (fun added => access.mpr (.inl ?_)) (fun _ adding => access.mpr (.inr (agrees.added adding)))
      fun {name} => ?_
    · cases added
      rfl
    · rw [content, before, access]
      by_cases same : name = request.publisherHandle
      · subst same
        simp [unknown, PublisherCall.changing]
      · simp [same, Ne.symm same, PublisherCall.changing]
  | @filled added _ access content =>
    refine agrees.update nofun nofun (fun _ adding => access.mpr (agrees.added adding))
      fun {name} => ?_
    rw [content, before, access]
    by_cases same : name = added
    · subst same
      exact iff_of_true (.inl rfl) ⟨agrees.added current, nofun, others rfl⟩
    · simp [same, Ne.symm same, PublisherCall.changing]
  | @emptied removed _ access content =>
    have nobody := exclusive _ (by rw [current]; rfl)
    refine agrees.update (fun changes j _ => Option.some.inj changes ▸ nobody j) nofun
      (fun _ adding => access.mpr (agrees.added adding)) fun {name} => ?_
    rw [content, before, access]
    by_cases same : name = removed
    · subst same
      simp [PublisherCall.changing]
    · simp [same, Ne.symm same, PublisherCall.changing]
  | @removed removed _ _ access content =>
    refine agrees.update nofun nofun (fun {j name} different adding => access.mpr ⟨?_,
      agrees.added adding⟩) fun {name} => ?_
    · rintro rfl
      exact others rfl j different (by rw [adding]; rfl)
    · rw [content, before, access]
      by_cases same : name = removed
      · subst same
        simp [PublisherCall.changing]
      · simp [same, Ne.symm same, PublisherCall.changing]
  | quiet unchanging after access content =>
    refine agrees.update (fun changes => nomatch after.symm.trans changes) ?_
      (fun _ adding => access.mpr (agrees.added adding)) fun {name} => ?_
    · rintro name rfl
      cases after
    · rw [content, before, access, unchanging, after]

/-- Requests that start side by side on two stores that have the same publishers leave them
with the same publishers, if no publisher is added or removed while it is being added or
removed already. Content is only added for a publisher that has none. -/
theorem access_content_agree {start server : SideBySide ι}
    (same : start.stores.SamePublishers) (new : ∀ i, (start.call i).isNew)
    (run : Run Exclusive start server) :
    (∀ i name, server.call i = .addContent name →
      server.stores.content.publishers.get name = none) ∧
    ((∀ i, ∃ result, server.call i = .returned result) → server.stores.SamePublishers) := by
  have agrees : server.Agrees := by
    induction run with
    | refl =>
      have nobody (i : ι) (name : PublisherHandle) : (start.call i).changing ≠ some name := by
        have unstarted := new i
        cases current : start.call i with
        | createPublisher request => nofun
        | removePublisher name => nofun
        | publish name delta => nofun
        | _ =>
          rw [current] at unstarted
          cases unstarted
      refine ⟨fun {i name} adding => ?_, fun {i _ name} changes => ?_, fun {name} => ?_⟩
      · exact absurd (congrArg PublisherCall.changing adding) (nobody i name)
      · exact absurd changes (nobody i name)
      · rw [and_iff_left fun i => nobody i name]
        exact (same name).symm
    | tail run step induction =>
      obtain ⟨env, i, exclusive, rfl⟩ := step
      exact induction.step exclusive env
  refine ⟨?_, ?_⟩
  · intro i name adding
    refine Option.not_isSome_iff_eq_none.mp fun present => ?_
    exact (agrees.content.mp present).2 i (by rw [adding]; rfl)
  · intro finished name
    rw [agrees.content, and_iff_left]
    intro i
    obtain ⟨result, returned⟩ := finished i
    rw [returned]
    nofun

end SideBySide

end Krill.Pubd

namespace Krill.Pubd.Texts

open SideBySide

theorem exclusive_of {self : SideBySide ι} (apart : ∀ j, (self.call i).starting = none ∨
      (self.call j).changing ≠ (self.call i).starting) : self.Exclusive i := by
  intro name starts j changes
  rcases apart j with nothing | different
  · rw [starts] at nothing
    cases nothing
  · exact different (changes.trans starts.symm)

def create (name : PublisherHandle) : PublisherCall :=
  .createPublisher { publisherHandle := name, valid := true }

def sideBySide (calls : List PublisherCall) : SideBySide (Fin calls.length) :=
  ⟨start, calls.get⟩

theorem start_samePublishers : start.SamePublishers := fun _ => ⟨nofun, nofun⟩

/-- Two publishers are added at the same time, and both stores have both in the end. -/
theorem creates_agree :
    ((sideBySide [create "alice", create "bob"]).follow env [0, 1, 1, 0]).stores.SamePublishers ∧
    ((sideBySide [create "alice", create "bob"]).follow env
      [0, 1, 1, 0]).stores.content.publishers.containsKey "bob" := by
  have meets : Meets Exclusive env (sideBySide [create "alice", create "bob"]) [0, 1, 1, 0] :=
    ⟨exclusive_of (by decide), exclusive_of (by decide), exclusive_of (by decide),
      exclusive_of (by decide), trivial⟩
  refine ⟨(access_content_agree start_samePublishers (by decide) (run_follow meets)).2 ?_,
    by decide +kernel⟩
  intro i
  match i with
  | 0 => exact ⟨.ok (), rfl⟩
  | 1 => exact ⟨.ok (), rfl⟩

def crossed : SideBySide (Fin 2) :=
  (sideBySide [create "alice", .removePublisher "alice"]).follow env [0, 1, 1, 0]

def renewal : List PublisherCall :=
  [create "alice", .removePublisher "alice", create "alice",
    .publish "alice" [.publish none "rsync://localhost/repo/alice/1" (1 : Nat)]]

def erasing : SideBySide (Fin 4) := (sideBySide renewal).follow env [0, 1, 1, 2, 2, 3, 3]

def isDone : PublisherCall → Bool
  | .returned (.ok ()) => true
  | _ => false

/-- All requests succeed. In the one case there is content for a publisher without access, in
the other content is added for a publisher that has published already. -/
theorem access_content_disagree :
    Run (fun _ _ => True) (sideBySide [create "alice", .removePublisher "alice"]) crossed ∧
    (∀ i, isDone (crossed.call i)) ∧ ¬ crossed.stores.SamePublishers ∧
    Run (fun _ _ => True) (sideBySide renewal) erasing ∧ isDone (erasing.call 3) ∧
    (erasing.stores.content.objectsForPublisher "alice").toOption.map (·.elements .stored) =
      some [⟨(1 : Nat), "rsync://localhost/repo/alice/1"⟩] ∧
    ((erasing.advance env 0).stores.content.objectsForPublisher "alice").toOption.map
      (·.elements .stored) = some [] := by
  refine ⟨run_follow ⟨trivial, trivial, trivial, trivial, trivial⟩, by decide +kernel, ?_,
    run_follow ⟨trivial, trivial, trivial, trivial, trivial, trivial, trivial, trivial⟩,
    by decide +kernel, by decide +kernel, by decide +kernel⟩
  intro same
  have access : ¬ crossed.stores.HasAccess "alice" := by
    unfold RepositoryStores.HasAccess
    decide +kernel
  apply access
  apply (same "alice").mpr
  unfold RepositoryStores.HasContent
  decide +kernel

end Krill.Pubd.Texts
