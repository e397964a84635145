import Krill.Upgrades.Resume

namespace Krill.Upgrades

open EventSourcing (Handle Time)

inductive OldCaEvtKind where
  | trustAnchorMade
  | childAdded
  | childCertificateIssued
  | childKeyRevoked
  | childCertificatesUpdated
  | childUpdatedIdCert
  | childUpdatedResources
  | childRemoved
  | idUpdated
  | parentAdded
  | parentUpdated
  | parentRemoved
  | resourceClassAdded
  | resourceClassRemoved
  | certificateRequested
  | certificateReceived
  | keyRollPendingKeyAdded
  | keyPendingToNew
  | keyPendingToActive
  | keyRollActivated
  | keyRollFinished
  | unexpectedKeyFound
  | routeAuthorizationAdded
  | routeAuthorizationRemoved
  | roasUpdated
  | objectSetUpdated
  | repoUpdated
  | repoCleaned
  | rtaPrepared
  | rtaSigned
  deriving DecidableEq

structure OldCaEvtDet (Content : Type) where
  kind : OldCaEvtKind
  content : Content

def OldCaEvtDet.needsMigration {Content : Type} (self : OldCaEvtDet Content) : Bool :=
  self.kind ≠ .objectSetUpdated && self.kind ≠ .repoCleaned

structure OldCaIniDet (Id RepoInfo TaCertDetails : Type) where
  id : Id
  info : Option RepoInfo
  taDetails : Option TaCertDetails

/-- The data of CAs, with the conversions that depend on the repository and on the other
CAs. -/
structure CasStoreMigration where
  Id : Type
  RepoInfo : Type
  TaCertDetails : Type
  Content : Type
  OldStorableCaCommand : Type
  CaEvtDet : Type
  StorableCaCommand : Type
  RepositoryContact : Type
  CertAuth : Type
  label : StorableCaCommand → String
  intoStoredCaEvent : Handle → OldCaEvtDet Content → Except PrepareUpgradeError CaEvtDet
  intoCaCommand : Handle → OldStorableCaCommand → Except PrepareUpgradeError StorableCaCommand
  repositoryContact : Handle → Except PrepareUpgradeError RepositoryContact
  repoUpdated : RepositoryContact → CaEvtDet
  repoUpdate : RepositoryContact → StorableCaCommand

namespace CasStoreMigration

def implied (self : CasStoreMigration)
    (init : StoredEvent (OldCaIniDet self.Id self.RepoInfo self.TaCertDetails)) :
    Except PrepareUpgradeError (Option (self.CaEvtDet × self.StorableCaCommand)) :=
  if init.details.taDetails.isSome then
    throw (.custom ("This Krill instance is set up as a test system, using a Trust Anchor, " ++
      "which cannot be migrated."))
  else if init.details.info.isSome then do
    let contact ← self.repositoryContact init.id
    return some (self.repoUpdated contact, self.repoUpdate contact)
  else
    return none

def migration (self : CasStoreMigration) : Migration where
  OldInit := OldCaIniDet self.Id self.RepoInfo self.TaCertDetails
  OldEvent := OldCaEvtDet self.Content
  OldDetails := self.OldStorableCaCommand
  Init := self.Id
  Event := self.CaEvtDet
  Details := self.StorableCaCommand
  State := self.CertAuth
  label := self.label
  skips := fun _ => false
  needsMigration := OldCaEvtDet.needsMigration
  intoInit := fun old => { id := old.id, version := 0, details := old.details.id }
  intoEvent := self.intoStoredCaEvent
  intoCommand := self.intoCaCommand
  implied := self.implied

end CasStoreMigration

inductive OldPubdEvtDet (OldPublisher : Type) where
  | publisherAdded (name : Handle) (publisher : OldPublisher)
  | publisherRemoved (name : Handle)
  | published (name : Handle)
  | rrdpSessionReset

inductive RepositoryAccessEventDetails (Publisher : Type) where
  | publisherAdded (name : Handle) (publisher : Publisher)
  | publisherRemoved (name : Handle)

inductive OldStorableRepositoryCommand where
  | addPublisher (name : Handle) (ski : String)
  | removePublisher (name : Handle)
  | publish (publisher : Handle) (published updated withdrawn : Nat)
  | sessionReset

inductive StorableRepositoryCommand where
  | addPublisher (name : Handle)
  | removePublisher (name : Handle)

structure PubdStoreMigration where
  OldInit : Type
  Init : Type
  OldPublisher : Type
  Publisher : Type
  RepositoryAccess : Type
  intoInit : OldInit → Init
  intoPublisher : OldPublisher → Publisher

namespace PubdStoreMigration

def needsMigration {OldPublisher : Type} : OldPubdEvtDet OldPublisher → Bool
  | .publisherAdded _ _ | .publisherRemoved _ => true
  | _ => false

def intoStoredPubdEvent (self : PubdStoreMigration) : OldPubdEvtDet self.OldPublisher →
      Except PrepareUpgradeError (RepositoryAccessEventDetails self.Publisher)
  | .publisherAdded name publisher => .ok (.publisherAdded name (self.intoPublisher publisher))
  | .publisherRemoved name => .ok (.publisherRemoved name)
  | _ => .error .unreachable

def intoPubdCommand :
    OldStorableRepositoryCommand → Except PrepareUpgradeError StorableRepositoryCommand
  | .addPublisher name _ => .ok (.addPublisher name)
  | .removePublisher name => .ok (.removePublisher name)
  | _ => .error .unreachable

def label : StorableRepositoryCommand → String
  | .addPublisher _ => "pubd-publisher-add"
  | .removePublisher _ => "pubd-publisher-remove"

/-- The files of publish commands are told by their names, which end with the label. -/
def migration (self : PubdStoreMigration) : Migration where
  OldInit := self.OldInit
  OldEvent := OldPubdEvtDet self.OldPublisher
  OldDetails := OldStorableRepositoryCommand
  Init := self.Init
  Event := RepositoryAccessEventDetails self.Publisher
  Details := StorableRepositoryCommand
  State := self.RepositoryAccess
  label := label
  skips := fun key => "pubd-publish".toList.isSuffixOf key.label.toList
  needsMigration := needsMigration
  intoInit := fun old => { id := "0", version := 0, details := self.intoInit old.details }
  intoEvent := fun _ => self.intoStoredPubdEvent
  intoCommand := fun _ => intoPubdCommand
  implied := fun _ => .ok none

end PubdStoreMigration

/-- A log can be prepared in parts, with the same events, commands and info in the end, just
if the new commands made from the first part are as many as to tell its old commands that
are kept from those that follow; and if there are none, when a command implied by the init
event gets the same time again. -/
theorem resumed_preparation_iff (mode : UpgradeMode) (first later : Time) (count : Nat) :
    (∀ (cas : CasStoreMigration) (env : Surroundings cas.migration)
      (old : OldLog cas.migration), old.Convertible →
      ((prepared env mode later old
          (prepared env .prepareOnly first (old.upTo count) .empty)).Same
        (prepared env mode later old .empty) ↔ old.Resumable count first later)) ∧
    ∀ (pubd : PubdStoreMigration) (env : Surroundings pubd.migration)
      (old : OldLog pubd.migration), old.Convertible →
      ((prepared env mode later old
          (prepared env .prepareOnly first (old.upTo count) .empty)).Same
        (prepared env mode later old .empty) ↔ old.Resumable count first later) :=
  ⟨fun _ env _ convertible => resumes_iff env mode first later count convertible,
    fun _ env _ convertible => resumes_iff env mode first later count convertible⟩

namespace Single

def cas : CasStoreMigration where
  Id := Unit
  RepoInfo := Unit
  TaCertDetails := Unit
  Content := Unit
  OldStorableCaCommand := Unit
  CaEvtDet := Unit
  StorableCaCommand := Unit
  RepositoryContact := Unit
  CertAuth := Unit
  label := fun _ => "command"
  intoStoredCaEvent := fun _ _ => .ok ()
  intoCaCommand := fun _ _ => .ok ()
  repositoryContact := fun _ => .ok ()
  repoUpdated := fun _ => ()
  repoUpdate := fun _ => ()

def command (number : Nat) : OldCommand cas.migration where
  key := { sequence := number, timestampSecs := 0, label := "command" }
  stored :=
    { actor := "admin"
      time := 0
      handle := "ca"
      version := number
      sequence := number
      details := ()
      effect := .success [number] }

def log (first second : OldCaEvtKind) : OldLog cas.migration where
  init := { id := "ca", version := 0, details := { id := (), info := none, taDetails := none } }
  events := fun version =>
    some { id := "ca", version, details := ⟨if version = 1 then first else second, ()⟩ }
  commands := [command 1, command 2]
  ascending := by decide
  positive := by decide

theorem log_convertible : (log first second).Convertible := by
  refine ⟨⟨none, rfl⟩, fun command _ _ => ⟨fun _ _ version _ => ?_, fun _ => ⟨(), rfl⟩⟩⟩
  exact ⟨_, rfl, fun _ => ⟨(), rfl⟩⟩

def surroundings : Surroundings cas.migration where
  codeVersion := "0.12.0"
  getLatest := fun _ => .ok ()

/-- The first command is dropped, and the second one becomes command 1. So it is taken for a
command that is still to be migrated. -/
theorem dropped_command_breaks_resumption :
    (log .objectSetUpdated .childRemoved).Convertible ∧
      ¬(prepared surroundings .prepareOnly 1 (log .objectSetUpdated .childRemoved)
          (prepared surroundings .prepareOnly 0
            ((log .objectSetUpdated .childRemoved).upTo 2) .empty)).Same
        (prepared surroundings .prepareOnly 1 (log .objectSetUpdated .childRemoved) .empty) := by
  refine ⟨log_convertible, fun same => ?_⟩
  have resumable := (resumes_iff surroundings .prepareOnly 0 1 2 (log_convertible)).mp same
  exact absurd resumable (by decide)

theorem kept_commands_resumed :
    (prepared surroundings .prepareToFinalise 1 (log .childRemoved .childRemoved)
        (prepared surroundings .prepareOnly 0
          ((log .childRemoved .childRemoved).upTo 1) .empty)).Same
      (prepared surroundings .prepareToFinalise 1 (log .childRemoved .childRemoved) .empty) :=
  ((resumed_preparation_iff .prepareToFinalise 0 1 1).1 cas surroundings _
    (log_convertible)).mpr (by decide)

end Single

end Krill.Upgrades
