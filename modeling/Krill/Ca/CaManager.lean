import Krill.Ca.Manifests
import Krill.Ca.CommandTokens
import Krill.Ca.NoPanic
import Mathlib.Logic.Relation

namespace Krill.Ca

open EventSourcing (Time)
open KrillSigner
open CertAuth
open Stateful (Yields)
open CaEvtDet

variable [Rpki] [KrillSigner]

structure CaManager where
  ca : CertAuth
  caObjectsStore : CaObjectsStore
  signer : Signer

namespace CaManager

def objects (self : CaManager) : CaObjects := self.caObjectsStore.caObjects self.ca.handle

def caDeprecatedRepoRemove (self : CaManager) (toRemove : RepositoryContact) : CaManager :=
  let objects := self.objects.deprecatedRepoRemove toRemove
  { self with caObjectsStore := self.caObjectsStore.putCaObjects self.ca.handle objects }

def caDeprecatedRepoIncrementCleanAttempts (self : CaManager) (contact : RepositoryContact) :
    CaManager :=
  let objects := self.objects.deprecatedRepoIncCleanAttempts contact
  { self with caObjectsStore := self.caObjectsStore.putCaObjects self.ca.handle objects }

/-- Send a command to the CA. The objects follow its events before the CA is saved. There is
no value if one of these steps fails. -/
def sendCommand (self : CaManager) (env : Surroundings) (cmd : CmdDet) : Option CaManager :=
  match self.ca.processCommand env cmd self.signer with
  | .error _ _ => none
  | .ok [] used => some { self with signer := used }
  | .ok events used =>
    match self.ca.applyAll env events with
    | none => none
    | some ca =>
      match self.caObjectsStore.listen env ca events used with
      | .error _ _ => none
      | .ok caObjectsStore signer => some { ca, caObjectsStore, signer }

/-- What is asked of a CA and its objects, with the surroundings in which the CA processes a
command and those in which its objects follow. -/
inductive Action where
  | command (env listening : Surroundings) (cmd : CmdDet)
  | reIssue (env : Surroundings) (force : Bool) (timing : IssuanceTimingConfig)

def Action.now : Action → Time
  | .command _ listening _ => listening.now
  | .reIssue env _ _ => env.now

/-- Send commands one after the other. There is no value if one of them fails, or does not
meet a condition. -/
def sendCommands (meets : CaManager → Action → Prop)
    [∀ manager action, Decidable (meets manager action)] (self : CaManager)
    (cmds : List (Surroundings × CmdDet)) : Option CaManager :=
  cmds.foldlM (fun manager cmd =>
    if meets manager (.command cmd.1 cmd.1 cmd.2) then manager.sendCommand cmd.1 cmd.2
    else none) self

/-- All that can happen to a CA and its objects: actions that meet a condition, cleaning of
repositories, and whatever the daemon does for other CAs with the same signer, which never
forgets what it gave out. -/
inductive Step (given : Signer → Token → Prop)
    (meets : CaManager → Action → Prop) (manager : CaManager) : CaManager → Prop
  | command {env later listening : Surroundings} {cmd : CmdDet} {events : List CaEvt}
      {used signer : Signer} {ca : CertAuth} {caObjectsStore : CaObjectsStore}
      (met : meets manager (.command env listening cmd))
      (accepted : manager.ca.processCommand env cmd manager.signer = .ok events used)
      (yields : events ≠ []) (applied : manager.ca.applyAll later events = some ca)
      (listened : manager.caObjectsStore.listen listening ca events used =
        .ok caObjectsStore signer) : Step given meets manager ⟨ca, caObjectsStore, signer⟩
  | reIssue {env : Surroundings} {force : Bool} {timing : IssuanceTimingConfig}
      {signer : Signer} {caObjectsStore : CaObjectsStore}
      (met : meets manager (.reIssue env force timing))
      (done : manager.caObjectsStore.withCaObjects manager.ca.handle
        (fun objects => objects.reIssue env force timing) manager.signer =
          .ok caObjectsStore signer) :
      Step given meets manager { manager with caObjectsStore, signer }
  | deprecatedRepoRemove (toRemove : RepositoryContact) :
      Step given meets manager (manager.caDeprecatedRepoRemove toRemove)
  | deprecatedRepoIncCleanAttempts (contact : RepositoryContact) :
      Step given meets manager (manager.caDeprecatedRepoIncrementCleanAttempts contact)
  | elsewhere {caObjectsStore : CaObjectsStore} {signer : Signer}
      (same : caObjectsStore.caObjects manager.ca.handle = manager.objects)
      (remembers : ∀ token, given manager.signer token → given signer token) :
      Step given meets manager { manager with caObjectsStore, signer }

inductive Runs (given : Signer → Token → Prop)
    (meets : CaManager → Action → Prop) : CaManager → Prop
  | init {handle : CaHandle} {id : Rfc8183Id} {caObjectsStore : CaObjectsStore}
      {signer : Signer} (unknown : caObjectsStore.store.get handle = none) :
      Runs given meets ⟨.init handle id, caObjectsStore, signer⟩
  | step {manager next : CaManager} (runs : Runs given meets manager)
      (step : Step given meets manager next) : Runs given meets next

section Rules

variable {given : Signer → Token → Prop}

theorem Runs.reachable (runs : Runs given meets manager) : Reachable manager.ca := by
  induction runs with
  | init unknown => exact .init _ _
  | step runs step induction =>
    cases step with
    | command met accepted yields applied listened => exact .step induction accepted applied
    | _ => exact induction

theorem Runs.reaches (runs : Runs given meets manager)
    (steps : Relation.ReflTransGen (Step given meets) manager next) : Runs given meets next := by
  induction steps with
  | refl => exact runs
  | tail _ step induction => exact .step induction step

theorem Step.mono (step : Step given meets manager next)
    (weaken : ∀ {manager action}, meets manager action → wider manager action) :
    Step given wider manager next := by
  cases step with
  | command met accepted yields applied listened =>
    exact .command (weaken met) accepted yields applied listened
  | reIssue met done => exact .reIssue (weaken met) done
  | deprecatedRepoRemove toRemove => exact .deprecatedRepoRemove toRemove
  | deprecatedRepoIncCleanAttempts contact => exact .deprecatedRepoIncCleanAttempts contact
  | elsewhere same remembers => exact .elsewhere same remembers

theorem Runs.mono (runs : Runs given meets manager)
    (weaken : ∀ {manager action}, meets manager action → wider manager action) :
    Runs given wider manager := by
  induction runs with
  | init unknown => exact .init unknown
  | step _ step induction => exact .step induction (step.mono weaken)

structure Commanded (manager : CaManager) (env later listening : Surroundings) (cmd : CmdDet)
    (events : List CaEvtDet) (used : Signer) (ca : CertAuth) (middle : CaObjects) : Prop where
  accepted : ∃ stored, manager.ca.processCommand env cmd manager.signer = .ok stored used ∧
    events = stored.map StoredEvent.details
  applied : manager.ca.applyNextAll later events = some ca
  listened : CaObjects.ListenedAll listening events manager.objects middle

omit [KrillSigner] in
theorem handle_of_applyNextAll {ca : CertAuth} (applied : ca.applyNextAll env events = some last) :
    last.handle = ca.handle :=
  holds_of_applied (fun later => later.handle = ca.handle) rfl
    (fun _ _ _ _ same done => (handle_of_apply done).trans same) applied

/-- Repositories are forgotten or tried again, and all else stays. -/
structure Cleaned (before after : CaObjects) : Prop where
  repo : after.repo = before.repo
  classes : after.classes = before.classes
  deprecatedRepos : ∀ deprecated ∈ after.deprecatedRepos,
    ∃ known ∈ before.deprecatedRepos, deprecated.contact = known.contact

/-- What the signer keeps to, whatever is signed for this CA or for others. -/
structure Remembers (given : Signer → Token → Prop) (grows : Signer → Signer → Prop) :
    Prop where
  refl : ∀ signer, grows signer signer
  signs : ∀ start, KeptBySigning (grows start)
  elsewhere : ∀ {before after}, (∀ token, given before token → given after token) →
    grows before after

theorem Remembers.trivially : Remembers given fun _ _ => True :=
  ⟨fun _ => trivial, fun _ => ⟨fun _ _ => trivial, fun _ _ => trivial⟩, fun _ => trivial⟩

theorem Remembers.ofLaws (laws : SignerLaws given) :
    Remembers given fun before after => ∀ token, given before token → given after token where
  refl := fun _ _ known => known
  signs := fun _ =>
    { randomSerial := fun known ran token held =>
        (laws.randomSerial ran).kept token (known token held)
      sign := fun known ran token held => (laws.sign ran).kept token (known token held) }
  elsewhere := fun known => known

inductive Moves (grows : Signer → Signer → Prop) (meets : CaManager → Action → Prop)
    (manager next : CaManager) : Prop
  | command {env later listening : Surroundings} {cmd : CmdDet} {events : List CaEvtDet}
      {used : Signer} {middle : CaObjects} (met : meets manager (.command env listening cmd))
      (commanded : manager.Commanded env later listening cmd events used next.ca middle)
      (reissued : Yields (middle.reIssue listening (events.any forces)
        manager.caObjectsStore.issuanceTiming) next.objects) (grown : grows used next.signer)
  | renewed {env : Surroundings} {force : Bool} {timing : IssuanceTimingConfig}
      (met : meets manager (.reIssue env force timing)) (same : next.ca = manager.ca)
      (reissued : Yields (manager.objects.reIssue env force timing) next.objects)
      (grown : grows manager.signer next.signer)
  | cleaned (same : next.ca = manager.ca) (cleaned : Cleaned manager.objects next.objects)
      (grown : grows manager.signer next.signer)

omit [KrillSigner] in
theorem caObjects_put (store : CaObjectsStore) (ca : CaHandle) (objects : CaObjects) :
    (store.putCaObjects ca objects).caObjects ca = objects := by
  unfold CaObjectsStore.caObjects CaObjectsStore.putCaObjects
  rw [HashMap.get_insert, if_pos rfl, Option.getD_some]

theorem objects_caDeprecatedRepoRemove (manager : CaManager) (toRemove : RepositoryContact) :
    (manager.caDeprecatedRepoRemove toRemove).objects =
      manager.objects.deprecatedRepoRemove toRemove :=
  caObjects_put _ _ _

theorem objects_caDeprecatedRepoIncrementCleanAttempts (manager : CaManager)
    (contact : RepositoryContact) :
    (manager.caDeprecatedRepoIncrementCleanAttempts contact).objects =
      manager.objects.deprecatedRepoIncCleanAttempts contact :=
  caObjects_put _ _ _

theorem withCaObjects_eq_ok {store : CaObjectsStore} {ca : CaHandle}
    (ran : store.withCaObjects ca op before = .ok stored after) :
    ∃ objects, op (store.caObjects ca) before = .ok objects after ∧
      stored.caObjects ca = objects := by
  obtain ⟨objects, _, done, ran⟩ := Stateful.bind_eq_ok.mp ran
  cases ran
  exact ⟨objects, done, caObjects_put store ca objects⟩

section Steps

variable {grows : Signer → Signer → Prop} (remembers : Remembers given grows)

include remembers

theorem Step.moves (step : Step given meets manager next) : Moves grows meets manager next := by
  cases step with
  | @command env later listening cmd events used signer ca store met accepted yields applied
      listened =>
      rw [applyAll_eq] at applied
      have same := handle_of_applyNextAll applied
      obtain ⟨published, done, stored⟩ := withCaObjects_eq_ok listened
      rw [same] at done stored
      have signs := remembers.signs used
      have grown := (CaObjects.listen_triple signs events).kept (remembers.refl used) done
      obtain ⟨middle, listens, reissued⟩ := CaObjects.yields_listen ⟨_, _, done⟩
      refine .command met ⟨⟨events, accepted, rfl⟩, applied, listens⟩ ?_ grown
      rw [objects, same, stored]
      exact reissued
  | reIssue met done =>
    obtain ⟨published, done, stored⟩ := withCaObjects_eq_ok done
    have signs := remembers.signs manager.signer
    have unchanged := remembers.refl manager.signer
    refine .renewed met rfl ?_ ((CaObjects.reIssue_triple signs _ _ _ _).kept unchanged done)
    subst stored
    exact ⟨_, _, done⟩
  | deprecatedRepoRemove toRemove =>
    refine .cleaned rfl ?_ (remembers.refl _)
    rw [objects_caDeprecatedRepoRemove]
    exact ⟨rfl, rfl, fun deprecated member => ⟨deprecated, List.mem_of_mem_filter member, rfl⟩⟩
  | deprecatedRepoIncCleanAttempts contact =>
    refine .cleaned rfl ?_ (remembers.refl _)
    rw [objects_caDeprecatedRepoIncrementCleanAttempts]
    refine ⟨rfl, rfl, fun deprecated member => ?_⟩
    obtain ⟨known, listed, rfl⟩ := List.mem_map.mp member
    exact ⟨known, listed, by split <;> rfl⟩
  | elsewhere same known =>
    refine .cleaned rfl ?_ (remembers.elsewhere known)
    change Cleaned manager.objects (CaObjectsStore.caObjects _ manager.ca.handle)
    rw [same]
    exact ⟨rfl, rfl, fun deprecated member => ⟨deprecated, member, rfl⟩⟩

/-- What holds in every run: it holds at the start, and neither the events of a command nor
new manifests, cleaning or the signer change that. -/
theorem Runs.holds (holds : CertAuth → CaObjects → Signer → Prop)
    (initially : ∀ handle id signer, holds (.init handle id) (.new handle) signer)
    (commanded : ∀ {manager env later listening cmd events used ca middle},
      Runs given meets manager → holds manager.ca manager.objects manager.signer →
      meets manager (.command env listening cmd) →
      manager.Commanded env later listening cmd events used ca middle → holds ca middle used)
    (renewed : ∀ {ca before after signer now}, holds ca before signer →
      before.Renewed now after → holds ca after signer)
    (cleaned : ∀ {ca before after signer}, holds ca before signer → Cleaned before after →
      holds ca after signer)
    (grown : ∀ {ca objects before after}, holds ca objects before → grows before after →
      holds ca objects after)
    (runs : Runs given meets manager) : holds manager.ca manager.objects manager.signer := by
  induction runs with
  | @init handle id store signer unknown =>
    have none_stored : store.caObjects handle = .new handle := by
      rw [CaObjectsStore.caObjects, unknown, Option.getD_none]
    change holds (.init handle id) (store.caObjects handle) signer
    rw [none_stored]
    exact initially handle id signer
  | step runs step induction =>
    cases step.moves remembers with
    | command met done again known =>
      exact grown (renewed (commanded runs induction met done)
        (CaObjects.renewed_of_reIssue again)) known
    | renewed met same again known =>
      rw [same]
      exact grown (renewed induction (CaObjects.renewed_of_reIssue again)) known
    | cleaned same done known =>
      rw [same]
      exact grown (cleaned induction done) known

end Steps

def withDrawn (known : Token → Prop) (tokens : List Token) (token : Token) : Prop :=
  known token ∨ token ∈ tokens

/-- An event in place, what the CA and its objects do with it, and what it draws. -/
structure Occurs (cmd : CmdDet) (later listening : Surroundings) (known : Token → Prop)
    (event : CaEvtDet) (ca next : CertAuth) (objects after : CaObjects) : Prop where
  sound : ca.Sound event
  applied : ca.applyNext later event = some next
  listened : CaObjects.Listened listening objects event after
  distinct : (event.tokens cmd).Nodup
  fresh : ∀ token ∈ event.tokens cmd, ¬known token

structure Position (events : List CaEvtDet) (later listening : Surroundings) (start : CertAuth)
    (published : CaObjects) (passed : List CaEvtDet) (event : CaEvtDet) (ca : CertAuth)
    (objects : CaObjects) : Prop where
  split : ∃ rest, events = passed ++ event :: rest
  applied : start.applyNextAll later passed = some ca
  listened : CaObjects.ListenedAll listening passed published objects

omit [KrillSigner] in
theorem holds_of_events (holds : CertAuth → CaObjects → (Token → Prop) → Prop)
    (step : ∀ {passed event ca next objects after known},
      Position events later listening start published passed event ca objects →
      holds ca objects known → Occurs cmd later listening known event ca next objects after →
      holds next after (withDrawn known (event.tokens cmd)))
    (initially : holds start published known) (sound : SoundAll later start events)
    (applied : start.applyNextAll later events = some last)
    (listened : CaObjects.ListenedAll listening events published middle)
    (distinct : (tokensAll cmd events).Nodup)
    (fresh : ∀ token ∈ tokensAll cmd events, ¬known token) :
    ∃ drawn, holds last middle drawn ∧
      ∀ token, drawn token → withDrawn known (tokensAll cmd events) token := by
  suffices general : ∀ (rest passed : List CaEvtDet) (ca : CertAuth) (objects : CaObjects)
      (known : Token → Prop), events = passed ++ rest →
      start.applyNextAll later passed = some ca →
      CaObjects.ListenedAll listening passed published objects → holds ca objects known →
      SoundAll later ca rest → ca.applyNextAll later rest = some last →
      CaObjects.ListenedAll listening rest objects middle →
      (tokensAll cmd rest).Nodup →
      (∀ token ∈ tokensAll cmd rest, ¬known token) →
      ∃ drawn, holds last middle drawn ∧
        ∀ token, drawn token → withDrawn known (tokensAll cmd rest) token from
    general events [] start published known rfl rfl (.nil published) initially sound applied
      listened distinct fresh
  intro rest
  induction rest with
  | nil =>
    intro passed ca objects known same passing heard held _ applied listened _ _
    cases applied
    cases listened
    exact ⟨known, held, fun _ => .inl⟩
  | cons event rest induction =>
    intro passed ca objects known same passing heard held sound applied listened distinct fresh
    obtain ⟨next, done, finished⟩ := applyNextAll_cons.mp applied
    cases listened with
    | @cons _ _ after _ _ first others =>
      have tokens : tokensAll cmd (event :: rest) =
          event.tokens cmd ++ tokensAll cmd rest := List.flatMap_cons
      rw [tokens] at distinct fresh ⊢
      obtain ⟨distinctHere, distinctRest, apart⟩ := List.nodup_append.mp distinct
      obtain ⟨freshHere, freshRest⟩ := List.forall_mem_append.mp fresh
      have advanced := step ⟨⟨rest, same⟩, passing, heard⟩ held
        ⟨sound.1, done, first, distinctHere, freshHere⟩
      obtain ⟨drawn, holds, bounded⟩ := induction (passed ++ [event]) next after _
        (by rw [same, List.append_assoc, List.singleton_append])
        (applyNextAll_append.mpr ⟨ca, passing, applyNextAll_cons.mpr ⟨next, done, rfl⟩⟩)
        (heard.append (.cons first (.nil after)))
        advanced (sound.2 next done) finished others distinctRest (by
          rintro token member (before | here)
          · exact freshRest token member before
          · exact apart token here token member rfl)
      refine ⟨drawn, holds, fun token isDrawn => ?_⟩
      obtain (before | here) | later := bounded token isDrawn
      · exact .inl before
      · exact .inr (List.mem_append_left _ here)
      · exact .inr (List.mem_append_right _ later)

theorem Runs.sendCommand (laws : SignerLaws given) (runs : Runs given meets manager)
    (met : meets manager (.command env env cmd))
    (sent : manager.sendCommand env cmd = some next) : Runs given meets next := by
  unfold CaManager.sendCommand at sent
  cases accepted : manager.ca.processCommand env cmd manager.signer with
  | error failure used => rw [accepted] at sent; cases sent
  | ok events used =>
    rw [accepted] at sent
    cases events with
    | nil =>
      cases sent
      exact runs.step (.elsewhere rfl (processCommand_drawn laws accepted).kept)
    | cons event rest =>
      dsimp only at sent
      cases applied : manager.ca.applyAll env (event :: rest) with
      | none => rw [applied] at sent; cases sent
      | some ca =>
        rw [applied] at sent
        dsimp only at sent
        cases listened : manager.caObjectsStore.listen env ca (event :: rest) used with
        | error failure last => rw [listened] at sent; cases sent
        | ok store last =>
          rw [listened] at sent
          cases sent
          exact runs.step
            (.command met accepted (List.cons_ne_nil _ _) applied listened)

theorem Runs.sendCommands [∀ manager action, Decidable (meets manager action)]
    (laws : SignerLaws given) (runs : Runs given meets manager)
    (sent : CaManager.sendCommands meets manager cmds = some next) : Runs given meets next := by
  induction cmds generalizing manager with
  | nil => cases sent; exact runs
  | cons cmd rest induction =>
    obtain ⟨between, first, others⟩ := Option.bind_eq_some_iff.mp sent
    obtain ⟨met, first⟩ := Option.ite_none_right_eq_some.mp first
    exact induction (runs.sendCommand laws met first) others

end Rules

end CaManager

end Krill.Ca

namespace Krill.Ca.Numbered

def counted (signer : Nat) : Token → Prop
  | .key id => Nat.lt id signer
  | .serial serial => Nat.lt serial signer

theorem counted_grows (signer : Nat) (token : Token) (known : counted signer token) :
    counted (signer + 1) token := by
  cases token <;> exact Nat.lt_succ_of_lt known

theorem counted_drawn {token : Nat → Token} (isToken : ∀ number signer : Nat,
      counted signer (token number) ↔ number < signer) (ran : count before = .ok value after) :
    Drawn counted before after [token value] := by
  cases ran
  refine ⟨counted_grows _, List.nodup_singleton _, ?_, ?_⟩
  · intro other member
    cases List.mem_singleton.mp member
    rw [isToken]
    exact lt_irrefl _
  · intro other member
    cases List.mem_singleton.mp member
    rw [isToken]
    exact Nat.lt_succ_self _

theorem serial_counted (ran : count before = .ok value after) :
    Drawn counted before after [.serial value] :=
  counted_drawn (fun _ _ => Iff.rfl) ran

theorem counted_laws : SignerLaws counted where
  createKey := counted_drawn fun _ _ => Iff.rfl
  randomSerial := serial_counted
  getKeyInfo := by
    intro key before after info ran
    cases ran
    exact ⟨rfl, .refl _⟩
  sign := fun ran => (serial_counted ran).subperm List.nil_subperm
  createSelfSignedIdCert := fun ran => (serial_counted ran).subperm List.nil_subperm
  signRta := by
    intro builder tbs base64 before after signed ran
    cases ran
    exact .refl _
  destroyKey := by
    intro key before after ran
    cases ran
    exact .refl _

def daemon : CaManager :=
  { ca := start, caObjectsStore := { store := .empty, issuanceTiming := config.issuanceTiming }
    signer := (0 : Nat) }

theorem daemon_runs : CaManager.Runs counted meets daemon :=
  .init rfl

/-- The CA publishes in repository 0 and has a certificate for the key 0. -/
def enrol : List CmdDet :=
  [.repoUpdate (contact 0), .addParent "parent" (.rfc6492 (0 : Nat)),
   .updateEntitlements "parent" [entitlement 7], .updateRcvdCert "0" (received 0 7) config]

def atOnce (cmds : List CmdDet) : List (Surroundings × CmdDet) := cmds.map fun cmd => (env, cmd)

end Krill.Ca.Numbered
