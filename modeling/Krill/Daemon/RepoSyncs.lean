import Krill.Daemon.CaServer
import Krill.Ca.ElementNumbers

namespace Krill.Daemon

open EventSourcing (Time)
open Ca Ca.Rpki Ca.KrillSigner
open Stateful (Yields)
open CaObjects

variable [Rpki]

section Quiet

theorem quiet_listened (listened : CaObjects.Listened env objects event next)
    (quiet : syncsRepo event = false) :
    next.deprecatedRepos = objects.deprecatedRepos ∧ next.editions = objects.editions ∧
      (event.newRepository = none → next = objects.receive event) := by
  cases listened with
  | @followed rcn event changed targeted follows =>
    generalize found : objects.classes.get rcn = entry at follows
    cases follows with
    | updated isObjects => cases event <;> cases isObjects <;> cases quiet
    | @received named cert key rco _ done =>
      cases targeted
      refine ⟨rfl, funext fun other => ?_, fun _ => ?_⟩
      · change Option.map _ ((objects.setClass rcn changed).classes.get other) = Option.map _ _
        rw [get_setClass]
        split
        case isTrue same =>
          rw [same, found]
          cases ResourceClassObjects.received_of_update done <;> rfl
        case isFalse => rfl
      · have received : objects.updateReceivedCert rcn cert = .ok (objects.setClass rcn changed) :=
          updateClass_of_get found done
        unfold receive
        dsimp only
        rw [received]
        rfl
    | _ => cases quiet
  | removed => cases quiet
  | moved =>
    refine ⟨rfl, funext fun rcn => ?_, fun stays => by cases stays⟩
    unfold editions
    rw [get_updateRepo]
    obtain _ | ⟨set | ⟨new, set⟩ | ⟨set, old⟩⟩ := objects.classes.get rcn <;>
      cases objects.repo <;> rfl
  | ignored unpublished =>
    exact ⟨rfl, rfl, fun _ => by cases event <;> first | rfl | cases unpublished⟩

variable {events : List CaEvtDet}

theorem quiet_listenedAll (listened : CaObjects.ListenedAll env events objects middle)
    (quiet : ∀ event ∈ events, syncsRepo event = false) :
    middle.deprecatedRepos = objects.deprecatedRepos ∧ middle.editions = objects.editions ∧
      ((∀ event ∈ events, event.newRepository = none) → middle = objects.receiveAll events) := by
  induction listened with
  | nil => exact ⟨rfl, rfl, fun _ => rfl⟩
  | cons first _ induction =>
    obtain ⟨here, later⟩ := List.forall_mem_cons.mp quiet
    obtain ⟨deprecated, same, received⟩ := quiet_listened first here
    obtain ⟨others, again, receivedLater⟩ := induction later
    refine ⟨others.trans deprecated, again.trans same, fun stays => ?_⟩
    obtain ⟨stay, stayLater⟩ := List.forall_mem_cons.mp stays
    rw [receivedLater stayLater, received stay]
    rfl

theorem repo_of_listenedAll (listened : CaObjects.ListenedAll env events objects middle) :
    middle.repo = none ↔ objects.repo = none ∧ ∀ event ∈ events, event.newRepository = none := by
  induction listened with
  | nil => simp
  | cons first _ induction =>
    rw [induction, first.repo, Option.or_eq_none_iff, List.forall_mem_cons]
    tauto

theorem quiet_of_none (noneSyncs : ¬∃ event ∈ events, syncsRepo event = true) :
    ∀ event ∈ events, syncsRepo event = false :=
  fun event member => Bool.eq_false_of_not_eq_true fun syncs => noneSyncs ⟨event, member, syncs⟩

theorem stays_of_unforced (unforced : events.any CaEvtDet.forces = false) :
    ∀ event ∈ events, event.newRepository = none := by
  intro event member
  have here := List.any_eq_false.mp unforced event member
  cases event <;> first | rfl | exact absurd rfl here

end Quiet

/-- Where there is something published, no event forces new manifests and CRLs, it is not time
for them, and received certificates leave all objects in their place. -/
def Undisturbed (objects : CaObjects) (env : Surroundings) (timing : IssuanceTimingConfig)
    (events : List CaEvtDet) : Prop :=
  ∀ rcn rco, objects.classes.get rcn = some rco → events.any CaEvtDet.forces = false ∧
    rco.requiresReIssuance env.now timing.timingPublishHoursBeforeNext = false ∧
    objects.SameElements (objects.receiveAll events)

section Objects

variable {env : Surroundings} {timing : IssuanceTimingConfig} {events : List CaEvtDet}
  {before middle after : CaObjects}

variable [KrillSigner] (listened : CaObjects.ListenedAll env events before middle)
  (yields : Yields (middle.reIssue env (events.any CaEvtDet.forces) timing) after)
  (quiet : ∀ event ∈ events, syncsRepo event = false)

include listened yields quiet

theorem deprecatedRepos_of_quiet : after.deprecatedRepos = before.deprecatedRepos :=
  (renewed_of_reIssue yields).deprecatedRepos.trans (quiet_listenedAll listened quiet).1

theorem same_of_undisturbed (undisturbed : Undisturbed before env timing events) :
    before.SameElements after := by
  obtain ⟨_, same, received⟩ := quiet_listenedAll listened quiet
  have renewed := renewed_of_reIssue yields
  have unchanged (rcn : ResourceClassName) : after.classes.get rcn = middle.classes.get rcn := by
    obtain ⟨⟨rco, found, due⟩, _⟩ | ⟨_, unchanged⟩ := CaObjects.reissued same yields rcn
    · obtain ⟨unforced, early, _⟩ := undisturbed rcn rco found
      rw [unforced, early] at due
      cases due
    · exact unchanged
  by_cases published : ∃ rcn rco, before.classes.get rcn = some rco
  · obtain ⟨rcn, rco, found⟩ := published
    obtain ⟨unforced, _, inPlace⟩ := undisturbed rcn rco found
    rw [← received (stays_of_unforced unforced)] at inPlace
    exact inPlace.trans (.of_classes renewed.repo unchanged renewed.deprecatedRepos)
  · have noClasses (rcn : ResourceClassName) : before.classes.get rcn = none :=
      Option.eq_none_iff_forall_ne_some.mpr fun rco found => published ⟨rcn, rco, found⟩
    refine .of_silent (.inr noClasses) (.inr fun rcn => ?_)
      (deprecatedRepos_of_quiet listened yields quiet)
    have none := congrFun same rcn
    unfold editions at none
    rw [noClasses, Option.map_none, Option.map_eq_none_iff] at none
    rw [unchanged, none]

theorem undisturbed_of_same (serials : Function.Injective (serialFrom : Nat → Serial))
    (issuedBefore : before.EverySet fun _ set => set.Issued decode)
    (issuedAfter : after.EverySet fun _ set => set.Issued decode) (hasRepo : after.repo.isSome)
    (unchanged : before.SameElements after) : Undisturbed before env timing events := by
  obtain ⟨_, same, received⟩ := quiet_listenedAll listened quiet
  have renewed := renewed_of_reIssue yields
  have early (rcn : ResourceClassName) :
      ¬before.DueIn env (events.any CaEvtDet.forces) timing rcn := fun due =>
    changed_of_due same yields serials issuedBefore issuedAfter hasRepo due unchanged
  intro rcn rco found
  have notDue := Bool.eq_false_of_not_eq_true fun due => early rcn ⟨rco, found, due⟩
  obtain ⟨unforced, notTime⟩ := Bool.or_eq_false_iff.mp notDue
  refine ⟨unforced, notTime, ?_⟩
  rw [← received (stays_of_unforced unforced)]
  refine unchanged.trans (.of_classes renewed.repo.symm (fun rcn => ?_)
    renewed.deprecatedRepos.symm)
  obtain ⟨due, _⟩ | ⟨_, unchanged⟩ := CaObjects.reissued same yields rcn
  · exact absurd due (early rcn)
  · exact unchanged.symm

end Objects

variable [KrillSigner]

inductive Activity where
  | command (handle : CaHandle) (env listening noticing : Surroundings) (cmd : CmdDet)
  | republish (order : IterOrder) (surroundings : CaHandle → Surroundings) (now : Time)

namespace CaServer

def Performs (server : CaServer) : Activity → CaServer → Prop
  | .command handle env listening noticing cmd, next =>
    ∃ ca events, server.Sends handle env listening noticing cmd ca events next
  | .republish order surroundings now, next =>
    next = server.republishIfNeeded order surroundings now

/-- No synchronisation is lost for the events of a command: there already is one in the queue,
an event brings one, the events leave everything as it is published, or the CA has no
repository. -/
def Notices (server : CaServer) (handle : CaHandle) (listening : Surroundings)
    (events : List CaEvtDet) : Prop :=
  server.tasks.Queued (.syncRepo handle) ∨ (∃ event ∈ events, syncsRepo event = true) ∨
    Undisturbed (server.objects handle) listening server.caObjectsStore.issuanceTiming events ∨
    (server.objects handle).repo = none ∧ ∀ event ∈ events, event.newRepository = none

/-- When no synchronisation is lost. If the signer fails for one CA, then those before it for
which it was time must already have a synchronisation in the queue. -/
def LosesNothing (server : CaServer) : Activity → Prop
  | .command handle env listening _ cmd => ∀ ca events used,
      server.caStore.get handle = some ca →
      ca.processCommand env cmd server.signer = .ok events used →
      server.Notices handle listening (events.map StoredEvent.details)
  | .republish order surroundings _ => ∀ pre fail post reported store middle failure signer,
      server.caObjectsStore.cas order = pre ++ fail :: post →
      CaObjectsStore.reissueCas surroundings false pre (server.caObjectsStore, server.signer) =
        .ok reported (store, middle) →
      CaObjectsStore.reissueCa (surroundings fail) false fail (store, middle) =
        .error failure (store, signer) →
      ∀ ca ∈ pre, (server.objects ca).repo.isSome →
        (server.objects ca).reIssueRequired (surroundings ca) false
          server.caObjectsStore.issuanceTiming = true →
        server.tasks.Queued (.syncRepo ca)

/-- Wherever the elements of a CA change, a synchronisation with its repository is queued. -/
def Syncs (server next : CaServer) : Prop :=
  ∀ handle, ¬(server.objects handle).SameElements (next.objects handle) →
    next.tasks.Queued (.syncRepo handle)

variable {server next : CaServer} {decode : Base64 → Option ToBeSigned}

section Commands

theorem Followed.queued (followed : server.Followed handle listening noticing events next) :
    next.tasks.Queued (.syncRepo handle) ↔ server.tasks.Queued (.syncRepo handle) ∨
      ∃ event ∈ events.map StoredEvent.details, syncsRepo event = true := by
  obtain ⟨last, tasks⟩ := followed.tasks
  rw [tasks, TaskQueue.queued_listen]
  refine or_congr_right ⟨?_, ?_⟩
  · rintro ⟨event, member, syncs, _⟩
    exact ⟨event.details, List.mem_map_of_mem member, syncs⟩
  · rintro ⟨details, member, syncs⟩
    obtain ⟨event, listed, rfl⟩ := List.mem_map.mp member
    exact ⟨event, listed, syncs, (followed.own event listed).symm⟩

theorem Followed.syncs_iff (serials : Function.Injective (serialFrom : Nat → Serial))
    (followed : server.Followed handle listening noticing events next)
    (issuedBefore : (server.objects handle).EverySet fun _ set => set.Issued decode)
    (issuedAfter : (next.objects handle).EverySet fun _ set => set.Issued decode) :
    server.Syncs next ↔ server.Notices handle listening (events.map StoredEvent.details) := by
  obtain ⟨middle, listened, reissued⟩ := yields_listen followed.yields
  have renewed := renewed_of_reIssue reissued
  constructor
  · intro syncs
    by_cases queued : next.tasks.Queued (.syncRepo handle)
    · exact (followed.queued.mp queued).imp_right .inl
    · have same := not_not.mp (mt (syncs handle) queued)
      obtain ⟨_, noneSyncs⟩ := not_or.mp (mt followed.queued.mpr queued)
      have quiet := quiet_of_none noneSyncs
      by_cases hasRepo : (next.objects handle).repo = none
      · rw [renewed.repo, repo_of_listenedAll listened] at hasRepo
        exact .inr (.inr (.inr hasRepo))
      · exact .inr (.inr (.inl (undisturbed_of_same listened reissued quiet serials issuedBefore
          issuedAfter (Option.isSome_iff_ne_none.mpr hasRepo) same)))
  · intro notices other changed
    by_cases own : other = handle
    · subst own
      rw [followed.queued]
      by_contra unqueued
      obtain ⟨notBefore, noneSyncs⟩ := not_or.mp unqueued
      have quiet := quiet_of_none noneSyncs
      obtain before | syncs | undisturbed | noRepo := notices
      · exact notBefore before
      · exact noneSyncs syncs
      · exact changed (same_of_undisturbed listened reissued quiet undisturbed)
      · have stillNone : (next.objects other).repo = none := by
          rw [renewed.repo, repo_of_listenedAll listened]
          exact noRepo
        exact changed (.of_silent (.inl noRepo.1) (.inl stillNone)
          (deprecatedRepos_of_quiet listened reissued quiet))
    · rw [followed.others other own] at changed
      exact absurd (.refl _) changed

end Commands

section Republish

theorem changed_iff_required (serials : Function.Injective (serialFrom : Nat → Serial))
    (reissued : CaObjectsStore.Reissued surroundings false cas server.caObjectsStore store)
    (issuedBefore : (server.objects handle).EverySet fun _ set => set.Issued decode)
    (issuedAfter : (store.caObjects handle).EverySet fun _ set => set.Issued decode) :
    ¬(server.objects handle).SameElements (store.caObjects handle) ↔
      handle ∈ cas ∧ (server.objects handle).repo.isSome ∧
        (server.objects handle).reIssueRequired (surroundings handle) false
          server.caObjectsStore.issuanceTiming = true := by
  by_cases member : handle ∈ cas
  · have yields := reissued.reissued handle member
    have renewed := renewed_of_reIssue yields
    rw [reIssueRequired_iff]
    constructor
    · intro changed
      refine ⟨member, ?_, ?_⟩
      · by_contra noRepo
        have noRepo := Option.not_isSome_iff_eq_none.mp noRepo
        exact changed (.of_silent (.inl noRepo) (.inl (renewed.repo.trans noRepo))
          renewed.deprecatedRepos)
      · by_contra early
        refine changed (.of_classes renewed.repo (fun rcn => ?_) renewed.deprecatedRepos)
        obtain ⟨due, _⟩ | ⟨_, unchanged⟩ := CaObjects.reissued rfl yields rcn
        · exact absurd ⟨rcn, due⟩ early
        · exact unchanged
    · rintro ⟨_, hasRepo, rcn, due⟩
      exact changed_of_due rfl yields serials issuedBefore issuedAfter (renewed.repo ▸ hasRepo) due
  · have same : store.caObjects handle = server.objects handle := by
      unfold CaObjectsStore.caObjects
      rw [reissued.others handle member]
      rfl
    rw [same]
    exact ⟨fun changed => absurd (.refl _) changed, fun inside => absurd inside.1 member⟩

theorem Republishes.syncs_iff (serials : Function.Injective (serialFrom : Nat → Serial))
    (republishes : server.Republishes order surroundings now false (fun tasks =>
      tasks.schedule .republishIfNeeded (now + minutes 5)) next)
    (issuedBefore : ∀ handle, (server.objects handle).EverySet fun _ set => set.Issued decode)
    (issuedAfter : ∀ handle, (next.objects handle).EverySet fun _ set => set.Issued decode) :
    server.Syncs next ↔ server.LosesNothing (.republish order surroundings now) := by
  cases republishes with
  | all done listed reissued =>
    refine iff_of_true (fun handle changed => ?_) ?_
    · rw [TaskQueue.queued_schedule, TaskQueue.queued_syncRepos]
      obtain ⟨member, _, required⟩ := (changed_iff_required serials reissued
        (issuedBefore handle) (issuedAfter handle)).mp changed
      rw [listed]
      exact .inl (.inr ⟨handle, List.mem_filter.mpr ⟨member, required⟩, rfl⟩)
    · intro pre fail post reported store middle failure signer split early failed
      rw [split, CaObjectsStore.reissueCas_of_error _ early failed] at done
      cases done
  | some split early failed reissued =>
    constructor
    · intro syncs pre fail post reported store middle failure signer again earlier failing ca
        member hasRepo required
      -- every such failure is the one that occurred
      have run := CaObjectsStore.reissueCas_of_error post earlier failing
      rw [← again, split, CaObjectsStore.reissueCas_of_error _ early failed] at run
      cases run
      have distinct : (server.caObjectsStore.cas order).Nodup := HashMap.iter_keys_nodup _ _
      rw [again] at distinct
      have reissued := (CaObjectsStore.reissueCas_eq_ok (List.nodup_append.mp distinct).1 earlier).1
      exact syncs ca ((changed_iff_required serials reissued (issuedBefore ca)
        (issuedAfter ca)).mpr ⟨member, hasRepo, required⟩)
    · intro nothingLost handle changed
      obtain ⟨member, hasRepo, required⟩ := (changed_iff_required serials reissued
        (issuedBefore handle) (issuedAfter handle)).mp changed
      exact nothingLost _ _ _ _ _ _ _ _ split early failed handle member hasRepo required

end Republish

variable {given : Signer → Token → Prop} {meets : CaServer → Request → Prop}
  {activity : Activity}

/-- Where a command or new manifests and CRLs change what a CA should publish, the CA is going
to be synchronised with its repositories if and only if nothing is lost as described. -/
theorem repository_syncs (serials : Function.Injective (serialFrom : Nat → Serial))
    (decodes : Decodes decode) (runs : Runs given meets server)
    (performs : server.Performs activity next) :
    server.Syncs next ↔ server.LosesNothing activity := by
  have issued {server : CaServer} (runs : Runs given meets server) (handle : CaHandle) :
      (server.objects handle).EverySet fun _ set => set.Issued decode :=
    fun _ _ found set member => (runs.issued decodes handle found set member).2
  cases activity with
  | command handle env listening noticing cmd =>
    obtain ⟨ca, events, sends⟩ := performs
    have syncs := (sends.followed runs.keyed).syncs_iff serials (issued runs handle)
      (issued (runs.step (.command sends)) handle)
    rw [syncs]
    obtain ⟨_, known, accepted, _, _, _⟩ := sends
    constructor
    · intro notices other others used found again
      cases known.symm.trans found
      cases accepted.symm.trans again
      exact notices
    · exact fun nothingLost => nothingLost ca events _ known accepted
  | republish order surroundings now =>
    subst performs
    exact (republish_spec server order surroundings now false _).syncs_iff serials
      (issued runs) (issued (runs.step (.republishIfNeeded order surroundings now)))

end CaServer

end Krill.Daemon

namespace Krill.Daemon.Recorded

open Ca Ca.Numbered
open CaServer

def signable : List ToBeSigned := Ca.Recorded.signable ++ Ca.Recorded.issue 2 2 7 60000

scoped instance (priority := 3000) : KrillSigner :=
  Ca.Recorded.signing signable (pure 0)

def read (base64 : Nat) : Option ToBeSigned := signable[base64]?

theorem reads_signed : Decodes read := fun signed => (Ca.Recorded.index_of_signed signed).1

def enrolling (server : CaServer) : Option CaServer :=
  enrol.foldlM (fun server cmd => server.sendCommand "ca" env cmd) server

theorem enrolling_runs (runs : Runs given meets server) (enrolled : enrolling server = some next) :
    Runs given meets next := by
  unfold enrolling at enrolled
  generalize enrol = cmds at enrolled
  induction cmds generalizing server with
  | nil =>
    cases enrolled
    exact runs
  | cons cmd rest induction =>
    obtain ⟨between, first, others⟩ := Option.bind_eq_some_iff.mp enrolled
    obtain ⟨ca, events, sends⟩ := sends_of_sendCommand first
    exact induction (runs.step (.command sends)) others

def started : CaServer :=
  ((CaServer.new config.issuanceTiming (0 : Nat)).initCa "ca").get (by decide +kernel)

def enrolled : CaServer := (enrolling started).get (by decide +kernel)

theorem enrolled_runs : Runs given meets enrolled :=
  enrolling_runs ((Runs.init _ _).step (.initCa (Option.some_get _).symm)) (Option.some_get _).symm

def later : Surroundings := { env with now := 60000 }

theorem enrolled_syncs_after_republish :
    enrolled.Syncs (enrolled.republishIfNeeded .stored (fun _ => later) 60000) ∧
      ¬(enrolled.objects "ca").SameElements
        ((enrolled.republishIfNeeded .stored (fun _ => later) 60000).objects "ca") := by
  have runs : Runs counted (fun _ _ => True) enrolled := enrolled_runs
  have performs : enrolled.Performs (.republish .stored (fun _ => later) 60000)
      (enrolled.republishIfNeeded .stored (fun _ => later) 60000) := rfl
  refine ⟨(repository_syncs (fun _ _ same => same) reads_signed runs performs).mpr ?_,
    fun same => absurd (same.1 .stored .stored (contact 0)) (by decide +kernel)⟩
  intro pre fail post reported store middle failure signer split
  have single : enrolled.caObjectsStore.cas .stored = ["ca"] := by decide +kernel
  rw [single] at split
  obtain ⟨rfl, _⟩ | ⟨_, impossible⟩ := List.append_eq_singleton_iff.mp split.symm
  · exact fun _ _ _ member => absurd member List.not_mem_nil
  · cases impossible

def startTask (server : CaServer) : Option CaServer :=
  match server.tasks.pop .stored 2000 with
  | some (task, rest) => some { server with
      tasks := rest, atWork := task.ca.toList ++ server.atWork }
  | none => none

theorem startTask_runs (runs : Runs given meets server) (started : startTask server = some next) :
    Runs given meets next := by
  unfold startTask at started
  split at started
  case h_1 task rest popped =>
    cases started
    exact runs.step (.startTask popped)
  case h_2 => cases started

def synced : CaServer := ((startTask enrolled).bind startTask).get (by decide +kernel)

theorem synced_runs : Runs given meets synced := by
  have done : (startTask enrolled).bind startTask = some synced := (Option.some_get _).symm
  obtain ⟨between, first, second⟩ := Option.bind_eq_some_iff.mp done
  exact startTask_runs (startTask_runs enrolled_runs first) second

def renewed : CaServer := (synced.sendCommand "ca" later .generateNewIdKey).get (by decide +kernel)

/-- A command that has nothing to do with published objects comes when it is time for new
manifests and CRLs. They are made and not synchronised. -/
theorem renewed_without_sync : Runs counted (fun _ _ => True) synced ∧
      synced.Performs (.command "ca" later later later .generateNewIdKey) renewed ∧
      ¬synced.Syncs renewed := by
  refine ⟨synced_runs, sends_of_sendCommand (Option.some_get _).symm, fun syncs => ?_⟩
  have unqueued : ¬renewed.tasks.Queued (.syncRepo "ca") := by decide +kernel
  refine unqueued (syncs "ca" fun same => ?_)
  exact absurd (same.1 .stored .stored (contact 0)) (by decide +kernel)

end Krill.Daemon.Recorded
