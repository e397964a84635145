import Krill.Daemon.CaServer
import Krill.Ca.DeprecatedRepos
import Krill.Ca.KeySimulation

namespace Krill.Daemon

open Ca Ca.KrillSigner
open CaObjectsStore (caObjects caObjects_putCaObjects reissueCa reissueCas)
open HashMap
open TaskQueue
open Stateful

variable [Rpki] [KrillSigner]

namespace CaServer

structure Tidy (server : CaServer) : Prop where
  objects : ∀ {handle}, (server.caObjectsStore.store.get handle).isSome → server.Known handle
  status : ∀ {handle}, handle ∈ server.statusStore → server.Known handle
  tasks : ∀ {task handle}, server.tasks.Queued task → task.ca = some handle →
    server.Known handle
  atWork : ∀ {handle}, handle ∈ server.atWork → server.Known handle

/-- Before a CA is deleted nothing was stored for its objects, and no task or request for it is
in progress. Synchronisation is asked for CAs that are there. -/
def LeavesNothing (server : CaServer) : Request → Prop
  | .deleteCa handle => server.caObjectsStore.store.get handle = none ∧ handle ∉ server.atWork
  | .syncRepo handle => server.Known handle

variable {given : Signer → Token → Prop} {server next : CaServer}

variable {handle : CaHandle}

theorem Tidy.serves (tidy : server.Tidy) (serves : server.Serves handle) : server.Known handle :=
  serves.elim id tidy.atWork

theorem known_insert (known : server.Known other) :
    ((server.caStore.insert handle ca).get other).isSome := by
  rw [get_insert]
  split
  · rfl
  · exact known

theorem Tidy.addCa (tidy : server.Tidy) (done : server.addCa handle = some next) :
    next.Tidy := by
  obtain ⟨_, cert, signer, _, rfl⟩ := addCa_eq_some done
  exact ⟨fun stored => known_insert (tidy.objects stored),
    fun listed => known_insert (tidy.status listed),
    fun queued own => known_insert (tidy.tasks queued own),
    fun listed => known_insert (tidy.atWork listed)⟩

theorem Tidy.deleteCa (tidy : server.Tidy) (met : server.LeavesNothing (.deleteCa handle))
    (done : server.deleteCa handle = some next) : next.Tidy := by
  cases deleteCa_eq_some done
  obtain ⟨unstored, idle⟩ := met
  have remains {other : CaHandle} (known : server.Known other) (apart : other ≠ handle) :
      ((server.caStore.remove handle).get other).isSome := by
    rw [get_remove, if_neg apart]
    exact known
  refine ⟨fun stored => ?_, fun listed => ?_, fun queued own => ?_, fun listed => ?_⟩
  · refine remains (tidy.objects stored) ?_
    rintro rfl
    rw [unstored] at stored
    cases stored
  · obtain ⟨listed, apart⟩ := List.mem_filter.mp listed
    exact remains (tidy.status listed) (of_decide_eq_true apart)
  · obtain ⟨queued, apart⟩ := queued_removeTasksForCa.mp queued
    refine remains (tidy.tasks queued own) ?_
    rintro rfl
    exact apart own
  · refine remains (tidy.atWork listed) ?_
    rintro rfl
    exact idle listed

theorem Sends.tidy (keyed : server.Keyed) (tidy : server.Tidy)
    (sends : server.Sends handle env listening noticing cmd ca events next) : next.Tidy := by
  have own := (sends.followed keyed).own
  cases sends with
  | sent last known accepted yields applied listened =>
    have isKnown : server.Known handle := Option.isSome_of_eq_some known
    have same : last.handle = handle := by
      rw [CertAuth.applyAll_eq] at applied
      exact (CaManager.handle_of_applyNextAll applied).trans (keyed known)
    obtain ⟨objects, _, _, stored⟩ := bind_eq_ok.mp listened
    cases stored
    refine ⟨fun stored => ?_, fun listed => known_insert (tidy.status listed),
      fun queued about => ?_, fun listed => known_insert (tidy.atWork listed)⟩
    · obtain ⟨found, present⟩ := Option.isSome_iff_exists.mp stored
      obtain ⟨rfl, _⟩ | present := get_insert_eq_some present
      · exact known_insert (same ▸ isKnown)
      · exact known_insert (tidy.objects (Option.isSome_of_eq_some present))
    · obtain before | ⟨event, member, isOwn⟩ := ca_of_listen queued
      · exact known_insert (tidy.tasks before about)
      · cases about.symm.trans isOwn
        exact known_insert (own event member ▸ isKnown)

variable {surroundings : CaHandle → Surroundings} {force : Bool}

theorem Republishes.tidy (tidy : server.Tidy)
    (replans : ∀ {queue task}, (replan queue).Queued task → queue.Queued task ∨ task.ca = none)
    (republishes : server.Republishes order surroundings now force replan next) : next.Tidy := by
  have listed {cas : List CaHandle} {store : CaObjectsStore}
      (within : ∀ ca ∈ cas, ca ∈ server.caObjectsStore.cas order)
      (reissued : CaObjectsStore.Reissued surroundings force cas server.caObjectsStore store)
      {handle : CaHandle} (stored : (store.store.get handle).isSome) : server.Known handle := by
    by_cases member : handle ∈ cas
    · exact tidy.objects (mem_iter_keys.mp (within handle member))
    · rw [reissued.others handle member] at stored
      exact tidy.objects stored
  cases republishes with
  | all done reported reissued =>
    refine ⟨listed (fun _ => id) reissued, tidy.status, fun queued about => ?_, tidy.atWork⟩
    obtain queued | none := replans queued
    · obtain queued | ⟨ca, member, rfl⟩ := queued_syncRepos.mp queued
      · exact tidy.tasks queued about
      · cases about
        rw [reported] at member
        exact tidy.objects (mem_iter_keys.mp (List.mem_of_mem_filter member))
    · rw [none] at about
      cases about
  | some split early failed reissued =>
    refine ⟨listed (fun ca member => ?_) reissued, tidy.status, tidy.tasks, tidy.atWork⟩
    rw [split]
    exact List.mem_append_left _ member

variable {objects : CaObjects}

theorem Tidy.putCaObjects (tidy : server.Tidy) (known : server.Known handle)
    (stored : ((server.caObjectsStore.putCaObjects handle objects).store.get other).isSome) :
    server.Known other := by
  obtain ⟨found, present⟩ := Option.isSome_iff_exists.mp stored
  obtain ⟨rfl, _⟩ | present := get_insert_eq_some present
  · exact known
  · exact tidy.objects (Option.isSome_of_eq_some present)

theorem Step.tidy (keyed : server.Keyed) (tidy : server.Tidy)
    (step : Step given LeavesNothing server next) : next.Tidy := by
  cases step with
  | initCa done => exact tidy.addCa (initCa_eq_some done)
  | initTa done => exact tidy.addCa done
  | command sends => exact sends.tidy keyed tidy
  | republishAll order surroundings now force =>
    exact (republish_spec server order surroundings now force id).tidy tidy .inl
  | republishIfNeeded order surroundings now =>
    refine (republish_spec server order surroundings now false _).tidy tidy fun queued => ?_
    exact (queued_schedule.mp queued).imp_right fun same => by rw [same]; rfl
  | deprecatedRepoRemove serves toRemove =>
    exact ⟨tidy.putCaObjects (tidy.serves serves), tidy.status, tidy.tasks, tidy.atWork⟩
  | deprecatedRepoIncCleanAttempts serves contact =>
    exact ⟨tidy.putCaObjects (tidy.serves serves), tidy.status, tidy.tasks, tidy.atWork⟩
  | status serves =>
    refine ⟨tidy.objects, fun listed => ?_, tidy.tasks, tidy.atWork⟩
    obtain rfl | listed := List.mem_cons.mp listed
    · exact tidy.serves serves
    · exact tidy.status listed
  | schedule serves priority =>
    refine ⟨tidy.objects, tidy.status, fun queued about => ?_, tidy.atWork⟩
    obtain queued | rfl := queued_schedule.mp queued
    · exact tidy.tasks queued about
    · exact tidy.serves (serves _ about)
  | syncRepo met priority =>
    refine ⟨tidy.objects, tidy.status, fun queued about => ?_, tidy.atWork⟩
    obtain queued | rfl := queued_schedule.mp queued
    · exact tidy.tasks queued about
    · cases about
      exact met
  | startTask popped =>
    refine ⟨tidy.objects, tidy.status, fun queued about => ?_, fun listed => ?_⟩
    · exact tidy.tasks ((queued_before_pop popped).2 _ queued) about
    · obtain own | listed := List.mem_append.mp listed
      · exact tidy.tasks (queued_before_pop popped).1 (Option.mem_toList.mp own)
      · exact tidy.atWork listed
  | startRequest known =>
    refine ⟨tidy.objects, tidy.status, tidy.tasks, fun listed => ?_⟩
    obtain rfl | listed := List.mem_cons.mp listed
    · exact known
    · exact tidy.atWork listed
  | finish handle =>
    exact ⟨tidy.objects, tidy.status, tidy.tasks, fun listed =>
      tidy.atWork (List.mem_of_mem_erase listed)⟩
  | restart =>
    refine ⟨tidy.objects, tidy.status, fun queued => absurd rfl queued, fun listed => ?_⟩
    exact absurd listed List.not_mem_nil
  | deleteCa met done => exact tidy.deleteCa met done
  | signed remembers => exact ⟨tidy.objects, tidy.status, tidy.tasks, tidy.atWork⟩

theorem Runs.tidy (runs : Runs given LeavesNothing server) : server.Tidy := by
  induction runs with
  | init issuanceTiming signer =>
    exact ⟨nofun, nofun, fun queued => absurd rfl queued, nofun⟩
  | step runs step induction => exact step.tidy runs.keyed induction

abbrev StartedFresh (given : Signer → Token → Prop) (server : CaServer) (ca : CertAuth) : Prop :=
  CaManager.Runs given (fun _ _ => True) ⟨ca, server.caObjectsStore, server.signer⟩

def FailsSafely (given : Signer → Token → Prop) : Prop :=
  ∀ start, KeptByAttempts fun signer => ∀ token, given start token → given signer token

variable {ca : CertAuth} {signer used : Signer}

theorem elsewhere (runs : CaManager.Runs given (fun _ _ => True) ⟨ca, store, signer⟩)
    (same : stored.caObjects ca.handle = store.caObjects ca.handle)
    (remembers : ∀ token, given signer token → given used token) :
    CaManager.Runs given (fun _ _ => True) ⟨ca, stored, used⟩ :=
  runs.step (.elsewhere same remembers)

theorem remembers_of_reissueCa (safely : FailsSafely given) (env : Surroundings) (force : Bool)
    (handle : CaHandle) (store : CaObjectsStore) (signer : Signer) :
    ∀ token, given signer token → given (lastState
      (reissueCa env force handle (store, signer))).2 token := by
  have always : Stateful.Always (fun used => ∀ token, given signer token → given used token)
      (store.withCaObjects handle fun objects =>
        objects.reIssue env force store.issuanceTiming) :=
    .bind ((store.caObjects handle).reIssue_always (safely signer) _ _ _) fun _ => .pure _
  have remembers := always signer fun _ known => known
  unfold reissueCa
  dsimp only
  cases ran : store.withCaObjects handle (fun objects =>
      objects.reIssue env force store.issuanceTiming) signer with
  | ok | error =>
    rw [ran] at remembers
    exact remembers

theorem runs_of_reissueCa (safely : FailsSafely given)
    (runs : CaManager.Runs given (fun _ _ => True) ⟨ca, store, signer⟩)
    (done : reissueCa env force handle (store, signer) =
      .ok required (stored, used)) : CaManager.Runs given (fun _ _ => True) ⟨ca, stored, used⟩ := by
  have remembers := remembers_of_reissueCa safely env force handle store signer
  rw [done] at remembers
  obtain ⟨_, objects, reissued, rfl⟩ := CaObjectsStore.reissueCa_eq_ok done
  by_cases own : handle = ca.handle
  · subst own
    exact runs.step (.reIssue trivial (bind_of_ok reissued))
  · refine elsewhere runs ?_ remembers
    rw [caObjects_putCaObjects, if_neg (Ne.symm own)]

theorem runs_of_reissueCas (safely : FailsSafely given)
    (surroundings : CaHandle → Surroundings) (force : Bool) (cas : List CaHandle)
    (runs : CaManager.Runs given (fun _ _ => True) ⟨ca, store, signer⟩) :
    let last := lastState (reissueCas surroundings force cas (store, signer))
    CaManager.Runs given (fun _ _ => True) ⟨ca, last.1, last.2⟩ := by
  induction cas generalizing store signer with
  | nil => exact runs
  | cons handle rest induction =>
    unfold reissueCas
    cases here : reissueCa (surroundings handle) force handle (store, signer) with
    | error failure state =>
      obtain ⟨kept, used⟩ := state
      have remembers := remembers_of_reissueCa safely (surroundings handle) force handle
        store signer
      rw [here] at remembers
      have same := CaObjectsStore.reissueCa_eq_error here
      subst same
      rw [bind_of_error here]
      exact elsewhere runs rfl remembers
    | ok required state =>
      obtain ⟨between, middle⟩ := state
      have next := induction (runs_of_reissueCa safely runs here)
      rw [bind_of_ok here]
      cases later : reissueCas surroundings force rest (between, middle) with
      | ok others state =>
        rw [later] at next
        rw [bind_of_ok later]
        exact next
      | error failure state =>
        rw [later] at next
        rw [bind_of_error later]
        exact next

theorem runs_of_republish (safely : FailsSafely given) (fresh : server.StartedFresh given ca) :
    (server.republish order surroundings now force replan).StartedFresh given ca := by
  have runs := runs_of_reissueCas safely surroundings force (server.caObjectsStore.cas order) fresh
  unfold republish
  cases done : reissueCas surroundings force (server.caObjectsStore.cas order)
      (server.caObjectsStore, server.signer) with
  | ok | error =>
    rw [done] at runs
    exact runs

theorem Sends.startedFresh (laws : SignerLaws given) (keyed : server.Keyed)
    (fresh : ∀ {handle ca}, server.caStore.get handle = some ca → server.StartedFresh given ca)
    (sends : server.Sends handle env listening noticing cmd sender events next)
    (found : next.caStore.get other = some ca) : next.StartedFresh given ca := by
  have others := (sends.followed keyed).others
  cases sends with
  | sent last known accepted yields applied listened =>
    by_cases own : other = handle
    · have isLast : ca = last := by
        rw [own] at found
        exact (Option.some.inj ((get_insert_self _ _ _).symm.trans found)).symm
      subst isLast
      exact (fresh known).step (.command trivial accepted yields applied listened)
    · have before : server.caStore.get other = some ca :=
        ((get_insert _ _ _ _).trans (if_neg own)).symm.trans found
      refine elsewhere (fresh before) ?_ ?_
      · rw [keyed before]
        exact others other own
      · obtain ⟨objects, _, followed, stored⟩ := bind_eq_ok.mp listened
        cases stored
        have drawn := CertAuth.processCommand_drawn laws accepted
        have signs := (CaManager.Remembers.ofLaws laws).signs server.signer
        exact (CaObjects.listen_triple signs events).kept drawn.kept followed

theorem startedFresh_of_add (laws : SignerLaws given) (tidy : server.Tidy)
    (fresh : ∀ {handle ca}, server.caStore.get handle = some ca → server.StartedFresh given ca)
    (done : server.addCa handle = some next) (found : next.caStore.get other = some ca) :
    next.StartedFresh given ca := by
  obtain ⟨unknown, cert, signer, made, rfl⟩ := addCa_eq_some done
  obtain ⟨_, rfl⟩ | found := get_insert_eq_some found
  · have unstored : server.caObjectsStore.store.get handle = none :=
      Option.not_isSome_iff_eq_none.mp fun stored => by
        have known := tidy.objects stored
        unfold Known at known
        rw [unknown] at known
        cases known
    exact .init unstored
  · exact elsewhere (fresh found) rfl (laws.createSelfSignedIdCert made).kept

theorem startedFresh_of_clean (fresh : server.StartedFresh given ca)
    (cleans : ∀ manager : CaManager, manager.ca.handle = handle → manager.objects =
      server.objects handle → CaManager.Step given (fun _ _ => True) manager { manager with
        caObjectsStore := manager.caObjectsStore.putCaObjects handle objects }) :
    CaManager.Runs given (fun _ _ => True)
      ⟨ca, server.caObjectsStore.putCaObjects handle objects, server.signer⟩ := by
  by_cases own : ca.handle = handle
  · refine fresh.step (cleans ⟨ca, server.caObjectsStore, server.signer⟩ own ?_)
    rw [← own]
    rfl
  · refine elsewhere fresh ?_ fun _ known => known
    rw [caObjects_putCaObjects, if_neg own]

theorem Runs.startedFresh (laws : SignerLaws given) (safely : FailsSafely given)
    (runs : Runs given LeavesNothing server) (found : server.caStore.get handle = some ca) :
    server.StartedFresh given ca := by
  induction runs generalizing handle ca with
  | init issuanceTiming signer => cases found
  | @step server next runs step fresh =>
    cases step with
    | initCa done => exact startedFresh_of_add laws runs.tidy fresh (initCa_eq_some done) found
    | initTa done => exact startedFresh_of_add laws runs.tidy fresh done found
    | command sends => exact sends.startedFresh laws runs.keyed fresh found
    | signed remembers => exact elsewhere (fresh found) rfl remembers
    | republishAll order surroundings now force =>
      have same := (republish_spec server order surroundings now force id).objects.1
      exact runs_of_republish safely (fresh (same ▸ found))
    | republishIfNeeded order surroundings now =>
      have same := (republish_spec server order surroundings now false fun tasks =>
        tasks.schedule .republishIfNeeded (now + minutes 5)).objects.1
      exact runs_of_republish safely (fresh (same ▸ found))
    | @deprecatedRepoRemove cleaned serves toRemove =>
      refine startedFresh_of_clean (fresh found) fun manager own same => ?_
      subst own
      rw [← same]
      exact .deprecatedRepoRemove toRemove
    | @deprecatedRepoIncCleanAttempts cleaned serves contact =>
      refine startedFresh_of_clean (fresh found) fun manager own same => ?_
      subst own
      rw [← same]
      exact .deprecatedRepoIncCleanAttempts contact
    | deleteCa met done =>
      cases deleteCa_eq_some done
      exact fresh (get_of_remove found)
    | _ => exact fresh found

/-- Nothing is left of a CA, nothing is queued for it, and nobody is told of its objects. -/
structure Forgotten (server : CaServer) (handle : CaHandle) : Prop where
  aggregate : server.caStore.get handle = none
  objects : server.caObjectsStore.store.get handle = none
  status : handle ∉ server.statusStore
  tasks : ∀ task, server.tasks.Queued task → task.ca ≠ some handle
  unreported : ∀ order surroundings force reported state,
    CaObjectsStore.reissueCas surroundings force (server.caObjectsStore.cas order)
      (server.caObjectsStore, server.signer) = .ok reported state → handle ∉ reported

theorem Tidy.forgotten (tidy : server.Tidy) (unknown : server.caStore.get handle = none) :
    server.Forgotten handle := by
  have notKnown : ¬server.Known handle := by
    unfold Known
    rw [unknown]
    exact Bool.false_ne_true
  have unstored : server.caObjectsStore.store.get handle = none :=
    Option.not_isSome_iff_eq_none.mp fun stored => notKnown (tidy.objects stored)
  refine ⟨unknown, unstored, fun listed => notKnown (tidy.status listed),
    fun task queued about => notKnown (tidy.tasks queued about), ?_⟩
  rintro order surroundings force reported ⟨store, signer⟩ done member
  have distinct : (server.caObjectsStore.cas order).Nodup := iter_keys_nodup _ _
  obtain ⟨_, rfl⟩ := CaObjectsStore.reissueCas_eq_ok distinct done
  have stored := mem_iter_keys.mp (List.mem_of_mem_filter member)
  rw [unstored] at stored
  cases stored

/-- A CA that leaves nothing behind is forgotten once it is deleted, and a new one with its
handle starts with nothing and behaves like any other: its objects follow what it accepts, so
that it gets its certificates. -/
theorem deletion_complete (laws : SignerLaws given) (safely : FailsSafely given)
    (runs : Runs given LeavesNothing server) (handle : CaHandle) :
    (∀ next, server.LeavesNothing (.deleteCa handle) → server.deleteCa handle = some next →
      next.Forgotten handle) ∧
    (server.caStore.get handle = none → server.Forgotten handle) ∧
    (∀ next, server.initCa handle = some next → next.objects handle = .new handle) ∧
    ∀ ca, server.caStore.get handle = some ca → server.StartedFresh given ca ∧
      ∀ env later listening rcn cert config events used last failure signer,
        ca.processCommand env (.updateRcvdCert rcn cert config) server.signer =
          .ok events used → ca.applyAll later events = some last →
        server.caObjectsStore.listen listening last events used = .error failure signer →
        failure.IsSigner := by
  refine ⟨fun next met done => ?_, runs.tidy.forgotten, fun next done => ?_, fun ca found => ?_⟩
  · refine (runs.step (.deleteCa met done)).tidy.forgotten ?_
    cases deleteCa_eq_some done
    exact get_remove_self _ _
  · obtain ⟨unknown, cert, signer, _, rfl⟩ := addCa_eq_some (initCa_eq_some done)
    change server.caObjectsStore.caObjects handle = .new handle
    unfold caObjects
    rw [(runs.tidy.forgotten unknown).objects]
    rfl
  · have fresh := runs.startedFresh laws safely found
    refine ⟨fresh, ?_⟩
    intro env later listening rcn cert config events used last failure signer accepted applied
      failed
    exact fresh.listener_fails_by_signer laws accepted applied trivial failed

/-- Whatever the server does for other CAs, the objects of a CA are for its certified keys
and its repository. -/
theorem objects_follow_cas (laws : SignerLaws given) (safely : FailsSafely given)
    (runs : Runs given LeavesNothing server) (found : server.caStore.get handle = some ca) :
    ca.handle = handle ∧ (server.objects handle).repo = ca.repository ∧
      ∀ rcn, Mirrors ((ca.resources.get rcn).map ResourceClass.keyState)
        ((server.objects handle).classes.get rcn) := by
  have own : ca.handle = handle := runs.keyed found
  have fresh := runs.startedFresh laws safely found
  subst own
  exact ⟨rfl, fresh.sameRepo, fun rcn => ((fresh.mirrored laws).classes rcn).mirrors⟩

end CaServer

end Krill.Daemon

namespace Krill.Daemon.Numbered

open Ca Ca.Numbered
open CaServer

theorem counts_safely : FailsSafely counted := by
  intro start
  exact ⟨fun signer known token given => counted_grows signer token (known token given),
    fun _ _ signer known token given => counted_grows signer token (known token given)⟩

def sendCommands (server : CaServer) (cmds : List CmdDet) : Option CaServer :=
  cmds.foldlM (fun server cmd => server.sendCommand "ca" env cmd) server

theorem sendCommands_runs (runs : Runs counted meets server)
    (sent : sendCommands server cmds = some next) : Runs counted meets next := by
  unfold sendCommands at sent
  induction cmds generalizing server with
  | nil =>
    cases sent
    exact runs
  | cons cmd rest induction =>
    obtain ⟨between, first, others⟩ := Option.bind_eq_some_iff.mp sent
    obtain ⟨ca, events, sends⟩ := sends_of_sendCommand first
    exact induction (runs.step (.command sends)) others

/-- The CA publishes in repository 0 and is about to get its first certificate. -/
def apply : List CmdDet :=
  [.repoUpdate (contact 0), .addParent "parent" (.rfc6492 (0 : Nat)),
   .updateEntitlements "parent" [entitlement 7]]

def receive (key : Nat) : CmdDet := .updateRcvdCert "0" (received key 7) config

def created : CaServer :=
  ((CaServer.new config.issuanceTiming (0 : Nat)).initCa "ca").get (by decide +kernel)

theorem created_runs : Runs counted meets created :=
  (Runs.init _ _).step (.initCa (Option.some_get _).symm)

def emptied : CaServer := (created.deleteCa "ca").get (by decide +kernel)

def remade : CaServer := (emptied.initCa "ca").get (by decide +kernel)

def applying : CaServer := (sendCommands remade apply).get (by decide +kernel)

def applicant : CertAuth := (applying.caStore.get "ca").get (by decide +kernel)

theorem unused_leavesNothing : created.LeavesNothing (.deleteCa "ca") :=
  ⟨rfl, List.not_mem_nil⟩

theorem emptied_runs : Runs counted LeavesNothing emptied :=
  created_runs.step (.deleteCa unused_leavesNothing (Option.some_get _).symm)

theorem applying_runs : Runs counted LeavesNothing applying :=
  sendCommands_runs (emptied_runs.step (.initCa (Option.some_get _).symm)) (Option.some_get _).symm

theorem unused_deletion_complete : emptied.Forgotten "ca" ∧ remade.objects "ca" = .new "ca" ∧
      ∃ ca events used last, applying.caStore.get "ca" = some ca ∧
        ca.processCommand env (receive 2) applying.signer = .ok events used ∧
        ca.applyAll env events = some last ∧
        ∀ failure signer, applying.caObjectsStore.listen env last events used =
          .error failure signer → failure.IsSigner := by
  have deletes := (deletion_complete counted_laws counts_safely created_runs "ca").1
  have creates := (deletion_complete counted_laws counts_safely emptied_runs "ca").2.2.1
  have follows := (deletion_complete counted_laws counts_safely applying_runs "ca").2.2.2
  refine ⟨deletes _ unused_leavesNothing (Option.some_get _).symm,
    creates _ (Option.some_get _).symm, ?_⟩
  have replayed : (applicant.replay env applying.signer [receive 2]).isSome := by decide +kernel
  obtain ⟨events, used, last, accepted, applied⟩ := CertAuth.accepted_of_replay replayed
  have found : applying.caStore.get "ca" = some applicant := (Option.some_get _).symm
  refine ⟨applicant, events, used, last, found, accepted, applied, fun failure signer failed => ?_⟩
  exact (follows _ found).2 _ _ _ _ _ _ _ _ _ _ _ accepted applied failed

theorem applicant_followed : (applying.objects "ca").repo = applicant.repository :=
  (objects_follow_cas counted_laws counts_safely applying_runs (Option.some_get _).symm).2.1

def used : CaServer := (sendCommands created (apply ++ [receive 1])).get (by decide +kernel)

def deleted : CaServer := (used.deleteCa "ca").get (by decide +kernel)

def recreated : CaServer := (deleted.initCa "ca").get (by decide +kernel)

def reapplying : CaServer := (sendCommands recreated apply).get (by decide +kernel)

def refusal (server : CaServer) (handle : CaHandle) (cmd : CmdDet) : Option Error :=
  match server.caStore.get handle with
  | none => none
  | some ca =>
    match ca.processCommand env cmd server.signer with
    | .error _ _ => none
    | .ok events used =>
      match ca.applyAll env events with
      | none => none
      | some last =>
        match server.caObjectsStore.listen env last events used with
        | .ok _ _ => none
        | .error failure _ => some failure

theorem listener_of_refusal {failure : Error} (refused : refusal server handle cmd = some failure) :
    ∃ ca events used last signer, server.caStore.get handle = some ca ∧
      ca.processCommand env cmd server.signer = .ok events used ∧
      ca.applyAll env events = some last ∧
      server.caObjectsStore.listen env last events used = .error failure signer := by
  unfold refusal at refused
  split at refused
  · cases refused
  next ca known =>
    split at refused
    · cases refused
    next events used accepted =>
      split at refused
      · cases refused
      next last applied =>
        split at refused
        · cases refused
        next found signer failed =>
          cases refused
          exact ⟨ca, events, used, last, signer, known, accepted, applied, failed⟩

def message : Option Error → String
  | some (.publishing message) => message
  | _ => ""

theorem refusal_of_message (given : message answer = text) (some : text ≠ "") :
    answer = .some (.publishing text) := by
  unfold message at given
  split at given
  · rw [given]
  · exact absurd given.symm some

/-- The objects stay, they are made anew and reported like those of any CA, and the new CA does
not get its first certificate. -/
theorem used_deletion_incomplete :
    Runs counted (fun _ _ => True) used ∧ used.deleteCa "ca" = some deleted ∧
      (deleted.caObjectsStore.store.get "ca").isSome ∧
      (deleted.republishAll .stored (fun _ => env) 2000 true).tasks.Queued (.syncRepo "ca") ∧
      deleted.initCa "ca" = some recreated ∧
      (recreated.objects "ca").classes.containsKey "0" ∧
      Runs counted (fun _ _ => True) reapplying ∧
      ∃ ca events used last signer, reapplying.caStore.get "ca" = some ca ∧
        ca.processCommand env (receive 10) reapplying.signer = .ok events used ∧
        ca.applyAll env events = some last ∧
        reapplying.caObjectsStore.listen env last events used =
          .error (.publishing "Duplicate resource class") signer := by
  have runs : Runs counted (fun _ _ => True) used :=
    sendCommands_runs created_runs (Option.some_get _).symm
  have deletes : used.deleteCa "ca" = some deleted := (Option.some_get _).symm
  have creates : deleted.initCa "ca" = some recreated := (Option.some_get _).symm
  have again : Runs counted (fun _ _ => True) reapplying :=
    sendCommands_runs ((runs.step (.deleteCa trivial deletes)).step (.initCa creates))
      (Option.some_get _).symm
  have refused : message (refusal reapplying "ca" (receive 10)) = "Duplicate resource class" := by
    decide +kernel
  exact ⟨runs, deletes, by decide +kernel, by decide +kernel, creates, by decide +kernel, again,
    listener_of_refusal (refusal_of_message refused (by decide))⟩

end Krill.Daemon.Numbered
