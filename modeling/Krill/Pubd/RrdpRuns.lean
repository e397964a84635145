import Krill.Pubd.Agreement

namespace Krill.Pubd

open Rpki Changeset

variable [Rpki]

namespace RepositoryContent

/-- How a command moves the RRDP server: the served data is left alone, a new
session starts, or an update brings the snapshot to what is published. -/
inductive Moves (command : RepositoryContentCommand) (before after : RrdpServer)
    (published old new : ContentMap) : Prop
  | kept (serial : after.serial = before.serial)
      (deltas : after.deltas = before.deltas) (same : new = old)
  | reset (command : command = .resetSession) (deltas : after.deltas = [])
  | updated (update : RrdpUpdated) (order : IterOrder)
      (served : after = before.applyRrdpUpdated update order)
      (same : new = published)

variable {published : ContentMap}

theorem Consistent.step (rule : WithdrawRule matching allowed) (disjoint : DisjointJails jail)
    (consistent : Consistent jail matching before published snapshot)
    (accepted : before.Accepts jail command) (orderly : before.Orderly allowed command)
    (sent : before.sendCommand env command = .ok after) :
    ∃ published' snapshot', Consistent jail matching after published' snapshot' ∧
      Moves command before.rrdp after.rrdp published snapshot snapshot' := by
  cases sent_of_ok sent with
  | reset => exact ⟨_, _, consistent.sessionReset env _, .reset rfl rfl⟩
  | added => exact ⟨_, _, consistent.addPublisher disjoint accepted _, .kept rfl rfl rfl⟩
  | unknown => exact ⟨_, _, consistent, .kept rfl rfl rfl⟩
  | removed known =>
    exact ⟨_, _, consistent.removePublisher rule disjoint known orderly _ _, .kept rfl rfl rfl⟩
  | published known =>
    obtain ⟨objects, found, verified⟩ := verifyRequest_eq_ok.mp accepted
    cases known.symm.trans found
    exact ⟨_, _, consistent.publish rule disjoint known verified orderly _,
      .kept rfl rfl rfl⟩
  | updated => exact ⟨_, _, consistent.rrdpUpdated rule _ _ _, .updated _ _ rfl rfl⟩
  | unneeded => exact ⟨_, _, consistent, .kept rfl rfl rfl⟩

def follow : List DeltaData → ContentMap → Option ContentMap
  | [], content => some content
  | delta :: rest, content =>
    (strictApply toHash delta.elements.changes content).bind (follow rest)

theorem follow_concat (content : ContentMap) : follow (deltas ++ [delta]) content =
      (follow deltas content).bind (strictApply toHash delta.elements.changes) := by
  induction deltas generalizing content with
  | nil => simp [follow]
  | cons first rest induction =>
    simp only [List.cons_append, follow]
    cases strictApply toHash first.elements.changes content with
    | none => rfl
    | some next => exact induction next

/-- The newest delta has the current serial, and each older one is one less. -/
def Descending (server : RrdpServer) : Prop :=
  ∀ ⦃index delta⦄, server.deltas[index]? = some delta → delta.serial + index = server.serial

theorem descending_of_nil (none : server.deltas = []) : Descending server := by
  intro index delta found
  simp [none] at found

theorem Descending.applyRrdpUpdated (descending : Descending server) (update : RrdpUpdated)
    (order : IterOrder) : Descending (server.applyRrdpUpdated update order) := by
  intro index delta found
  obtain ⟨inside, rfl⟩ := List.getElem?_eq_some_iff.mp found
  have listed := List.prefix_iff_getElem?.mp (server.applyRrdpUpdated_deltas update order) _ inside
  cases index with
  | zero => exact congrArg DeltaData.serial (Option.some.inj listed).symm
  | succ index =>
    have older := descending listed
    rw [RrdpServer.applyRrdpUpdated_serial]
    omega

theorem Consistent.strictApply_staged
    (consistent : Consistent jail (Exactly toHash) self published snapshot) (order : IterOrder) :
    strictApply toHash (self.rrdp.stagedElements.intoDeltaElements order).changes snapshot =
        some published := by
  rw [strictApply_eq_patch]
  · exact congrArg some (consistent.staged_patch order)
  · rw [DeltaElements.changes, List.map_map]
    exact StagedElements.intoDeltaElements_distinct consistent.keyed order
  · intro entry listed
    obtain ⟨element, member, rfl⟩ := List.mem_map.mp listed
    exact consistent.staged_fits member

section Moves

theorem Moves.descending (moves : Moves command before after published old new)
    (descending : Descending before) : Descending after := by
  cases moves with
  | kept serial deltas _ =>
    intro index delta found
    rw [deltas] at found
    rw [serial]
    exact descending found
  | reset _ deltas => exact descending_of_nil deltas
  | updated update order served _ => exact served ▸ descending.applyRrdpUpdated update order

theorem Moves.follow (moves : Moves command before after published old new)
    (lasting : command ≠ .resetSession) (applied : ∀ order, strictApply toHash
      (before.stagedElements.intoDeltaElements order).changes old = some published)
    (followed : count ≤ before.deltas.length →
      RepositoryContent.follow (before.deltas.take count).reverse start = some old) :
    ∃ more, after.serial = before.serial + more ∧ (count + more ≤ after.deltas.length →
        RepositoryContent.follow (after.deltas.take (count + more)).reverse start =
          some new) := by
  cases moves with
  | kept serial deltas same =>
    subst same
    rw [serial, deltas]
    exact ⟨0, rfl, followed⟩
  | reset command _ => exact absurd command lasting
  | updated update order served same =>
    subst served same
    refine ⟨1, rfl, ?_⟩
    intro long
    obtain ⟨dropped, kept⟩ := before.applyRrdpUpdated_deltas update order
    have taken : (before.applyRrdpUpdated update order).deltas.take (count + 1) =
        before.nextDelta update order :: before.deltas.take count := by
      have same : ((before.applyRrdpUpdated update order).deltas ++ dropped).take
          (count + 1) = _ := List.take_append_of_le_length long
      rw [kept, List.take_succ_cons] at same
      exact same.symm
    have enough : count ≤ before.deltas.length := by
      have lengths := congrArg List.length kept
      simp only [List.length_append, List.length_cons] at lengths
      omega
    rw [taken, List.reverse_cons, follow_concat, followed enough]
    exact applied order

end Moves

theorem Consistent.run (rule : WithdrawRule matching allowed) (disjoint : DisjointJails jail)
    (consistent : Consistent jail matching before published snapshot)
    (descending : Descending before.rrdp) (run : Run jail (Orderly allowed) before after) :
    ∃ published' snapshot', Consistent jail matching after published' snapshot' ∧
      Descending after.rrdp := by
  induction run with
  | refl => exact ⟨_, _, consistent, descending⟩
  | tail _ step induction =>
    obtain ⟨_, _, reached, descending⟩ := induction
    obtain ⟨env, command, accepted, orderly, sent⟩ := step
    obtain ⟨_, _, next, moves⟩ :=
      reached.step rule disjoint accepted orderly sent
    exact ⟨_, _, next, moves.descending descending⟩

theorem init_descending (env : Surroundings) : Descending (RepositoryContent.init env).rrdp :=
  descending_of_nil rfl

/-- Along runs in which every withdraw leaves the snapshot nothing else at its
URI, an update gives the snapshot exactly what the publishers have. -/
theorem snapshot_eq_published_of_orderly (_injective : Function.Injective toHash)
    (disjoint : DisjointJails jail) {start env : Surroundings}
    {config : RrdpUpdatesConfig} {before after : RepositoryContent}
    (run : Run jail (Orderly SnapshotAllows) (RepositoryContent.init start) before)
    (needed : before.rrdp.updateRrdpNeeded env config = .yes)
    (sent : before.sendCommand env (.createRrdpDelta config) = .ok after) :
    after.rrdp.stagedElements.map.isEmpty = true ∧
      after.snapshotPairs = after.publishedPairs := by
  obtain ⟨published, snapshot, consistent, -⟩ :=
    (Consistent.init start).run lenientRule disjoint (init_descending start) run
  have updated := consistent.rrdpUpdated lenientRule
    (before.rrdp.updateRrdp env config) env.order (before.revision + 1)
  rw [sendCommand_createRrdpDelta needed] at sent
  cases sent
  have unstaged : (before.rrdp.applyRrdpUpdated
      (before.rrdp.updateRrdp env config) env.order).stagedElements.map.isEmpty =
      true := rfl
  exact ⟨unstaged, updated.pairs_eq_of_unstaged unstaged⟩

theorem Consistent.chain (disjoint : DisjointJails jail)
    (consistent : Consistent jail (Exactly toHash) older published snapshot)
    (run : Run jail (fun content command => Orderly SnapshotHolds content command ∧
      command ≠ .resetSession) older current) :
    ∃ published' snapshot' count, Consistent jail (Exactly toHash) current published' snapshot' ∧
      current.rrdp.serial = older.rrdp.serial + count ∧
      (count ≤ current.rrdp.deltas.length →
        follow (current.rrdp.deltas.take count).reverse snapshot = some snapshot') := by
  induction run with
  | refl =>
    refine ⟨_, _, 0, consistent, rfl, ?_⟩
    intro _
    rfl
  | tail _ step induction =>
    obtain ⟨_, _, count, reached, serial, followed⟩ := induction
    obtain ⟨env, command, accepted, ⟨orderly, lasting⟩, sent⟩ := step
    obtain ⟨_, _, next, moves⟩ :=
      reached.step strictRule disjoint accepted orderly sent
    obtain ⟨more, moreSerial, moreFollowed⟩ :=
      moves.follow lasting reached.strictApply_staged followed
    refine ⟨_, _, count + more, next, ?_, moreFollowed⟩
    rw [moreSerial, serial, Nat.add_assoc]

theorem Descending.eq_take (descending : Descending server)
    (kept : ∀ delta ∈ chain, delta ∈ server.deltas)
    (serials : chain.map DeltaData.serial = List.range' (serial + 1) count)
    (newest : server.serial = serial + count) :
    count ≤ server.deltas.length ∧ chain = (server.deltas.take count).reverse := by
  have length : chain.length = count := by
    have lengths := congrArg List.length serials
    simpa using lengths
  have placed : ∀ {index delta}, chain[index]? = some delta →
      server.deltas[count - 1 - index]? = some delta := by
    intro index delta found
    obtain ⟨inside, same⟩ := List.getElem?_eq_some_iff.mp found
    have deltaSerial : delta.serial = serial + 1 + index := by
      have mapped : (chain.map DeltaData.serial)[index]? = some delta.serial := by
        simp [found]
      rw [serials, List.getElem?_range' (by omega)] at mapped
      simpa using mapped.symm
    obtain ⟨position, positioned⟩ :=
      List.mem_iff_getElem?.mp (kept delta (List.mem_of_getElem? found))
    have numbered := descending positioned
    have samePosition : position = count - 1 - index := by omega
    rw [← samePosition]
    exact positioned
  have enough : count ≤ server.deltas.length := by
    cases count with
    | zero => exact Nat.zero_le _
    | succ count =>
      have found := placed (List.getElem?_eq_getElem (i := 0) (by omega))
      have inside := (List.getElem?_eq_some_iff.mp found).1
      omega
  refine ⟨enough, ?_⟩
  apply List.ext_getElem?
  intro index
  by_cases inside : index < count
  · have found := placed (List.getElem?_eq_getElem (by omega : index < chain.length))
    rw [List.getElem?_reverse (by simp; omega), List.length_take,
      Nat.min_eq_left enough, List.getElem?_take_of_lt (by omega), found]
    exact List.getElem?_eq_getElem (by omega)
  · rw [List.getElem?_eq_none (by omega), List.getElem?_eq_none (by simp; omega)]

end RepositoryContent

end Krill.Pubd

namespace Krill.Pubd.Flat

open Rpki RepositoryContent Changeset

theorem toHash_injective : Function.Injective (toHash : Base64 → Hash) :=
  fun _ _ same => same

theorem disjointJails : DisjointJails jail := by
  intro first second uri inFirst inSecond
  simp only [isParentOf, jail, beq_iff_eq] at inFirst inSecond
  exact inFirst.trans inSecond.symm

def env : Surroundings := { now := 0, random := "", session := 0, order := .stored }

def config : RrdpUpdatesConfig where
  rrdpDeltaFilesMinNr := 5
  rrdpDeltaFilesMinSeconds := 1200
  rrdpDeltaFilesMaxNr := 50
  rrdpDeltaFilesMaxSeconds := 7200
  rrdpDeltaIntervalMinSeconds := 0

def file : Uri := ("alice", 1)

def publishFirst : DeltaElements := ⟨[⟨(1 : Nat), file⟩], [], []⟩

def updateFirst : DeltaElements := ⟨[], [⟨file, (1 : Nat), (2 : Nat)⟩], []⟩

def withdrawFirst : DeltaElements := ⟨[], [], [⟨file, (1 : Nat)⟩]⟩

def added : RepositoryContent :=
  { init env with revision := 1, publishers := HashMap.empty.insert "alice" .default }

def published : RepositoryContent where
  revision := 2
  publishers := added.publishers.insert "alice" (CurrentObjects.default.applyDelta publishFirst)
  rrdp := added.rrdp.applyRrdpStaged publishFirst

theorem added_names (hash : Hash) : ¬ added.Names hash uri := by
  intro names
  rcases names with ⟨publisher, objects, known, element, found, -⟩ |
    ⟨element, found, -⟩ | ⟨element, found, -⟩
  · simp only [added, HashMap.get_insert] at known
    split at known
    · cases known
      simp [CurrentObjects.default] at found
    · simp at known
  · simp [added, init, RrdpServer.create, SnapshotData.create, CurrentObjects.default] at found
  · simp [added, init, RrdpServer.create, StagedElements.default] at found

theorem publishFirst_orderly : added.Orderly allowed (.publish "alice" publishFirst) := by
  refine ⟨by decide, ?_, ?_, ?_⟩
  · intro p listed objects base64 known held
    cases known
    obtain ⟨hash, found⟩ := held
    simp [CurrentObjects.default] at found
  · intro hash left right namesLeft namesRight
    have atFile : ∀ {uri}, added.Names hash uri ∨ publishFirst.Names hash uri → uri = file := by
      intro uri names
      rcases names with earlier | ⟨element, member, rfl, -⟩
      · exact absurd earlier (added_names hash)
      · cases List.mem_singleton.mp member
        rfl
    rw [atFile namesLeft, atFile namesRight]
  · intro w listed
    cases listed

theorem published_run : Run jail (Orderly allowed) (init env) published := by
  refine .tail (.single (b := added) ⟨env, .addPublisher "alice", by decide, trivial, ?_⟩)
    ⟨env, .publish "alice" publishFirst, by decide, publishFirst_orderly, ?_⟩
  · rfl
  · rfl

def updated : RepositoryContent :=
  { published with
    revision := 3
    rrdp := published.rrdp.applyRrdpUpdated (published.rrdp.updateRrdp env config) env.order }

theorem updated_agrees : updated.rrdp.stagedElements.map.isEmpty = true ∧
      updated.snapshotPairs = updated.publishedPairs :=
  snapshot_eq_published_of_orderly toHash_injective disjointJails
    (published_run)
    (by decide : published.rrdp.updateRrdpNeeded env config = .yes) rfl

def removedAfterUpdate : List (Surroundings × RepositoryContentCommand) :=
  [(env, .addPublisher "alice"), (env, .publish "alice" publishFirst),
   (env, .createRrdpDelta config), (env, .publish "alice" updateFirst),
   (env, .removePublisher "alice")]

theorem removed_publisher_stays_in_snapshot : ∃ before after,
    Run jail (fun _ _ => True) (init env) before ∧
    before.rrdp.updateRrdpNeeded env config = .yes ∧
    before.sendCommand env (.createRrdpDelta config) = .ok after ∧
    (file, (1 : Nat)) ∈ after.snapshotPairs ∧ after.publishedPairs = ∅ := by
  refine ⟨((init env).replay jail removedAfterUpdate).get (by decide), _,
    replay_run (Option.some_get _).symm, by decide,
    sendCommand_createRrdpDelta (by decide), ⟨(1 : Nat), by decide⟩, ?_⟩
  apply Set.eq_empty_of_forall_notMem
  intro pair member
  obtain ⟨publisher, objects, known, -⟩ := member
  have noPublishers : (((init env).replay jail removedAfterUpdate).get
      (by decide)).publishers.isEmpty = true := by decide
  rw [HashMap.isEmpty_iff.mp noPublishers publisher] at known
  cases known

def withdrawnBeforeUpdate : List (Surroundings × RepositoryContentCommand) :=
  [(env, .addPublisher "alice"), (env, .publish "alice" publishFirst),
   (env, .publish "alice" withdrawFirst)]

end Krill.Pubd.Flat
