import Krill.Pubd.RrdpWrite

namespace Krill.Pubd

open RrdpXml Program RrdpDisk
open Guarantees (bind)

variable [Rpki] [RrdpXml]

namespace RrdpServer

variable {server : RrdpServer}

structure Published (server : RrdpServer) (notification : NotificationFile) : Prop where
  session : notification.sessionId = server.session
  serial : notification.serial = server.serial
  deltas : notification.deltas.map DeltaInfo.key = server.keys

omit [RrdpXml] in
theorem Published.recorded (published : server.Published notification)
    (countdown : Countdown server.serial (server.deltas.map DeltaData.serial)) :
    server.Recorded notification where
  serial_le := published.serial.le
  common := by
    rw [published.deltas, List.filter_eq_self.mpr]
    intro key member
    refine decide_eq_true (published.serial ▸ countdown.le ?_)
    rw [← keys_serial]
    exact List.mem_map_of_mem member
  current := fun _ => published.deltas

theorem Intact.not_guarded (intact : server.Intact disk) {serial : Nat}
    (newer : ∀ notification, readNotification disk = some notification →
      notification.sessionId = server.session → notification.serial < serial) :
    ¬ Guarded disk (.file server.session serial random fileKind) := by
  rintro (impossible | ⟨notification, named, references⟩)
  · cases impossible
  obtain ⟨_, located, _⟩ := intact.named named
  rcases references with snapshot | ⟨delta, member, listed⟩
  · obtain ⟨_, place⟩ := located.snapshot
    rw [place] at snapshot
    injection snapshot with session serial
    have above := newer notification named session.symm
    omega
  · obtain ⟨_, place⟩ := located.deltas delta member
    rw [place] at listed
    injection listed with session serial
    have above := newer notification named session.symm
    have below := located.countdown.le (List.mem_map_of_mem member)
    omega

/-- The files of a list of deltas are there, and nothing of some kind was changed. -/
structure DeltasWritten (kind : RrdpPath → Prop) (start : RrdpDisk)
    (keys : List (Nat × RrdpPath)) (infos : List DeltaInfo) (after : RrdpDisk) : Prop where
  agrees : Agrees kind start after
  keys_eq : infos.map DeltaInfo.key = keys
  holds : ∀ info ∈ infos, Holds after info.uri info.hash

variable {delta : DeltaData}

theorem writeDelta_guarantees (other : ¬ kind (delta.path server.session)) :
    (server.writeDelta delta).Guarantees (Agrees kind disk)
      (fun info after => Agrees kind disk after ∧ info.key = delta.key server.session ∧
        Holds after info.uri info.hash) disk := by
  refine bind ((saveXml_guarantees (Agrees.refl disk) other).mono (fun _ agrees => agrees) ?_)
  rintro _ after ⟨agrees, found⟩
  exact ⟨agrees, agrees, rfl, _, found, rfl⟩

theorem writeNewDeltas_guarantees {deltas : List DeltaData}
    (descending : (deltas.map DeltaData.serial).Pairwise (· > ·))
    (others : ∀ delta ∈ deltas, isIncluded last delta = false →
      ¬ kind (delta.path server.session)) :
    (server.writeNewDeltas last deltas).Guarantees (Agrees kind disk)
      (DeltasWritten kind disk ((deltas.filter fun delta => !isIncluded last delta).map
        (DeltaData.key server.session))) disk := by
  induction deltas generalizing kind disk with
  | nil => exact ⟨Agrees.refl disk, Agrees.refl disk, rfl, fun _ member => by cases member⟩
  | cons delta rest induction =>
    obtain ⟨smaller, restDescending⟩ := List.pairwise_cons.mp descending
    unfold writeNewDeltas
    cases included : isIncluded last delta with
    | true =>
      rw [if_pos rfl, List.filter_cons_of_neg (by simp [included])]
      exact induction restDescending fun other member =>
        others other (List.mem_cons_of_mem _ member)
    | false =>
      rw [if_neg (by simp), List.filter_cons_of_pos (by simp [included])]
      refine bind ((writeDelta_guarantees (others delta List.mem_cons_self
        included)).mono (fun _ agrees => agrees) ?_)
      rintro info between ⟨written, key, holds⟩
      have uri : info.uri = delta.path server.session := congrArg Prod.snd key
      -- from now on the file of this delta must not be changed either
      have apart : ∀ other ∈ rest, isIncluded last other = false →
          ¬ Also kind info.uri (other.path server.session) := by
        rintro other member new (among | same)
        · exact others other (List.mem_cons_of_mem _ member) new among
        · have lower := smaller other.serial (List.mem_map_of_mem member)
          rw [uri] at same
          injection same with _ serial
          omega
      refine bind ((induction restDescending apart).mono ?_ ?_)
      · exact fun _ agrees => written.also agrees
      · intro infos after rest
        have agrees := written.also rest.agrees
        refine ⟨agrees, agrees, ?_, ?_⟩
        · rw [List.map_cons, List.map_cons, rest.keys_eq, key]
        · rintro listed (_ | ⟨_, member⟩)
          · exact rest.agrees.holds (.inr rfl) holds
          · exact rest.holds listed member

theorem writeDeltaFiles_guarantees (intact : server.Intact disk) :
    (server.writeDeltaFiles (readNotification disk)).Guarantees (Agrees (Guarded disk) disk)
      (DeltasWritten (Guarded disk) disk server.keys) disk := by
  have new : ∀ delta ∈ server.deltas,
      isIncluded (server.deltasFromOldNotification (readNotification disk)).getLast? delta =
        false → ¬ Guarded disk (delta.path server.session) := by
    intro delta member notIncluded
    refine intact.not_guarded fun notification named same => ?_
    obtain ⟨_, located, recorded⟩ := intact.named named
    rw [named, ← Bool.not_eq_true, isIncluded_iff intact.countdown located (recorded same) same
      member] at notIncluded
    omega
  refine bind ((writeNewDeltas_guarantees intact.countdown.pairwise new).mono
    (fun _ agrees => agrees) ?_)
  intro infos after written
  refine ⟨written.agrees, written.agrees, ?_, ?_⟩
  · rw [List.map_append, written.keys_eq]
    exact written_append_kept intact.countdown fun notification named =>
      (intact.named named).2
  · intro info member
    rcases List.mem_append.mp member with fresh | kept
    · exact written.holds info fresh
    · -- the old notification file names this one
      obtain ⟨notification, named, _, listed⟩ :=
        mem_deltasFromOldNotification (List.mem_reverse.mp kept)
      refine written.agrees.holds ?_ ((intact.named named).1.deltas info listed)
      exact .inr ⟨notification, named, .inr ⟨info, listed, rfl⟩⟩

theorem writeSnapshotFile_guarantees
    (other : ¬ kind (server.snapshot.path server.session server.serial)) :
    (server.writeSnapshotFile order).Guarantees (Agrees kind disk)
      (fun info after => Agrees kind disk after ∧
        info.uri = server.snapshot.path server.session server.serial ∧
        Holds after info.uri info.hash) disk := by
  refine bind ((saveXml_guarantees (Agrees.refl disk) other).mono (fun _ agrees => agrees) ?_)
  rintro _ after ⟨agrees, found⟩
  exact ⟨agrees, agrees, rfl, _, found, rfl⟩

def notificationFile (server : RrdpServer) (snapshot : SnapshotInfo) (deltas : List DeltaInfo) :
    NotificationFile :=
  { sessionId := server.session, serial := server.serial, snapshot, deltas }

variable {snapshot : SnapshotInfo} {deltas : List DeltaInfo}

omit [RrdpXml] in
theorem notificationFile_located
    (countdown : Countdown server.serial (server.deltas.map DeltaData.serial))
    (place : snapshot.uri = server.snapshot.path server.session server.serial)
    (keys : deltas.map DeltaInfo.key = server.keys) :
    (server.notificationFile snapshot deltas).Located where
  snapshot := ⟨_, place⟩
  deltas := by
    intro info member
    have listed : info.key ∈ server.keys := keys ▸ List.mem_map_of_mem member
    obtain ⟨delta, _, key⟩ := List.mem_map.mp listed
    have serial : delta.serial = info.serial := congrArg Prod.fst key
    have uri : delta.path server.session = info.uri := congrArg Prod.snd key
    exact ⟨delta.random, by rw [← uri, ← serial]; rfl⟩
  countdown := by
    rw [← keys_serial, ← keys, map_key_serial] at countdown
    exact countdown

structure Stands (server : RrdpServer) (notification : NotificationFile) (disk : RrdpDisk) :
    Prop where
  countdown : Countdown server.serial (server.deltas.map DeltaData.serial)
  named : readNotification disk = some notification
  served : notification.Served disk
  located : notification.Located
  published : server.Published notification

theorem Stands.intact (stands : server.Stands notification disk) : server.Intact disk := by
  refine ⟨stands.countdown, ?_⟩
  intro xml found
  have named := stands.named
  rw [readNotification, found] at named
  exact ⟨notification, named, stands.served, stands.located,
    fun _ => stands.published.recorded stands.countdown⟩

theorem Stands.agrees (stands : server.Stands notification disk)
    (agrees : Agrees (Guarded disk) disk after) : server.Stands notification after where
  countdown := stands.countdown
  named := by
    rw [readNotification, agrees (.inl rfl)]
    exact stands.named
  served := stands.served.agrees (agrees.mono fun _ references =>
    .inr ⟨notification, stands.named, references⟩)
  located := stands.located
  published := stands.published

theorem writeNotificationFile_guarantees (parsesBack : ParsesBack) (intact : server.Intact disk)
    (place : snapshot.uri = server.snapshot.path server.session server.serial)
    (keys : deltas.map DeltaInfo.key = server.keys)
    (served : (server.notificationFile snapshot deltas).Served disk) :
    (server.writeNotificationFile snapshot deltas).Guarantees server.Intact
      (fun _ after => server.Stands (server.notificationFile snapshot deltas) after) disk := by
  have located := notificationFile_located intact.countdown place keys
  -- the new file is not one that must stay
  let named : RrdpPath → Prop := fun path =>
    Guarded disk path ∨ (server.notificationFile snapshot deltas).References path
  have other : ¬ named .newNotification := by
    rintro ((impossible | ⟨old, oldNamed, references⟩) | references)
    · cases impossible
    · exact ((intact.named oldNamed).2.1.apart references).2 rfl
    · exact (located.apart references).2 rfl
  refine bind ((saveXml_guarantees (Agrees.refl disk) other).mono ?_ ?_)
  · exact fun _ agrees => intact.agrees (agrees.mono fun _ => .inl)
  · rintro _ between ⟨agrees, found⟩
    refine ⟨intact.agrees (agrees.mono fun _ => .inl), ?_⟩
    intro after renamed
    rw [renameNotification, found] at renamed
    cases renamed
    have stands : server.Stands (server.notificationFile snapshot deltas) (HashMap.insert
        (HashMap.remove between .newNotification) .notification
          (notificationXml (server.notificationFile snapshot deltas))) := by
      refine ⟨intact.countdown, ?_, ?_, located, rfl, rfl, keys⟩
      · rw [readNotification, HashMap.get_insert_self]
        exact parsesBack _
      · refine served.agrees ?_
        refine Agrees.insert (Agrees.remove (agrees.mono fun _ => .inr) ?_) ?_ _
        · exact fun references => (located.apart references).2 rfl
        · exact fun references => (located.apart references).1 rfl
    exact ⟨stands.intact, stands⟩

omit [RrdpXml] in
theorem lowestDelta_le (countdown : Countdown server.serial (server.deltas.map DeltaData.serial))
    (member : delta ∈ server.deltas) : server.lowestDelta ≤ delta.serial := by
  cases last : server.deltas.getLast? with
  | none =>
    rw [List.getLast?_eq_none_iff.mp last] at member
    cases member
  | some lowest =>
    rw [lowestDelta, last]
    exact number_getLast_le (List.pairwise_map.mp countdown.pairwise) last member

omit [RrdpXml] in
theorem le_highestDelta (countdown : Countdown server.serial (server.deltas.map DeltaData.serial))
    (member : delta ∈ server.deltas) :
    delta.serial ≤ server.highestDelta := by
  cases first : server.deltas.head? with
  | none =>
    rw [List.head?_eq_none_iff.mp first] at member
    cases member
  | some highest =>
    have top : highest.serial = server.serial := by
      refine countdown.head_eq ?_
      rw [List.head?_map, first]
      rfl
    rw [highestDelta, first]
    change delta.serial ≤ highest.serial
    rw [top]
    exact countdown.le (List.mem_map_of_mem member)

theorem Stands.guarded (stands : server.Stands notification disk) (guarded : Guarded disk path) :
    path = .notification ∨ (∃ random, path = .file server.session server.serial random .snapshot) ∨
      ∃ delta ∈ server.deltas, path = delta.path server.session := by
  rcases guarded with rfl | ⟨other, named, references⟩
  · exact .inl rfl
  rw [stands.named] at named
  cases named
  rcases references with rfl | ⟨info, member, rfl⟩
  · obtain ⟨random, place⟩ := stands.located.snapshot
    rw [stands.published.session, stands.published.serial] at place
    exact .inr (.inl ⟨random, place⟩)
  · have listed : info.key ∈ server.keys :=
      stands.published.deltas ▸ List.mem_map_of_mem member
    obtain ⟨delta, present, key⟩ := List.mem_map.mp listed
    exact .inr (.inr ⟨delta, present, (congrArg Prod.snd key).symm⟩)

structure Spares (server : RrdpServer) (kind : RrdpPath → Prop) : Prop where
  otherSession : ∀ {path : RrdpPath},
    (path.session.any fun session => session ≠ server.session) = true → ¬ kind path
  otherSerial : ∀ {path : RrdpPath} {serial : Nat},
    path.serialIn server.session = some serial → serial ≠ server.serial →
    serial < server.lowestDelta ∨ serial > server.highestDelta ∨ path.isSnapshot = true →
    ¬ kind path

theorem Stands.spares (stands : server.Stands notification disk) :
    server.Spares (Guarded disk) where
  otherSession := by
    intro path other guarded
    rcases stands.guarded guarded with rfl | ⟨_, rfl⟩ | ⟨_, _, rfl⟩
    · cases other
    · exact of_decide_eq_true other rfl
    · exact of_decide_eq_true other rfl
  otherSerial := by
    intro path serial inside notCurrent unused guarded
    rcases stands.guarded guarded with rfl | ⟨_, rfl⟩ | ⟨delta, member, rfl⟩
    · cases inside
    · rw [RrdpPath.serialIn, if_pos rfl] at inside
      injection inside with same
      exact notCurrent same.symm
    · rw [DeltaData.path, RrdpPath.serialIn, if_pos rfl] at inside
      injection inside with same
      have low := lowestDelta_le stands.countdown member
      have high := le_highestDelta stands.countdown member
      rcases unused with below | above | isSnapshot
      · omega
      · omega
      · cases isSnapshot

omit [RrdpXml] in
theorem spares_notification (server : RrdpServer) : server.Spares (· = .notification) where
  otherSession := by
    rintro _ other rfl
    cases other
  otherSerial := by
    rintro _ _ inside _ _ rfl
    cases inside

theorem cleanupSerial_guarantees (spares : server.Spares kind) {serial : Nat}
    (agrees : Agrees kind start disk) :
    (server.cleanupSerial archive order serial).Guarantees (Agrees kind start)
      (fun _ after => Agrees kind start after) disk := by
  unfold cleanupSerial
  dsimp only
  split_ifs with current unused archived archived
  · exact ⟨agrees, agrees⟩
  · have moved : Agrees kind start (HashMap.filter disk fun path _ =>
        !decide (path.serialIn server.session = some serial)) := by
      refine agrees.filter fun path among => ?_
      have outside : path.serialIn server.session ≠ some serial := fun inside =>
        spares.otherSerial inside current (unused.imp_right .inl) among
      rw [decide_eq_false outside]
      rfl
    exact ⟨agrees, ⟨moved, moved⟩, agrees, agrees⟩
  · refine ⟨agrees, removeAll_guarantees agrees fun path member => ?_⟩
    have inside := of_decide_eq_true (List.mem_filter.mp member).2
    exact spares.otherSerial inside current (unused.imp_right .inl)
  · exact ⟨agrees, agrees⟩
  · refine ⟨agrees, removeAll_guarantees agrees fun path member => ?_⟩
    have found := List.find?_some (Option.mem_toList.mp member)
    obtain ⟨inside, isSnapshot⟩ := Bool.and_eq_true_iff.mp found
    exact spares.otherSerial (of_decide_eq_true inside) current (.inr (.inr isSnapshot))

theorem cleanupOldRrdpFiles_guarantees (spares : server.Spares kind) (archive : Bool)
    (order : IterOrder) :
    (server.cleanupOldRrdpFiles archive order).Guarantees (Agrees kind disk)
      (fun _ after => Agrees kind disk after) disk := by
  refine bind ((readDir_guarantees (Agrees.refl disk) order _).mono (fun _ agrees => agrees) ?_)
  rintro otherSessions listed ⟨agrees, others⟩
  refine bind ((removeAll_guarantees agrees fun path member =>
    spares.otherSession (others path member)).mono (fun _ agrees => agrees) ?_)
  intro _ removed agrees
  refine bind ((readDir_guarantees agrees order _).mono (fun _ agrees => agrees) ?_)
  rintro paths read ⟨agrees, _⟩
  exact .forEach (fun serial _ _ agrees => cleanupSerial_guarantees spares agrees)
    (fun _ agrees => agrees) agrees

theorem Intact.stands_of_isWritten (intact : server.Intact disk)
    (isWritten : server.isWritten (readNotification disk) = true) :
    ∃ notification, server.Stands notification disk := by
  cases named : readNotification disk with
  | none =>
    rw [named] at isWritten
    cases isWritten
  | some notification =>
    rw [named] at isWritten
    obtain ⟨serial, session⟩ := Bool.and_eq_true_iff.mp isWritten
    obtain ⟨served, located, recorded⟩ := intact.named named
    have sameSerial := of_decide_eq_true serial
    have sameSession := of_decide_eq_true session
    exact ⟨notification, intact.countdown, named, served, located, sameSession, sameSerial,
      (recorded sameSession).current sameSerial⟩

theorem Intact.newer_of_not_isWritten (intact : server.Intact disk)
    (notWritten : server.isWritten (readNotification disk) ≠ true)
    (named : readNotification disk = some notification)
    (same : notification.sessionId = server.session) : notification.serial < server.serial := by
  obtain ⟨_, _, recorded⟩ := intact.named named
  have different : notification.serial ≠ server.serial := by
    intro serial
    refine notWritten ?_
    rw [named, isWritten, decide_eq_true serial, decide_eq_true same]
    rfl
  exact Nat.lt_of_le_of_ne (recorded same).serial_le different

/-- Wherever it is stopped, a write leaves a notification file that can be used, and when it
completes it is the one for the state of the server. -/
theorem write_guarantees (parsesBack : ParsesBack) (intact : server.Intact disk)
    (order : IterOrder) :
    (server.write archive order).Guarantees server.Intact
      (fun _ after => ∃ notification, server.Stands notification after) disk := by
  refine ⟨intact, ?_⟩
  change ((if server.isWritten (readNotification disk) then pure () else do
    let deltas ← server.writeDeltaFiles (readNotification disk)
    let snapshot ← server.writeSnapshotFile order
    server.writeNotificationFile snapshot deltas
    server.cleanupOldRrdpFiles archive order) : RrdpProgram Unit).Guarantees _ _ _
  split
  · rename_i isWritten
    exact ⟨intact, intact.stands_of_isWritten isWritten⟩
  rename_i notWritten
  refine bind ((writeDeltaFiles_guarantees intact).mono (fun _ agrees => intact.agrees agrees) ?_)
  intro deltas withDeltas written
  -- the new snapshot is neither named by the old notification file nor one of the deltas
  have other : ¬ (fun path => Guarded disk path ∨ ∃ info ∈ deltas, path = info.uri)
      (server.snapshot.path server.session server.serial) := by
    rintro (guarded | ⟨info, member, same⟩)
    · exact intact.not_guarded (fun _ => intact.newer_of_not_isWritten notWritten) guarded
    · have listed : info.key ∈ server.keys := written.keys_eq ▸ List.mem_map_of_mem member
      obtain ⟨delta, _, key⟩ := List.mem_map.mp listed
      have uri : delta.path server.session = info.uri := congrArg Prod.snd key
      rw [← uri] at same
      injection same with _ _ _ impossible
      cases impossible
  have kept {after : RrdpDisk} (agrees : Agrees (fun path => Guarded disk path ∨
      ∃ info ∈ deltas, path = info.uri) withDeltas after) : server.Intact after :=
    intact.agrees (written.agrees.trans (agrees.mono fun _ => .inl))
  refine bind ((writeSnapshotFile_guarantees other).mono (fun _ => kept) ?_)
  rintro snapshot prepared ⟨agrees, place, holds⟩
  have served : (server.notificationFile snapshot deltas).Served prepared :=
    ⟨holds, fun info member => agrees.holds (.inr ⟨info, member, rfl⟩) (written.holds info member)⟩
  refine bind ((writeNotificationFile_guarantees parsesBack (kept agrees) place
    written.keys_eq served).mono (fun _ intact => intact) ?_)
  intro _ renamed stands
  exact (cleanupOldRrdpFiles_guarantees stands.spares archive order).mono
    (fun _ agrees => (stands.agrees agrees).intact)
    (fun _ _ agrees => ⟨_, stands.agrees agrees⟩)

/-- A server that was loaded again: the elements of its snapshot and deltas may come in
another order, but the deltas are the same ones. -/
structure Reloaded (before after : RrdpServer) : Prop where
  session : after.session = before.session
  serial : after.serial = before.serial
  keys : after.keys = before.keys

theorem Intact.reloaded (intact : server.Intact disk) (reloaded : server.Reloaded later) :
    later.Intact disk := by
  refine ⟨?_, ?_⟩
  · rw [← keys_serial, reloaded.keys, reloaded.serial, keys_serial]
    exact intact.countdown
  · intro xml found
    obtain ⟨notification, parsed, served, located, recorded⟩ := intact.usable found
    refine ⟨notification, parsed, served, located, fun same => ?_⟩
    obtain ⟨serial_le, common, current⟩ := recorded (same.trans reloaded.session)
    exact ⟨reloaded.serial ▸ serial_le, reloaded.keys ▸ common,
      fun now => (current (now.trans reloaded.serial)).trans reloaded.keys.symm⟩

omit [RrdpXml] in
theorem applyRrdpUpdated_countdown (order : IterOrder)
    (countdown : Countdown server.serial (server.deltas.map DeltaData.serial)) :
    Countdown (server.applyRrdpUpdated update order).serial
      ((server.applyRrdpUpdated update order).deltas.map DeltaData.serial) :=
  countdown.cons.of_prefix ((server.applyRrdpUpdated_deltas update order).map DeltaData.serial)

theorem Intact.updated (intact : server.Intact disk) (update : RrdpUpdated)
    (order : IterOrder) : (server.applyRrdpUpdated update order).Intact disk := by
  refine ⟨applyRrdpUpdated_countdown order intact.countdown, ?_⟩
  intro xml found
  obtain ⟨notification, parsed, served, located, recorded⟩ := intact.usable found
  refine ⟨notification, parsed, served, located, fun same => ?_⟩
  have before := recorded same
  have serial_lt : notification.serial < server.serial + 1 := Nat.lt_succ_of_le before.serial_le
  refine ⟨serial_lt.le, ?_, fun now => absurd now serial_lt.ne⟩
  have dropped := ((server.applyRrdpUpdated_deltas update order).map
    (DeltaData.key server.session)).filter fun key => key.1 ≤ notification.serial
  rw [List.map_cons, List.filter_cons_of_neg] at dropped
  · exact dropped.trans before.common
  · exact fun below => absurd (of_decide_eq_true below) (Nat.not_le.mpr serial_lt)

theorem Intact.reset (intact : server.Intact disk) {reset : RrdpSessionReset}
    (fresh : ∀ notification, readNotification disk = some notification →
      notification.sessionId ≠ reset.session) : (server.applySessionReset reset).Intact disk := by
  refine ⟨Countdown.nil _, ?_⟩
  intro xml found
  obtain ⟨notification, parsed, served, located, _⟩ := intact.usable found
  refine ⟨notification, parsed, served, located, fun same => ?_⟩
  have named : readNotification disk = some notification := by
    rw [readNotification, found]
    exact parsed
  exact absurd same (fresh notification named)

structure Writer where
  server : RrdpServer
  disk : RrdpDisk

inductive Writer.Step : Writer → Writer → Prop
  | staged {writer : Writer} (elements : DeltaElements) :
      Step writer { writer with server := writer.server.applyRrdpStaged elements }
  | updated {writer : Writer} (update : RrdpUpdated) (order : IterOrder) :
      Step writer { writer with server := writer.server.applyRrdpUpdated update order }
  /-- A session identifier is never used twice. -/
  | reset {writer : Writer} (env : Surroundings)
      (fresh : ∀ notification, readNotification writer.disk = some notification →
        notification.sessionId ≠ env.session) :
      Step writer { writer with server :=
        writer.server.applySessionReset (writer.server.resetSession env) }
  | reloaded {writer : Writer} {server : RrdpServer} (same : writer.server.Reloaded server) :
      Step writer { writer with server }
  /-- Any part of a write: it may complete, fail, or be stopped. -/
  | write {writer : Writer} {archive : Bool} {order : IterOrder} {rest : RrdpProgram Unit}
      {disk : RrdpDisk} (reaches : (writer.server.write archive order).Reaches writer.disk rest
        disk) :
      Step writer { writer with disk }

inductive Writer.Runs : Writer → Prop
  | start (env : Surroundings) {disk : RrdpDisk}
      (absent : HashMap.get disk .notification = none) : Runs { server := .create env, disk }
  | step {before after : Writer} (runs : Runs before) (step : Step before after) : Runs after

theorem Writer.Step.intact (parsesBack : ParsesBack) {after : Writer}
    (step : Writer.Step before after) (intact : before.server.Intact before.disk) :
    after.server.Intact after.disk := by
  cases step with
  | staged elements => exact intact.reloaded ⟨rfl, rfl, rfl⟩
  | updated update order => exact intact.updated update order
  | reset env fresh => exact intact.reset fresh
  | reloaded same => exact intact.reloaded same
  | write reaches => exact ((write_guarantees parsesBack intact _).reaches reaches).now

theorem Writer.Runs.intact (parsesBack : ParsesBack) (runs : Runs writer) :
    writer.server.Intact writer.disk := by
  induction runs with
  | start env absent =>
    refine ⟨Countdown.nil _, fun found => ?_⟩
    rw [absent] at found
    cases found
  | step _ step induction => exact step.intact parsesBack induction

/-- At every moment the notification file on disk, if there is one, names files that all
exist with the listed hashes, and right after a completed write it is for the state of the
server: its session and serial, and exactly the serials of its deltas, without a gap up to
the current one. -/
theorem notification_usable (parsesBack : ParsesBack) {writer : Writer}
    (runs : Writer.Runs writer) :
    (∀ xml, HashMap.get writer.disk .notification = some xml →
      ∃ notification, parse xml = some notification ∧
        Holds writer.disk notification.snapshot.uri notification.snapshot.hash ∧
        ∀ delta ∈ notification.deltas, Holds writer.disk delta.uri delta.hash) ∧
    ∀ archive order disk,
      (writer.server.write archive order).Reaches writer.disk (pure ()) disk →
      ∃ notification, readNotification disk = some notification ∧
        notification.sessionId = writer.server.session ∧
        notification.serial = writer.server.serial ∧
        notification.deltas.map DeltaInfo.serial = writer.server.deltas.map DeltaData.serial ∧
        Countdown writer.server.serial (notification.deltas.map DeltaInfo.serial) := by
  have intact := runs.intact parsesBack
  refine ⟨?_, ?_⟩
  · intro xml found
    obtain ⟨notification, parsed, served, _⟩ := intact.usable found
    exact ⟨notification, parsed, served.snapshot, served.deltas⟩
  · intro archive order disk completes
    obtain ⟨_, notification, stands⟩ :=
      (write_guarantees parsesBack intact order).reaches completes
    have serials : notification.deltas.map DeltaInfo.serial =
        writer.server.deltas.map DeltaData.serial := by
      rw [← map_key_serial, stands.published.deltas, keys_serial]
    exact ⟨notification, stands.named, stands.published.session, stands.published.serial,
      serials, serials ▸ stands.countdown⟩

end RrdpServer

end Krill.Pubd

namespace Krill.Pubd.Flat

open Program RrdpServer

inductive File where
  | empty
  | snapshot (session : RrdpSession) (serial : Nat) (elements : List PublishElement)
  | delta (session : RrdpSession) (serial : Nat) (elements : DeltaElements)
  | notification (file : NotificationFile)
  deriving DecidableEq

scoped instance : RrdpXml where
  Xml := File
  noXml := .empty
  fromData
    | .empty => (0 : Nat)
    | .snapshot session serial elements => session + serial + elements.length + 1
    | .delta session serial elements => session + serial + elements.size + 2
    | .notification file => file.serial
  snapshotXml := .snapshot
  deltaXml := .delta
  notificationXml := .notification
  parse
    | .notification file => some file
    | _ => none

theorem parsesBack : ParsesBack := fun _ => rfl

def publishedOnce : Writer where
  server := ((RrdpServer.create ⟨0, "first", 7, .stored⟩).applyRrdpStaged
    ⟨[⟨(1 : Nat), ("alice", 1)⟩], [], []⟩).applyRrdpUpdated ⟨60, "second", 0⟩ .stored
  disk := .empty

theorem publishedOnce_runs : Writer.Runs publishedOnce :=
  .step (.step (.start ⟨0, "first", 7, .stored⟩ rfl) (.staged _)) (.updated _ _)

def firstWrite : RrdpProgram Unit := publishedOnce.server.write false .stored

def written : RrdpDisk := (firstWrite.run publishedOnce.disk).2

theorem firstWrite_completes : firstWrite.Reaches publishedOnce.disk (pure ()) written := by
  have succeeds : (firstWrite.run publishedOnce.disk).1 = .ok () := by decide
  have reaches := reaches_run firstWrite publishedOnce.disk
  rw [succeeds] at reaches
  exact reaches

theorem updated_notification_usable :
    ∃ notification, readNotification written = some notification ∧
      notification.sessionId = 7 ∧ notification.serial = 2 ∧
      notification.deltas.map DeltaInfo.serial = [2] := by
  obtain ⟨notification, named, session, serial, serials, _⟩ :=
    (notification_usable parsesBack publishedOnce_runs).2 false .stored written
      firstWrite_completes
  exact ⟨notification, named, session, serial, serials⟩

end Krill.Pubd.Flat
