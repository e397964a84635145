import Krill.Data.Countdown
import Krill.Pubd.RrdpFiles

namespace Krill.Pubd

open Rpki RrdpXml Program
open HashMap

variable [Rpki]

/-! What is on disk at every moment of a write. New files are written next to those that
the notification file names, it is then replaced in one go, and only what it does not name
is removed. -/

namespace NotificationFile

def References (self : NotificationFile) (path : RrdpPath) : Prop :=
  path = self.snapshot.uri ∨ ∃ delta ∈ self.deltas, path = delta.uri

/-- The files are where the server puts them, and the deltas end at the serial. -/
structure Located (file : NotificationFile) : Prop where
  snapshot : ∃ random, file.snapshot.uri = .file file.sessionId file.serial random .snapshot
  deltas : ∀ delta ∈ file.deltas, ∃ random,
    delta.uri = .file file.sessionId delta.serial random .delta
  countdown : Countdown file.serial (file.deltas.map DeltaInfo.serial)

theorem Located.apart {file : NotificationFile} (located : file.Located)
    (references : file.References path) : path ≠ .notification ∧ path ≠ .newNotification := by
  rcases references with rfl | ⟨delta, member, rfl⟩
  · obtain ⟨_, place⟩ := located.snapshot
    rw [place]
    exact ⟨nofun, nofun⟩
  · obtain ⟨_, place⟩ := located.deltas delta member
    rw [place]
    exact ⟨nofun, nofun⟩

end NotificationFile

def DeltaData.key (session : RrdpSession) (delta : DeltaData) : Nat × RrdpPath :=
  (delta.serial, delta.path session)

def DeltaInfo.key (delta : DeltaInfo) : Nat × RrdpPath := (delta.serial, delta.uri)

theorem map_key_serial (deltas : List DeltaInfo) :
    (deltas.map DeltaInfo.key).map Prod.fst = deltas.map DeltaInfo.serial := by
  rw [List.map_map]
  rfl

namespace RrdpServer

variable {server : RrdpServer} {notification : NotificationFile}

def keys (self : RrdpServer) : List (Nat × RrdpPath) :=
  self.deltas.map (DeltaData.key self.session)

theorem keys_serial (self : RrdpServer) :
    self.keys.map Prod.fst = self.deltas.map DeltaData.serial := by
  rw [keys, List.map_map]
  rfl

/-- How a notification file of the current session relates to the server: what the server
has kept of its deltas is the newest part of them. -/
structure Recorded (server : RrdpServer) (notification : NotificationFile) : Prop where
  serial_le : notification.serial ≤ server.serial
  common : server.keys.filter (fun key => key.1 ≤ notification.serial) <+:
    notification.deltas.map DeltaInfo.key
  current : notification.serial = server.serial →
    notification.deltas.map DeltaInfo.key = server.keys

theorem sortDeltas_eq (located : notification.Located) :
    notification.sortDeltas = notification.deltas.reverse := by
  refine insertionSort_eq_reverse ?_
  have descending := located.countdown.pairwise
  rw [List.pairwise_map] at descending
  exact descending.imp fun higher => by omega

theorem verifyDeltas_of_chain {deltas : List DeltaInfo}
    (chain : deltas.IsChain fun older newer => older.serial + 1 = newer.serial) :
    NotificationFile.verifyDeltas deltas = true := by
  induction deltas with
  | nil => rfl
  | cons first rest induction =>
    cases rest with
    | nil => rfl
    | cons second rest =>
      obtain ⟨next, chain⟩ := List.isChain_cons_cons.mp chain
      rw [NotificationFile.verifyDeltas, induction chain, decide_eq_true next]
      rfl

theorem verifyDeltas_sortDeltas (located : notification.Located) :
    NotificationFile.verifyDeltas notification.sortDeltas = true := by
  rw [sortDeltas_eq located]
  refine verifyDeltas_of_chain (List.isChain_reverse.mpr ?_)
  have chain : (notification.deltas.map DeltaInfo.serial).IsChain
      fun newer older => newer = older + 1 := List.IsChain.tail located.countdown
  rw [List.isChain_map] at chain
  exact chain.imp fun newer older next => next.symm

theorem kept_keys (countdown : Countdown server.serial (server.deltas.map DeltaData.serial))
    (located : notification.Located) (recorded : server.Recorded notification)
    (same : notification.sessionId = server.session) :
    (server.deltasFromOldNotification (some notification)).reverse.map DeltaInfo.key =
      server.keys.filter fun key => key.1 ≤ notification.serial := by
  unfold deltasFromOldNotification
  simp only [if_pos same, verifyDeltas_sortDeltas located, if_true]
  rw [sortDeltas_eq located]
  cases last : server.deltas.getLast? with
  | none =>
    rw [List.getLast?_eq_none_iff] at last
    simp [keys, last]
  | some lowest =>
    have newerDescending : server.keys.Pairwise fun left right => left.1 > right.1 := by
      rw [← List.pairwise_map, keys_serial]
      exact countdown.pairwise
    have olderDescending : (notification.deltas.map DeltaInfo.key).Pairwise
        fun left right => left.1 > right.1 := by
      rw [← List.pairwise_map, map_key_serial]
      exact located.countdown.pairwise
    have bounded : ∀ key ∈ notification.deltas.map DeltaInfo.key, key.1 ≤ notification.serial := by
      intro key member
      refine located.countdown.le ?_
      rw [← map_key_serial]
      exact List.mem_map_of_mem member
    have lowestKey : server.keys.getLast? = some (lowest.key server.session) := by
      rw [keys, List.getLast?_map, last]
      rfl
    rw [← filter_ge_eq_common newerDescending olderDescending bounded recorded.common lowestKey]
    simp only [List.filter_reverse, List.reverse_reverse]
    rw [List.filter_map]
    rfl

theorem isIncluded_iff (countdown : Countdown server.serial (server.deltas.map DeltaData.serial))
    (located : notification.Located) (recorded : server.Recorded notification)
    (same : notification.sessionId = server.session) (member : delta ∈ server.deltas) :
    isIncluded (server.deltasFromOldNotification (some notification)).getLast? delta = true ↔
      delta.serial ≤ notification.serial := by
  have kept := kept_keys countdown located recorded same
  have newest : ((server.deltasFromOldNotification (some notification)).getLast?).map
      DeltaInfo.key = (server.keys.filter fun key => key.1 ≤ notification.serial).head? := by
    rw [← kept, List.head?_map, List.head?_reverse]
  cases last : (server.deltasFromOldNotification (some notification)).getLast? with
  | none =>
    rw [last, Option.map_none, eq_comm, List.head?_eq_none_iff, List.filter_eq_nil_iff] at newest
    have above := newest (delta.key server.session) (List.mem_map_of_mem member)
    simp only [isIncluded, Bool.false_eq_true, false_iff]
    exact fun below => above (decide_eq_true below)
  | some info =>
    rw [last, Option.map_some] at newest
    -- the newest common delta is the newest one of the old notification file
    have common : Countdown notification.serial
        ((server.keys.filter fun key => key.1 ≤ notification.serial).map Prod.fst) := by
      refine located.countdown.of_prefix ?_
      rw [← map_key_serial]
      exact recorded.common.map Prod.fst
    have top : info.serial = notification.serial := by
      refine common.head_eq ?_
      rw [List.head?_map, ← newest]
      rfl
    simp only [isIncluded, top, decide_eq_true_eq]

theorem mem_deltasFromOldNotification (member : delta ∈ server.deltasFromOldNotification old) :
    ∃ notification, old = some notification ∧ notification.sessionId = server.session ∧
      delta ∈ notification.deltas := by
  unfold deltasFromOldNotification at member
  cases last : server.deltas.getLast? with
  | none => simp [last] at member
  | some lowest =>
    simp only [last] at member
    cases old with
    | none => cases member
    | some notification =>
      have found := (List.mem_filter.mp member).1
      dsimp only at found
      split at found
      · rename_i same
        refine ⟨notification, rfl, same, ?_⟩
        split at found
        · exact (List.perm_insertionSort _ _).mem_iff.mp found
        · cases found
      · cases found

theorem written_append_kept
    (countdown : Countdown server.serial (server.deltas.map DeltaData.serial))
    (known : ∀ notification, old = some notification → notification.Located ∧
      (notification.sessionId = server.session → server.Recorded notification)) :
    (server.deltas.filter fun delta =>
        !isIncluded (server.deltasFromOldNotification old).getLast? delta).map
          (DeltaData.key server.session) ++
      (server.deltasFromOldNotification old).reverse.map DeltaInfo.key = server.keys := by
  by_cases current : ∃ notification, old = some notification ∧
      notification.sessionId = server.session
  · obtain ⟨notification, rfl, same⟩ := current
    obtain ⟨located, recorded⟩ := known notification rfl
    have included : ∀ delta ∈ server.deltas,
        (!isIncluded (server.deltasFromOldNotification (some notification)).getLast? delta) =
          decide ¬ (delta.key server.session).1 ≤ notification.serial := by
      intro delta member
      rw [decide_not, Bool.eq_iff_iff.mpr (isIncluded_iff countdown located (recorded same)
        same member |>.trans (decide_eq_true_iff).symm)]
      rfl
    have descending : server.keys.Pairwise fun left right => left.1 > right.1 := by
      rw [← List.pairwise_map, keys_serial]
      exact countdown.pairwise
    rw [kept_keys countdown located (recorded same) same, List.filter_congr included]
    refine Eq.trans ?_ (filter_gt_append_filter_le descending notification.serial)
    congr 1
    rw [keys, List.filter_map]
    rfl
  · have nothing : server.deltasFromOldNotification old = [] := by
      refine List.eq_nil_iff_forall_not_mem.mpr fun delta member => ?_
      obtain ⟨notification, present, same, _⟩ := mem_deltasFromOldNotification member
      exact current ⟨notification, present, same⟩
    have allNew : ∀ delta ∈ server.deltas,
        (!isIncluded ([] : List DeltaInfo).getLast? delta) = true := fun _ _ => rfl
    rw [nothing, List.filter_eq_self.mpr allNew]
    exact List.append_nil _

end RrdpServer

variable [RrdpXml]

namespace RrdpDisk

def Agrees (kind : RrdpPath → Prop) (before after : RrdpDisk) : Prop :=
  ∀ ⦃path⦄, kind path → get after path = get before path

def Holds (disk : RrdpDisk) (path : RrdpPath) (hash : Hash) : Prop :=
  ∃ xml, HashMap.get disk path = some xml ∧ fromData xml = hash

theorem Agrees.refl (disk : RrdpDisk) : Agrees kind disk disk := fun _ _ => rfl

theorem Agrees.trans (first : Agrees kind before between) (second : Agrees kind between after) :
    Agrees kind before after :=
  fun _ among => (second among).trans (first among)

theorem Agrees.mono (agrees : Agrees kind before after) (among : ∀ path, fewer path → kind path) :
    Agrees fewer before after :=
  fun path member => agrees (among path member)

def Also (kind : RrdpPath → Prop) (path : RrdpPath) (other : RrdpPath) : Prop :=
  kind other ∨ other = path

theorem Agrees.also (agrees : Agrees kind before between)
    (more : Agrees (Also kind path) between after) : Agrees kind before after :=
  agrees.trans (more.mono fun _ => .inl)

theorem Agrees.insert (agrees : Agrees kind before after) (other : ¬ kind path) (xml : Xml) :
    Agrees kind before (insert after path xml) := by
  intro same among
  have different : same ≠ path := fun equal => other (equal ▸ among)
  rw [get_insert, if_neg different]
  exact agrees among

theorem Agrees.remove (agrees : Agrees kind before after) (other : ¬ kind path) :
    Agrees kind before (remove after path) := by
  intro same among
  have different : same ≠ path := fun equal => other (equal ▸ among)
  rw [get_remove, if_neg different]
  exact agrees among

theorem Agrees.filter (agrees : Agrees kind before after) {condition : RrdpPath → Bool}
    (stays : ∀ path, kind path → condition path = true) :
    Agrees kind before (filter after fun path _ => condition path) := by
  intro same among
  rw [get_filter, ← agrees among, stays same among]
  cases get after same with
  | none | some => rfl

theorem Agrees.holds (agrees : Agrees kind before after) (among : kind path) {hash : Hash}
    (holds : Holds before path hash) : Holds after path hash := by
  obtain ⟨xml, found, named⟩ := holds
  exact ⟨xml, (agrees among).trans found, named⟩

end RrdpDisk

open RrdpDisk

/-- All files that are named exist, with the hashes that are listed. -/
structure NotificationFile.Served (file : NotificationFile) (disk : RrdpDisk) : Prop where
  snapshot : Holds disk file.snapshot.uri file.snapshot.hash
  deltas : ∀ delta ∈ file.deltas, Holds disk delta.uri delta.hash

theorem NotificationFile.Served.agrees {file : NotificationFile} (served : file.Served before)
    (agrees : Agrees file.References before after) : file.Served after where
  snapshot := agrees.holds (.inl rfl) served.snapshot
  deltas := fun delta member => agrees.holds (.inr ⟨delta, member, rfl⟩)
    (served.deltas delta member)

namespace RrdpServer

variable {server : RrdpServer} {disk : RrdpDisk}

/-- The notification file on disk can be used, and it is known to the server. -/
structure Intact (server : RrdpServer) (disk : RrdpDisk) : Prop where
  countdown : Countdown server.serial (server.deltas.map DeltaData.serial)
  usable : ∀ {xml}, get disk .notification = some xml → ∃ notification,
    parse xml = some notification ∧ notification.Served disk ∧ notification.Located ∧
      (notification.sessionId = server.session → server.Recorded notification)

/-- The paths that must not be touched: the notification file and what it names. -/
def Guarded (disk : RrdpDisk) (path : RrdpPath) : Prop :=
  path = .notification ∨
    ∃ notification, readNotification disk = some notification ∧ notification.References path

theorem Intact.agrees (intact : server.Intact disk)
    (agrees : Agrees (Guarded disk) disk after) : server.Intact after := by
  refine ⟨intact.countdown, ?_⟩
  intro xml found
  rw [agrees (.inl rfl)] at found
  obtain ⟨notification, parsed, served, located, recorded⟩ := intact.usable found
  have named : readNotification disk = some notification := by
    rw [readNotification, found]
    exact parsed
  refine ⟨notification, parsed, served.agrees ?_, located, recorded⟩
  exact agrees.mono fun path references => .inr ⟨notification, named, references⟩

theorem Intact.named (intact : server.Intact disk)
    (named : readNotification disk = some notification) :
    notification.Served disk ∧ notification.Located ∧
      (notification.sessionId = server.session → server.Recorded notification) := by
  obtain ⟨xml, found, parsed⟩ := Option.bind_eq_some_iff.mp named
  obtain ⟨same, parsedSame, rest⟩ := intact.usable found
  rw [parsed] at parsedSame
  cases parsedSame
  exact rest

section Operations

theorem saveXml_guarantees (agrees : Agrees kind start disk) (other : ¬ kind path) :
    (saveXml path xml).Guarantees (Agrees kind start)
      (fun _ after => Agrees kind start after ∧ get after path = some xml) disk := by
  have created := agrees.insert other noXml
  have written := created.insert other xml
  refine ⟨agrees, ?_⟩
  rintro _ ⟨⟩
  refine ⟨created, ?_⟩
  rintro _ ⟨⟩
  exact ⟨written, written, get_insert_self ..⟩

theorem saveXml_saves : (saveXml path xml).Guarantees (fun _ => True)
      (fun _ after => get after path = some xml) disk := by
  refine ⟨trivial, ?_⟩
  rintro _ ⟨⟩
  refine ⟨trivial, ?_⟩
  rintro _ ⟨⟩
  exact ⟨trivial, get_insert_self ..⟩

theorem removeAll_guarantees (agrees : Agrees kind start disk)
    (others : ∀ path ∈ paths, ¬ kind path) :
    (forEach bestEffortRemove paths).Guarantees (Agrees kind start)
      (fun _ after => Agrees kind start after) disk :=
  .forEach (fun path member _ agrees =>
      have removed := agrees.remove (others path member)
      ⟨agrees, ⟨removed, removed⟩, agrees, agrees⟩)
    (fun _ agrees => agrees) agrees

theorem readDir_guarantees (agrees : Agrees kind start disk) (order : IterOrder)
    (condition : RrdpPath → Bool) :
    (readDir order condition).Guarantees (Agrees kind start)
      (fun paths after => Agrees kind start after ∧ ∀ path ∈ paths, condition path = true)
      disk := by
  refine ⟨agrees, ?_⟩
  rintro _ ⟨⟩
  exact ⟨agrees, agrees, agrees, fun path member => (List.mem_filter.mp member).2⟩

end Operations

end RrdpServer

end Krill.Pubd
