import Mathlib.Algebra.GroupWithZero.Nat
import Krill.Pubd.RrdpRuns

namespace Krill.Pubd

variable [Rpki]

def totalSize (deltas : List DeltaData) : Nat :=
  (deltas.map (·.elements.size)).sum

namespace RrdpServer

theorem countWithinSize_fits (deltas : List DeltaData) (fits : total ≤ limit) :
    total + totalSize (deltas.take (countWithinSize limit total deltas)) ≤ limit := by
  induction deltas generalizing total with
  | nil => exact fits
  | cons delta rest induction =>
    simp only [countWithinSize]
    split
    · exact fits
    · next within =>
      have others := induction (Nat.le_of_not_gt within)
      rw [List.take_succ_cons]
      simp only [totalSize, List.map_cons, List.sum_cons] at others ⊢
      omega

theorem le_countWithinSize {deltas : List DeltaData} (enough : count ≤ deltas.length)
    (fits : total + totalSize (deltas.take count) ≤ limit) :
    count ≤ countWithinSize limit total deltas := by
  induction deltas generalizing total count with
  | nil => exact enough
  | cons delta rest induction =>
    cases count with
    | zero => exact Nat.zero_le _
    | succ count =>
      rw [List.take_succ_cons] at fits
      simp only [totalSize, List.map_cons, List.sum_cons] at fits
      have within : ¬total + delta.elements.size > limit := by omega
      simp only [countWithinSize, if_neg within]
      apply Nat.succ_le_succ
      apply induction (Nat.le_of_succ_le_succ enough)
      simp only [totalSize]
      omega

theorem prefix_take_countWithinSize (inside : other <+: queue) (fits : totalSize other ≤ limit) :
    other <+: queue.take (countWithinSize limit 0 queue) := by
  refine List.prefix_of_prefix_length_le inside (List.take_prefix ..) ?_
  rw [List.length_take]
  refine le_min (le_countWithinSize inside.length_le ?_) inside.length_le
  rw [Nat.zero_add, ← List.prefix_iff_eq_take.mp inside]
  exact fits

/-- The kept deltas are the longest part of the queue, counted from the new delta, that is
not larger than the snapshot. -/
structure KeepsLongest (self : RrdpServer) (queue : List DeltaData) : Prop where
  kept : self.deltas <+: queue
  fits : totalSize self.deltas ≤ self.snapshot.size
  longest : ∀ other, other <+: queue → totalSize other ≤ self.snapshot.size →
    other <+: self.deltas

theorem applyRrdpUpdated_keepsLongest (self : RrdpServer) (update : RrdpUpdated)
    (order : IterOrder) :
    (self.applyRrdpUpdated update order).KeepsLongest
      (self.nextDelta update order :: self.deltas.take update.deltasTruncate) where
  kept := List.take_prefix ..
  fits := by
    have fits := countWithinSize_fits
      (self.nextDelta update order :: self.deltas.take update.deltasTruncate)
      (Nat.zero_le (self.applyRrdpUpdated update order).snapshot.size)
    rw [Nat.zero_add] at fits
    exact fits
  longest := fun _ inside fits => prefix_take_countWithinSize inside fits

end RrdpServer

namespace RepositoryContent

theorem applyChange_descending {content : RepositoryContent} {change : RepositoryContentChange}
    (descending : Descending content.rrdp) :
    Descending (content.applyChange order change).rrdp := by
  cases change with
  | sessionReset reset => exact descending_of_nil rfl
  | rrdpUpdated update => exact descending.applyRrdpUpdated update order
  | _ => exact descending

def applyChanges (changes : List (IterOrder × RepositoryContentChange))
    (content : RepositoryContent) : RepositoryContent :=
  changes.foldl (fun content change => content.applyChange change.1 change.2) content

theorem applyChanges_descending {content : RepositoryContent}
    (descending : Descending content.rrdp) : Descending (content.applyChanges changes).rrdp := by
  induction changes generalizing content with
  | nil => exact descending
  | cons first rest induction => exact induction (applyChange_descending descending)

/-- Whatever changes the server went through, its deltas have the serials that lead down
from its own. None of them is left by a session reset, and an update keeps the longest part
of the queue that is not larger than the snapshot. -/
theorem delta_queue_shape (start : Surroundings)
    (changes : List (IterOrder × RepositoryContentChange)) :
    let server := ((RepositoryContent.init start).applyChanges changes).rrdp
    Descending server ∧ (∀ reset, (server.applySessionReset reset).deltas = []) ∧
      ∀ update order, (server.applyRrdpUpdated update order).KeepsLongest
        (server.nextDelta update order :: server.deltas.take update.deltasTruncate) :=
  ⟨applyChanges_descending (init_descending start), fun _ => rfl,
    RrdpServer.applyRrdpUpdated_keepsLongest _⟩

end RepositoryContent

namespace RrdpUpdatesConfig

variable (config : RrdpUpdatesConfig) (now : Time)

def isYoung (delta : DeltaData) : Bool :=
  delta.youngerThanSeconds now config.rrdpDeltaFilesMinSeconds

def isOld (delta : DeltaData) : Bool :=
  delta.olderThanSeconds now config.rrdpDeltaFilesMaxSeconds

/-- The loop of `findDeltasTruncateAge` with its subtraction, which a maximum of zero does
not allow. -/
def checkedWithinAge : Nat → List DeltaData → Option Nat
  | keep, [] => some keep
  | keep, delta :: rest =>
    if keep < config.rrdpDeltaFilesMinNr ∨ config.isYoung now delta then
      checkedWithinAge (keep + 1) rest
    else if config.rrdpDeltaFilesMaxNr = 0 then none
    else if keep = config.rrdpDeltaFilesMaxNr - 1 ∨ config.isOld now delta then some keep
    else checkedWithinAge (keep + 1) rest

variable {config now}

variable (config now) in
def youngCount (deltas : List DeltaData) : Nat :=
  deltas.countP (config.isYoung now)

 in
/-- The deltas that the minimum number, with the new delta counted in, and the minimum age
ask for. -/
def forced (deltas : List DeltaData) : Nat :=
  max (min (config.rrdpDeltaFilesMinNr - 1) deltas.length) (config.youngCount now deltas)

variable (config now) in
def required (deltas : List DeltaData) : Nat :=
  max (min config.rrdpDeltaFilesMinNr deltas.length) (config.youngCount now deltas)

 in
structure Retains (deltas : List DeltaData) (kept : Nat) : Prop where
  enough : min config.rrdpDeltaFilesMinNr (deltas.length + 1) ≤ kept + 1
  young : ∀ delta ∈ deltas.drop kept, ¬config.isYoung now delta
  bounded : ∀ index < kept, config.forced now deltas ≤ index →
    kept + 1 ≤ config.rrdpDeltaFilesMaxNr ∧ ∀ delta ∈ deltas[index]?, ¬config.isOld now delta

def NewestFirst (deltas : List DeltaData) : Prop :=
  deltas.Pairwise fun newer older => older.time ≤ newer.time

theorem isYoung_iff_lt (sorted : NewestFirst deltas) (found : deltas[index]? = some delta) :
    config.isYoung now delta ↔ index < config.youngCount now deltas := by
  induction deltas generalizing index with
  | nil => simp at found
  | cons first rest induction =>
    obtain ⟨before, sorted⟩ := List.pairwise_cons.mp sorted
    by_cases young : config.isYoung now first
    · rw [youngCount, List.countP_cons_of_pos young]
      cases index with
      | zero =>
        cases found
        exact iff_of_true young (Nat.zero_lt_succ _)
      | succ index =>
        rw [Nat.succ_lt_succ_iff]
        exact induction sorted found
    · have aged : ∀ delta ∈ first :: rest, ¬config.isYoung now delta := by
        rw [List.forall_mem_cons]
        refine ⟨young, fun delta later => ?_⟩
        simp only [isYoung, DeltaData.youngerThanSeconds, decide_eq_true_eq] at young ⊢
        exact fun younger => young (lt_of_lt_of_le younger (before delta later))
      rw [youngCount, List.countP_eq_zero.mpr aged]
      exact iff_of_false (aged delta (List.mem_of_getElem? found)) (Nat.not_lt_zero _)

variable (config now deltas) in
theorem youngCount_le : config.youngCount now deltas ≤ deltas.length :=
  List.countP_le_length

variable (config now) in
theorem checkedWithinAge_required (sorted : NewestFirst deltas)
    (early : keep ≤ config.required now deltas) :
    config.checkedWithinAge now keep (deltas.drop keep) =
      config.checkedWithinAge now (config.required now deltas)
        (deltas.drop (config.required now deltas)) := by
  induction early using Nat.decreasingInduction with
  | self => rfl
  | of_succ keep before induction =>
    have most := youngCount_le config now deltas
    unfold required at before
    have inside : keep < deltas.length := by omega
    rw [← induction, List.drop_eq_getElem_cons inside, checkedWithinAge, if_pos]
    rw [isYoung_iff_lt sorted (List.getElem?_eq_getElem inside)]
    omega

theorem checkedWithinAge_beyond
    (beyond : ∀ delta ∈ rest, config.rrdpDeltaFilesMinNr ≤ keep ∧ ¬config.isYoung now delta)
    (positive : rest ≠ [] → 0 < config.rrdpDeltaFilesMaxNr) :
    ∃ more ≤ rest.length, config.checkedWithinAge now keep rest = some (keep + more) ∧
      (∀ index < more, ∀ delta ∈ rest[index]?, ¬config.isOld now delta) ∧
      (keep < config.rrdpDeltaFilesMaxNr → keep + more < config.rrdpDeltaFilesMaxNr) ∧
      (more = 0 → keep < config.rrdpDeltaFilesMaxNr ∨
        ∀ delta ∈ rest[0]?, config.isOld now delta) := by
  induction rest generalizing keep with
  | nil => exact ⟨0, Nat.le_refl _, rfl, by simp, id, by simp⟩
  | cons delta rest induction =>
    obtain ⟨enough, aged⟩ := beyond delta List.mem_cons_self
    have positive := positive (List.cons_ne_nil _ _)
    simp only [checkedWithinAge]
    rw [if_neg (not_or.mpr ⟨Nat.not_lt.mpr enough, aged⟩), if_neg (Nat.ne_of_gt positive)]
    by_cases last : keep = config.rrdpDeltaFilesMaxNr - 1 ∨ config.isOld now delta
    · rw [if_pos last]
      exact ⟨0, Nat.zero_le _, rfl, by simp, id, fun _ => last.imp (by omega) (by simpa using ·)⟩
    · rw [if_neg last]
      obtain ⟨more, short, ends, young, limit, _⟩ := induction (fun delta member =>
          ⟨Nat.le_succ_of_le enough, (beyond delta (List.mem_cons_of_mem _ member)).2⟩)
        fun _ => positive
      obtain ⟨other, notOld⟩ := not_or.mp last
      refine ⟨more + 1, Nat.succ_le_succ short, ends.trans (by congr 1; omega), ?_, by omega, nofun⟩
      intro index before
      cases index with
      | zero => simpa using notOld
      | succ index => exact young index (Nat.lt_of_succ_lt_succ before)

variable (config now) in
/-- Either the loop keeps one delta more than the minima ask for, and the maxima allow it.
Or it has just what they ask for when it comes to a maximum, or to the end. -/
def Follows (deltas : List DeltaData) : Prop :=
  let required := config.required now deltas
  if config.youngCount now deltas < config.rrdpDeltaFilesMinNr ∧
      config.rrdpDeltaFilesMinNr ≤ deltas.length then
    required < config.rrdpDeltaFilesMaxNr ∧
      ∀ delta ∈ deltas[required - 1]?, ¬config.isOld now delta
  else
    deltas.length ≤ required ∨ required < config.rrdpDeltaFilesMaxNr ∨
      0 < config.rrdpDeltaFilesMaxNr ∧ ∀ delta ∈ deltas[required]?, config.isOld now delta

 in
theorem beyond_required (sorted : NewestFirst deltas) (delta : DeltaData)
    (beyond : delta ∈ deltas.drop (config.required now deltas)) :
    config.rrdpDeltaFilesMinNr ≤ config.required now deltas ∧ ¬config.isYoung now delta := by
  obtain ⟨index, found⟩ := List.mem_iff_getElem?.mp beyond
  rw [List.getElem?_drop] at found
  have inside := (List.getElem?_eq_some_iff.mp found).1
  rw [isYoung_iff_lt sorted found]
  unfold required at inside ⊢
  omega

theorem retains_iff_follows (sorted : NewestFirst deltas) {required : Nat}
    (isRequired : config.required now deltas = required)
    (isLimit : config.rrdpDeltaFilesMaxNr = limit) (short : required + more ≤ deltas.length)
    (young : ∀ index < more, ∀ delta ∈ deltas[required + index]?, ¬config.isOld now delta)
    (fits : required < limit → required + more < limit)
    (none : more = 0 → required < limit ∨ ∀ delta ∈ deltas[required]?, config.isOld now delta)
    (positive : required < deltas.length → 0 < limit) :
    config.Retains now deltas (required + more) ↔ config.Follows now deltas := by
  have retains : config.Retains now deltas (required + more) ↔ ∀ index < required + more,
      config.forced now deltas ≤ index → required + more + 1 ≤ config.rrdpDeltaFilesMaxNr ∧
        ∀ delta ∈ deltas[index]?, ¬config.isOld now delta := by
    refine ⟨Retains.bounded, fun bounded => ⟨?_, fun delta member => ?_, bounded⟩⟩
    · unfold RrdpUpdatesConfig.required at isRequired
      omega
    · rw [← List.drop_drop, ← isRequired] at member
      exact (beyond_required config now sorted delta (List.mem_of_mem_drop member)).2
  have later : ∀ index < required + more, required ≤ index →
      ∀ delta ∈ deltas[index]?, ¬config.isOld now delta := by
    intro index before after
    rw [← Nat.add_sub_cancel' after]
    exact young _ (by omega)
  have most := youngCount_le config now deltas
  rw [retains, Follows]
  simp only [isRequired, isLimit]
  unfold RrdpUpdatesConfig.required at isRequired
  split
  · next extra =>
    have forced : config.forced now deltas + 1 = required := by
      unfold forced
      omega
    constructor
    · intro bounded
      obtain ⟨within, notOld⟩ := bounded (required - 1) (by omega) (by omega)
      exact ⟨by omega, notOld⟩
    · rintro ⟨within, notOld⟩ index before after
      refine ⟨fits within, ?_⟩
      by_cases first : index = required - 1
      · exact first ▸ notOld
      · exact later index before (by omega)
  · next exact =>
    have forced : config.forced now deltas = required := by
      unfold forced
      omega
    rw [forced]
    constructor
    · intro bounded
      by_cases ended : deltas.length ≤ required
      · exact .inl ended
      · by_cases stopped : more = 0
        · exact .inr ((none stopped).imp_right fun old => ⟨positive (by omega), old⟩)
        · have within := (bounded required (by omega) (Nat.le_refl _)).1
          exact .inr (.inl (by omega))
    · intro follows index before after
      refine ⟨?_, later index before after⟩
      rcases follows with ended | within | ⟨_, old⟩
      · omega
      · exact fits within
      · have first := List.getElem?_eq_getElem (by omega : required < deltas.length)
        exact absurd (old _ first) (young 0 (by omega) _ first)

end RrdpUpdatesConfig

namespace RrdpServer

def checkedFindDeltasTruncateAge (self : RrdpServer) (env : Surroundings)
    (config : RrdpUpdatesConfig) : Option Nat :=
  config.checkedWithinAge env.now 0 self.deltas

/-- An update leaves the deltas that the documented rules ask for, and no others, just if
the configured numbers and the ages of the deltas agree with each other. -/
theorem retention_follows_rules_iff (self : RrdpServer) (env : Surroundings)
    (config : RrdpUpdatesConfig) (sorted : RrdpUpdatesConfig.NewestFirst self.deltas) :
    (∃ kept, self.checkedFindDeltasTruncateAge env config = some kept ∧
      config.Retains env.now self.deltas kept) ↔ config.Follows env.now self.deltas := by
  have start := config.checkedWithinAge_required env.now sorted (Nat.zero_le _)
  rw [List.drop_zero] at start
  rw [checkedFindDeltasTruncateAge, start]
  have inside : config.required env.now self.deltas ≤ self.deltas.length :=
    max_le (min_le_right ..) (config.youngCount_le env.now _)
  have beyond := config.beyond_required env.now sorted
  by_cases positive : self.deltas.drop (config.required env.now self.deltas) ≠ [] →
      0 < config.rrdpDeltaFilesMaxNr
  · obtain ⟨more, short, ends, young, fits, none⟩ :=
      RrdpUpdatesConfig.checkedWithinAge_beyond beyond positive
    simp only [List.length_drop, List.getElem?_drop, Nat.add_zero] at short young none
    rw [ends]
    simp only [Option.some.injEq, exists_eq_left']
    refine RrdpUpdatesConfig.retains_iff_follows sorted rfl rfl (by omega) young fits none ?_
    intro before
    exact positive (List.ne_nil_of_length_pos (by rw [List.length_drop]; omega))
  · -- A maximum of zero has no predecessor.
    obtain ⟨some, zero⟩ := Classical.not_imp.mp positive
    obtain ⟨first, rest, listed⟩ := List.exists_cons_of_ne_nil some
    obtain ⟨enough, aged⟩ := beyond first (listed ▸ List.mem_cons_self)
    have longer := congrArg List.length listed
    rw [List.length_drop, List.length_cons] at longer
    have breaks : ¬config.Follows env.now self.deltas := by
      unfold RrdpUpdatesConfig.Follows
      split <;> omega
    rw [listed, RrdpUpdatesConfig.checkedWithinAge,
      if_neg (not_or.mpr ⟨Nat.not_lt.mpr enough, aged⟩), if_pos (Nat.eq_zero_of_not_pos zero)]
    simpa using breaks

end RrdpServer

end Krill.Pubd

namespace Krill.Pubd.Flat

open RrdpServer

/-- A server whose deltas are as many seconds old as listed, at time 0. -/
def aged (ages : List Nat) : RrdpServer :=
  { RrdpServer.create env with
    deltas := ages.map fun age => ⟨"", 0, -(age : Int), ⟨[], [], []⟩⟩ }

theorem aged_rules_followed :
    ∃ kept, (aged [60, 600, 3600, 7300]).checkedFindDeltasTruncateAge env config = some kept ∧
      config.Retains env.now (aged [60, 600, 3600, 7300]).deltas kept :=
  (retention_follows_rules_iff (aged [60, 600, 3600, 7300]) env config
    (by simp [RrdpUpdatesConfig.NewestFirst, aged])).mpr (by
      unfold RrdpUpdatesConfig.Follows
      decide +kernel)

def narrow : RrdpUpdatesConfig :=
  { config with rrdpDeltaFilesMinNr := 0, rrdpDeltaFilesMaxNr := 1 }

/-- Two young deltas are one more than the maximum allows. So the maximum is not met by the
count, and the third delta is kept as well. -/
theorem maximum_is_skipped :
    ¬∃ kept, (aged [60, 600, 3600]).checkedFindDeltasTruncateAge env narrow = some kept ∧
      narrow.Retains env.now (aged [60, 600, 3600]).deltas kept := by
  rintro ⟨kept, found, retains⟩
  have three : kept = 3 := Option.some.inj (found.symm.trans (by decide +kernel))
  subst three
  exact absurd (retains.bounded 2 (by decide) (by decide +kernel)).1 (by decide)

end Krill.Pubd.Flat
