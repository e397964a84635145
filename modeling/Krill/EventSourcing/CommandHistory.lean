import Mathlib
import Krill.Data.Text
import Krill.EventSourcing.CommandLog

namespace Krill.EventSourcing

/-! The history of commands in pages. The keys of commands are read back from the names of
their files. -/

structure CommandHistoryCriteria where
  before : Option Time
  after : Option Time
  afterSequence : Option Nat
  labelIncludes : Option (List String)
  labelExcludes : Option (List String)
  offset : Nat
  rowsLimit : Option Nat

namespace CommandHistoryCriteria

variable (self : CommandHistoryCriteria)

def matchesTimestampSecs (stamp : Time) : Bool :=
  self.before.all (fun before => stamp ≤ before) && self.after.all fun after => after ≤ stamp

def matchesSequence (sequence : Nat) : Bool := self.afterSequence.all fun after => after < sequence

def matchesLabel (label : String) : Bool :=
  self.labelIncludes.all (fun labels => labels.contains label) &&
    self.labelExcludes.all fun labels => !labels.contains label

/-- The space that is reserved for the records of a page. -/
def rows (keys : List CommandKey) : Nat := self.rowsLimit.getD keys.length

/-- The criteria in the path of a request, where they can be parsed. -/
def ofPath (rows offset : Option Nat) (after before : Option Time) : CommandHistoryCriteria where
  before
  after
  afterSequence := none
  labelIncludes := none
  labelExcludes := none
  offset := offset.getD 0
  rowsLimit := rows.or (some 100)

end CommandHistoryCriteria

/-- The parts of a text between double dashes. -/
def splitDashes : List Char → List (List Char)
  | '-' :: '-' :: rest => [] :: splitDashes rest
  | char :: rest => (splitDashes rest).modifyHead (char :: ·)
  | [] => [[]]

theorem splitDashes_append (whole : '-' ∉ part) :
    splitDashes (part ++ '-' :: '-' :: rest) = part :: splitDashes rest := by
  induction part with
  | nil => rw [List.nil_append, splitDashes]
  | cons char part induction =>
    obtain ⟨first, later⟩ := not_or.mp (mt List.mem_cons.mpr whole)
    rw [List.cons_append, splitDashes, induction later, List.modifyHead_cons]
    exact fun _ same => absurd same.symm first

theorem splitDashes_int (number : Int) :
    splitDashes (number.repr.toList ++ '-' :: '-' :: rest) =
      number.repr.toList :: splitDashes rest := by
  cases number with
  | ofNat number => exact splitDashes_append (Text.notMem_repr rfl)
  | negSucc number =>
    have text : (Int.repr (.negSucc number)).toList = '-' :: (number + 1).repr.toList := by
      simp [Int.repr]
    have whole : '-' ∉ (number + 1).repr.toList := Text.notMem_repr rfl
    rw [text, List.cons_append, splitDashes, splitDashes_append whole, List.modifyHead_cons]
    intro _ _ same
    cases digits : (number + 1).repr.toList with
    | nil => exact Nat.repr_ne_empty (String.toList_eq_nil_iff.mp digits)
    | cons digit later =>
      rw [digits] at same whole
      exact whole (List.mem_cons.mpr (.inl (List.cons.inj same).1.symm))

theorem splitDashes_ne_nil (text : List Char) : splitDashes text ≠ [] := by
  fun_induction splitDashes text <;> simp_all

theorem eq_of_splitDashes (whole : splitDashes text = [part]) : part = text := by
  fun_induction splitDashes text generalizing part with
  | case1 rest => exact absurd (List.cons.inj whole).2 (splitDashes_ne_nil rest)
  | case2 char rest _ induction =>
    cases later : splitDashes rest with
    | nil => exact absurd later (splitDashes_ne_nil rest)
    | cons first others =>
      rw [later] at whole
      obtain ⟨rfl, rfl⟩ := List.cons.inj whole
      rw [induction later]
  | case3 => exact (List.cons.inj whole).1.symm

namespace CommandKey

variable (self : CommandKey)

def matchesCrit (crit : CommandHistoryCriteria) : Bool :=
  crit.matchesTimestampSecs self.timestampSecs && crit.matchesLabel self.label &&
    crit.matchesSequence self.sequence

def fileName : List Char :=
  "command".toList ++ '-' :: '-' :: (self.timestampSecs.repr.toList ++ '-' :: '-' ::
    (self.sequence.repr.toList ++ '-' :: '-' :: (self.label.toList ++ ".json".toList)))

def fromStr (text : List Char) : Option CommandKey :=
  match splitDashes text with
  | [kind, stamp, sequence, label] =>
    if kind = "command".toList then do
      let timestampSecs ← (String.ofList stamp).toInt?
      let sequence ← (String.ofList sequence).toNat?
      let label := if ".json".toList.isSuffixOf label then label.take (label.length - 5) else label
      return { sequence, timestampSecs, label := String.ofList label }
    else none
  | _ => none

/-- There is no double dash in the label. -/
def Plain : Prop :=
  splitDashes (self.label.toList ++ ".json".toList) = [self.label.toList ++ ".json".toList]

variable {self}

theorem splitDashes_fileName : splitDashes self.fileName =
    "command".toList :: self.timestampSecs.repr.toList :: self.sequence.repr.toList ::
      splitDashes (self.label.toList ++ ".json".toList) := by
  have command : '-' ∉ "command".toList := by decide
  have digits : '-' ∉ self.sequence.repr.toList := Text.notMem_repr rfl
  unfold fileName
  rw [splitDashes_append command, splitDashes_int, splitDashes_append digits]

theorem fromStr_fileName (plain : self.Plain) : fromStr self.fileName = some self := by
  unfold Plain at plain
  unfold fromStr
  rw [splitDashes_fileName, plain]
  simp only [String.ofList_toList, Int.toInt?_repr, Nat.toNat?_repr]
  simp

/-- A command is read back under its own key, or not at all where a double dash is in its
label. -/
theorem read_back_iff (self : CommandKey) : (fromStr self.fileName = some self ↔ self.Plain) ∧
    (fromStr self.fileName = none ↔ ¬self.Plain) := by
  by_cases plain : self.Plain
  · simp [fromStr_fileName plain, plain]
  · have unread : fromStr self.fileName = none := by
      unfold fromStr
      rw [splitDashes_fileName]
      split
      · next parts =>
        obtain ⟨-, -, -, single⟩ := by simpa only [List.cons.injEq] using parts
        rw [eq_of_splitDashes single] at single
        exact absurd single plain
      · rfl
    simp [unread, plain]

end CommandKey

theorem take_pages {items : List A} :
    (List.range count).flatMap (fun page => (items.drop (page * rows)).take rows) =
      items.take (count * rows) := by
  induction count with
  | zero => simp
  | succ count induction =>
    rw [List.range_succ, List.flatMap_append, induction, List.flatMap_singleton, Nat.succ_mul,
      List.take_add]

open AggregateStore

variable [Aggregate]

structure CommandHistory where
  offset : Nat
  total : Nat
  commands : List StoredCommand

def commandKeysMatching (scope : Scope) (crit : CommandHistoryCriteria) (order : IterOrder) :
    List CommandKey :=
  let listed := scope.selectKeys order (Key.commandAfter none)
  ((listed.filterMap fun key => CommandKey.fromStr key.fileName).filter fun key =>
    key.matchesCrit crit).insertionSort fun left right => left.sequence ≤ right.sequence

/-- One turn of the loop, with the number of skipped commands beside what was found. -/
def CommandHistory.next (scope : Scope) (rows : Nat) (state : Nat × CommandHistory)
    (key : CommandKey) : Except AggregateStoreError (Nat × CommandHistory) :=
  let found := { state.2 with total := state.2.total + 1 }
  if state.1 < found.offset then .ok (state.1 + 1, found)
  else if found.commands.length < rows then
    match scope.read Document.asCommand (.command key) with
    | .ok (some stored) => .ok (state.1, { found with commands := found.commands ++ [stored] })
    | .ok none => .error (.commandNotFound key)
    | .error failure => .error (.keyStoreError failure)
  else .ok (state.1, found)

def commandHistory (scope : Scope) (crit : CommandHistoryCriteria) (order : IterOrder) :
    Except AggregateStoreError CommandHistory := do
  let keys := commandKeysMatching scope crit order
  let state ← keys.foldlM (CommandHistory.next scope (crit.rows keys)) (0, ⟨crit.offset, 0, []⟩)
  return state.2

structure Readable (scope : Scope) (log : CommandKey → StoredCommand) : Prop where
  stored : scope.get (.command key) = some document → document = .command (log key)
  plain : (scope.get (.command key)).isSome → key.Plain

variable {scope : Scope} {keys : List CommandKey}

theorem foldlM_next (stored : ∀ key ∈ keys, scope.get (.command key) = some (.command (log key))) :
    ∃ last, keys.foldlM (CommandHistory.next scope rows) (skipped, ⟨offset, total, commands⟩) =
      .ok (last, ⟨offset, total + keys.length, commands ++
        ((keys.drop (offset - skipped)).take (rows - commands.length)).map log⟩) := by
  induction keys generalizing skipped total commands with
  | nil => exact ⟨skipped, by simp [pure, Except.pure]⟩
  | cons key rest induction =>
    obtain ⟨first, later⟩ := List.forall_mem_cons.mp stored
    have count : total + 1 + rest.length = total + (key :: rest).length := by
      rw [List.length_cons]; omega
    rw [List.foldlM_cons, CommandHistory.next]
    dsimp only
    split
    · next skips =>
      obtain ⟨last, done⟩ := induction later
      refine ⟨last, done.trans ?_⟩
      rw [count, show offset - skipped = offset - (skipped + 1) + 1 by omega, List.drop_succ_cons]
    · next takes =>
      have none : offset - skipped = 0 := by omega
      rw [none]
      split
      · next room =>
        have read : scope.read Document.asCommand (.command key) = .ok (some (log key)) := by
          simp [KeyValue.Entries.read, first, Document.asCommand]
        rw [read]
        obtain ⟨last, done⟩ := induction later
        have left : rows - commands.length = rows - (commands ++ [log key]).length + 1 := by
          rw [List.length_append, List.length_singleton]; omega
        refine ⟨last, done.trans ?_⟩
        rw [count, none, left, List.drop_zero, List.drop_zero, List.take_succ_cons, List.map_cons,
          List.append_assoc, List.singleton_append]
      · next full =>
        obtain ⟨last, done⟩ := induction later
        refine ⟨last, done.trans ?_⟩
        rw [count, Nat.sub_eq_zero_of_le (Nat.le_of_not_lt full), List.take_zero, List.take_zero]

theorem commandKeysMatching_perm (readable : Readable scope log) :
    (commandKeysMatching scope crit order).Perm
      ((commandKeysAscending scope none order).filter fun key => key.matchesCrit crit) := by
  have sorted := List.perm_insertionSort (fun left right => left.sequence ≤ right.sequence)
    (scope.selectKeys order (Key.commandAfter none))
  refine (List.perm_insertionSort _ _).trans ((List.Perm.filter _ ?_).trans (sorted.filter _).symm)
  refine .of_eq ((List.filterMap_congr fun key member => ?_).trans List.filterMap_some)
  exact CommandKey.fromStr_fileName
    (readable.plain (mem_commandKeysAscending.mp (sorted.mem_iff.mpr member)).1)

theorem mem_commandKeysMatching (readable : Readable scope log) :
    key ∈ commandKeysMatching scope crit order ↔
      (scope.get (.command key)).isSome ∧ key.matchesCrit crit := by
  rw [(commandKeysMatching_perm readable).mem_iff, List.mem_filter, mem_commandKeysAscending]
  simp

theorem commandHistory_eq (readable : Readable scope log) :
    commandHistory scope crit order = .ok ⟨crit.offset,
      (commandKeysMatching scope crit order).length,
      (((commandKeysMatching scope crit order).drop crit.offset).take
        (crit.rows (commandKeysMatching scope crit order))).map log⟩ := by
  obtain ⟨last, done⟩ := foldlM_next fun key member => by
    obtain ⟨document, found⟩ :=
      Option.isSome_iff_exists.mp ((mem_commandKeysMatching readable).mp member).1
    rw [found, readable.stored found]
  unfold commandHistory
  dsimp only
  rw [done]
  simp [bind, Except.bind, pure, Except.pure]

theorem sequences_commandKeysMatching (readable : Readable scope log)
    (complete : CommandLog scope count last) (crit : CommandHistoryCriteria)
    (all : ∀ key : CommandKey, key.matchesCrit crit) (order : IterOrder) :
    (commandKeysMatching scope crit order).map CommandKey.sequence = List.range' 1 last := by
  have member (key : CommandKey) :
      key ∈ commandKeysMatching scope crit order ↔ (scope.get (.command key)).isSome :=
    (mem_commandKeysMatching readable).trans (and_iff_left (all key))
  have distinct : (commandKeysMatching scope crit order).Nodup :=
    (commandKeysMatching_perm readable).nodup_iff.mpr (commandKeysAscending_nodup.filter _)
  have sorted : ((commandKeysMatching scope crit order).map CommandKey.sequence).Pairwise (· ≤ ·) :=
    List.pairwise_map.mpr (List.pairwise_insertionSort _ _)
  refine List.Perm.eq_of_pairwise' sorted (List.pairwise_le_range' _)
    ((List.perm_ext_iff_of_nodup (distinct.map_on ?_) List.nodup_range').mpr fun number => ?_)
  · intro left inLeft right inRight
    exact complete.distinct ((member left).mp inLeft) ((member right).mp inRight)
  · simp only [List.mem_map, member, ← complete.numbers, List.mem_range'_1]
    omega

end Krill.EventSourcing

namespace Krill.EventSourcing.Persons

open AggregateStore Stateful

def orbit : StoredCommand :=
  ⟨"test", 5, "alice", 1, 1, .goAroundTheSun, .success [1]⟩

def orbitLog : Scope := HashMap.empty.insert (.command (.forStored orbit)) (.command orbit)

theorem orbit_readable : Readable orbitLog fun _ => orbit where
  stored {key document} found := by
    rw [orbitLog, HashMap.get_insert] at found
    split at found <;> cases found
    rfl
  plain {key} present := by
    rw [orbitLog, HashMap.get_insert] at present
    split at present
    · next same =>
      cases same
      change splitDashes _ = _
      decide
    · cases present

end Krill.EventSourcing.Persons
