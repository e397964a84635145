import Krill.Ca.Rpki

namespace Krill.Ca

namespace Prefix

def hostBits (self : Prefix) : BitVec 128 := BitVec.allOnes 128 >>> self.addrLen

def min (self : Prefix) : BitVec 128 := self.addr &&& ~~~self.hostBits

def max (self : Prefix) : BitVec 128 := self.addr ||| self.hostBits

end Prefix

def toV4 (addr : BitVec 128) : Nat := (addr >>> 96).toNat

def toIpv6Mapped (ipv4 : Nat) : Nat := 0xffff00000000 + ipv4

/-- A half-open range, as the library understands it. -/
structure IpRange where
  start : Nat
  stop : Nat
  deriving DecidableEq

namespace IpRange

def contains (self other : IpRange) : Bool :=
  self.start ≤ other.start && self.stop ≥ other.stop

def isContainedBy (self other : IpRange) : Bool :=
  other.start ≤ self.start && other.stop ≥ self.stop

/-- There is a number in both ranges. -/
def overlaps (self other : IpRange) : Bool :=
  Max.max self.start other.start < Min.min self.stop other.stop

end IpRange

def IpRange.from : TypedPrefix → IpRange
  | .v4 ipv4 =>
    { start := toIpv6Mapped (toV4 ipv4.min), stop := toIpv6Mapped (toV4 ipv4.max) }
  | .v6 ipv6 => { start := ipv6.min.toNat, stop := ipv6.max.toNat }

/-- What the library offers for elements of one type. -/
structure IntervalTree (A : Type) where
  Tree : Type
  collect : List (IpRange × A) → Tree
  query : Tree → IpRange → List (IpRange × A)
  query_collect : ∀ elements range, (query (collect elements) range).Perm
    (elements.filter fun element => element.1.overlaps range)

class AsRefPrefix (V : Type) where
  asRef : V → TypedPrefix

open AsRefPrefix (asRef)

variable [AsRefPrefix V]

structure TypedPrefixTreeBuilder (V : Type) where
  values : HashMap IpRange (List V)

namespace TypedPrefixTreeBuilder

def default : TypedPrefixTreeBuilder V := ⟨.empty⟩

def add (self : TypedPrefixTreeBuilder V) (value : V) : TypedPrefixTreeBuilder V :=
  let range := IpRange.from (asRef value)
  ⟨self.values.insert range ((self.values.get range).getD [] ++ [value])⟩

/-- The builder to which a list of values was added. -/
def added (values : List V) : TypedPrefixTreeBuilder V := values.foldl add default

def build (self : TypedPrefixTreeBuilder V) (library : IntervalTree (List V))
    (order : IterOrder) : library.Tree :=
  library.collect (self.values.iter order)

end TypedPrefixTreeBuilder

namespace TypedPrefixTree

variable (library : IntervalTree (List V)) (tree : library.Tree) (range : IpRange)

def matchingOrMoreSpecific : List V :=
  (library.query tree range).flatMap fun el => if range.contains el.1 then el.2 else []

def matchingOrLessSpecific : List V :=
  (library.query tree range).flatMap fun el => if range.isContainedBy el.1 then el.2 else []

end TypedPrefixTree

namespace TypedPrefix

def isV4 : TypedPrefix → Bool
  | .v4 _ => true
  | .v6 _ => false

/-- The first address of the prefix, as a number, in its own address family. -/
def first : TypedPrefix → Nat
  | .v4 ipv4 => toV4 ipv4.min
  | .v6 ipv6 => ipv6.min.toNat

def last : TypedPrefix → Nat
  | .v4 ipv4 => toV4 ipv4.max
  | .v6 ipv6 => ipv6.max.toNat

def covers (self other : TypedPrefix) : Bool :=
  self.isV4 = other.isV4 ∧ self.first ≤ other.first ∧ other.last ≤ self.last

def isHost (self : TypedPrefix) : Bool := ¬self.first < self.last

end TypedPrefix

open TypedPrefixTreeBuilder (added)

/-- Both lookups find the values that they are to find, each as often as it was added. -/
structure LookupsExact (library : IntervalTree (List V)) (order : IterOrder) (values : List V)
    (query : TypedPrefix) : Prop where
  moreSpecific : (TypedPrefixTree.matchingOrMoreSpecific library
      ((added values).build library order)
      (.from query)).Perm (values.filter fun value => query.covers (asRef value))
  lessSpecific : (TypedPrefixTree.matchingOrLessSpecific library
      ((added values).build library order)
      (.from query)).Perm (values.filter fun value => (asRef value).covers query)

theorem get_added (values : List V) (range : IpRange) : ((added values).values.get range).getD [] =
      values.filter fun value => IpRange.from (asRef value) = range := by
  induction values using List.reverseRecOn with
  | nil => rfl
  | append_singleton values value induction =>
    rw [added, List.foldl_concat, ← added, List.filter_append, ← induction]
    change (HashMap.get (HashMap.insert _ _ _) range).getD [] = _
    rw [HashMap.get_insert]
    by_cases same : IpRange.from (asRef value) = range
    · simp [same]
    · simp [same, Ne.symm same]

theorem perm_flatMap_groups [DecidableEq K] {keys : List K} (distinct : keys.Nodup) (key : A → K)
    (items : List A) :
    (keys.flatMap fun group => items.filter fun item => key item = group).Perm
      (items.filter fun item => key item ∈ keys) := by
  induction keys with
  | nil => simp
  | cons group keys induction =>
    obtain ⟨absent, distinct⟩ := List.nodup_cons.mp distinct
    have parts := List.filter_append_perm (fun item => key item = group)
      (items.filter fun item => key item ∈ group :: keys)
    rw [List.filter_filter, List.filter_filter] at parts
    rw [List.flatMap_cons]
    refine ((induction distinct).append_left _).trans (.trans (.of_eq ?_) parts)
    congr 1 <;> refine List.filter_congr fun item _ => ?_ <;>
      by_cases same : key item = group <;> simp [same, absent]

theorem flatMap_filter (items : List A) : (items.filter wanted).flatMap image =
      items.flatMap fun item => if wanted item then image item else [] := by
  induction items with
  | nil => rfl
  | cons item rest induction =>
    rw [List.flatMap_cons, List.filter_cons, ← induction]
    split <;> rfl

theorem perm_filter_iff {items : List A} :
    (items.filter one).Perm (items.filter other) ↔ ∀ item ∈ items, one item = other item := by
  refine ⟨fun perm item member => ?_, fun same => .of_eq (List.filter_congr same)⟩
  have found : item ∈ items.filter one ↔ item ∈ items.filter other := perm.mem_iff
  rwa [List.mem_filter, List.mem_filter, and_iff_right member, and_iff_right member,
    ← Bool.eq_iff_iff] at found

theorem query_perm (library : IntervalTree (List V)) (values : List V) (order : IterOrder)
    (range : IpRange) (kind : IpRange → Bool) :
    ((library.query ((added values).build library order) range).flatMap fun el =>
      if kind el.1 then el.2 else []).Perm
      (values.filter fun value => (IpRange.from (asRef value)).overlaps range &&
        kind (.from (asRef value))) := by
  have known (value : V) (member : value ∈ values) :
      IpRange.from (asRef value) ∈ ((added values).values.iter order).map Prod.fst := by
    rw [HashMap.mem_iter_keys]
    have own := get_added values (.from (asRef value))
    cases found : (added values).values.get (.from (asRef value)) with
    | some group => rfl
    | none =>
      rw [found, Option.getD_none] at own
      exact absurd (decide_eq_true rfl) (List.filter_eq_nil_iff.mp own.symm value member)
  have listed (el : IpRange × List V) (member : el ∈ (added values).values.iter order) :
      (if el.1.overlaps range then if kind el.1 then el.2 else [] else []) =
        (values.filter fun value => (IpRange.from (asRef value)).overlaps range &&
          kind (.from (asRef value))).filter fun value => IpRange.from (asRef value) = el.1 := by
    have own := get_added values el.1
    rw [HashMap.mem_iter.mp member, Option.getD_some] at own
    have ofRange : ∀ value ∈ values, (decide (IpRange.from (asRef value) = el.1) &&
        ((IpRange.from (asRef value)).overlaps range && kind (.from (asRef value)))) =
        (decide (IpRange.from (asRef value) = el.1) && (el.1.overlaps range && kind el.1)) := by
      intro value _
      by_cases same : IpRange.from (asRef value) = el.1 <;> simp [same]
    rw [own, List.filter_filter, List.filter_congr ofRange]
    cases el.1.overlaps range <;> cases kind el.1 <;> simp
  refine ((library.query_collect _ range).flatMap_right _).trans ?_
  refine .trans (.of_eq ?_) ((perm_flatMap_groups
    (HashMap.iter_keys_nodup (added values).values order) _ _).trans (.of_eq
      (List.filter_eq_self.mpr fun value member =>
        decide_eq_true (known value (List.mem_of_mem_filter member)))))
  rw [List.flatMap_map, ← List.flatMap_congr listed]
  exact flatMap_filter _

theorem overlaps_comm (one : IpRange) : one.overlaps other = other.overlaps one := by
  simp only [IpRange.overlaps, Nat.max_comm one.start, Nat.min_comm one.stop]

theorem overlaps_contains_iff (outer inner : TypedPrefix) :
    ((IpRange.from inner).overlaps (.from outer) &&
      (IpRange.from outer).contains (.from inner)) = outer.covers inner ↔
      ((IpRange.from outer).contains (.from inner) →
        (outer.isV4 = inner.isV4 ↔ inner.isHost = false)) := by
  rw [Bool.eq_iff_iff]
  simp only [IpRange.overlaps, IpRange.contains, TypedPrefix.covers, TypedPrefix.isHost,
    Bool.and_eq_true, decide_eq_true_eq, decide_eq_false_iff_not, Nat.max_lt, Nat.lt_min]
  cases inner <;> cases outer <;>
    simp only [IpRange.from, TypedPrefix.isV4, TypedPrefix.first, TypedPrefix.last, toIpv6Mapped,
      reduceCtorEq, not_not, true_and, false_and, true_iff, false_iff, iff_false] <;>
    omega

/-- The lookups are exact unless the range of some value is in that of the query and the value is
a single address or of the other address family, or the other way around. -/
theorem lookups_exact_iff (library : IntervalTree (List V)) (order : IterOrder) (values : List V)
    (query : TypedPrefix) :
    LookupsExact library order values query ↔ ∀ value ∈ values,
      ((IpRange.from query).contains (.from (asRef value)) →
        (query.isV4 = (asRef value).isV4 ↔ (asRef value).isHost = false)) ∧
      ((IpRange.from query).isContainedBy (.from (asRef value)) →
        ((asRef value).isV4 = query.isV4 ↔ query.isHost = false)) := by
  have found (kind : IpRange → Bool) (wanted : V → Bool) :=
    ((query_perm library values order (.from query) kind).symm.congr_left
      (values.filter wanted)).symm.trans perm_filter_iff
  have covering (value : V) := overlaps_contains_iff (asRef value) query
  simp only [overlaps_comm (.from query)] at covering
  constructor
  · rintro ⟨more, less⟩ value member
    exact ⟨(overlaps_contains_iff _ _).mp ((found _ _).mp more value member),
      (covering value).mp ((found _ _).mp less value member)⟩
  · intro all
    exact ⟨(found _ _).mpr fun value member =>
        (overlaps_contains_iff _ _).mpr (all value member).1,
      (found _ _).mpr fun value member => (covering value).mpr (all value member).2⟩

def IntervalTree.listed {A : Type} : IntervalTree A where
  Tree := List (IpRange × A)
  collect := id
  query tree range := tree.filter fun element => element.1.overlaps range
  query_collect _ _ := .refl _

instance : AsRefPrefix TypedPrefix := ⟨id⟩

/-- A single address is not found, as its range has no numbers. -/
theorem host_not_found : ¬LookupsExact .listed .stored
    [TypedPrefix.v4 ⟨0x0a000000#32 ++ 0#96, 32⟩] (.v4 ⟨0x0a000000#32 ++ 0#96, 32⟩) := by
  intro exact
  exact absurd exact.moreSpecific.length_eq (by decide)

end Krill.Ca
