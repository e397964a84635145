import Krill.Ca.IpTree
import Krill.Ca.ObjectName

namespace Krill.Ca.TypedPrefix

def matchingOrLessSpecific (self other : TypedPrefix) : Bool :=
  self.isV4 = other.isV4 && self.toPrefix.min ≤ other.toPrefix.min &&
    self.toPrefix.max ≥ other.toPrefix.max

end Krill.Ca.TypedPrefix

namespace Krill.Bgp

open Ca

structure Announcement where
  asn : Asn
  typedPrefix : TypedPrefix
  deriving DecidableEq

inductive AnnouncementValidity where
  | valid
  | invalidLength
  | invalidAsn
  | disallowed
  | notFound
  deriving DecidableEq

structure ValidatedAnnouncement where
  announcement : Announcement
  validity : AnnouncementValidity
  authorizing : Option RoaPayload
  disallowing : List RoaPayload

instance : AsRefPrefix RoaPayload := ⟨RoaPayload.typedPrefix⟩

abbrev RoaLibrary := IntervalTree (List RoaPayload)

def makeRoaTree (library : RoaLibrary) (order : IterOrder) (roas : List RoaPayload) :
    library.Tree :=
  (TypedPrefixTreeBuilder.added roas).build library order

namespace Announcement

/-- The ROA is for the AS and the prefix, and allows its length. -/
def isAuthorizedBy (self : Announcement) (roa : RoaPayload) : Bool :=
  roa.asn = self.asn && roa.typedPrefix.matchingOrLessSpecific self.typedPrefix &&
    roa.effectiveMaxLength ≥ self.typedPrefix.addrLen

/-- Go through the covering ROAs, up to the first one that authorizes the announcement. -/
def validateAgainst (self : Announcement) : List RoaPayload → List RoaPayload → Bool → Bool →
    ValidatedAnnouncement
  | [], invalidating, sameAsnFound, noneAs0Found =>
    { announcement := self
      validity := if sameAsnFound then .invalidLength
        else if noneAs0Found then .invalidAsn else .disallowed
      authorizing := none
      disallowing := invalidating }
  | roa :: rest, invalidating, sameAsnFound, noneAs0Found =>
    if self.isAuthorizedBy roa then
      { announcement := self, validity := .valid, authorizing := some roa, disallowing := [] }
    else
      self.validateAgainst rest (invalidating ++ [roa]) (sameAsnFound || roa.asn = self.asn)
        (noneAs0Found || roa.asn ≠ 0)

def validate (self : Announcement) (library : RoaLibrary) (roas : library.Tree) :
    ValidatedAnnouncement :=
  let covering := TypedPrefixTree.matchingOrLessSpecific library roas (.from self.typedPrefix)
  if covering.isEmpty then
    { announcement := self, validity := .notFound, authorizing := none, disallowing := [] }
  else self.validateAgainst covering [] false false

/-- The validation of an announcement against a list of ROAs. -/
def validated (self : Announcement) (library : RoaLibrary) (order : IterOrder)
    (roas : List RoaPayload) : ValidatedAnnouncement :=
  self.validate library (makeRoaTree library order roas)

def isCoveredBy (self : Announcement) (roa : RoaPayload) : Bool :=
  roa.typedPrefix.matchingOrLessSpecific self.typedPrefix

/-- Origin validation as in RFC 6811. -/
structure OriginValidated (ann : Announcement) (library : RoaLibrary) (order : IterOrder)
    (roas : List RoaPayload) : Prop where
  valid : (ann.validated library order roas).validity = .valid ↔ ∃ roa ∈ roas,
    ann.isCoveredBy roa ∧ roa.asn = ann.asn ∧ roa.asn ≠ 0 ∧
      ann.typedPrefix.addrLen ≤ roa.effectiveMaxLength
  notFound : (ann.validated library order roas).validity = .notFound ↔
    ∀ roa ∈ roas, ¬ann.isCoveredBy roa
  invalidLength : (ann.validated library order roas).validity = .invalidLength ↔
    (ann.validated library order roas).validity ≠ .valid ∧
      ∃ roa ∈ roas, ann.isCoveredBy roa ∧ roa.asn = ann.asn
  disallowed : (ann.validated library order roas).validity = .disallowed ↔
    (∃ roa ∈ roas, ann.isCoveredBy roa) ∧ ∀ roa ∈ roas, ann.isCoveredBy roa → roa.asn = 0
  unordered : ∀ {others order'}, others.Perm roas →
    (ann.validated library order' others).validity = (ann.validated library order roas).validity
  disallowing : (ann.validated library order roas).validity ≠ .valid →
    (ann.validated library order roas).disallowing.Perm (roas.filter ann.isCoveredBy)

/-- The tree takes the ROA to be one that covers the announcement. -/
def isFoundUnder (self : Announcement) (roa : RoaPayload) : Bool :=
  (IpRange.from roa.typedPrefix).overlaps (.from self.typedPrefix) &&
    (IpRange.from self.typedPrefix).isContainedBy (.from roa.typedPrefix)

/-- What the covering ROAs say, in any order. -/
def verdict (self : Announcement) (covering : List RoaPayload) : AnnouncementValidity :=
  if covering.any self.isAuthorizedBy then .valid
  else if covering.isEmpty then .notFound
  else if covering.any (·.asn = self.asn) then .invalidLength
  else if covering.any (·.asn ≠ 0) then .invalidAsn
  else .disallowed

variable {ann : Announcement}

theorem validateAgainst_spec (ann : Announcement) (covering invalidating : List RoaPayload)
    (same nonzero : Bool) :
    (ann.validateAgainst covering invalidating same nonzero).validity =
      (if covering.any ann.isAuthorizedBy then .valid
      else if same || covering.any (·.asn = ann.asn) then .invalidLength
      else if nonzero || covering.any (·.asn ≠ 0) then .invalidAsn else .disallowed) ∧
    (¬covering.any ann.isAuthorizedBy →
      (ann.validateAgainst covering invalidating same nonzero).disallowing =
        invalidating ++ covering) := by
  induction covering generalizing invalidating same nonzero with
  | nil => simp [validateAgainst]
  | cons roa rest induction =>
    unfold validateAgainst
    split
    · next authorized => simp [authorized]
    · next unauthorized =>
        obtain ⟨validity, disallowing⟩ := induction (invalidating ++ [roa])
          (same || roa.asn = ann.asn) (nonzero || roa.asn ≠ 0)
        rw [validity]
        simpa [unauthorized, Bool.or_assoc] using disallowing

theorem verdict_perm (perm : covering.Perm others) : ann.verdict covering = ann.verdict others := by
  simp only [verdict, perm.any_eq, perm.isEmpty_eq]

theorem verdict_unauthorized (unauthorized : ¬covering.any ann.isAuthorizedBy) :
    ann.verdict covering ≠ .valid ∧ (ann.verdict covering = .notFound ↔ covering = []) ∧
      (ann.verdict covering = .invalidLength ↔ ∃ roa ∈ covering, roa.asn = ann.asn) ∧
      (ann.verdict covering = .disallowed ↔
        covering ≠ [] ∧ ∀ roa ∈ covering, roa.asn ≠ ann.asn ∧ roa.asn = 0) := by
  rw [verdict, if_neg unauthorized]
  simp only [List.isEmpty_iff, List.any_eq_true, decide_eq_true_eq]
  split_ifs with none same nonzero
  · simp [none]
  · obtain ⟨roa, member, same⟩ := same
    simpa [none] using ⟨⟨roa, member, same⟩, roa, member, fun other => absurd same other⟩
  · obtain ⟨roa, member, nonzero⟩ := nonzero
    simp only [not_exists, not_and] at same
    simpa [none] using ⟨same, roa, member, fun _ => nonzero⟩
  · simp only [not_exists, not_and, not_not] at same nonzero
    simpa [none] using ⟨same, fun roa member => ⟨same roa member, nonzero roa member⟩⟩

theorem validated_spec (ann : Announcement) :
    (ann.validated library order roas).validity = ann.verdict (roas.filter ann.isFoundUnder) ∧
    (¬(roas.filter ann.isFoundUnder).any ann.isAuthorizedBy →
      (ann.validated library order roas).disallowing.Perm (roas.filter ann.isFoundUnder)) := by
  have perm := query_perm library roas order (.from ann.typedPrefix) fun range =>
    (IpRange.from ann.typedPrefix).isContainedBy range
  change List.Perm _ (roas.filter ann.isFoundUnder) at perm
  rw [← verdict_perm perm, ← perm.any_eq]
  unfold validated validate TypedPrefixTree.matchingOrLessSpecific makeRoaTree
  generalize List.flatMap _ _ = covering at perm ⊢
  cases covering with
  | nil => exact ⟨rfl, fun _ => perm⟩
  | cons first rest =>
    obtain ⟨validity, disallowing⟩ := validateAgainst_spec ann (first :: rest) [] false false
    refine ⟨validity, fun unauthorized => ?_⟩
    change (ann.validateAgainst (first :: rest) [] false false).disallowing.Perm _
    rwa [disallowing unauthorized]

end Announcement

end Krill.Bgp
