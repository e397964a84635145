import Krill.Ca.Numbered
import Krill.Ca.Publishing

namespace Krill.Ca

open Rpki Text

variable [Rpki]

/-- How the library prints prefixes, texts in hexadecimal and key identifiers. -/
structure PrintLaws : Prop where
  prefix_injective : Function.Injective prefixText
  prefix_dash : '-' ∉ (prefixText typedPrefix).toList
  hex_injective : Function.Injective hexEncode
  hex_digits : char ∈ (hexEncode text).toList → isHexDigit char
  key_injective : Function.Injective keyText
  key_digits : char ∈ (keyText key).toList → isHexDigit char

/-- The objects in the set of a key. -/
inductive PublishedId where
  | object (id : ObjectId)
  | manifest
  | crl

namespace PublishedId

def name (key : KeyIdentifier) : PublishedId → ObjectName
  | .object id => id.name
  | .manifest => .mftForKey key
  | .crl => .crlForKey key

def Explicit : PublishedId → Prop
  | .object (.roa auth) => auth.maxLength.isSome
  | _ => True

def extension : PublishedId → List Char
  | .object id => id.extension
  | .manifest => ".mft".toList
  | .crl => ".crl".toList

def stem (key : KeyIdentifier) : PublishedId → List Char
  | .object id => id.stem
  | _ => (keyText key).toList

theorem toList_name (key : KeyIdentifier) (id : PublishedId) :
    (id.name key).toList = id.stem key ++ id.extension := by
  cases id with
  | object id => exact id.toList_name
  | manifest | crl => simp [name, stem, extension, ObjectName.mftForKey, ObjectName.crlForKey,
      ObjectName.new]

theorem length_extension (id : PublishedId) : id.extension.length = 4 := by
  cases id with
  | object id => exact id.length_extension
  | manifest | crl => rfl

theorem stem_extension {left right : PublishedId} (same : left.name key = right.name key) :
    left.stem key = right.stem key ∧ left.extension = right.extension := by
  have texts := congrArg String.toList same
  rw [toList_name, toList_name] at texts
  exact List.append_inj' texts (left.length_extension.trans right.length_extension.symm)

end PublishedId

variable (laws : PrintLaws)
include laws

theorem PrintLaws.toText_injective {left right : RoaPayload} (explicit : left.maxLength.isSome)
    (explicit' : right.maxLength.isSome) (same : left.toText = right.toText) : left = right := by
  obtain ⟨asn, typedPrefix, length⟩ := left
  obtain ⟨asn', typedPrefix', length'⟩ := right
  obtain ⟨length, rfl⟩ := Option.isSome_iff_exists.mp explicit
  obtain ⟨length', rfl⟩ := Option.isSome_iff_exists.mp explicit'
  have parts (given : TypedPrefix) (length : Nat) (asn : Asn) :
      (RoaPayload.toText ⟨asn, given, some length⟩).toList = (prefixText given).toList ++
        '-' :: (length.repr.toList ++ ' ' :: "=> ".toList ++ asn.toNat.repr.toList) := by
    simp [RoaPayload.toText]
  have same := congrArg String.toList same
  rw [parts, parts] at same
  obtain ⟨prefixes, same⟩ := append_cons_inj laws.prefix_dash laws.prefix_dash same
  rw [List.append_assoc, List.append_assoc] at same
  obtain ⟨lengths, asns⟩ := append_cons_inj (notMem_repr rfl) (notMem_repr rfl) same
  rw [laws.prefix_injective (String.toList_inj.mp prefixes), repr_toList_inj.mp lengths,
    UInt32.toNat_inj.mp (repr_toList_inj.mp (List.append_cancel_left asns))]

theorem PrintLaws.name_injective {left right : PublishedId} (explicit : left.Explicit)
    (explicit' : right.Explicit) (same : left.name key = right.name key) : left = right := by
  have hex {text : String} {rest : List Char} : (hexEncode text).toList ≠ "AS".toList ++ rest := by
    intro same
    have member : 'S' ∈ (hexEncode text).toList := by simp [same]
    cases laws.hex_digits member
  have key {key : KeyIdentifier} {rest : List Char} :
      (keyText key).toList ≠ "ROUTER-".toList ++ rest := by
    intro same
    have member : 'R' ∈ (keyText key).toList := by simp [same]
    cases laws.key_digits member
  obtain ⟨stems, extensions⟩ := PublishedId.stem_extension same
  rcases left with (auth | ⟨asn, group⟩ | customer | ⟨asn, router⟩ | issued) | _ | _ <;>
    rcases right with (auth' | ⟨asn', group'⟩ | customer' | ⟨asn', router'⟩ | issued') | _ | _ <;>
    simp only [PublishedId.extension, ObjectId.extension] at extensions <;>
    first | rfl | exact absurd extensions (by decide) | skip
  case object.roa.object.roa =>
    rw [laws.toText_injective explicit explicit' (laws.hex_injective (String.toList_inj.mp stems))]
  case object.roa.object.aggregate => cases group' <;> exact absurd stems hex
  case object.aggregate.object.roa => cases group <;> exact absurd stems.symm hex
  case object.aggregate.object.aggregate =>
    have dash {number : Nat} : '-' ∉ number.repr.toList := notMem_repr rfl
    cases group <;> cases group' <;> have stems := List.append_cancel_left stems
    · rw [UInt32.toNat_inj.mp (repr_toList_inj.mp stems)]
    · exact (dash (stems ▸ List.mem_append_right _ List.mem_cons_self)).elim
    · exact (dash (stems.symm ▸ List.mem_append_right _ List.mem_cons_self)).elim
    · obtain ⟨asns, groups⟩ := append_cons_inj dash dash stems
      rw [UInt32.toNat_inj.mp (repr_toList_inj.mp asns), repr_toList_inj.mp groups]
  case object.aspa.object.aspa =>
    rw [UInt32.toNat_inj.mp (repr_toList_inj.mp (List.append_cancel_left stems))]
  case object.bgpsec.object.bgpsec =>
    obtain ⟨digits, keys⟩ := List.append_inj (List.append_cancel_left stems)
      (by rw [length_hexDigits, length_hexDigits])
    obtain rfl : asn = asn' :=
      UInt32.toNat_inj.mp (hexDigits_injective 8 asn.toNat_lt asn'.toNat_lt digits)
    obtain rfl : router = router' :=
      laws.key_injective (String.toList_inj.mp ((List.cons_inj_right _).mp keys))
    rfl
  case object.bgpsec.object.cer => exact absurd stems.symm key
  case object.cer.object.bgpsec => exact absurd stems key
  case object.cer.object.cer => rw [laws.key_injective (String.toList_inj.mp stems)]

/-- Names tell the objects of a key apart, so that a new object replaces no other one. -/
theorem PublishedId.names_apart (key : KeyIdentifier) (id other : PublishedId)
    (explicit : id.Explicit) (explicit' : other.Explicit) (different : id ≠ other) :
    id.name key ≠ other.name key ∧ ∀ (objects : HashMap ObjectName PublishedObject) object,
      (objects.insert (id.name key) object).get (other.name key) =
        objects.get (other.name key) := by
  have apart : id.name key ≠ other.name key :=
    fun same => different (laws.name_injective explicit explicit' same)
  exact ⟨apart, fun objects object => by rw [HashMap.get_insert, if_neg apart.symm]⟩

end Krill.Ca

namespace Krill.Ca.Numbered

open Text

theorem hexChars_injective : Function.Injective hexChars := by
  intro left right same
  induction left generalizing right with
  | nil =>
    cases right with
    | nil => rfl
    | cons char right => cases congrArg List.length same
  | cons char left induction =>
    cases right with
    | nil => cases congrArg List.length same
    | cons other right =>
      obtain ⟨digits, rest⟩ := List.append_inj same (by rw [length_hexDigits, length_hexDigits])
      rw [induction rest, Char.toNat_inj.mp
        (hexDigits_injective 8 char.val.toNat_lt other.val.toNat_lt digits)]

theorem prefixChars_injective : Function.Injective prefixChars := by
  have parts {ip ip' : Prefix} (same : ip.addr.toNat.repr.toList ++ '/' :: ip.addrLen.repr.toList =
      ip'.addr.toNat.repr.toList ++ '/' :: ip'.addrLen.repr.toList) : ip = ip' := by
    obtain ⟨addrs, lens⟩ := append_cons_inj (notMem_repr rfl) (notMem_repr rfl) same
    have addrs := BitVec.eq_of_toNat_eq (repr_toList_inj.mp addrs)
    have lens := repr_toList_inj.mp lens
    cases ip
    cases ip'
    cases addrs
    cases lens
    rfl
  intro left right same
  cases left <;> cases right <;> have same := List.cons.inj same
  · rw [parts same.2]
  · exact absurd same.1 (by decide)
  · exact absurd same.1 (by decide)
  · rw [parts same.2]

theorem printLaws : PrintLaws where
  prefix_injective _ _ same := prefixChars_injective (String.ofList_inj.mp same)
  prefix_dash {typedPrefix} := by
    have dash {number : Nat} : '-' ∉ number.repr.toList := notMem_repr rfl
    change '-' ∉ (String.ofList (prefixChars typedPrefix)).toList
    cases typedPrefix <;>
      simp only [prefixChars, String.toList_ofList, List.mem_cons, List.mem_append, dash] <;> decide
  hex_injective _ _ same := String.toList_inj.mp (hexChars_injective (String.ofList_inj.mp same))
  hex_digits {text char} member := by
    change char ∈ (String.ofList (hexChars text.toList)).toList at member
    rw [String.toList_ofList] at member
    obtain ⟨_, _, member⟩ := List.mem_flatMap.mp member
    obtain ⟨digit, small, rfl⟩ := hexDigits_upper member
    have upper : ∀ digit < 16, isHexDigit (Nat.digitChar digit).toUpper := by decide
    exact upper digit small
  key_injective := repr_injective
  key_digits {_ char} member := by
    have digit : char.isDigit := by
      by_contra other
      exact notMem_repr (Bool.eq_false_iff.mpr other) member
    simp [isHexDigit, digit]

def routerCertificate : PublishedId := .object (.bgpsec ⟨65000, (7 : Nat)⟩)

def childCertificate : PublishedId := .object (.cer (7 : Nat))

/-- A router and a child may use one key. -/
theorem router_child_apart : routerCertificate ≠ childCertificate ∧
    routerCertificate.name (1 : Nat) ≠ childCertificate.name (1 : Nat) := by
  have different : routerCertificate ≠ childCertificate := by
    simp [routerCertificate, childCertificate]
  exact ⟨different, (PublishedId.names_apart printLaws (1 : Nat) routerCertificate childCertificate
    trivial trivial different).1⟩

end Krill.Ca.Numbered
