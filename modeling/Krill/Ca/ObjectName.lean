import Krill.Ca.Rpki

namespace Krill.Ca

open Rpki Text

variable [Rpki]

structure RoaPayload where
  asn : Asn
  typedPrefix : TypedPrefix
  maxLength : Option Nat
  deriving DecidableEq

namespace RoaPayload

def effectiveMaxLength (self : RoaPayload) : Nat :=
  match self.maxLength with
  | none => self.typedPrefix.addrLen
  | some length => length

def intoExplicitMaxLength (self : RoaPayload) : RoaPayload :=
  { self with maxLength := some self.effectiveMaxLength }

def asRoaIpAddress (self : RoaPayload) : RoaIpAddress :=
  { address := self.typedPrefix.toPrefix, maxLength := self.maxLength }

def maxLengthValid (self : RoaPayload) : Bool :=
  match self.maxLength with
  | none => true
  | some length =>
    match self.typedPrefix with
    | .v4 ipv4 => decide (ipv4.addrLen ≤ length) && decide (length ≤ 32)
    | .v6 ipv6 => decide (ipv6.addrLen ≤ length) && decide (length ≤ 128)

def toText (self : RoaPayload) : String :=
  match self.maxLength with
  | none => prefixText self.typedPrefix ++ " => " ++ self.asn.toNat.repr
  | some length =>
    prefixText self.typedPrefix ++ "-" ++ length.repr ++ " => " ++ self.asn.toNat.repr

end RoaPayload

abbrev RoaPayloadJsonMapKey := RoaPayload

structure RoaAggregateKey where
  asn : Asn
  group : Option Nat
  deriving DecidableEq

structure BgpSecAsnKey where
  asn : Asn
  key : KeyIdentifier
  deriving DecidableEq

abbrev ObjectName := String

namespace ObjectName

def new (key : KeyIdentifier) (extension : String) : ObjectName :=
  keyText key ++ "." ++ extension

def cerForKey (key : KeyIdentifier) : ObjectName := new key "cer"

def mftForKey (key : KeyIdentifier) : ObjectName := new key "mft"

def crlForKey (key : KeyIdentifier) : ObjectName := new key "crl"

def ofRoaPayload (auth : RoaPayload) : ObjectName := hexEncode auth.toText ++ ".roa"

def ofRoaAggregateKey (key : RoaAggregateKey) : ObjectName :=
  match key.group with
  | none => "AS" ++ key.asn.toNat.repr ++ ".roa"
  | some number => "AS" ++ key.asn.toNat.repr ++ "-" ++ number.repr ++ ".roa"

def aspa (customer : Asn) : ObjectName := "AS" ++ customer.toNat.repr ++ ".asa"

def bgpsec (asn : Asn) (key : KeyIdentifier) : ObjectName :=
  "ROUTER-" ++ String.ofList (hexDigits 8 asn.toNat) ++ "-" ++ keyText key ++ ".cer"

def ofBgpSecAsnKey (key : BgpSecAsnKey) : ObjectName := bgpsec key.asn key.key

end ObjectName

inductive ObjectId where
  | roa (auth : RoaPayload)
  | aggregate (key : RoaAggregateKey)
  | aspa (customer : Asn)
  | bgpsec (key : BgpSecAsnKey)
  | cer (key : KeyIdentifier)
  deriving DecidableEq

namespace ObjectId

def name : ObjectId → ObjectName
  | .roa auth => .ofRoaPayload auth
  | .aggregate key => .ofRoaAggregateKey key
  | .aspa customer => .aspa customer
  | .bgpsec key => .ofBgpSecAsnKey key
  | .cer key => .cerForKey key

def extension : ObjectId → List Char
  | .roa _ => ".roa".toList
  | .aggregate _ => ".roa".toList
  | .aspa _ => ".asa".toList
  | .bgpsec _ => ".cer".toList
  | .cer _ => ".cer".toList

def stem : ObjectId → List Char
  | .roa auth => (hexEncode auth.toText).toList
  | .aggregate ⟨asn, none⟩ => "AS".toList ++ asn.toNat.repr.toList
  | .aggregate ⟨asn, some number⟩ =>
    "AS".toList ++ (asn.toNat.repr.toList ++ '-' :: number.repr.toList)
  | .aspa customer => "AS".toList ++ customer.toNat.repr.toList
  | .bgpsec key =>
    "ROUTER-".toList ++ (hexDigits 8 key.asn.toNat ++ '-' :: (keyText key.key).toList)
  | .cer key => (keyText key).toList

theorem toList_name (id : ObjectId) : id.name.toList = id.stem ++ id.extension := by
  have dash : "-".toList = ['-'] := rfl
  have dot : ".".toList ++ "cer".toList = ".cer".toList := rfl
  rcases id with auth | ⟨asn, _ | number⟩ | customer | key | key
  · exact String.toList_append
  · change ("AS" ++ asn.toNat.repr ++ ".roa").toList =
      "AS".toList ++ asn.toNat.repr.toList ++ ".roa".toList
    rw [String.toList_append, String.toList_append]
  · change ("AS" ++ asn.toNat.repr ++ "-" ++ number.repr ++ ".roa").toList =
      "AS".toList ++ (asn.toNat.repr.toList ++ '-' :: number.repr.toList) ++ ".roa".toList
    simp only [String.toList_append, dash, List.append_assoc, List.cons_append, List.nil_append]
  · change ("AS" ++ customer.toNat.repr ++ ".asa").toList =
      "AS".toList ++ customer.toNat.repr.toList ++ ".asa".toList
    rw [String.toList_append, String.toList_append]
  · change ("ROUTER-" ++ String.ofList (hexDigits 8 key.asn.toNat) ++ "-" ++
        keyText key.key ++ ".cer").toList =
      "ROUTER-".toList ++ (hexDigits 8 key.asn.toNat ++ '-' :: (keyText key.key).toList) ++
        ".cer".toList
    simp only [String.toList_append, String.toList_ofList, dash, List.append_assoc,
      List.cons_append, List.nil_append]
  · change (keyText key ++ "." ++ "cer").toList = (keyText key).toList ++ ".cer".toList
    rw [String.toList_append, String.toList_append, List.append_assoc, dot]

theorem length_extension (id : ObjectId) : id.extension.length = 4 := by
  cases id <;> rfl

end ObjectId

end Krill.Ca
