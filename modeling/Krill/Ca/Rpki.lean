import Krill.Data.HashMap
import Krill.Data.Text
import Krill.EventSourcing.Aggregate

namespace Krill.Ca

open EventSourcing (Handle Time)

abbrev CaHandle := Handle
abbrev ParentHandle := Handle
abbrev ChildHandle := Handle

abbrev Asn := UInt32

/-- Address bits, left aligned for both address families, and a length. -/
structure Prefix where
  addr : BitVec 128
  addrLen : Nat
  deriving DecidableEq

inductive TypedPrefix where
  | v4 (ipv4 : Prefix)
  | v6 (ipv6 : Prefix)
  deriving DecidableEq

namespace TypedPrefix

def toPrefix : TypedPrefix → Prefix
  | .v4 ipv4 => ipv4
  | .v6 ipv6 => ipv6

def addrLen (self : TypedPrefix) : Nat := self.toPrefix.addrLen

end TypedPrefix

structure RoaIpAddress where
  address : Prefix
  maxLength : Option Nat
  deriving DecidableEq

structure Validity where
  notBefore : Time
  notAfter : Time
  deriving DecidableEq

inductive AddressFamily where
  | ipv4
  | ipv6
  deriving DecidableEq

structure ProviderAs where
  provider : Asn
  afiLimit : Option AddressFamily
  deriving DecidableEq

/-- Resource classes have names of their own at every CA. Krill numbers them. -/
abbrev ResourceClassName := String

namespace ResourceClassName

def ofNumber (number : Nat) : ResourceClassName := number.repr

theorem ofNumber_injective : Function.Injective ofNumber := Text.repr_injective

end ResourceClassName

class Rpki where
  ResourceSet : Type
  RequestResourceLimit : Type
  KeyIdentifier : Type
  PublicKey : Type
  Name : Type
  Serial : Type
  Base64 : Type
  Hash : Type
  Rsync : Type
  Https : Type
  RepoInfo : Type
  IdCertInfo : Type
  ParentServerInfo : Type
  PublicationServerInfo : Type
  Rta : Type
  RtaBuilder : Type
  [decEqResourceSet : DecidableEq ResourceSet]
  [decEqLimit : DecidableEq RequestResourceLimit]
  [decEqKeyIdentifier : DecidableEq KeyIdentifier]
  [decEqPublicKey : DecidableEq PublicKey]
  [decEqName : DecidableEq Name]
  [decEqSerial : DecidableEq Serial]
  [decEqBase64 : DecidableEq Base64]
  [decEqHash : DecidableEq Hash]
  [decEqRsync : DecidableEq Rsync]
  [decEqHttps : DecidableEq Https]
  [decEqRepoInfo : DecidableEq RepoInfo]
  [decEqIdCertInfo : DecidableEq IdCertInfo]
  [decEqParentServerInfo : DecidableEq ParentServerInfo]
  [decEqPublicationServerInfo : DecidableEq PublicationServerInfo]
  noResources : ResourceSet
  allResources : ResourceSet
  isEmpty : ResourceSet → Bool
  contains : ResourceSet → ResourceSet → Bool
  containsAsn : ResourceSet → Asn → Bool
  containsRoaAddress : ResourceSet → RoaIpAddress → Bool
  intersection : ResourceSet → ResourceSet → ResourceSet
  union : ResourceSet → ResourceSet → ResourceSet
  /-- Whether the difference of two sets has neither additions nor removals. -/
  differenceIsEmpty : ResourceSet → ResourceSet → Bool
  noLimit : RequestResourceLimit
  /-- The resources that remain under a limit, unless the limit exceeds them. -/
  applyTo : RequestResourceLimit → ResourceSet → Option ResourceSet
  keyIdentifier : PublicKey → KeyIdentifier
  subjectName : PublicKey → Name
  encodedSki : PublicKey → Base64
  toHash : Base64 → Hash
  join : Rsync → String → Rsync
  /-- What follows the last slash of a URI, if it is a name for a certificate. -/
  cerFileName : Rsync → Option String
  seemsGlobalRsync : Rsync → Bool
  seemsGlobalHttps : Https → Bool
  caRepository : RepoInfo → String → Rsync
  resolve : RepoInfo → String → String → Rsync
  rpkiNotify : RepoInfo → Option Https
  serialFrom : Nat → Serial
  yearsFrom : Time → Nat → Time
  keyText : KeyIdentifier → String
  prefixText : TypedPrefix → String
  hexEncode : String → String
  aspaBuilder : Asn → List ProviderAs → Except String Unit
  rtaBuilder : ResourceSet → Base64 → List KeyIdentifier → Except String RtaBuilder
  toBuilder : Rta → Option RtaBuilder
  builderResources : RtaBuilder → ResourceSet
  builderKeys : RtaBuilder → List KeyIdentifier
  finalize : RtaBuilder → Rta

open Rpki

variable [Rpki]

instance : DecidableEq ResourceSet := decEqResourceSet
instance : DecidableEq RequestResourceLimit := decEqLimit
instance : DecidableEq KeyIdentifier := decEqKeyIdentifier
instance : DecidableEq PublicKey := decEqPublicKey
instance : DecidableEq Name := decEqName
instance : DecidableEq Serial := decEqSerial
instance : DecidableEq Base64 := decEqBase64
instance : DecidableEq Hash := decEqHash
instance : DecidableEq Rsync := decEqRsync
instance : DecidableEq Https := decEqHttps
instance : DecidableEq RepoInfo := decEqRepoInfo
instance : DecidableEq IdCertInfo := decEqIdCertInfo
instance : DecidableEq ParentServerInfo := decEqParentServerInfo
instance : DecidableEq PublicationServerInfo := decEqPublicationServerInfo

structure RpkiCaCsr where
  validlySigned : Bool
  caRepository : Option Rsync
  rpkiManifest : Option Rsync
  rpkiNotify : Option Https
  publicKey : PublicKey
  deriving DecidableEq

structure BgpsecCsr where
  validlySigned : Bool
  publicKey : PublicKey
  content : Base64
  deriving DecidableEq

/-- What the surroundings contribute to one call: the clock, the random part of the next
update time, the order in which hash maps are listed and the test mode. -/
structure Surroundings where
  now : Time
  jitterMinutes : Nat
  order : IterOrder
  testMode : Bool

end Krill.Ca
