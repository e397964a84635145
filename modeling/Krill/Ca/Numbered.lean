import Krill.Ca.Signing

namespace Krill.Ca.Numbered

open Text

/-! A small choice of what the library and the signer supply. Resources are the bits of a
number, keys and objects are numbers, and the signer counts. -/

def prefixChars : TypedPrefix → List Char
  | .v4 ipv4 => '4' :: (ipv4.addr.toNat.repr.toList ++ '/' :: ipv4.addrLen.repr.toList)
  | .v6 ipv6 => '6' :: (ipv6.addr.toNat.repr.toList ++ '/' :: ipv6.addrLen.repr.toList)

def hexChars (text : List Char) : List Char := text.flatMap fun char => hexDigits 8 char.toNat

scoped instance : Rpki where
  ResourceSet := Nat
  RequestResourceLimit := Option Nat
  KeyIdentifier := Nat
  PublicKey := Nat
  Name := Nat
  Serial := Nat
  Base64 := Nat
  Hash := Nat
  Rsync := Unit
  Https := Unit
  RepoInfo := Nat
  IdCertInfo := Nat
  ParentServerInfo := Nat
  PublicationServerInfo := Nat
  Rta := Nat × List Nat
  RtaBuilder := Nat × List Nat
  noResources := 0
  allResources := 255
  isEmpty := fun resources => resources == 0
  contains := fun resources other => resources &&& other == other
  containsAsn := fun resources asn => resources.testBit asn.toNat
  containsRoaAddress := fun resources address => resources.testBit address.address.addr.toNat
  intersection := fun resources other => resources &&& other
  union := fun resources other => resources ||| other
  differenceIsEmpty := fun resources other => resources == other
  noLimit := none
  applyTo := fun limit resources =>
    match limit with
    | none => some resources
    | some part => if resources &&& part == part then some part else none
  keyIdentifier := id
  subjectName := id
  encodedSki := id
  toHash := id
  join := fun _ _ => ()
  cerFileName := fun _ => some "ta.cer"
  seemsGlobalRsync := fun _ => true
  seemsGlobalHttps := fun _ => true
  caRepository := fun _ _ => ()
  resolve := fun _ _ _ => ()
  rpkiNotify := fun _ => none
  serialFrom := id
  yearsFrom := fun time years => time + years * 31557600
  keyText := Nat.repr
  prefixText := fun given => String.ofList (prefixChars given)
  hexEncode := fun text => String.ofList (hexChars text.toList)
  aspaBuilder := fun _ _ => .ok ()
  rtaBuilder := fun resources _ keys => .ok (resources, keys)
  toBuilder := some
  builderResources := Prod.fst
  builderKeys := Prod.snd
  finalize := id

def count : EStateM String Nat Nat := fun state => .ok state (state + 1)

scoped instance : KrillSigner where
  Signer := Nat
  createKey := count
  randomSerial := count
  getKeyInfo := fun key => pure key
  sign := fun _ _ => count
  createSelfSignedIdCert := count
  signRta := fun builder _ _ => pure builder
  destroyKey := fun _ => pure ()

def env : Surroundings :=
  { now := 1000, jitterMinutes := 0, order := .stored, testMode := false }

def config : Config where
  issuanceTiming :=
    { timingPublishNextHours := 24, timingPublishNextJitterHours := 0
      timingPublishHoursBeforeNext := 8, timingChildCertificateValidWeeks := 52
      timingChildCertificateReissueWeeksBefore := 4, timingRoaValidWeeks := 52
      timingRoaReissueWeeksBefore := 4, timingAspaValidWeeks := 52
      timingAspaReissueWeeksBefore := 4, timingBgpsecValidWeeks := 52
      timingBgpsecReissueWeeksBefore := 4 }
  roaAggregateThreshold := 100
  roaDeaggregateThreshold := 90

def contact (repo : Nat) : RepositoryContact := { repoInfo := repo, serverInfo := repo }

def csrInfo (key : Nat) : CsrInfo :=
  { caRepository := (), rpkiManifest := (), rpkiNotify := none, key := key }

def received (key resources : Nat) : ReceivedCert :=
  { uri := (), name := .cerForKey key, resources := resources, limit := none, subject := key
    validity := { notBefore := 700, notAfter := 1000000 }, serial := (0 : Nat)
    csrInfo := csrInfo key, base64 := (0 : Nat), hash := (0 : Nat) }

def entitlement (resources : Nat) : ResourceClassEntitlements :=
  { className := "0", resourceSet := resources, notAfter := (1000000 : Int), issuedKeys := [] }

def request (rcn : ResourceClassName) (key : Nat) : IssuanceRequest where
  className := rcn
  limit := none
  csr := { validlySigned := true, caRepository := some (), rpkiManifest := some ()
           rpkiNotify := none, publicKey := key }

end Krill.Ca.Numbered
