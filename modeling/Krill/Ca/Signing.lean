import Krill.Ca.Api
import Krill.Data.Stateful
import Krill.Data.Keyed

namespace Krill.Ca

open EventSourcing (Time)
open Rpki

variable [Rpki]

structure CsrInfo where
  caRepository : Rsync
  rpkiManifest : Rsync
  rpkiNotify : Option Https
  key : PublicKey
  deriving DecidableEq

namespace CsrInfo

def keyId (self : CsrInfo) : KeyIdentifier := keyIdentifier self.key

def globalUris (self : CsrInfo) : Bool :=
  seemsGlobalRsync self.caRepository && seemsGlobalRsync self.rpkiManifest &&
    (match self.rpkiNotify with
    | none => true
    | some uri => seemsGlobalHttps uri)

def ofCsr (csr : RpkiCaCsr) : Except Error CsrInfo := do
  unless csr.validlySigned do throw (.invalidCsr "invalid signature")
  let some caRepository := csr.caRepository | throw (.invalidCsr "missing ca repository")
  let some rpkiManifest := csr.rpkiManifest | throw (.invalidCsr "missing rpki manifest")
  return { caRepository, rpkiManifest, rpkiNotify := csr.rpkiNotify, key := csr.publicKey }

end CsrInfo

structure CertInfo where
  uri : Rsync
  name : ObjectName
  resources : ResourceSet
  limit : RequestResourceLimit
  subject : Name
  validity : Validity
  serial : Serial
  csrInfo : CsrInfo
  base64 : Base64
  hash : Hash
  deriving DecidableEq

namespace CertInfo

def expires (self : CertInfo) : Time := self.validity.notAfter

def keyIdentifier (self : CertInfo) : KeyIdentifier := self.csrInfo.keyId

def uriForName (self : CertInfo) (name : ObjectName) : Rsync :=
  join self.csrInfo.caRepository name

def crlUri (self : CertInfo) : Rsync := self.uriForName (.crlForKey self.keyIdentifier)

def mftUri (self : CertInfo) : Rsync := self.uriForName (.mftForKey self.keyIdentifier)

/-- The part of a certificate's resources that remains when the encompassing resources do
not contain all of them. -/
def reducedApplicableResources (self : CertInfo) (encompassing : ResourceSet) :
    Option ResourceSet :=
  if contains encompassing self.resources then none
  else some (intersection encompassing self.resources)

end CertInfo

abbrev ReceivedCert := CertInfo

/-- A certificate made by this CA. It is published under the name for its key, and so the
name taken from its URI is that name. -/
structure IssuedCertificate extends CertInfo where
  named : name = .cerForKey (CertInfo.keyIdentifier toCertInfo)
  deriving DecidableEq

/-- Issued certificates that are withdrawn, or brought back, are the same data. -/
abbrev SuspendedCert := IssuedCertificate
abbrev UnsuspendedCert := IssuedCertificate

inductive KeyUsage where
  | ca
  | ee
  deriving DecidableEq

structure TbsCert where
  serial : Serial
  issuer : Name
  validity : Validity
  subject : Option Name
  publicKey : PublicKey
  keyUsage : KeyUsage
  resources : ResourceSet
  routerAsn : Option Asn := none
  authorityKeyIdentifier : Option KeyIdentifier := none
  caIssuer : Option Rsync := none
  crlUri : Option Rsync := none
  sia : Option CsrInfo := none
  deriving DecidableEq

structure SignedObjectBuilder where
  serial : Serial
  validity : Validity
  crlUri : Rsync
  caIssuer : Rsync
  signedObject : Rsync
  issuer : Name
  signingTime : Time
  deriving DecidableEq

inductive ToBeSigned where
  | csr (info : CsrInfo)
  | cert (tbs : TbsCert)
  | roa (asn : Asn) (addresses : List (TypedPrefix × Option Nat)) (object : SignedObjectBuilder)
  | aspa (definition : AspaDefinition) (object : SignedObjectBuilder)
  | crl (issuer : Name) (thisUpdate nextUpdate : Time) (entries : List (Serial × Time))
      (aki : KeyIdentifier) (number : Serial)
  | manifest (number : Serial) (thisUpdate nextUpdate : Time)
      (entries : List (ObjectName × Hash)) (object : SignedObjectBuilder)
  deriving DecidableEq

/-- The signer: it makes keys and serial numbers and signs with the keys it made. Every
call may fail. -/
class KrillSigner where
  Signer : Type
  createKey : EStateM String Signer KeyIdentifier
  randomSerial : EStateM String Signer Serial
  getKeyInfo : KeyIdentifier → EStateM String Signer PublicKey
  sign : ToBeSigned → KeyIdentifier → EStateM String Signer Base64
  createSelfSignedIdCert : EStateM String Signer IdCertInfo
  signRta : RtaBuilder → TbsCert → Base64 → EStateM String Signer RtaBuilder
  destroyKey : KeyIdentifier → EStateM String Signer Unit

open KrillSigner

variable [KrillSigner]

abbrev SignM := EStateM Error Signer

def signing {A : Type} (action : EStateM String Signer A) : SignM A :=
  EStateM.adaptExcept Error.signer action

theorem yields_of_signing (yields : Stateful.Yields (signing action) value) :
    Stateful.Yields action value := by
  obtain ⟨before, after, ran⟩ := yields
  unfold signing EStateM.adaptExcept at ran
  cases done : action before with
  | ok returned used =>
    rw [done] at ran
    cases ran
    exact ⟨before, after, done⟩
  | error failure used =>
    rw [done] at ran
    cases ran

structure IssuanceTimingConfig where
  timingPublishNextHours : Nat
  timingPublishNextJitterHours : Nat
  timingPublishHoursBeforeNext : Nat
  timingChildCertificateValidWeeks : Nat
  timingChildCertificateReissueWeeksBefore : Nat
  timingRoaValidWeeks : Nat
  timingRoaReissueWeeksBefore : Nat
  timingAspaValidWeeks : Nat
  timingAspaReissueWeeksBefore : Nat
  timingBgpsecValidWeeks : Nat
  timingBgpsecReissueWeeksBefore : Nat
  deriving DecidableEq

structure Config where
  issuanceTiming : IssuanceTimingConfig
  roaAggregateThreshold : Nat
  roaDeaggregateThreshold : Nat
  deriving DecidableEq

/-- The checks on these settings. The thresholds and the timing of ASPA objects and BGPsec
certificates are not checked. -/
def Config.verify (self : Config) : Except String Unit :=
  let timing := self.issuanceTiming
  if timing.timingPublishNextHours < 2 then
    .error "timing_publish_next_hours must be at least 2"
  else if timing.timingPublishNextJitterHours > timing.timingPublishNextHours / 2 then
    .error "timing_publish_next_jitter_hours must be at most timing_publish_next_hours divided by 2"
  else if timing.timingPublishHoursBeforeNext < 1 then
    .error "timing_publish_hours_before_next must be at least 1"
  else if timing.timingPublishHoursBeforeNext ≥ timing.timingPublishNextHours then
    .error "timing_publish_hours_before_next must be smaller than timing_publish_hours"
  else if timing.timingChildCertificateValidWeeks < 2 then
    .error "timing_child_certificate_valid_weeks must be at least 2"
  else if timing.timingChildCertificateReissueWeeksBefore < 1 then
    .error "timing_child_certificate_reissue_weeks_before must be at least 1"
  else if timing.timingChildCertificateReissueWeeksBefore ≥
      timing.timingChildCertificateValidWeeks then
    .error ("timing_child_certificate_reissue_weeks_before must be smaller than " ++
      "timing_child_certificate_valid_weeks")
  else if timing.timingRoaValidWeeks < 2 then
    .error "timing_roa_valid_weeks must be at least 2"
  else if timing.timingRoaReissueWeeksBefore < 1 then
    .error "timing_roa_reissue_weeks_before must be at least 1"
  else if timing.timingRoaReissueWeeksBefore ≥ timing.timingRoaValidWeeks then
    .error "timing_roa_reissue_weeks_before must be smaller than timing_roa_valid_week"
  else .ok ()

def minutes (count : Nat) : Int := count * 60

def hours (count : Nat) : Int := count * 3600

def days (count : Nat) : Int := count * 86400

def weeks (count : Nat) : Int := count * 604800

def fiveMinutesAgo (env : Surroundings) : Time := env.now - minutes 5

def signValidityWeeks (env : Surroundings) (count : Nat) : Validity where
  notBefore := fiveMinutesAgo env
  notAfter := env.now + weeks count

namespace IssuanceTimingConfig

def publishNext (self : IssuanceTimingConfig) (env : Surroundings) : Time :=
  let randomMinutes :=
    if self.timingPublishNextJitterHours = 0 then 0
    else env.jitterMinutes % (60 * self.timingPublishNextJitterHours)
  env.now + minutes (self.timingPublishNextHours * 60 + randomMinutes)

def newChildCertValidity (self : IssuanceTimingConfig) (env : Surroundings) : Validity :=
  signValidityWeeks env self.timingChildCertificateValidWeeks

def newRoaValidity (self : IssuanceTimingConfig) (env : Surroundings) : Validity :=
  signValidityWeeks env self.timingRoaValidWeeks

def newRoaIssuanceThreshold (self : IssuanceTimingConfig) (env : Surroundings) : Time :=
  env.now + weeks self.timingRoaReissueWeeksBefore

def newAspaValidity (self : IssuanceTimingConfig) (env : Surroundings) : Validity :=
  signValidityWeeks env self.timingAspaValidWeeks

def newAspaIssuanceThreshold (self : IssuanceTimingConfig) (env : Surroundings) : Time :=
  env.now + weeks self.timingAspaReissueWeeksBefore

def newBgpsecValidity (self : IssuanceTimingConfig) (env : Surroundings) : Validity :=
  signValidityWeeks env self.timingBgpsecValidWeeks

def newBgpsecIssuanceThreshold (self : IssuanceTimingConfig) (env : Surroundings) : Time :=
  env.now + weeks self.timingBgpsecReissueWeeksBefore

end IssuanceTimingConfig

def signCsr (baseRepo : RepoInfo) (nameSpace : String) (key : KeyIdentifier) : SignM RpkiCaCsr := do
  let signingKey ← signing (getKeyInfo key)
  let manifest := resolve baseRepo nameSpace (ObjectName.mftForKey (keyIdentifier signingKey))
  let repository := join (caRepository baseRepo nameSpace) ""
  let info : CsrInfo :=
    { caRepository := repository, rpkiManifest := manifest,
      rpkiNotify := rpkiNotify baseRepo, key := signingKey }
  let _ ← signing (sign (.csr info) key)
  return { validlySigned := true, caRepository := some repository,
           rpkiManifest := some manifest, rpkiNotify := rpkiNotify baseRepo,
           publicKey := signingKey }

structure CertifiedKey where
  keyId : KeyIdentifier
  incomingCert : ReceivedCert
  request : Option IssuanceRequest
  oldRepo : Option RepoInfo
  deriving DecidableEq

def makeIssuedCert (env : Surroundings) (csr : CsrInfo) (resources : ResourceSet)
    (limit : RequestResourceLimit) (signingKey : CertifiedKey)
    (timing : IssuanceTimingConfig) : SignM IssuedCertificate := do
  let signingCert := signingKey.incomingCert
  let some resources := applyTo limit resources | throw .resourceSetError
  unless contains signingCert.resources resources do throw .missingResources
  let validity := timing.newChildCertValidity env
  let serial ← signing randomSerial
  let tbs : TbsCert :=
    { serial, issuer := signingCert.subject, validity,
      subject := some (subjectName csr.key), publicKey := csr.key, keyUsage := .ca, resources,
      authorityKeyIdentifier := some signingCert.keyIdentifier,
      caIssuer := some signingCert.uri, crlUri := some signingCert.crlUri, sia := some csr }
  let base64 ← signing (sign (.cert tbs) signingKey.keyId)
  let name := ObjectName.cerForKey csr.keyId
  return { uri := signingCert.uriForName name, name, resources, limit,
           subject := subjectName csr.key, validity, serial, csrInfo := csr, base64,
           hash := toHash base64, named := rfl }

end Krill.Ca
