import Krill.Ca.Signing

namespace Krill.Ca

open EventSourcing (Time)
open Rpki KrillSigner

variable [Rpki]

structure StoredBgpSecCsr where
  since : Time
  key : PublicKey
  csr : Base64
  deriving DecidableEq

def StoredBgpSecCsr.ofCsr (now : Time) (csr : BgpsecCsr) : StoredBgpSecCsr :=
  { since := now, key := csr.publicKey, csr := csr.content }

structure BgpSecDefinitions where
  definitions : HashMap BgpSecAsnKey StoredBgpSecCsr

namespace BgpSecDefinitions

def default : BgpSecDefinitions := { definitions := .empty }

def getStoredCsr (self : BgpSecDefinitions) (key : BgpSecAsnKey) : Option StoredBgpSecCsr :=
  self.definitions.get key

def has (self : BgpSecDefinitions) (key : BgpSecAsnKey) : Bool :=
  self.definitions.containsKey key

def addOrReplace (self : BgpSecDefinitions) (key : BgpSecAsnKey) (csr : StoredBgpSecCsr) :
    BgpSecDefinitions where
  definitions := self.definitions.insert key csr

def remove (self : BgpSecDefinitions) (key : BgpSecAsnKey) : BgpSecDefinitions where
  definitions := self.definitions.remove key

end BgpSecDefinitions

structure BgpSecCertInfo where
  asn : Asn
  publicKey : PublicKey
  serial : Serial
  expires : Time
  base64 : Base64
  deriving DecidableEq

namespace BgpSecCertInfo

def asnKey (self : BgpSecCertInfo) : BgpSecAsnKey :=
  { asn := self.asn, key := keyIdentifier self.publicKey }

def name (self : BgpSecCertInfo) : ObjectName :=
  .bgpsec self.asn (keyIdentifier self.publicKey)

end BgpSecCertInfo

structure BgpSecCertificateUpdates where
  updated : List BgpSecCertInfo
  removed : List BgpSecAsnKey
  deriving DecidableEq

namespace BgpSecCertificateUpdates

def default : BgpSecCertificateUpdates := { updated := [], removed := [] }

def isEmpty (self : BgpSecCertificateUpdates) : Bool :=
  self.updated.isEmpty && self.removed.isEmpty

def containsChanges (self : BgpSecCertificateUpdates) : Bool := !self.isEmpty

end BgpSecCertificateUpdates

structure BgpSecCertificates where
  certificates : Keyed BgpSecCertInfo.asnKey

namespace BgpSecCertificates

def default : BgpSecCertificates := { certificates := .empty }

def updated (self : BgpSecCertificates) (updates : BgpSecCertificateUpdates) :
    BgpSecCertificates where
  certificates :=
    updates.removed.foldl Keyed.remove (updates.updated.foldl Keyed.insert self.certificates)

variable [KrillSigner]

def makeBgpsecCert (env : Surroundings) (asn : Asn) (publicKey : PublicKey)
    (certifiedKey : CertifiedKey) (timing : IssuanceTimingConfig) : SignM BgpSecCertInfo := do
  let serial ← signing randomSerial
  let incomingCert := certifiedKey.incomingCert
  let validity := timing.newBgpsecValidity env
  let routerCert : TbsCert :=
    { serial, issuer := incomingCert.subject, validity, subject := none, publicKey,
      keyUsage := .ee, resources := noResources, routerAsn := some asn,
      authorityKeyIdentifier := some incomingCert.keyIdentifier,
      caIssuer := some incomingCert.uri, crlUri := some incomingCert.crlUri }
  let base64 ← signing (sign (.cert routerCert) certifiedKey.keyId)
  return { asn, publicKey, serial, expires := validity.notAfter, base64 }

/-- Certificates for the definitions in scope that have none yet, and the removal of those
for which there is no definition or the AS is not held. -/
def update (self : BgpSecCertificates) (env : Surroundings) (definitions : BgpSecDefinitions)
    (certifiedKey : CertifiedKey) (config : Config) : SignM BgpSecCertificateUpdates := do
  let resources := certifiedKey.incomingCert.resources
  let missing := (definitions.definitions.iter env.order).filter fun entry =>
    !self.certificates.containsKey entry.1 && containsAsn resources entry.1.asn
  let updated ← missing.mapM fun entry =>
    makeBgpsecCert env entry.1.asn entry.2.key certifiedKey config.issuanceTiming
  let removed := (self.certificates.keys env.order).filter fun key =>
    !definitions.has key || !containsAsn resources key.asn
  return { updated, removed }

def renew (self : BgpSecCertificates) (env : Surroundings) (certifiedKey : CertifiedKey)
    (renewThreshold : Option Time) (timing : IssuanceTimingConfig) :
    SignM BgpSecCertificateUpdates := do
  let due := (self.certificates.values env.order).filter fun cert =>
    match renewThreshold with
    | some threshold => decide (cert.expires < threshold)
    | none => true
  let updated ← due.mapM fun cert =>
    makeBgpsecCert env cert.asn cert.publicKey certifiedKey timing
  return { updated, removed := [] }

end BgpSecCertificates

end Krill.Ca
