import Krill.Ca.Commands

namespace Krill.Ca

open EventSourcing (Time)
open Rpki KrillSigner

variable [Rpki] [KrillSigner]

abbrev EeCert := TbsCert × Base64

def EeCert.subjectKeyIdentifier (self : EeCert) : KeyIdentifier := keyIdentifier self.1.publicKey

def Revocation.ofCert (now : Time) (cert : EeCert) : Revocation where
  serial := cert.1.serial
  revocationDate := now
  expires := cert.1.validity.notAfter

namespace CertAuth

def alreadyExists (name : RtaName) : Error :=
  .custom ("RTA with name '" ++ name ++ "' already exists")

def signWithAll : List (ResourceClassName × EeCert) → RtaBuilder → SignM RtaBuilder
  | [], builder => return builder
  | (_, ee) :: rest, builder => do
    let signed ← signing (signRta builder ee.1 ee.2)
    signing (destroyKey ee.subjectKeyIdentifier)
    signWithAll rest signed

def rtaSignWithEe (self : CertAuth) (env : Surroundings) (name : RtaName)
    (resources : ResourceSet) (rcEe : HashMap ResourceClassName EeCert)
    (rtaBuilder : RtaBuilder) : SignM (List CaEvt) := do
  let revocationInfo := rcEe.mapValues (Revocation.ofCert env.now)
  let builder ← signWithAll (rcEe.iter env.order) rtaBuilder
  let rta : SignedRta := { resources, revocationInfo, rta := finalize builder }
  return self.eventsFromDetails [.rtaSigned name rta]

def rtaEeMapPrepared (self : CertAuth) (env : Surroundings) (name : RtaName)
    (resources : ResourceSet) (keys : List KeyIdentifier) :
    SignM (HashMap ResourceClassName EeCert) := do
  let prepared ← liftExcept (self.rtas.preparedRta name)
  if resources ≠ prepared.resources then
    throw (.custom "Request to sign prepared RTA with changed resources")
  else
    let certs ← (prepared.keys.iter env.order).mapM fun (rcn, key) =>
      if !keys.contains key then
        throw (.custom "RTA Request does not include key for prepared RTA")
      else
        match self.resources.get rcn with
        | none => throw (.custom "RC for prepared RTA not found")
        | some rc =>
          match rc.currentResources with
          | none => throw (.custom "RC for RTA has no resources")
          | some rcResources => do
            let common := intersection rcResources resources
            if isEmpty common then
              throw (.custom "RC for prepared RTA no longer contains relevant resources")
            else
              let ee ← rc.createRtaEe common prepared.validity key
              return (rcn, ee)
    return HashMap.empty.insertAll certs

def classesHolding (self : CertAuth) (env : Surroundings)
    (common : ResourceSet → ResourceSet) :
    List (ResourceClassName × ResourceClass × ResourceSet) :=
  (self.resources.iter env.order).filterMap fun (rcn, rc) =>
    match rc.currentResources with
    | none => none
    | some rcResources =>
      if isEmpty (common rcResources) then none else some (rcn, rc, common rcResources)

def rtaEeMapSingle (self : CertAuth) (env : Surroundings) (resources : ResourceSet)
    (validity : Validity) (keys : List KeyIdentifier) :
    SignM (HashMap ResourceClassName EeCert × List KeyIdentifier) :=
  -- without keys of others all resources must be held
  if keys.isEmpty && !contains (self.allResources env.order) resources then
    throw .rtaResourcesNotHeld
  else do
    let certs ← (self.classesHolding env (intersection resources)).mapM
      fun (rcn, rc, common) => do
        let key ← signing createKey
        let ee ← rc.createRtaEe common validity key
        return (rcn, ee)
    let rcEe : HashMap ResourceClassName EeCert := HashMap.empty.insertAll certs
    return (rcEe, keys ++ (rcEe.intoValues env.order).map EeCert.subjectKeyIdentifier)

def rtaSign (self : CertAuth) (env : Surroundings) (name : RtaName)
    (request : RtaContentRequest) : SignM (List CaEvt) :=
  if self.rtas.has name then throw (alreadyExists name)
  else do
    let (rcEe, keys) ←
      self.rtaEeMapSingle env request.resources request.validity request.subjectKeys
    match rtaBuilder request.resources request.content keys with
    | .error message => throw (.custom message)
    | .ok builder => self.rtaSignWithEe env name request.resources rcEe builder

def rtaCosign (self : CertAuth) (env : Surroundings) (name : RtaName) (rta : Rta) :
    SignM (List CaEvt) :=
  match toBuilder rta with
  | none => throw (.custom "Cannot decode existing RTA")
  | some builder => do
    let resources := builderResources builder
    let rcEe ← self.rtaEeMapPrepared env name resources (builderKeys builder)
    self.rtaSignWithEe env name resources rcEe builder

def rtaMultiPrep (self : CertAuth) (env : Surroundings) (name : RtaName)
    (request : RtaPrepareRequest) : SignM (List CaEvt) :=
  if isEmpty (intersection (self.allResources env.order) request.resources) then
    throw (.custom "None of the resources for RTA are held by this CA")
  else if self.rtas.has name then throw (alreadyExists name)
  else do
    let keys ← (self.classesHolding env fun held => intersection held request.resources).mapM
      fun (rcn, _, _) => do
        let key ← signing createKey
        return (rcn, key)
    let prepared : PreparedRta :=
      { resources := request.resources, validity := request.validity
        keys := HashMap.empty.insertAll keys }
    return self.eventsFromDetails [.rtaPrepared name prepared]

end CertAuth

end Krill.Ca
