import Mathlib.Logic.Function.Basic
import Krill.Data.HashMap

namespace Krill.Crypto

/-! The router binds each configured signer to the handle under which its keys were recorded. A
signer is asked to sign a challenge with the identity key of each handle that is known. -/

class Signatures where
  PublicKey : Type
  Signature : Type
  verify : PublicKey → String → Signature → Bool

open Signatures

abbrev SignerHandle := String

inductive SignerError where
  | temporarilyUnavailable
  | keyNotFound
  | other (message : String)

inductive MapperError where
  | signerError (message : String)
  | aggregateStoreError (message : String)

variable [Signatures]

structure SignerIdentity where
  publicKey : PublicKey
  privateKeyInternalId : String

/-- What the mapper records of a signer. Its other keys play no part in binding. -/
structure SignerInfo where
  signerName : String
  signerInfo : String
  signerIdentity : SignerIdentity

inductive MapperCall where
  | getSignerHandles
  | getSignerName (handle : SignerHandle)
  | getSignerPublicKey (handle : SignerHandle)
  | getSignerPrivateKeyInternalId (handle : SignerHandle)
  | changeSignerName (handle : SignerHandle)
  | changeSignerInfo (handle : SignerHandle)
  | addSigner (handle : SignerHandle)

/-- What the signers, the store of the mapper and the random numbers come to in one run. A signer
may be asked to sign for each handle, and for the key with which it is registered. -/
structure Backends (ι : Type) where
  signRegistrationChallenge : ι → Option SignerHandle → String → Except SignerError Signature
  createRegistrationKey : ι → Except SignerError (PublicKey × String)
  getInfo : ι → Option String
  newHandle : ι → SignerHandle
  mapperFails : MapperCall → Option MapperError
  order : IterOrder

inductive IdentifyResult where
  | unavailable
  | corrupt
  | identified (handle : SignerHandle)
  | unusable
  | unidentified

inductive RegisterResult where
  | notReady
  | readyVerified (handle : SignerHandle)
  | readyUnusable

inductive BindError where
  | mapper (error : MapperError)
  | invalidHandle

def CHALLENGE : String := "Krill signer verification challenge"

def NO_SIGNER_INFO : String := "No signer info"

structure SignerRouter (ι : Type) where
  signerMapper : HashMap SignerHandle SignerInfo
  activeSigners : HashMap SignerHandle ι
  pendingSigners : List ι
  getName : ι → String
  handleOf : ι → Option SignerHandle
  produced : List (ι × Signature)

namespace SignerRouter

variable {ι : Type}

def getLatest (env : Backends ι) (self : SignerRouter ι) (call : MapperCall)
    (handle : SignerHandle) : Except MapperError SignerInfo :=
  match env.mapperFails call, self.signerMapper.get handle with
  | some error, _ => .error error
  | none, none => .error (.aggregateStoreError "unknown aggregate")
  | none, some info => .ok info

def updateInfo (self : SignerRouter ι) (handle : SignerHandle)
    (change : SignerInfo → SignerInfo) : SignerRouter ι :=
  match self.signerMapper.get handle with
  | none => self
  | some info => { self with signerMapper := self.signerMapper.insert handle (change info) }

def changeSignerName (env : Backends ι) (self : SignerRouter ι) (handle : SignerHandle)
    (signerName : String) : SignerRouter ι :=
  match env.mapperFails (.changeSignerName handle) with
  | some _ => self
  | none => self.updateInfo handle fun info => { info with signerName }

def changeSignerInfo (env : Backends ι) (self : SignerRouter ι) (handle : SignerHandle)
    (signerInfo : String) : SignerRouter ι :=
  match env.mapperFails (.changeSignerInfo handle) with
  | some _ => self
  | none => self.updateInfo handle fun info => { info with signerInfo }

def addSigner (env : Backends ι) (self : SignerRouter ι) (handle : SignerHandle)
    (info : SignerInfo) : Except MapperError (SignerRouter ι) :=
  match env.mapperFails (.addSigner handle), self.signerMapper.get handle with
  | some error, _ => .error error
  | none, some _ => .error (.aggregateStoreError "duplicate aggregate")
  | none, none => .ok { self with signerMapper := self.signerMapper.insert handle info }

def setHandle [DecidableEq ι] (self : SignerRouter ι) (signer : ι) (handle : SignerHandle) : SignerRouter ι :=
  { self with handleOf := Function.update self.handleOf signer (some handle) }

def hasProduced (self : SignerRouter ι) (signer : ι) (signature : Signature) :
    SignerRouter ι :=
  { self with produced := self.produced ++ [(signer, signature)] }

variable [DecidableEq ι]

def isSignerIdentifiedByHandle (env : Backends ι) (self : SignerRouter ι) (signer : ι)
    (handle : SignerHandle) : SignerRouter ι × Except BindError IdentifyResult :=
  match self.getLatest env (.getSignerName handle) handle with
  | .error error => (self, .error (.mapper error))
  | .ok _ =>
    match self.getLatest env (.getSignerPublicKey handle) handle with
    | .error (.signerError _) => (self, .ok .corrupt)
    | .error error => (self, .error (.mapper error))
    | .ok known =>
      match self.getLatest env (.getSignerPrivateKeyInternalId handle) handle with
      | .error error => (self, .error (.mapper error))
      | .ok identity =>
        match env.signRegistrationChallenge signer (some handle)
            identity.signerIdentity.privateKeyInternalId with
        | .error .temporarilyUnavailable => (self, .ok .unavailable)
        | .error .keyNotFound => (self, .ok .unidentified)
        | .error (.other _) => (self, .ok .unusable)
        | .ok signature =>
          let self := self.hasProduced signer signature
          -- The handle is only set if the signature is right. A wrong one is logged.
          let self :=
            if verify known.signerIdentity.publicKey CHALLENGE signature then
              let self := self.setHandle signer handle
              let self := self.changeSignerName env handle (self.getName signer)
              self.changeSignerInfo env handle ((env.getInfo signer).getD NO_SIGNER_INFO)
            else self
          (self, .ok (.identified handle))

def orderCandidates (env : Backends ι) (self : SignerRouter ι) (signer : ι) :
    List SignerHandle → List SignerHandle → Except MapperError (List SignerHandle)
  | ordered, [] => .ok ordered
  | ordered, handle :: rest =>
    match self.getLatest env (.getSignerName handle) handle with
    | .error error => .error error
    | .ok info =>
      if info.signerName = self.getName signer then
        orderCandidates env self signer (handle :: ordered) rest
      else orderCandidates env self signer (ordered ++ [handle]) rest

def tryCandidates (env : Backends ι) (self : SignerRouter ι) (signer : ι) :
    List SignerHandle → SignerRouter ι × Except BindError IdentifyResult
  | [] => (self, .ok .unidentified)
  | handle :: rest =>
    match self.isSignerIdentifiedByHandle env signer handle with
    | (self, .ok .unidentified) => tryCandidates env self signer rest
    | (self, .ok .corrupt) => tryCandidates env self signer rest
    | (self, result) => (self, result)

def identifySigner (env : Backends ι) (self : SignerRouter ι) (signer : ι)
    (candidates : List SignerHandle) : SignerRouter ι × Except BindError IdentifyResult :=
  match self.orderCandidates env signer [] candidates with
  | .error error => (self, .error (.mapper error))
  | .ok ordered => self.tryCandidates env signer ordered

def registerNewSigner (env : Backends ι) (self : SignerRouter ι) (signer : ι) :
    SignerRouter ι × Except BindError RegisterResult :=
  match env.createRegistrationKey signer with
  | .error .temporarilyUnavailable => (self, .ok .notReady)
  | .error _ => (self, .ok .readyUnusable)
  | .ok (publicKey, privateKeyInternalId) =>
    match env.signRegistrationChallenge signer none privateKeyInternalId with
    | .error .temporarilyUnavailable => (self, .ok .notReady)
    | .error _ => (self, .ok .readyUnusable)
    | .ok signature =>
      let self := self.hasProduced signer signature
      if verify publicKey CHALLENGE signature then
        let handle := env.newHandle signer
        let info : SignerInfo :=
          { signerName := self.getName signer
            signerInfo := (env.getInfo signer).getD NO_SIGNER_INFO
            signerIdentity := { publicKey, privateKeyInternalId } }
        match self.addSigner env handle info with
        | .error error => (self, .error (.mapper error))
        | .ok self => (self.setHandle signer handle, .ok (.readyVerified handle))
      else (self, .ok .readyUnusable)

def activate (self : SignerRouter ι) (handle : SignerHandle) (signer : ι) : SignerRouter ι :=
  { self with activeSigners := self.activeSigners.insert handle signer }

/-- What is done with one pending signer, and whether it stays pending. -/
def bindSigner (env : Backends ι) (self : SignerRouter ι) (candidates : List SignerHandle)
    (signer : ι) : SignerRouter ι × Except BindError Bool :=
  match self.identifySigner env signer candidates with
  | (self, .error error) => (self, .error error)
  | (self, .ok .unavailable) => (self, .ok true)
  | (self, .ok (.identified handle)) => (self.activate handle signer, .ok false)
  | (self, .ok .unidentified) =>
    match self.registerNewSigner env signer with
    | (self, .error error) => (self, .error error)
    | (self, .ok .notReady) => (self, .ok true)
    | (self, .ok (.readyVerified handle)) => (self.activate handle signer, .ok false)
    | (self, .ok .readyUnusable) => (self, .ok false)
  | (self, .ok .unusable) => (self, .ok false)
  | (self, .ok .corrupt) => (self, .error .invalidHandle)

def retainPending (env : Backends ι) (candidates : List SignerHandle)
    (self : SignerRouter ι) : List ι → SignerRouter ι × List ι
  | [] => (self, [])
  | signer :: rest =>
    match self.bindSigner env candidates signer with
    | (self, .error _) => (self, signer :: rest)
    | (self, .ok keep) =>
      let (self, kept) := retainPending env candidates self rest
      (self, if keep then signer :: kept else kept)

def bindReadySigners (env : Backends ι) (self : SignerRouter ι) : SignerRouter ι :=
  if self.pendingSigners.isEmpty then self
  else
    match env.mapperFails .getSignerHandles with
    | some _ => self
    | none =>
      let candidates := (self.signerMapper.iter env.order).map Prod.fst
      let (self, pendingSigners) := self.retainPending env candidates self.pendingSigners
      { self with pendingSigners }

end SignerRouter

end Krill.Crypto
