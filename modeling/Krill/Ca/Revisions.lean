import Krill.Ca.SetHistory

namespace Krill.Ca

open EventSourcing (Time)
open Rpki KrillSigner
open Stateful (Yields)

variable [Rpki]

namespace KeyObjectSet

/-- A later state of a set: its number is not smaller, and it is larger if the manifest or
the CRL is another one. -/
structure Succeeds (earlier set : KeyObjectSet) : Prop where
  number : earlier.revision.number ≤ set.revision.number
  changed : set.manifest ≠ earlier.manifest ∨ set.crl ≠ earlier.crl →
    earlier.revision.number < set.revision.number

theorem Succeeds.refl (set : KeyObjectSet) : set.Succeeds set :=
  ⟨le_refl _, fun differs => differs.elim (absurd rfl) (absurd rfl)⟩

structure SameIssue (set set' : KeyObjectSet) : Prop where
  revision : set'.revision = set.revision
  manifest : set'.manifest = set.manifest
  crl : set'.crl = set.crl

theorem SameIssue.refl (set : KeyObjectSet) : set.SameIssue set := ⟨rfl, rfl, rfl⟩

theorem SameIssue.trans {set : KeyObjectSet} (first : set.SameIssue between)
    (second : between.SameIssue set') : set.SameIssue set' :=
  ⟨second.revision.trans first.revision, second.manifest.trans first.manifest,
    second.crl.trans first.crl⟩

theorem SameIssue.revokeOld {set : KeyObjectSet} (same : set.SameIssue set') (now : Time)
    (old : Option PublishedObject) : set.SameIssue (set'.revokeOld now old) := by
  cases old with
  | none => exact same
  | some object => exact ⟨same.revision, same.manifest, same.crl⟩

theorem edits_sameIssue (set : KeyObjectSet) (edits : List SetEdit) :
    set.SameIssue (edits.foldl (edit now) set) := by
  induction edits generalizing set with
  | nil => exact .refl set
  | cons first rest induction =>
    have once : set.SameIssue (set.edit now first) := by
      cases first <;> (apply SameIssue.revokeOld; exact ⟨rfl, rfl, rfl⟩)
    exact once.trans (induction _)

theorem Touched.sameIssue {set : KeyObjectSet} (touched : set.Touched env event set') :
    set.SameIssue set' := by
  cases touched with
  | updated objects =>
    rw [CaEvtDet.onSet_eq]
    exact edits_sameIssue _ _
  | _ => exact ⟨rfl, rfl, rfl⟩

theorem Succeeds.sameIssue {earlier set : KeyObjectSet} (succeeds : earlier.Succeeds set)
    (same : set.SameIssue set') : earlier.Succeeds set' := by
  obtain ⟨number, changed⟩ := succeeds
  rw [← same.revision, ← same.manifest, ← same.crl] at *
  exact ⟨number, changed⟩

variable [KrillSigner]

theorem Succeeds.reissue {earlier set : KeyObjectSet} (succeeds : earlier.Succeeds set)
    (yields : Yields (set.reissue env timing) set') : earlier.Succeeds set' := by
  obtain ⟨manifest, crl, _, rfl⟩ := reissue_yields yields
  have more : earlier.revision.number < set.revision.number + 1 :=
    Nat.lt_succ_of_le succeeds.number
  exact ⟨more.le, fun _ => more⟩

end KeyObjectSet

namespace CaManager

variable [KrillSigner] {given : Signer → Token → Prop} {meets : CaManager → Action → Prop}
  {manager start : CaManager}

theorem Step.publishes (step : Step given meets manager next) :
    (∃ env timing events, Yields (manager.objects.listen env timing events) next.objects) ∨
    (∃ env force timing, Yields (manager.objects.reIssue env force timing) next.objects) ∨
    next.objects.classes = manager.objects.classes := by
  cases step with
  | @command env later listening cmd events used signer ca store met accepted yields applied
      listened =>
      rw [CertAuth.applyAll_eq] at applied
      have same := handle_of_applyNextAll applied
      obtain ⟨published, done, stored⟩ := withCaObjects_eq_ok listened
      rw [same] at done stored
      refine .inl ⟨listening, manager.caObjectsStore.issuanceTiming, events, ?_⟩
      change Yields _ (store.caObjects ca.handle)
      rw [same, stored]
      exact ⟨_, _, done⟩
  | reIssue met done =>
    obtain ⟨published, done, stored⟩ := withCaObjects_eq_ok done
    subst stored
    exact .inr (.inl ⟨_, _, _, _, _, done⟩)
  | deprecatedRepoRemove toRemove =>
    rw [objects_caDeprecatedRepoRemove]
    exact .inr (.inr rfl)
  | deprecatedRepoIncCleanAttempts contact =>
    rw [objects_caDeprecatedRepoIncrementCleanAttempts]
    exact .inr (.inr rfl)
  | elsewhere same known => exact .inr (.inr (congrArg _ same))

theorem Runs.issued (decodes : Decodes decode) (runs : Runs given meets manager) :
    manager.objects.EverySet fun _ set => set.Named ∧ set.Issued decode := by
  induction runs with
  | @init handle id store signer unknown =>
    intro rcn rco found
    have empty : store.caObjects handle = .new handle := by
      rw [CaObjectsStore.caObjects, unknown, Option.getD_none]
    change (store.caObjects handle).classes.get rcn = some rco at found
    rw [empty] at found
    cases found
  | step runs step induction =>
    obtain ⟨env, timing, events, yields⟩ | ⟨env, force, timing, yields⟩ | same :=
      step.publishes
    · exact induction.listen decodes yields
    · have named : CaObjects.EverySet _ fun _ => KeyObjectSet.Named :=
        fun _ _ found set member => (induction found set member).1
      exact named.reIssue decodes (fun _ => induction) yields
    · intro rcn rco found
      rw [same] at found
      exact induction found

def base (manager : CaManager) (rcn : ResourceClassName) : List KeyObjectSet :=
  setsOf (manager.objects.classes.get rcn)

theorem Mirrored.carried (mirrored : Mirrored manager.ca manager.objects (given manager.signer))
    (refl : ∀ set, related set set) :
    CarriedAll (fun _ => related) manager.base manager.ca manager.objects (given manager.signer) :=
  fun rcn => .refl (mirrored.classes rcn) refl

omit [KrillSigner] in
theorem CarriedAll.grows {base : ResourceClassName → List KeyObjectSet} {ca : CertAuth}
    {objects : CaObjects} (carried : CarriedAll related base ca objects known)
    (grows : ∀ token, known token → more token) : CarriedAll related base ca objects more :=
  fun rcn => (carried rcn).grows grows

theorem Step.succeeds (laws : SignerLaws given) (runs : Runs given meets manager)
    (step : Step given meets manager next)
    (carried : CarriedAll (fun _ => KeyObjectSet.Succeeds) start.base manager.ca manager.objects
      (given manager.signer)) :
    CarriedAll (fun _ => KeyObjectSet.Succeeds) start.base next.ca next.objects
      (given next.signer) := by
  cases step.moves (.ofLaws laws) with
  | command met commanded reissued grown =>
    have followed := commanded.carried laws (runs.mirrored laws) carried
      fun succeeds touched => succeeds.sameIssue touched.sameIssue
    exact (followed.reIssue reissued id fun _ _ _ succeeds made =>
      succeeds.reissue made).grows
      grown
  | renewed met same reissued grown =>
    rw [same]
    exact (carried.reIssue reissued id fun _ _ _ succeeds made =>
      succeeds.reissue made).grows
      grown
  | cleaned same cleaned grown =>
    rw [same]
    intro rcn
    rw [cleaned.classes]
    exact (carried rcn).grows grown

theorem Runs.succeeds (laws : SignerLaws given) (runs : Runs given meets start)
    (steps : Relation.ReflTransGen (Step given meets) start manager) :
    CarriedAll (fun _ => KeyObjectSet.Succeeds) start.base manager.ca manager.objects
      (given manager.signer) := by
  induction steps with
  | refl => exact (runs.mirrored laws).carried KeyObjectSet.Succeeds.refl
  | tail before step induction => exact step.succeeds laws (runs.reaches before) induction

end CaManager

end Krill.Ca

namespace Krill.Ca.Recorded

open Numbered CaManager
open Rpki KrillSigner

def issue (number serial crlHash : Nat) (now : Int) : List ToBeSigned :=
  [.crl (0 : Nat) (now - 300) (now + 86400) [] (0 : Nat) number,
   .manifest number (now - 300) (now + 86400) [("0.crl", crlHash)]
    { serial := serial, validity := { notBefore := now - 300, notAfter := now + 86400 }
      crlUri := (), caIssuer := (), signedObject := (), issuer := (0 : Nat), signingTime := now }]

/-- The request for the key 0, a first issue at time 1000, and a second one at the same time
or after the first has expired. -/
def signable : List ToBeSigned :=
  .csr (csrInfo 0) :: (issue 1 1 1 1000 ++ (issue 2 2 3 1000 ++ issue 2 2 5 90000))

@[reducible] def signing (signable : List ToBeSigned) (idCert : EStateM String Nat Nat) :
    KrillSigner where
  Signer := Nat
  createKey := count
  randomSerial := count
  getKeyInfo := fun key => pure key
  sign := fun object _ =>
    if object ∈ signable then pure (signable.idxOf object) else throw "unknown object"
  createSelfSignedIdCert := idCert
  signRta := fun builder _ _ => pure builder
  destroyKey := fun _ => pure ()

scoped instance (priority := 2000) : KrillSigner := signing signable count

def read (base64 : Nat) : Option ToBeSigned := signable[base64]?

theorem index_of_signed {known : List ToBeSigned}
    (signed : (if object ∈ known then pure (known.idxOf object) else throw "unknown object" :
      EStateM String Nat Nat) before = .ok base64 after) :
    known[base64]? = some object ∧ before = after := by
  by_cases present : object ∈ known
  · rw [if_pos present] at signed
    cases signed
    exact ⟨List.getElem?_idxOf present, rfl⟩
  · rw [if_neg present] at signed
    cases signed

theorem reads_signed : Decodes read := fun signed => (index_of_signed signed).1

theorem recorded_laws : SignerLaws counted where
  createKey := counted_drawn fun _ _ => Iff.rfl
  randomSerial := serial_counted
  getKeyInfo := by
    intro key before after info ran
    cases ran
    exact ⟨rfl, .refl _⟩
  sign := by
    intro object key before after base64 signed
    cases (index_of_signed signed).2
    exact .refl _
  createSelfSignedIdCert := fun ran => (serial_counted ran).subperm List.nil_subperm
  signRta := by
    intro builder tbs base64 before after signed ran
    cases ran
    exact .refl _
  destroyKey := by
    intro key before after ran
    cases ran
    exact .refl _

def daemon : CaManager :=
  { ca := start, caObjectsStore := { store := .empty, issuanceTiming := config.issuanceTiming }
    signer := (0 : Nat) }

def Unpublished (manager : CaManager) (_ : Action) : Prop :=
  manager.objects.classes.iter .stored = []

instance (manager : CaManager) (action : Action) : Decidable (Unpublished manager action) :=
  decidable_of_iff (manager.objects.classes.iter .stored).isEmpty List.isEmpty_iff

def enrolled : CaManager :=
  (daemon.sendCommands Unpublished (atOnce enrol)).get (by decide +kernel)

def reissue (manager : CaManager) (env : Surroundings) : Option CaManager :=
  match manager.caObjectsStore.withCaObjects manager.ca.handle
    (fun objects => objects.reIssue env true config.issuanceTiming) manager.signer with
  | .ok caObjectsStore signer => some { manager with caObjectsStore, signer }
  | .error _ _ => none

theorem enrolled_runs : Runs counted Unpublished enrolled :=
  (Runs.init rfl : Runs counted Unpublished daemon).sendCommands recorded_laws
    (Option.some_get _).symm

theorem step_of_reissue {env : Surroundings}
    (met : meets manager (.reIssue env true config.issuanceTiming))
    (reissued : reissue manager env = some next) : Step counted meets manager next := by
  unfold reissue at reissued
  split at reissued
  case h_1 store signer done =>
    cases reissued
    exact .reIssue met done
  case h_2 => cases reissued

def reissued : CaManager := (reissue enrolled env).get (by decide +kernel)

def firstSet : KeyObjectSet := (enrolled.base "0").get ⟨0, by decide +kernel⟩

def secondSet : KeyObjectSet := (reissued.base "0").get ⟨0, by decide +kernel⟩

end Krill.Ca.Recorded
