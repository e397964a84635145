import Krill.Crypto.SignerRouter

namespace Krill.Crypto

open Signatures

variable [Signatures] {ι : Type} {known : HashMap SignerHandle SignerInfo}
  {self : SignerRouter ι}

namespace SignerRouter

/-- The signer has produced a signature that verifies under the key stored for the handle. -/
def Proves (self : SignerRouter ι) (signer : ι) (handle : SignerHandle) : Prop :=
  ∃ info signature, self.signerMapper.get handle = some info ∧
    (signer, signature) ∈ self.produced ∧
    verify info.signerIdentity.publicKey CHALLENGE signature = true

def Matches (env : Backends ι) (known : HashMap SignerHandle SignerInfo) (signer : ι)
    (handle : SignerHandle) : Prop :=
  ∃ info signature, known.get handle = some info ∧
    env.signRegistrationChallenge signer (some handle)
      info.signerIdentity.privateKeyInternalId = .ok signature ∧
    verify info.signerIdentity.publicKey CHALLENGE signature = true

/-- The signer does not answer for a known handle with a signature that is wrong. -/
def AnswersRightly (env : Backends ι) (known : HashMap SignerHandle SignerInfo) (signer : ι) :
    Prop :=
  ∀ {handle info signature}, known.get handle = some info →
    env.signRegistrationChallenge signer (some handle)
      info.signerIdentity.privateKeyInternalId = .ok signature →
    verify info.signerIdentity.publicKey CHALLENGE signature = true

def Keeps (known : HashMap SignerHandle SignerInfo) (self : SignerRouter ι) : Prop :=
  ∀ ⦃handle info⦄, known.get handle = some info →
    ∃ later, self.signerMapper.get handle = some later ∧
      later.signerIdentity = info.signerIdentity

theorem Keeps.refl (self : SignerRouter ι) : Keeps self.signerMapper self :=
  fun _ _ found => ⟨_, found, rfl⟩

theorem Keeps.insert (keeps : Keeps known self)
    (same : ∀ {stored}, self.signerMapper.get handle = some stored →
      info.signerIdentity = stored.signerIdentity) :
    Keeps known { self with signerMapper := self.signerMapper.insert handle info } := by
  intro other old found
  obtain ⟨later, stored, unchanged⟩ := keeps found
  by_cases isSame : other = handle
  · subst isSame
    exact ⟨info, HashMap.get_insert_self .., (same stored).trans unchanged⟩
  · exact ⟨later, (HashMap.get_insert ..).trans ((if_neg isSame).trans stored), unchanged⟩

/-- Every signer that has a handle has proven it, and is active under that handle only. A signer
that had none is bound to a handle that it matches or to a new one. -/
structure Good (env : Backends ι) (known : HashMap SignerHandle SignerInfo)
    (start : ι → Option SignerHandle) (router : SignerRouter ι) : Prop where
  keeps : Keeps known router
  proven : ∀ {signer handle}, router.handleOf signer = some handle → router.Proves signer handle
  active : ∀ {handle signer}, router.activeSigners.get handle = some signer →
    router.handleOf signer = some handle
  origin : ∀ {signer handle}, start signer = none → router.handleOf signer = some handle →
    Matches env known signer handle ∨ known.get handle = none

variable {start : ι → Option SignerHandle} {env : Backends ι} {signer : ι} {handle : SignerHandle}

namespace Good

variable (good : Good env known start self)

include good

theorem insert (same : ∀ {stored}, self.signerMapper.get handle = some stored →
    info.signerIdentity = stored.signerIdentity) :
    Good env known start
      { self with signerMapper := self.signerMapper.insert handle info } := by
  refine ⟨good.keeps.insert same, fun held => ?_, good.active, good.origin⟩
  obtain ⟨stored, signature, found, produced, right⟩ := good.proven held
  obtain ⟨later, stays, unchanged⟩ := (Keeps.refl self).insert same found
  exact ⟨later, signature, stays, produced, unchanged ▸ right⟩

theorem updateInfo (same : ∀ info, (change info).signerIdentity = info.signerIdentity) :
    Good env known start (self.updateInfo handle change) := by
  unfold SignerRouter.updateInfo
  split
  · exact good
  · next info found =>
      refine good.insert fun stored => ?_
      cases found.symm.trans stored
      exact same info

theorem hasProduced (signer : ι) (signature : Signature) :
    Good env known start (self.hasProduced signer signature) := by
  refine ⟨good.keeps, fun held => ?_, good.active, good.origin⟩
  obtain ⟨info, signature, found, produced, right⟩ := good.proven held
  exact ⟨info, signature, found, List.mem_append_left _ produced, right⟩

theorem setHandle [DecidableEq ι] (fresh : self.handleOf signer = none)
    (proves : self.Proves signer handle)
    (origin : Matches env known signer handle ∨ known.get handle = none) :
    Good env known start (self.setHandle signer handle) := by
  have held {other : ι} {bound : SignerHandle}
      (held : Function.update self.handleOf signer (some handle) other = some bound) :
      other = signer ∧ bound = handle ∨ self.handleOf other = some bound := by
    rw [Function.update_apply] at held
    split at held
    · cases held
      exact .inl ⟨‹_›, rfl⟩
    · exact .inr held
  refine ⟨good.keeps, fun isHeld => ?_, fun active => ?_, fun unset isHeld => ?_⟩
  · obtain ⟨rfl, rfl⟩ | old := held isHeld
    · exact proves
    · exact good.proven old
  · have own := good.active active
    refine (Function.update_of_ne ?_ ..).trans own
    rintro rfl
    cases fresh.symm.trans own
  · obtain ⟨rfl, rfl⟩ | old := held isHeld
    · exact origin
    · exact good.origin unset old

theorem activate (own : self.handleOf signer = some handle) :
    Good env known start (self.activate handle signer) := by
  refine ⟨good.keeps, good.proven, fun active => ?_, good.origin⟩
  obtain ⟨rfl, rfl⟩ | active := HashMap.get_insert_eq_some active
  · exact own
  · exact good.active active

end Good

theorem changes_good (good : Good env known start self) (handle : SignerHandle) (text : String) :
    let after := (self.changeSignerName env handle name).changeSignerInfo env handle text
    Good env known start after ∧ after.handleOf = self.handleOf := by
  have changed {self : SignerRouter ι} (change : SignerInfo → SignerInfo)
      (same : ∀ info, (change info).signerIdentity = info.signerIdentity)
      (good : Good env known start self) : Good env known start (self.updateInfo handle change) ∧
        (self.updateInfo handle change).handleOf = self.handleOf := by
    refine ⟨good.updateInfo same, ?_⟩
    unfold updateInfo
    split <;> rfl
  have named : Good env known start (self.changeSignerName env handle name) ∧
      (self.changeSignerName env handle name).handleOf = self.handleOf := by
    unfold changeSignerName
    split
    · exact ⟨good, rfl⟩
    · exact changed _ (fun _ => rfl) good
  unfold changeSignerInfo
  dsimp only
  split
  · exact named
  · obtain ⟨good, same⟩ := changed (fun info => { info with signerInfo := text }) (fun _ => rfl)
      named.1
    exact ⟨good, same.trans named.2⟩

theorem getLatest_eq_ok (found : self.getLatest env call handle = .ok info) :
    self.signerMapper.get handle = some info := by
  unfold getLatest at found
  split at found
  · cases found
  · cases found
  · next stored =>
      cases found
      exact stored

variable [DecidableEq ι]

/-- The signer may come to be bound; the handles of the others stay. -/
structure Outcome (env : Backends ι) (known : HashMap SignerHandle SignerInfo)
    (start : ι → Option SignerHandle) (signer : ι) (before after : SignerRouter ι)
    (bound : Option SignerHandle) : Prop where
  good : Good env known start after
  handles : after.handleOf = Function.update before.handleOf signer bound

theorem Good.unbound (good : Good env known start self) (fresh : self.handleOf signer = none) :
    Outcome env known start signer self self none :=
  ⟨good, by rw [← fresh, Function.update_eq_self]⟩

def boundBy : Except BindError IdentifyResult → Option SignerHandle
  | .ok (.identified handle) => some handle
  | _ => none

theorem outcome_isSignerIdentifiedByHandle (rightly : AnswersRightly env known signer)
    (good : Good env known start self) (fresh : self.handleOf signer = none)
    (listed : (known.get handle).isSome) :
    Outcome env known start signer self (self.isSignerIdentifiedByHandle env signer handle).1
      (boundBy (self.isSignerIdentifiedByHandle env signer handle).2) := by
  have unchanged := good.unbound fresh
  unfold isSignerIdentifiedByHandle
  split
  · exact unchanged
  split
  · exact unchanged
  · exact unchanged
  next key foundKey =>
  split
  · exact unchanged
  next identity foundIdentity =>
  split
  · exact unchanged
  · exact unchanged
  · exact unchanged
  next signature signed =>
  obtain ⟨info, isKnown⟩ := Option.isSome_iff_exists.mp listed
  obtain ⟨later, stored, sameIdentity⟩ := good.keeps isKnown
  cases (getLatest_eq_ok foundKey).symm.trans stored
  cases (getLatest_eq_ok foundIdentity).symm.trans stored
  rw [sameIdentity] at signed
  have right := rightly isKnown signed
  have proves : (self.hasProduced signer signature).Proves signer handle :=
    ⟨_, signature, stored, List.mem_append_right _ List.mem_cons_self, sameIdentity ▸ right⟩
  obtain ⟨changed, sameHandles⟩ := changes_good
    ((good.hasProduced signer signature).setHandle fresh proves
      (.inl ⟨info, signature, isKnown, signed, right⟩)) handle
    ((env.getInfo signer).getD NO_SIGNER_INFO)
  rw [← sameIdentity] at right
  simp only [right, if_true]
  exact ⟨changed, sameHandles⟩

theorem outcome_tryCandidates (rightly : AnswersRightly env known signer)
    (listed : ∀ handle ∈ candidates, (known.get handle).isSome)
    (good : Good env known start self) (fresh : self.handleOf signer = none) :
    Outcome env known start signer self (self.tryCandidates env signer candidates).1
      (boundBy (self.tryCandidates env signer candidates).2) := by
  induction candidates generalizing self with
  | nil => exact good.unbound fresh
  | cons handle rest induction =>
    have first := outcome_isSignerIdentifiedByHandle rightly good fresh
      (listed handle List.mem_cons_self)
    have later {between : SignerRouter ι}
        (outcome : Outcome env known start signer self between none) :
        Outcome env known start signer self (between.tryCandidates env signer rest).1
          (boundBy (between.tryCandidates env signer rest).2) := by
      have same : between.handleOf = self.handleOf :=
        outcome.handles.trans (good.unbound fresh).handles.symm
      have last := induction (fun handle member => listed handle (List.mem_cons_of_mem _ member))
        outcome.good (same ▸ fresh)
      exact ⟨last.good, same ▸ last.handles⟩
    unfold tryCandidates
    split
    · next isResult =>
        rw [isResult] at first
        exact later first
    · next isResult =>
        rw [isResult] at first
        exact later first
    · next isResult =>
        rw [isResult] at first
        exact first

omit [DecidableEq ι] in
theorem orderCandidates_subset
    (done : self.orderCandidates env signer ordered candidates = .ok result) :
    result ⊆ ordered ++ candidates := by
  induction candidates generalizing ordered with
  | nil =>
    cases done
    exact List.subset_append_left ..
  | cons first rest induction =>
    unfold orderCandidates at done
    split at done
    · cases done
    · split at done
      · exact List.Subset.trans (induction done) List.perm_middle.symm.subset
      · have subset := induction done
        rwa [← List.append_cons] at subset

def registeredBy : Except BindError RegisterResult → Option SignerHandle
  | .ok (.readyVerified handle) => some handle
  | _ => none

theorem outcome_registerNewSigner (good : Good env known start self)
    (fresh : self.handleOf signer = none) :
    Outcome env known start signer self (self.registerNewSigner env signer).1
      (registeredBy (self.registerNewSigner env signer).2) := by
  have unchanged := good.unbound fresh
  unfold registerNewSigner
  split
  · exact unchanged
  · exact unchanged
  split
  · exact unchanged
  · exact unchanged
  next signature signed =>
  have produced := good.hasProduced signer signature
  simp only
  split
  · next right =>
      split
      · exact ⟨produced, unchanged.handles⟩
      · next after added =>
          unfold addSigner at added
          split at added
          · cases added
          · cases added
          · next absent =>
              cases added
              have origin : known.get (env.newHandle signer) = none := by
                cases isKnown : known.get (env.newHandle signer) with
                | none => rfl
                | some info =>
                  obtain ⟨later, stored, -⟩ := good.keeps isKnown
                  cases absent.symm.trans stored
              refine ⟨(produced.insert fun stored => ?_).setHandle fresh
                ⟨_, signature, HashMap.get_insert_self ..,
                  List.mem_append_right _ List.mem_cons_self, right⟩ (.inr origin), rfl⟩
              cases absent.symm.trans stored
  · exact ⟨produced, unchanged.handles⟩

def staysPending : Except BindError Bool → Bool
  | .ok keep => keep
  | .error _ => true

theorem bindSigner_outcome (rightly : AnswersRightly env known signer)
    (listed : ∀ handle ∈ candidates, (known.get handle).isSome)
    (good : Good env known start self) (fresh : self.handleOf signer = none) :
    ∃ bound, Outcome env known start signer self (self.bindSigner env candidates signer).1 bound ∧
      (staysPending (self.bindSigner env candidates signer).2 = true → bound = none) := by
  have activated {after : SignerRouter ι} {handle : SignerHandle}
      (outcome : Outcome env known start signer self after (some handle)) :
      Outcome env known start signer self (after.activate handle signer) (some handle) :=
    ⟨outcome.good.activate (by rw [outcome.handles, Function.update_self]), outcome.handles⟩
  have identified : Outcome env known start signer self
      (self.identifySigner env signer candidates).1
      (boundBy (self.identifySigner env signer candidates).2) := by
    unfold identifySigner
    split
    · exact good.unbound fresh
    · next isOrdered =>
        exact outcome_tryCandidates rightly
          (fun handle member => listed handle (orderCandidates_subset isOrdered member)) good fresh
  rcases isIdentified : self.identifySigner env signer candidates with ⟨between, result⟩
  rw [isIdentified] at identified
  unfold bindSigner
  rw [isIdentified]
  cases result with
  | error error => exact ⟨none, identified, fun _ => rfl⟩
  | ok result =>
    cases result with
    | unavailable => exact ⟨none, identified, fun _ => rfl⟩
    | corrupt => exact ⟨none, identified, fun _ => rfl⟩
    | unusable => exact ⟨none, identified, nofun⟩
    | identified handle => exact ⟨some handle, activated identified, nofun⟩
    | unidentified =>
      have same : between.handleOf = self.handleOf :=
        identified.handles.trans (good.unbound fresh).handles.symm
      have registered := outcome_registerNewSigner identified.good (same ▸ fresh)
      rcases isRegistered : between.registerNewSigner env signer with ⟨after, result⟩
      rw [isRegistered] at registered
      have registered : Outcome env known start signer self after (registeredBy result) :=
        ⟨registered.good, same ▸ registered.handles⟩
      simp only [isRegistered]
      cases result with
      | error error => exact ⟨none, registered, fun _ => rfl⟩
      | ok result =>
        cases result with
        | notReady => exact ⟨none, registered, fun _ => rfl⟩
        | readyUnusable => exact ⟨none, registered, nofun⟩
        | readyVerified handle => exact ⟨some handle, activated registered, nofun⟩

theorem retainPending_good (listed : ∀ handle ∈ candidates, (known.get handle).isSome)
    (rightly : ∀ signer ∈ signers, AnswersRightly env known signer) (distinct : signers.Nodup)
    (good : Good env known start self) (fresh : ∀ signer ∈ signers, self.handleOf signer = none)
    (done : self.retainPending env candidates signers = (after, kept)) :
    Good env known start after ∧ kept.Sublist signers ∧
      (∀ signer ∈ kept, after.handleOf signer = none) ∧
      ∀ other ∉ signers, after.handleOf other = self.handleOf other := by
  induction signers generalizing self kept after with
  | nil =>
    cases done
    exact ⟨good, .refl _, nofun, fun _ _ => rfl⟩
  | cons signer rest induction =>
    rw [List.forall_mem_cons] at rightly fresh
    obtain ⟨notAgain, distinct⟩ := List.nodup_cons.mp distinct
    obtain ⟨bound, outcome, stays⟩ := bindSigner_outcome rightly.1 listed good fresh.1
    unfold retainPending at done
    rcases isBound : self.bindSigner env candidates signer with ⟨between, result⟩
    rw [isBound] at outcome stays done
    have others {other : ι} (different : other ≠ signer) :
        between.handleOf other = self.handleOf other := by
      rw [outcome.handles, Function.update_of_ne different]
    have own : between.handleOf signer = bound := by
      rw [outcome.handles, Function.update_self]
    have restFresh : ∀ other ∈ rest, between.handleOf other = none := fun other member =>
      (others fun same => notAgain (same ▸ member)).trans (fresh.2 other member)
    cases result with
    | error error =>
      cases done
      exact ⟨outcome.good, .refl _, List.forall_mem_cons.mpr ⟨own.trans (stays rfl), restFresh⟩,
        fun other absent => others (List.ne_of_not_mem_cons absent)⟩
    | ok keep =>
      rcases isDone : between.retainPending env candidates rest with ⟨last, stayed⟩
      dsimp only at done
      rw [isDone] at done
      obtain ⟨lastGood, sublist, stayedFresh, same⟩ :=
        induction rightly.2 distinct outcome.good restFresh isDone
      have unchanged : ∀ other ∉ signer :: rest, last.handleOf other = self.handleOf other :=
        fun other absent => (same other (List.not_mem_of_not_mem_cons absent)).trans
          (others (List.ne_of_not_mem_cons absent))
      cases keep with
      | false =>
        cases done
        exact ⟨lastGood, sublist.cons _, stayedFresh, unchanged⟩
      | true =>
        cases done
        have ownFresh := (same signer notAgain).trans (own.trans (stays rfl))
        exact ⟨lastGood, sublist.cons_cons _, List.forall_mem_cons.mpr ⟨ownFresh, stayedFresh⟩,
          unchanged⟩

/-- In the run no pending signer answers for a known handle with a wrong signature. -/
def AllAnswerRightly (env : Backends ι) (self : SignerRouter ι) : Prop :=
  ∀ signer ∈ self.pendingSigners, AnswersRightly env self.signerMapper signer

inductive Runs : SignerRouter ι → Prop where
  | start {router : SignerRouter ι} (inactive : router.activeSigners = .empty)
      (unset : ∀ signer, router.handleOf signer = none)
      (distinct : router.pendingSigners.Nodup) : Runs router
  | bind {router : SignerRouter ι} (env : Backends ι) (run : Runs router)
      (rightly : AllAnswerRightly env router) : Runs (router.bindReadySigners env)

/-- No pending signer has a handle. -/
structure Settled (router : SignerRouter ι) : Prop where
  proven : ∀ {signer handle}, router.handleOf signer = some handle → router.Proves signer handle
  active : ∀ {handle signer}, router.activeSigners.get handle = some signer →
    router.handleOf signer = some handle
  fresh : ∀ signer ∈ router.pendingSigners, router.handleOf signer = none
  distinct : router.pendingSigners.Nodup

theorem Settled.bind (settled : Settled self) (rightly : AllAnswerRightly env self) :
    Settled (self.bindReadySigners env) ∧
      Good env self.signerMapper self.handleOf (self.bindReadySigners env) := by
  have good : Good env self.signerMapper self.handleOf self :=
    ⟨.refl self, settled.proven, settled.active, fun unset held => by cases unset.symm.trans held⟩
  unfold bindReadySigners
  split
  · exact ⟨settled, good⟩
  · split
    · exact ⟨settled, good⟩
    · obtain ⟨after, sublist, fresh, -⟩ := retainPending_good
        (fun _ => HashMap.mem_iter_keys.mp) rightly settled.distinct good settled.fresh rfl
      exact ⟨⟨after.proven, after.active, fresh, sublist.nodup settled.distinct⟩, after.keeps,
        after.proven, after.active, after.origin⟩

theorem Runs.settled (run : Runs self) : Settled self := by
  induction run with
  | start inactive unset distinct =>
    refine ⟨fun held => ?_, fun active => ?_, fun signer _ => unset signer, distinct⟩
    · rw [unset] at held
      cases held
    · rw [inactive, HashMap.get_empty] at active
      cases active
  | bind env _ rightly induction => exact (induction.bind rightly).1

/-- An active signer has proven its handle, and a signer that matches no handle is not bound to
one that was there before. -/
theorem bound_only_if_proven (run : Runs self) :
    (∀ handle signer, self.activeSigners.get handle = some signer →
      self.handleOf signer = some handle ∧ self.Proves signer handle) ∧
    ∀ env, AllAnswerRightly env self → ∀ signer ∈ self.pendingSigners,
      (∀ handle, ¬ Matches env self.signerMapper signer handle) →
      ∀ handle, (self.bindReadySigners env).activeSigners.get handle = some signer →
        self.signerMapper.get handle = none := by
  have settled := run.settled
  refine ⟨fun handle signer active => ?_, ?_⟩
  · have own := settled.active active
    exact ⟨own, settled.proven own⟩
  · intro env rightly signer pending unmatched handle active
    have after := (settled.bind rightly).2
    exact (after.origin (settled.fresh signer pending) (after.active active)).resolve_left
      (unmatched handle)

/-- A signer is not active under two handles, or while it is still pending. -/
theorem active_once (run : Runs self) (active : self.activeSigners.get handle = some signer) :
    signer ∉ self.pendingSigners ∧
      ∀ other, self.activeSigners.get other = some signer → other = handle := by
  have settled := run.settled
  have own := settled.active active
  refine ⟨fun pending => ?_, fun other also => ?_⟩
  · cases (settled.fresh signer pending).symm.trans own
  · exact Option.some.inj ((settled.active also).symm.trans own)

end SignerRouter

end Krill.Crypto

namespace Krill.Crypto.Mock

open SignerRouter

scoped instance : Signatures where
  PublicKey := Nat
  Signature := Nat
  verify := fun key _ signature => Nat.beq key signature

def backends (signature : Nat) : Backends Bool where
  signRegistrationChallenge := fun _ _ _ => .ok signature
  createRegistrationKey := fun _ => .error .temporarilyUnavailable
  getInfo := fun _ => none
  newHandle := fun _ => "new"
  mapperFails := fun _ => none
  order := .stored

/-- One handle is known, and one signer is configured under another name. -/
def configured : SignerRouter Bool where
  signerMapper := HashMap.empty.insert "known" ⟨"hsm", "", ⟨(1 : Nat), "key"⟩⟩
  activeSigners := .empty
  pendingSigners := [true]
  getName := fun _ => "renamed"
  handleOf := fun _ => none
  produced := []

theorem configured_run : Runs configured := .start rfl (fun _ => rfl) (by decide)

theorem right_signer_bound :
    (configured.bindReadySigners (backends 1)).handleOf true = some "known" ∧
      (configured.bindReadySigners (backends 1)).Proves true "known" := by
  have rightly : AllAnswerRightly (backends 1) configured := by
    intro signer _ handle info signature stored signed
    cases signed
    rcases HashMap.get_insert_eq_some stored with ⟨-, rfl⟩ | impossible
    · rfl
    · cases impossible
  exact (bound_only_if_proven (.bind (backends 1) configured_run rightly)).1 "known" true
    (by decide)

theorem right_signer_once : true ∉ (configured.bindReadySigners (backends 1)).pendingSigners := by
  refine (active_once (.bind (backends 1) configured_run fun _ _ _ _ _ stored signed => ?_)
    (show (configured.bindReadySigners (backends 1)).activeSigners.get "known" = some true by
      decide)).1
  cases signed
  rcases HashMap.get_insert_eq_some stored with ⟨-, rfl⟩ | impossible
  · rfl
  · cases impossible

theorem wrong_signer_bound : Runs configured ∧
    (configured.bindReadySigners (backends 2)).activeSigners.get "known" = some true ∧
    (configured.bindReadySigners (backends 2)).handleOf true = none ∧
    ¬ (configured.bindReadySigners (backends 2)).Proves true "known" := by
  refine ⟨configured_run, by decide, by decide, ?_⟩
  rintro ⟨info, signature, stored, produced, right⟩
  rcases HashMap.get_insert_eq_some stored with ⟨-, rfl⟩ | impossible
  · cases List.mem_singleton.mp produced
    cases right
  · cases impossible

end Krill.Crypto.Mock
