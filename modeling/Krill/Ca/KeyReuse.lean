import Krill.Ca.Ownership

namespace Krill.Ca

open Rpki KrillSigner
open Stateful (Yields)

variable [Rpki]

def CaEvtDet.EndsUse (event : CaEvtDet) (child : ChildHandle) (key : KeyIdentifier) : Prop :=
  match event with
  | .childAdded other _ _ => child = other
  | .childRemoved other => child = other
  | .childCertificateIssued other _ issued => child = other ∧ key = issued
  | .childKeyRevoked other _ revoked => child = other ∧ key = revoked
  | event => key ∈ event.revokedKeys

/-- A certificate for the key was issued to the child, and nothing happened to it since. -/
def CertifiedIn (history : List CaEvtDet) (child : ChildHandle) (rcn : ResourceClassName)
    (key : KeyIdentifier) : Prop :=
  ∃ later earlier, history = later ++ .childCertificateIssued child rcn key :: earlier ∧
    ∀ event ∈ later, ¬event.EndsUse child key

def CaEvtDet.Revokes (event : CaEvtDet) (earlier : List CaEvtDet) (child : ChildHandle)
    (key : KeyIdentifier) : Prop :=
  (∃ rcn, event = .childKeyRevoked child rcn key) ∨
    key ∈ event.revokedKeys ∧ ∃ rcn, CertifiedIn earlier child rcn key

/-- The key was taken from the child at some time since it was added. -/
def RevokedIn (history : List CaEvtDet) (child : ChildHandle) (key : KeyIdentifier) : Prop :=
  ∃ later event earlier, history = later ++ event :: earlier ∧
    event.Revokes earlier child key ∧ .childRemoved child ∉ later

section Histories

theorem certifiedIn_cons : CertifiedIn (event :: history) child rcn key ↔
    event = .childCertificateIssued child rcn key ∨
      ¬event.EndsUse child key ∧ CertifiedIn history child rcn key := by
  constructor
  · rintro ⟨later, earlier, same, kept⟩
    cases later with
    | nil => cases same; exact .inl rfl
    | cons first rest =>
      cases same
      exact .inr ⟨kept _ List.mem_cons_self, rest, earlier, rfl,
        fun other member => kept other (List.mem_cons_of_mem _ member)⟩
  · rintro (rfl | ⟨kept, later, earlier, rfl, keptBefore⟩)
    · exact ⟨[], history, rfl, List.forall_mem_nil _⟩
    · exact ⟨event :: later, earlier, rfl, List.forall_mem_cons.mpr ⟨kept, keptBefore⟩⟩

theorem revokedIn_cons : RevokedIn (event :: history) child key ↔ event.Revokes history child key ∨
      event ≠ .childRemoved child ∧ RevokedIn history child key := by
  constructor
  · rintro ⟨later, revoking, earlier, same, revokes, stayed⟩
    cases later with
    | nil => cases same; exact .inl revokes
    | cons first rest =>
      cases same
      exact .inr ⟨(List.ne_of_not_mem_cons stayed).symm, rest, revoking, earlier, rfl,
        revokes, List.not_mem_of_not_mem_cons stayed⟩
  · rintro (revokes | ⟨different, later, revoking, earlier, rfl, revokes, stayed⟩)
    · exact ⟨[], event, history, rfl, revokes, List.not_mem_nil⟩
    · exact ⟨event :: later, revoking, earlier, rfl, revokes,
        List.not_mem_cons_of_ne_of_not_mem different.symm stayed⟩

end Histories

namespace CaEvtDet

def isEntry : CaEvtDet → Bool
  | .childAdded _ _ _ | .childCertificateIssued _ _ _ => true
  | _ => false

variable {event : CaEvtDet}

theorem isEntry_of_unrelated (unrelated : event.isAboutChild = false) : event.isEntry = false := by
  cases event <;> first | rfl | cases unrelated

theorem endsUse_of_unrelated (unrelated : event.isAboutChild = false) :
    event.EndsUse child key ↔ key ∈ event.revokedKeys := by
  cases event <;> first | rfl | cases unrelated

theorem onKeyUse_eq_current : event.onKeyUse child key use = some (.current rcn) ↔
    event = .childCertificateIssued child rcn key ∨
      ¬event.EndsUse child key ∧ use = some (.current rcn) := by
  cases about : event.isAboutChild with
  | false =>
    have notIssued : event ≠ .childCertificateIssued child rcn key := by
      rintro rfl
      cases about
    rw [onKeyUse_of_unrelated about, endsUse_of_unrelated about]
    by_cases revoked : key ∈ event.revokedKeys <;> simp [revoked, notIssued]
  | true =>
    cases event with
    | childAdded other => by_cases same : child = other <;> simp [onKeyUse, EndsUse, same]
    | childRemoved other => by_cases same : child = other <;> simp [onKeyUse, EndsUse, same]
    | childCertificateIssued other issuedIn issued =>
      by_cases same : child = other ∧ key = issued
      · simp [onKeyUse, EndsUse, same]
      · simp only [onKeyUse, EndsUse, same, if_false, not_false_iff, true_and,
          childCertificateIssued.injEq]
        refine ⟨.inr, fun either => either.resolve_left fun equal => same ?_⟩
        exact ⟨equal.1.symm, equal.2.2.symm⟩
    | childKeyRevoked other revokedIn revoked =>
      by_cases same : child = other ∧ key = revoked <;> simp [onKeyUse, EndsUse, same]
    | _ => cases about

theorem onKeyUse_eq_revoked : event.onKeyUse child key use = some .revoked ↔
    (∃ rcn, event = .childKeyRevoked child rcn key) ∨ key ∈ event.revokedKeys ∧ use ≠ none ∨
      ¬event.EndsUse child key ∧ use = some .revoked := by
  cases about : event.isAboutChild with
  | false =>
    have notRevoked : ¬∃ rcn, event = .childKeyRevoked child rcn key := by
      rintro ⟨_, rfl⟩
      cases about
    rw [onKeyUse_of_unrelated about, endsUse_of_unrelated about]
    by_cases revoked : key ∈ event.revokedKeys <;>
      simp [revoked, notRevoked, Option.ne_none_iff_exists']
  | true =>
    cases event with
    | childAdded other =>
      by_cases same : child = other <;> simp [onKeyUse, EndsUse, same, revokedKeys]
    | childRemoved other =>
      by_cases same : child = other <;> simp [onKeyUse, EndsUse, same, revokedKeys]
    | childCertificateIssued other issuedIn issued =>
      by_cases same : child = other ∧ key = issued <;>
        simp [onKeyUse, EndsUse, same, revokedKeys]
    | childKeyRevoked other revokedIn revoked =>
      by_cases same : child = other ∧ key = revoked
      · simp [onKeyUse, EndsUse, same]
      · simp only [onKeyUse, EndsUse, same, if_false, not_false_iff, true_and,
          childKeyRevoked.injEq, revokedKeys, List.not_mem_nil, false_and, false_or]
        refine ⟨.inr, fun either => either.resolve_left ?_⟩
        rintro ⟨_, equal⟩
        exact same ⟨equal.1.symm, equal.2.2.symm⟩
    | _ => cases about

end CaEvtDet

namespace CertAuth

structure Tracks (history : List CaEvtDet) (ca : CertAuth) : Prop where
  certified : ∀ child rcn key,
    CertifiedIn history child rcn key ↔ ca.keyUse child key = some (.current rcn)
  revoked : ∀ child key, ca.keyUse child key = some .revoked → RevokedIn history child key

def Remembers (history : List CaEvtDet) (ca : CertAuth) : Prop :=
  ∀ child key, RevokedIn history child key → ca.keyUse child key = some .revoked

/-- Children that are added are new, and keys that are certified are not revoked. -/
def Fresh (ca : CertAuth) (event : CaEvtDet) : Prop :=
  match event with
  | .childAdded child _ _ => ca.children.get child = none
  | .childCertificateIssued child _ key => ca.keyUse child key ≠ some .revoked
  | _ => True

theorem init_tracks (handle : CaHandle) (id : Rfc8183Id) : Tracks [] (init handle id) where
  certified := fun child rcn key => by
    refine iff_of_false ?_ nofun
    rintro ⟨later, earlier, same, _⟩
    cases later <;> cases same
  revoked := nofun

theorem init_remembers (handle : CaHandle) (id : Rfc8183Id) : Remembers [] (init handle id) := by
  rintro child key ⟨later, event, earlier, same, _⟩
  cases later <;> cases same

theorem Tracks.applyNext (tracks : Tracks history ca)
    (applied : ca.applyNext env event = some next) : Tracks (event :: history) next where
  certified := fun child rcn key => by
    rw [keyUse_of_applyNext applied, CaEvtDet.onKeyUse_eq_current, certifiedIn_cons, tracks.certified]
  revoked := fun child key revoked => by
    rw [keyUse_of_applyNext applied, CaEvtDet.onKeyUse_eq_revoked] at revoked
    refine revokedIn_cons.mpr ?_
    obtain byChild | ⟨taken, used⟩ | ⟨kept, before⟩ := revoked
    · exact .inl (.inl byChild)
    · obtain ⟨state, used⟩ := Option.ne_none_iff_exists'.mp used
      cases state with
      | current rcn => exact .inl (.inr ⟨taken, rcn, (tracks.certified child rcn key).mpr used⟩)
      | revoked =>
        refine .inr ⟨?_, tracks.revoked child key used⟩
        rintro rfl
        exact absurd taken List.not_mem_nil
    · refine .inr ⟨?_, tracks.revoked child key before⟩
      rintro rfl
      exact kept rfl

theorem Remembers.applyNext (remembers : Remembers history ca) (tracks : Tracks history ca)
    (fresh : ca.Fresh event) (applied : ca.applyNext env event = some next) :
    Remembers (event :: history) next := by
  intro child key revoked
  rw [keyUse_of_applyNext applied, CaEvtDet.onKeyUse_eq_revoked]
  obtain (byChild | ⟨taken, rcn, certified⟩) | ⟨stayed, before⟩ := revokedIn_cons.mp revoked
  · exact .inl byChild
  · exact .inr (.inl ⟨taken, keyUse_ne_none ((tracks.certified child rcn key).mp certified)⟩)
  · have used := remembers child key before
    by_cases taken : key ∈ event.revokedKeys
    · exact .inr (.inl ⟨taken, keyUse_ne_none used⟩)
    · cases about : event.isAboutChild with
      | false =>
        exact .inr (.inr ⟨(CaEvtDet.endsUse_of_unrelated about).not.mpr taken, used⟩)
      | true =>
        cases event with
        | childAdded other =>
          refine .inr (.inr ⟨?_, used⟩)
          rintro rfl
          unfold keyUse at used
          rw [show ca.children.get child = none from fresh] at used
          cases used
        | childRemoved other =>
          refine .inr (.inr ⟨?_, used⟩)
          rintro rfl
          exact stayed rfl
        | childCertificateIssued other rcn issued =>
          refine .inr (.inr ⟨?_, used⟩)
          rintro ⟨rfl, rfl⟩
          exact fresh used
        | childKeyRevoked other rcn gone =>
          by_cases same : child = other ∧ key = gone
          · obtain ⟨rfl, rfl⟩ := same
            exact .inl ⟨rcn, rfl⟩
          · exact .inr (.inr ⟨same, used⟩)
        | _ => cases about

theorem Tracks.applyNextAll (tracks : Tracks history ca)
    (applied : ca.applyNextAll later details = some last) :
    Tracks (details.reverse ++ history) last := by
  induction details generalizing ca history with
  | nil => cases applied; exact tracks
  | cons event rest induction =>
    obtain ⟨next, done, finished⟩ := applyNextAll_cons.mp applied
    rw [List.reverse_cons, List.append_assoc]
    exact induction (tracks.applyNext done) finished

theorem Remembers.applyNextAll (remembers : Remembers history ca) (tracks : Tracks history ca)
    (fresh : ∀ {first event rest middle}, details = first ++ event :: rest →
      ca.applyNextAll later first = some middle → middle.Fresh event)
    (applied : ca.applyNextAll later details = some last) :
    Remembers (details.reverse ++ history) last := by
  induction details generalizing ca history with
  | nil => cases applied; exact remembers
  | cons event rest induction =>
    obtain ⟨next, done, finished⟩ := applyNextAll_cons.mp applied
    rw [List.reverse_cons, List.append_assoc]
    have first : ca.Fresh event := fresh (List.nil_append _).symm rfl
    refine induction (remembers.applyNext tracks first done) (tracks.applyNext done)
      (fun same started => ?_) finished
    exact fresh (congrArg (event :: ·) same) (applyNextAll_cons.mpr ⟨next, done, started⟩)

variable [KrillSigner]

inductive Logged (meets : CertAuth → CmdDet → Prop) : List CaEvtDet → CertAuth → Prop
  | init (handle : CaHandle) (id : Rfc8183Id) : Logged meets [] (.init handle id)
  | step {history : List CaEvtDet} {ca next : CertAuth} {env later : Surroundings}
      {cmd : CmdDet} {events : List CaEvt} {signer used : Signer}
      (logged : Logged meets history ca) (met : meets ca cmd)
      (accepted : ca.processCommand env cmd signer = .ok events used)
      (applied : ca.applyAll later events = some next) :
      Logged meets ((events.map StoredEvent.details).reverse ++ history) next

theorem Logged.reachable (logged : Logged meets history ca) : Reachable ca := by
  induction logged with
  | init handle id => exact .init handle id
  | step _ _ accepted applied induction => exact .step induction accepted applied

theorem Logged.tracks (logged : Logged meets history ca) : Tracks history ca := by
  induction logged with
  | init handle id => exact init_tracks handle id
  | step _ _ _ applied induction =>
    rw [applyAll_eq] at applied
    exact induction.applyNextAll applied

theorem Logged.replay (logged : Logged meets history ca)
    (met : ∀ cmd ∈ cmds, ∀ before, meets before cmd) {last : CertAuth × Signer}
    (replayed : ca.replay env signer cmds = some last) :
    ∃ since, Logged meets (since ++ history) last.1 := by
  refine holds_of_replay (fun ca => ∃ since, Logged meets (since ++ history) ca)
    ⟨[], logged⟩ (fun cmd member _ _ _ _ _ held accepted applied => ?_) replayed
  obtain ⟨since, logged⟩ := held
  have continued := logged.step (met cmd member _) accepted applied
  rw [← List.append_assoc] at continued
  exact ⟨_, continued⟩

end CertAuth

/-- The key is allowed for the child, and no other child has it certified in the class. -/
def CmdDet.AllowsKey (cmd : CmdDet) (ca : CertAuth) : Prop :=
  match cmd with
  | .childCertify child request _ =>
    (∀ details, ca.children.get child = some details →
      details.verifyKeyAllowed request.key request.className = .ok ()) ∧
    ∀ other, other ≠ child → ca.keyUse other request.key ≠ some (.current request.className)
  | _ => True

namespace CertAuth

variable [KrillSigner] {ca : CertAuth}

omit [KrillSigner] in
theorem eq_of_verifyKeyAllowed (used : ca.keyUse child key = some use)
    (allowed : ∀ details, ca.children.get child = some details →
      details.verifyKeyAllowed key rcn = .ok ()) : use = .current rcn := by
  obtain ⟨details, known, used⟩ := Option.bind_eq_some_iff.mp used
  have isAllowed := allowed details known
  unfold ChildDetails.verifyKeyAllowed at isAllowed
  rw [used] at isAllowed
  cases use with
  | revoked => cases isAllowed
  | current found =>
    dsimp only at isAllowed
    split at isAllowed
    · next same => rw [same]
    · cases isAllowed

inductive Entry (ca : CertAuth) : CmdDet → List CaEvtDet → Prop
  | none {cmd : CmdDet} (noEntry : ∀ event ∈ details, event.isEntry = false) : Entry ca cmd details
  | added {child : ChildHandle} {resources : ResourceSet} (unknown : ca.children.get child = none) :
      Entry ca (.childAdd child idCert resources) [.childAdded child idCert resources]
  | certified {child : ChildHandle} (updates : ChildCertificateUpdates) :
      Entry ca (.childCertify child request config)
        [.childCertificateIssued child request.className request.key,
          .childCertificatesUpdated request.className updates]

theorem entry_of_command (consistent : ca.Consistent)
    (yields : Yields (ca.processCommand env cmd) events)
    (applied : ca.applyNextAll later (events.map StoredEvent.details) = some last) :
    Entry ca cmd (events.map StoredEvent.details) := by
  cases about : cmd.isAboutChild with
  | false =>
    exact .none fun event member => CaEvtDet.isEntry_of_unrelated
      ((keyUse_of_unrelated consistent about yields applied).1 event member)
  | true =>
    cases cmd with
    | childAdd added =>
      obtain ⟨unknown, single⟩ := childAdd_eq_ok yields.liftExcept
      rw [single]
      exact .added unknown
    | childCertify certified request =>
      obtain ⟨_, _, _, issued, _, _, decoded, made, pair⟩ := childCertify_yields yields
      rw [pair, key_of_issueCert decoded made]
      exact .certified _
    | childRevokeKey revoked request =>
      rw [(childRevokeKey_eq_ok yields.liftExcept).2]
      refine .none fun event member => ?_
      obtain rfl | rfl := List.mem_pair.mp member <;> rfl
    | childRemove removed =>
      obtain ⟨details, known, accepted⟩ := Fallible.bind_eq_ok.mp yields.liftExcept
      cases accepted
      rw [details_eventsFromDetails]
      refine .none (List.forall_mem_append.mpr ⟨fun event member => ?_,
        List.forall_mem_singleton.mpr rfl⟩)
      exact CaEvtDet.isEntry_of_unrelated (CaEvtDet.isAboutChild_of_target
        (forChildKeys_targeted event member).choose_spec.1)
    | _ => cases about

omit [KrillSigner] in
theorem Entry.fresh (entry : Entry ca cmd details) (allowed : cmd.AllowsKey ca)
    (same : details = first ++ event :: rest)
    (started : ca.applyNextAll later first = some middle) : middle.Fresh event := by
  cases entry with
  | none noEntry =>
    have isNone := noEntry event (same ▸ List.mem_append_right _ List.mem_cons_self)
    cases event <;> trivial
  | added unknown =>
    cases first with
    | nil => cases same; cases started; exact unknown
    | cons head tail => cases tail <;> cases same
  | certified =>
    cases first with
    | nil =>
      cases same
      cases started
      intro used
      cases eq_of_verifyKeyAllowed used allowed.1
    | cons head tail =>
      cases tail with
      | nil => cases same; trivial
      | cons next rest => cases rest <;> cases same

theorem Logged.remembers (logged : Logged (fun ca cmd => cmd.AllowsKey ca) history ca) :
    Remembers history ca := by
  induction logged with
  | init handle id => exact init_remembers handle id
  | step logged allowed accepted applied induction =>
    rw [applyAll_eq] at applied
    have entry := entry_of_command logged.reachable.consistent ⟨_, _, accepted⟩ applied
    exact induction.applyNextAll logged.tracks (entry.fresh allowed) applied

/-- The key was never taken from the child, and it is not certified for the child in another
class, nor for another child in this class. -/
structure NewFor (history : List CaEvtDet) (child : ChildHandle) (rcn : ResourceClassName)
    (key : KeyIdentifier) : Prop where
  notRevoked : ¬RevokedIn history child key
  notElsewhere : ∀ other, CertifiedIn history child other key → other = rcn
  notOthers : ∀ other, other ≠ child → ¬CertifiedIn history other rcn key

theorem Logged.newFor (logged : Logged (fun ca cmd => cmd.AllowsKey ca) history ca)
    (allowed : (CmdDet.childCertify child request config).AllowsKey ca) :
    NewFor history child request.className request.key where
  notRevoked := fun revoked => by
    cases eq_of_verifyKeyAllowed (logged.remembers child request.key revoked) allowed.1
  notElsewhere := fun other certified => by
    cases eq_of_verifyKeyAllowed ((logged.tracks.certified child other request.key).mp certified)
      allowed.1
    rfl
  notOthers := fun other different certified =>
    allowed.2 other different
      ((logged.tracks.certified other request.className request.key).mp certified)

/-- Keys are not used again if every request is for a key that is allowed for the child and
that no other child has certified in the class. -/
theorem certified_keys_new (logged : Logged (fun ca cmd => cmd.AllowsKey ca) history ca)
    {child : ChildHandle} {rcn : ResourceClassName} {key : KeyIdentifier}
    {since before : List CaEvtDet}
    (issued : history = since ++ .childCertificateIssued child rcn key :: before) :
    NewFor before child rcn key := by
  induction logged generalizing since with
  | init => cases since <;> cases issued
  | @step old ca _ _ _ cmd events _ _ logged allowed accepted applied induction =>
    rw [applyAll_eq] at applied
    have entry := entry_of_command logged.reachable.consistent ⟨_, _, accepted⟩ applied
    obtain ⟨_, _, inOld⟩ | ⟨own, inEvents, rest⟩ := List.append_eq_append_iff.mp issued
    · exact induction inOld
    · cases own with
      | nil =>
        have inOld : old = [] ++ .childCertificateIssued child rcn key :: before := rest.symm
        exact induction inOld
      | cons first others =>
        cases rest
        generalize events.map StoredEvent.details = details at entry inEvents
        cases entry with
        | none noEntry =>
          have member : CaEvtDet.childCertificateIssued child rcn key ∈ details :=
            List.mem_reverse.mp (inEvents ▸ List.mem_append_right _ List.mem_cons_self)
          cases noEntry _ member
        | added =>
          cases since with
          | nil => cases inEvents
          | cons head tail => cases tail <;> cases inEvents
        | certified =>
          cases since with
          | nil => cases inEvents
          | cons head tail =>
            cases tail with
            | nil => cases inEvents; exact logged.newFor allowed
            | cons next last => cases last <;> cases inEvents

end CertAuth

end Krill.Ca

namespace Krill.Ca.Numbered

open CertAuth

theorem offered_key_is_new : ∃ since before : List CaEvtDet,
    Logged (fun ca cmd => cmd.AllowsKey ca)
      (since ++ .childCertificateIssued "child" "0" (50 : Nat) :: before) issuedOnce.1 ∧
    NewFor before "child" "0" (50 : Nat) := by
  have met : ∀ cmd ∈ offer 3, ∀ before : CertAuth, cmd.AllowsKey before := by
    intro cmd member before
    simp only [offer, List.mem_cons, List.not_mem_nil, or_false] at member
    rcases member with rfl | rfl | rfl | rfl | rfl <;> trivial
  have replayed : start.replay env (0 : Nat) (offer 3) = some offered := (Option.some_get _).symm
  obtain ⟨history, logged⟩ := (Logged.init _ _).replay met replayed
  have allowed : issuing.AllowsKey offered.1 := by
    refine ⟨fun details known => ?_, fun other different used => ?_⟩
    · cases known
      rfl
    · obtain ⟨details, known, usedKey⟩ := Option.bind_eq_some_iff.mp used
      have listed := HashMap.mem_entries.mpr known
      change (other, details) ∈ [("child", _)] at listed
      cases List.mem_singleton.mp listed
      cases usedKey
  obtain ⟨events, used, next, accepted, applied, same, updates, certifies⟩ :
      ∃ (events : List CaEvt) (used : Nat) (next : CertAuth),
        offered.1.processCommand env issuing offered.2 = .ok events used ∧
        offered.1.applyAll env events = some next ∧ next = issuedOnce.1 ∧
        ∃ updates, (events.map StoredEvent.details).reverse =
          [.childCertificatesUpdated "0" updates,
            .childCertificateIssued "child" "0" (50 : Nat)] :=
    ⟨_, _, _, rfl, rfl, rfl, _, rfl⟩
  have run := logged.step allowed accepted applied
  rw [certifies, same] at run
  let since : List CaEvtDet := [.childCertificatesUpdated "0" updates]
  have certified : _ = since ++ .childCertificateIssued "child" "0" (50 : Nat) ::
    (history ++ []) := rfl
  exact ⟨since, _, run, certified_keys_new run certified⟩

def revokedOnce : CertAuth × Nat :=
  (start.replay env (0 : Nat) (offer 3 ++ [issuing, revocation "0"])).get (by decide)

theorem revoked_key_certified_again :
    ∃ (ca : CertAuth) (since before : List CaEvtDet), Logged (fun _ _ => True)
        (since ++ .childCertificateIssued "child" "0" (50 : Nat) :: before) ca ∧
      RevokedIn before "child" (50 : Nat) := by
  have replayed : start.replay env (0 : Nat) (offer 3 ++ [issuing, revocation "0"]) =
      some revokedOnce := (Option.some_get _).symm
  obtain ⟨history, logged⟩ := (Logged.init _ _).replay (fun _ _ _ => trivial) replayed
  obtain ⟨events, used, next, accepted, applied, updates, certifies⟩ :
      ∃ (events : List CaEvt) (used : Nat) (next : CertAuth),
        revokedOnce.1.processCommand env issuing revokedOnce.2 = .ok events used ∧
        revokedOnce.1.applyAll env events = some next ∧
        ∃ updates, (events.map StoredEvent.details).reverse =
          [.childCertificatesUpdated "0" updates,
            .childCertificateIssued "child" "0" (50 : Nat)] :=
    ⟨_, _, _, rfl, rfl, _, rfl⟩
  have run := logged.step trivial accepted applied
  rw [certifies] at run
  exact ⟨next, [.childCertificatesUpdated "0" updates], _, run, logged.tracks.revoked _ _ rfl⟩

end Krill.Ca.Numbered
