import Krill.Ca.ProcessCommand
import Krill.Data.Fallible

namespace Krill.Ca

open Rpki
open Stateful (Yields)

variable [Rpki] [KrillSigner]

namespace CertAuth

def Owns (ca : CertAuth) (events : List CaEvt) : Prop :=
  ∃ details, events = ca.eventsFromDetails details

omit [KrillSigner] in
theorem Owns.handle {ca : CertAuth} (owns : ca.Owns events) (member : event ∈ events) :
    event.handle = ca.handle := by
  obtain ⟨details, rfl⟩ := owns
  obtain ⟨entry, _, rfl⟩ := List.mem_map.mp member
  rfl

def Returns (ca : CertAuth) (program : SignM (List CaEvt)) : Prop :=
  ∀ ⦃events⦄, Yields program events → ca.Owns events

def Accepts (ca : CertAuth) (result : Except Error (List CaEvt)) : Prop :=
  ∀ ⦃events⦄, result = .ok events → ca.Owns events

variable {ca : CertAuth}

namespace Returns

theorem bind (continues : ∀ value, ca.Returns (next value)) : ca.Returns (first >>= next) := by
  intro events yields
  obtain ⟨value, _, yields⟩ := yields.bind
  exact continues value yields

theorem throw (failure : Error) : ca.Returns (throw failure) :=
  fun _ yields => yields.throw.elim

theorem nothing : ca.Returns (pure []) :=
  fun _ yields => ⟨[], yields.pure⟩

theorem details (details : List CaEvtDet) : ca.Returns (pure (ca.eventsFromDetails details)) :=
  fun _ yields => ⟨details, yields.pure⟩

theorem liftExcept (accepts : ca.Accepts result) : ca.Returns (liftExcept result) :=
  fun _ yields => accepts yields.liftExcept

theorem ite [Decidable condition] (isTrue : ca.Returns first) (isFalse : ca.Returns second) :
    ca.Returns (if condition then first else second) := by
  split
  · exact isTrue
  · exact isFalse

end Returns

section

omit [KrillSigner]

namespace Accepts

theorem bind (continues : ∀ value, ca.Accepts (next value)) : ca.Accepts (first >>= next) := by
  intro events done
  obtain ⟨value, _, done⟩ := Fallible.bind_eq_ok.mp done
  exact continues value done

theorem error (failure : Error) : ca.Accepts (.error failure) := nofun

theorem nothing : ca.Accepts (.ok []) :=
  fun _ done => ⟨[], (Except.ok.inj done).symm⟩

theorem details (details : List CaEvtDet) : ca.Accepts (.ok (ca.eventsFromDetails details)) :=
  fun _ done => ⟨details, (Except.ok.inj done).symm⟩

theorem ite [Decidable condition] (isTrue : ca.Accepts first) (isFalse : ca.Accepts second) :
    ca.Accepts (if condition then first else second) := by
  split
  · exact isTrue
  · exact isFalse

end Accepts

end

theorem rtaSignWithEe_returns {resources : ResourceSet} :
    ca.Returns (ca.rtaSignWithEe env name resources rcEe builder) :=
  .bind fun _ => .details _

theorem processCommand_returns (env : Surroundings) (cmd : CmdDet) :
    ca.Returns (ca.processCommand env cmd) := by
  cases cmd with
  | childAdd => exact .liftExcept (.ite (.error _) (.ite (.error _) (.ite (.error _) (.details _))))
  | childUpdateResources =>
    exact .liftExcept (.ite (.error _) (.bind fun _ => .ite .nothing (.details _)))
  | childUpdateId => exact .liftExcept (.bind fun _ => .ite .nothing (.details _))
  | childRevokeKey => exact .liftExcept (.bind fun _ => .ite (.error _) (.details [_, _]))
  | childRemove => exact .liftExcept (.bind fun _ => .details _)
  | childSuspendInactive =>
    exact .liftExcept (.bind fun _ => .ite .nothing (.ite .nothing (.details _)))
  | childUnsuspend => exact .liftExcept (.bind fun _ => .ite .nothing (.details _))
  | addParent parent info =>
    refine .liftExcept (.ite (.error _) ?_)
    cases ca.parentForInfo env.order info with
    | some other => exact .error _
    | none => exact .ite (.error _) (.details _)
  | updateParentContact => exact .liftExcept (.ite (.error _) (.ite (.error _) (.details _)))
  | removeParent => exact .liftExcept (.ite (.error _) (.details _))
  | keyRollFinish =>
    exact .liftExcept (.ite .nothing (.bind fun _ => .bind fun _ => .details _))
  | makeTrustAnchor uris rsyncUri =>
    refine .ite (.throw _) (.bind fun _ => .bind fun _ => .bind fun _ => .bind fun _ =>
      .bind fun _ => ?_)
    cases cerFileName rsyncUri with
    | none => exact .throw _
    | some fileName => exact .details _
  | childCertify => exact .bind fun _ => .ite (.throw _) (.bind fun _ => .details [_, _])
  | keyRollInitiate => exact .ite .nothing (.bind fun _ => .details _)
  | keyRollActivate => exact .ite .nothing (.bind fun _ => .details _)
  | rtaMultiPrepare => exact .ite (.throw _) (.ite (.throw _) (.bind fun _ => .details _))
  | rtaCoSign name rta =>
    change ca.Returns (ca.rtaCosign env name rta)
    unfold rtaCosign
    cases toBuilder rta with
    | none => exact .throw _
    | some builder => exact .bind fun _ => rtaSignWithEe_returns
  | rtaSign name request =>
    refine .ite (.throw _) (.bind fun made => ?_)
    obtain ⟨rcEe, keys⟩ := made
    dsimp only
    cases rtaBuilder request.resources request.content keys with
    | error message => exact .throw _
    | ok builder => exact rtaSignWithEe_returns
  | generateNewIdKey => exact .bind fun _ => .details _
  | dropResourceClass | updateRcvdCert | updateEntitlements =>
    exact .bind fun _ => .bind fun _ => .details _
  | repoUpdate | routeAuthorizationsRenew | routeAuthorizationsForceRenew | aspasRenew
  | bgpSecRenew => exact .bind fun _ => .details _
  | routeAuthorizationsUpdate | aspasUpdateExisting =>
    exact .bind fun _ => .bind fun _ => .details _
  | aspasUpdate | bgpSecUpdateDefinitions =>
    exact .bind fun _ => .bind fun _ => .bind fun _ => .details _

end CertAuth

end Krill.Ca
