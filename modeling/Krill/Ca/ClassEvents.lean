import Krill.Ca.CaManager
import Krill.Ca.ClassChange

namespace Krill.Ca

variable [Rpki]

/-- A class that stays with the repository that a CA leaves, if there is one. -/
def ResourceClass.movedFrom (rc : ResourceClass) : Option RepositoryContact → ResourceClass
  | some current => rc.setOldRepo current.repoInfo
  | none => rc

def ResourceClassObjects.movedFrom (rco : ResourceClassObjects) :
    Option RepositoryContact → ResourceClassObjects
  | some old => rco.setOldRepo old
  | none => rco

/-- A class and its objects, before and after an event. The repositories are those of the CA
and of its objects before the event. -/
inductive ClassEvent (cmd : CmdDet) (later listening : Surroundings)
    (repository repo : Option RepositoryContact) (event : CaEvtDet) (rcn : ResourceClassName) :
    Option ResourceClass → Option ResourceClassObjects →
    Option ResourceClass → Option ResourceClassObjects → Prop
  | followed (targeted : event.target = some rcn) (fits : event.Fits rc)
      (done : event.onClass later rc = some changed)
      (follows : Follows listening event entry (some rco)) :
      ClassEvent cmd later listening repository repo event rcn (some rc) entry (some changed)
        (some rco)
  | unpublished (targeted : event.target = some rcn) (unpublished : event.isPublished = false)
      (fits : event.Fits rc) (done : event.onClass later rc = some changed) :
      ClassEvent cmd later listening repository repo event rcn (some rc) entry (some changed) entry
  | created (drawn : event.tokens cmd = [.key key]) :
      ClassEvent cmd later listening repository repo event rcn none entry
        (some (.create later.now rcn rcn parent parentRcn key)) entry
  | removed : ClassEvent cmd later listening repository repo event rcn before entry none none
  | moved (moves : event = .repoUpdated contact) :
      ClassEvent cmd later listening repository repo event rcn before entry
        (before.map fun rc => rc.movedFrom repository) (entry.map fun rco => rco.movedFrom repo)
  | keyRevoked (revokes : event = .childKeyRevoked child rcn key) :
      ClassEvent cmd later listening repository repo event rcn (some rc) entry
        (some (rc.keyRevoked key)) entry
  | same : ClassEvent cmd later listening repository repo event rcn before entry before entry

namespace CaManager

variable {ca : CertAuth} {objects : CaObjects}

theorem classEvent_of_target (about : event.target = some rcn)
    (found : ca.resources.get rcn = some rc) (fits : event.Fits rc)
    (done : event.onClass later rc = some changed)
    (listened : CaObjects.Listened listening objects event after) :
    ClassEvent cmd later listening ca.repository objects.repo event named (ca.resources.get named)
      (objects.classes.get named) ((ca.resources.insert rcn changed).get named)
      (after.classes.get named) := by
  rw [HashMap.get_insert]
  cases listened with
  | @followed target _ rco targeted follows =>
    cases about.symm.trans targeted
    rw [CaObjects.classes_deprecate, CaObjects.get_setClass]
    by_cases own : named = rcn
    · subst own
      rw [if_pos rfl, if_pos rfl, found]
      exact .followed about fits done follows
    · rw [if_neg own, if_neg own]
      exact .same
  | removed | moved => cases about
  | ignored unpublished =>
    by_cases own : named = rcn
    · subst own
      rw [if_pos rfl, found]
      exact .unpublished about unpublished fits done
    · rw [if_neg own]
      exact .same

theorem classEvent_of_added (consistent : ca.Consistent)
    (numbered : rcn = .ofNumber ca.nextClassName) (drawn : event.tokens cmd = [.key key]) :
    ClassEvent cmd later listening ca.repository objects.repo event named (ca.resources.get named)
      (objects.classes.get named)
      ((ca.resources.insert rcn (.create later.now rcn rcn parent parentRcn key)).get named)
      (objects.classes.get named) := by
  rw [HashMap.get_insert]
  by_cases own : named = rcn
  · subst own
    have unknown : ca.resources.get named = none := by
      rw [numbered]
      exact CertAuth.unknown_of_le consistent (le_refl _)
    rw [if_pos rfl, unknown]
    exact .created drawn
  · rw [if_neg own]
    exact .same

theorem Occurs.classEvent (occurs : Occurs cmd later listening known event ca next objects after)
    (consistent : ca.Consistent) (named : ResourceClassName) :
    ClassEvent cmd later listening ca.repository objects.repo event named (ca.resources.get named)
      (objects.classes.get named) (next.resources.get named) (after.classes.get named) := by
  have sound := occurs.sound
  have listened := occurs.listened
  have unchanged (unpublished : event.isPublished = false) :
      after.classes.get named = objects.classes.get named := by
    rw [listened.eq_of_unpublished unpublished]
  cases CertAuth.effect_of_apply occurs.applied with
  | @onClass rc changed _ rcn about found done =>
    obtain ⟨fitting, present, fits⟩ := sound.inPlace about
    cases present.symm.trans found
    exact classEvent_of_target about found fits done listened
  | @trustAnchorMade details _ numbered added children handle =>
    rw [unchanged rfl, added]
    exact classEvent_of_added consistent rfl rfl
  | resourceClassAdded =>
    rw [unchanged rfl]
    exact classEvent_of_added consistent sound rfl
  | @resourceClassRemoved parent requests rcn =>
    cases listened with
    | followed targeted follows => cases targeted
    | ignored unpublished => cases unpublished
    | removed =>
      rw [CaObjects.get_removeClass]
      by_cases own : named = rcn
      · rw [HashMap.get_remove, if_pos own, if_pos own]
        exact .removed
      · rw [HashMap.get_remove, if_neg own, if_neg own]
        exact .same
  | @parentRemoved parent =>
    -- no class has this parent any more
    rw [unchanged rfl, HashMap.get_filter]
    have kept : (ca.resources.get named).filter (fun rc => rc.parentHandle != parent) =
        ca.resources.get named := by
      cases found : ca.resources.get named with
      | none => rfl
      | some rc =>
        have other := sound named rc found
        exact Option.filter_eq_some_iff.mpr ⟨rfl, bne_iff_ne.mpr other⟩
    have same : ClassEvent cmd later listening ca.repository objects.repo (.parentRemoved parent) named
        (ca.resources.get named) (objects.classes.get named)
        ((ca.resources.get named).filter fun rc => rc.parentHandle != parent)
        (objects.classes.get named) := by
      rw [kept]
      exact .same
    exact same
  | @repoUpdated contact _ classes numbered children handle =>
    cases listened with
    | followed targeted follows => cases targeted
    | ignored unpublished => cases unpublished
    | moved =>
      rw [CaObjects.get_updateRepo, classes]
      change ClassEvent _ _ _ _ _ _ _ _ _ (Option.map (fun rc => match ca.repository with
        | some current => rc.setOldRepo current.repoInfo
        | none => rc) (ca.resources.get named)) _
      generalize ca.repository = repository
      generalize objects.repo = repo
      cases repository <;> cases repo <;> exact .moved rfl
  | @childKeyRevoked rc details child rcn key found foundChild =>
    rw [unchanged rfl, HashMap.get_insert]
    by_cases own : named = rcn
    · subst own
      have present : ca.resources.get named = some rc := found
      rw [if_pos rfl, present]
      exact .keyRevoked rfl
    · rw [if_neg own]
      exact .same
  | other unpublished classes children numbered handle =>
    rw [unchanged unpublished, classes]
    exact .same
  | childCertificateIssued found => rw [unchanged rfl]; exact .same
  | childChanged unpublished keys => rw [unchanged unpublished]; exact .same
  | childRemoved => rw [unchanged rfl]; exact .same

end CaManager

end Krill.Ca
