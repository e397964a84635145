import Krill.Bgp.Announcements
import Krill.Ca.Overclaim

namespace Krill.Ca

namespace RoaPayload

/-- The number of prefixes of the maximum length, unless the subtraction or the shift of a
128-bit number overflows. -/
def nrOfSpecificPrefixes (self : RoaPayload) : Option Nat :=
  let pfxLen := self.typedPrefix.addrLen
  let maxLen := self.effectiveMaxLength
  if pfxLen ≤ maxLen ∧ maxLen - pfxLen < 128 then some (1 <<< (maxLen - pfxLen)) else none

theorem nrOfSpecificPrefixes_eq_iff {roa : RoaPayload} (valid : roa.maxLengthValid) :
    roa.nrOfSpecificPrefixes = some (2 ^ (roa.effectiveMaxLength - roa.typedPrefix.addrLen)) ↔
      ¬(roa.typedPrefix.addrLen = 0 ∧ roa.maxLength = some 128) := by
  obtain ⟨asn, typedPrefix, maxLength⟩ := roa
  simp only [nrOfSpecificPrefixes, effectiveMaxLength]
  cases maxLength with
  | none => simp
  | some length =>
    have bounds : typedPrefix.addrLen ≤ length ∧ length ≤ 128 := by
      cases typedPrefix <;> simp only [maxLengthValid, Bool.and_eq_true, decide_eq_true_eq] at valid
      · exact ⟨valid.1, by omega⟩
      · exact valid
    have fits : typedPrefix.addrLen ≤ length ∧ length - typedPrefix.addrLen < 128 ↔
        ¬(typedPrefix.addrLen = 0 ∧ length = 128) := by omega
    simp [fits, Nat.shiftLeft_eq]

end RoaPayload

variable [Rpki]

theorem CertAuth.addAuthorization_errors
    (noErrors : (addAuthorization env held state configuration).deltaErrors.isEmpty) :
    state.deltaErrors.isEmpty ∧ configuration.payload.maxLengthValid := by
  dsimp only [addAuthorization] at noErrors
  split at noErrors
  · simp [RoaDeltaError.isEmpty, RoaDeltaError.addInvalidLength] at noErrors
  · next valid =>
      refine ⟨?_, by simpa using valid⟩
      revert noErrors
      (repeat' split) <;>
        simp [RoaDeltaError.isEmpty, RoaDeltaError.addNotheld, RoaDeltaError.addDuplicate]

theorem CertAuth.additions_valid (added : List RoaConfiguration) (state : AuthorizationsUpdate)
    (noErrors : (added.foldl (addAuthorization env held) state).deltaErrors.isEmpty) :
    state.deltaErrors.isEmpty ∧ ∀ configuration ∈ added, configuration.payload.maxLengthValid := by
  induction added generalizing state with
  | nil => exact ⟨noErrors, List.forall_mem_nil _⟩
  | cons first rest induction =>
    obtain ⟨before, valid⟩ := induction _ noErrors
    obtain ⟨noErrors, first⟩ := addAuthorization_errors before
    exact ⟨noErrors, List.forall_mem_cons.mpr ⟨first, valid⟩⟩

end Krill.Ca

namespace Krill.Bgp

open Ca

def nrOfSpecificAnn (roa : RoaPayload) (authorizes : List Announcement) : Nat :=
  (authorizes.filter fun ann => ann.typedPrefix.addrLen = roa.effectiveMaxLength).length

def authorizesExcess (roa : RoaPayload) (authorizes : List Announcement) : Option Bool :=
  if nrOfSpecificAnn roa authorizes > 0 then
    roa.nrOfSpecificPrefixes.map fun count => nrOfSpecificAnn roa authorizes < count
  else some false

/-- The count does not overflow, and the analysis compares with it. -/
structure SpecificsCounted (roa : RoaPayload) : Prop where
  counted : roa.nrOfSpecificPrefixes = some (2 ^ (roa.effectiveMaxLength - roa.typedPrefix.addrLen))
  compared : ∀ authorizes, authorizesExcess roa authorizes =
    some (decide (0 < nrOfSpecificAnn roa authorizes ∧
      nrOfSpecificAnn roa authorizes < 2 ^ (roa.effectiveMaxLength - roa.typedPrefix.addrLen)))

theorem specificsCounted_iff [Rpki] {ca : CertAuth} {env : Surroundings}
    {updates : RoaConfigurationUpdates} {result : Routes × List CaEvtDet}
    {configuration : RoaConfiguration} (accepted : ca.updateAuthorizations env updates = .ok result)
    (added : configuration ∈ updates.added) :
    SpecificsCounted configuration.payload ↔
      ¬(configuration.payload.typedPrefix.addrLen = 0 ∧
        configuration.payload.maxLength = some 128) := by
  dsimp only [CertAuth.updateAuthorizations] at accepted
  split at accepted
  case isFalse => cases accepted
  case isTrue noErrors =>
    have valid := (CertAuth.additions_valid _ _ noErrors).2 configuration added
    rw [← RoaPayload.nrOfSpecificPrefixes_eq_iff valid]
    refine ⟨SpecificsCounted.counted, fun counted => ⟨counted, fun authorizes => ?_⟩⟩
    rw [authorizesExcess, counted]
    split <;> simp_all

end Krill.Bgp

namespace Krill.Ca.Numbered

open Bgp

/-- A route for the whole of IPv6. -/
def wholeSpace (maxLength : Nat) : RoaConfiguration :=
  ⟨⟨1, .v6 ⟨0#128, 0⟩, some maxLength⟩, none⟩

theorem halves_counted : SpecificsCounted (wholeSpace 127).payload := by
  have accepted : staged.1.updateAuthorizations env ⟨[wholeSpace 127], []⟩ = .ok _ := rfl
  exact (specificsCounted_iff accepted (List.mem_singleton_self _)).mpr (by decide)

theorem addresses_overflow : ∃ ca result,
    CertAuth.updateAuthorizations ca env ⟨[wholeSpace 128], []⟩ = .ok result ∧
      ¬SpecificsCounted (wholeSpace 128).payload :=
  ⟨staged.1, _, rfl, fun counts => by cases counts.counted⟩

end Krill.Ca.Numbered
