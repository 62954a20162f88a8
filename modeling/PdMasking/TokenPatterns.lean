import PdMasking.Detectors.Registry
import PdMasking.TokenText

/-!
# PdMasking.TokenPatterns — the patterns of the detectors beside a token

The places where the detectors report something, by what their patterns guarantee:

* `groupSites`: the reported groups lie in alien segments;
* `spanSites`: the whole match is an alien segment;
* `labelSites`: the match ends with an alien segment, so no token is cut where the label ends;
* `codeSites`: there is no bracket in the reported group.

`sites_apart` evaluates the analysis of `tokenSummary` on all of them; the issuers are not among them.
-/

namespace PdMasking

open Summary

/-- Every match has the groups `idx`, each in an alien segment. -/
def Re.apart (r : Re) (idx : List ℕ) : Bool :=
  idx.all (fun g => r.always g && tokenSummary.groupAll Demand.alien g r)

def groupSites : List (Re × List ℕ) :=
  [(FinanceContacts.cardRe, [1]), (FinanceContacts.cvvRe, [1]), (FinanceContacts.pinRe, [1]),
    (FinanceContacts.expiryCtxRe, [1]), (FinanceContacts.expiryWeakCtxRe, [1]), (FinanceContacts.expiryBareRe, [1]),
    (FinanceContacts.innCtxRe, [1]), (FinanceContacts.innBareRe, [1]),
    (Documents.driverCtxRe, [1, 2]), (Documents.passportCtxRe, [1, 2]), (Documents.seriesNumberRe, [1, 2]),
    (Documents.passportBareSpacedRe, [1, 2]), (Documents.passportBareRe, [1, 2]), (Documents.deptCodeRe, [1]),
    (Documents.deptCodeBareRe, [1]), (Documents.citizenshipRe, [1]), (Documents.snilsRe, [1]),
    (Documents.foreignPassportRe, [1, 2]), (Documents.militaryIdRe, [1, 2]), (Documents.birthCertRe, [1, 2, 3]),
    (Dates.numericDmyRe, [2]), (Dates.numericYmdRe, [2]), (Fio.holderCueRe, [1]),
    (Labelled.seriesFirstRe, [1, 2]), (Labelled.numberFirstRe, [1, 2]), (Labelled.labelledDateRe, [1]),
    (Labelled.clientNameRe, [1]), (ContextValues.cvvAfterRe, [1]), (ContextValues.cardAndCodeRe, [1, 2]),
    (ContextValues.innRe, [1]), (ContextValues.seriesOnlyRe, [1]), (ContextValues.deptRe, [1]),
    (ContextValues.wholeInnRe, [1]), (ContextValues.wholeDocRe, [1]), (ContextValues.latinLeadNameRe, [1])]

def spanSites : List Re :=
  [Documents.birthPlaceWordRe, Dates.textDateRe, Dates.monthYearRe, Fio.wordRe, Fio.initialsAfterRe,
    Fio.initialsBeforeRe, Fio.latinHolderRe, Address.localityRe, Labelled.wholeNameRe, Labelled.citizenshipValueRe,
    ContextValues.bareNameRe]

def labelSites : List Re := [ContextValues.roleLabelRe]

/-- The PIN and CVV codes of `ContextValueDetector`, which may be digits of a token. -/
def codeSites : List Re := [ContextValues.pinRe, ContextValues.cvvRe]

/-- What the patterns of the detectors guarantee, evaluated. -/
theorem sites_apart :
    (∀ p ∈ groupSites, p.1.apart p.2 = true) ∧
      (∀ r ∈ spanSites, tokenSummary.spanAll Demand.alien r = true) ∧
      (∀ r ∈ labelSites, tokenSummary.stopAll Demand.alien r = true) ∧
      (∀ g ∈ [1, 2, 3, 4, 5], tokenSummary.groupAll Demand.alien g ContextValues.bareAddressRe = true) ∧
      (∀ kp ∈ Address.componentPatterns, Re.apart (Pattern.consume kp.2) [1] = true ∧
        (kp.1 = .street → tokenSummary.stopAll Demand.alien kp.2 = true)) ∧
      tokenSummary.spanAll (fun _ => true) Address.bareHouseRe = true ∧ Address.bareHouseRe.always 1 = true ∧
        tokenSummary.groupAll (fun _ => true) 1 Address.bareHouseRe = true ∧
      ∀ r ∈ codeSites, (r.always 1 && tokenSummary.groupAll (fun _ => true) 1 r) = true := by
  decide +kernel

theorem apart_of_mem {r : Re} {idx : List ℕ} (h : (r, idx) ∈ groupSites) : r.apart idx = true :=
  sites_apart.1 (r, idx) h

theorem spanAll_of_mem {r : Re} (h : r ∈ spanSites) : tokenSummary.spanAll Demand.alien r = true :=
  sites_apart.2.1 r h

theorem stopAll_of_mem {r : Re} (h : r ∈ labelSites) : tokenSummary.stopAll Demand.alien r = true :=
  sites_apart.2.2.1 r h

end PdMasking
