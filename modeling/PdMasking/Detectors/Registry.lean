import PdMasking.Detectors.Address
import PdMasking.Detectors.ContextValues
import PdMasking.Detectors.Dates
import PdMasking.Detectors.Documents
import PdMasking.Detectors.FinanceContacts
import PdMasking.Detectors.Fio
import PdMasking.Detectors.Labelled
import PdMasking.Detectors.Standalone

/-!
# PdMasking.Detectors.Registry — the detectors of the service (`core/detectors/registry.py`)
-/

namespace PdMasking

/-- `default_detectors`. -/
def defaultDetectors (R : Runtime) : List Detector :=
  [StandaloneValueDetector R, ContactDetector R, CardDetector R, InnDetector R, IdentityDocumentDetector R,
    IssuanceDetector R, ExtraDocumentDetector R, DateDetector R, FioDetector R, AddressDetector R,
    LabelledValueDetector R, ContextValueDetector R]

end PdMasking
