/-!
# The version of the collector
-/

namespace Semispace

/-- The version that is reported. -/
def version : String := "0.1.0"

end Semispace
