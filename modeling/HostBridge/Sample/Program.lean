import HostBridge.Sample.Function
import HostBridge.Sample.Native

/-!
# The sample program

All declarations of the sample program together.  What its types are called in
full is left open.
-/

namespace HostBridge.Sample

/-- The sample program. -/
def program (typePath : HostType → String) : Program where
  structs := structs
  sealedTypes := ["Handle", "Mode"]
  functions := functions
  makers := makers
  natives := natives
  typePath := typePath

end HostBridge.Sample
