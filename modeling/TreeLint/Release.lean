/-!
# The release

The name and the version under which the library introduces itself to a host.

## Main definitions

* `TreeLint.Release.name`, `TreeLint.Release.version`.
-/

namespace TreeLint.Release

/-- The name. -/
def name : String := "sable-core"

/-- The version. -/
def version : String := "0.1.0"

end TreeLint.Release
