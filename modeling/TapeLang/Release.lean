/-!
# The release

The name and the version under which the program presents itself.
-/

namespace TapeLang

def programName : String :=
  "bfi"

def versionNumber : String :=
  "1.0.0"

end TapeLang
