import Btf.Value.Written

/-!
# Versions

* `Version.text`: the parts of a version with dots between them;
* `Version.current`: the version of this library.
-/

namespace Btf.Version

/-- The parts of a version with dots between them. -/
def text (parts : List Value) : Text := Text.joined "." (parts.map Value.shown)

def current : Text := text [.int 1, .int 0, .int 0]

end Btf.Version
