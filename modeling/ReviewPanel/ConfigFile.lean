import ReviewPanel.Config
import ReviewPanel.Disk

/-!
# Configuration files
-/

namespace ReviewPanel.Config

/-- Reads a configuration file and checks the settings. -/
def load (d : Disk) (path : String) : Except ConfigError Config :=
  match d.fileContent (d.locate path) with
  | .error e => .error (.read path e.message)
  | .ok content =>
    match Utf8.text? content with
    | none => .error (.read path "stream did not contain valid UTF-8")
    | some text => ofToml text

end ReviewPanel.Config
