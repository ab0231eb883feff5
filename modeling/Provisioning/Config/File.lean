-- Configurations from files.
import Provisioning.Config.Json
import Provisioning.Errors

namespace Provisioning

/-- Why a file cannot be read. -/
inductive FileFault
  | missing
  | notText

def FileFault.message : FileFault → String
  | .missing => "No such file or directory (os error 2)"
  | .notText => "stream did not contain valid UTF-8"

/-- The text of a file. -/
def fileText (content : Option (List UInt8)) : Except FileFault String :=
  match content with
  | none => .error .missing
  | some bytes =>
    match Utf8.strict bytes with
    | some text => .ok text
    | none => .error .notText

/-- Reads and checks the configuration in a file. -/
def Config.ofFile (content : Option (List UInt8)) : Except SessionError Config :=
  match fileText content with
  | .error fault => .error (.io fault.message)
  | .ok text =>
    match Config.ofText text with
    | .error e => .error (.config e)
    | .ok config => .ok config

end Provisioning
