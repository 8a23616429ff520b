import Intcode.Config.Source
import Intcode.Yaml.Document

/-!
# Documents as configurations

The reader that the command is built with: it takes the part of YAML that this library
knows. What is wrong with the text of a document is not told in detail.
-/

namespace Intcode.Yaml

/-- Why a text stands for no value, as a configuration reports it. -/
def DocumentError.reported : DocumentError → Config.DocumentError
  | flaw .notUtf8 => .notUtf8
  | flaw (.noCharacter code) => .meaningless (Flaw.codeKind code) (Flaw.codeMessage code)
  | flaw _ => .malformed "<yaml error>"
  | scalar cause => .meaningless cause.kind cause.message

/-- Reads the value of a document. -/
def reader : Config.Reader := fun octets =>
  (load (Supply.excerpt octets)).mapError DocumentError.reported

end Intcode.Yaml
