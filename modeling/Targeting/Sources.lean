import Targeting.Document.Records
import Targeting.Files
import Targeting.Json.Decode
import Targeting.Yaml.Decode

namespace Targeting

def readYaml {α : Type} (shape : Shape) (read : Yaml → Except Unit α) (s : String) :
    Except Failure α :=
  match Yaml.decode read s with
  | some a => .ok a
  | none => .error (.yaml shape s)

def readJson {α : Type} (shape : Shape) (read : Json → Except Json.Error α) (s : String) :
    Except Failure α :=
  (Json.decode read s).mapError (.json shape s)

namespace RuleSet

def ofYaml : String → Except Failure RuleSet := readYaml shape read

def ofJson : String → Except Failure RuleSet := readJson shape read

def ofFile (files : Files) (path : String) : Except Failure RuleSet := do
  let s ← (files path).mapError .io
  if isJson path then ofJson s else ofYaml s

end RuleSet

namespace Config

def ofYaml : String → Except Failure Config := readYaml shape read

def ofJson : String → Except Failure Config := readJson shape read

/-- A file without text is a fault of the configuration, not of reading. -/
def ofFile (files : Files) (path : String) : Except Failure Config := do
  let s ← (files path).mapError fun e => .config s!"failed to read {path}: {e.message}"
  if isJson path then ofJson s else ofYaml s

end Config

end Targeting
