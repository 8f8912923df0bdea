import Corewise.Json.Reader
import Corewise.Snapshot.Json
import Corewise.Snapshot.Yaml
import Corewise.Yaml.Writer
/-!
Snapshots as JSON and YAML texts.
-/

namespace Corewise.Snapshot

def toJsonText (s : Snapshot) : String := s.toJson.pretty

def ofJsonText? (text : String) : Option Snapshot := (Json.parse text).bind ofJson?

def toYamlText (s : Snapshot) : String := Yaml.render s.toJson

def ofYamlText (text : String) : Except Yaml.Failure Snapshot := yamlReader.run text

end Corewise.Snapshot
