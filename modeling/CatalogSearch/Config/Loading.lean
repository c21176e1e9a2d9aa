import CatalogSearch.Config.Validation
import CatalogSearch.Toml.Reader

/-!
# Loading configurations

A configuration is loaded from the bytes of a file: they must be text, the text
must have the shape of a configuration, and what it says must be valid.
-/

namespace CatalogSearch.Config

inductive LoadFault
  | unreadableFile
  | unreadableText
  | invalid (defect : Defect)
deriving DecidableEq, Repr

def LoadFault.message (path : String) : LoadFault → String
  | unreadableFile => "Failed to read config file at \"" ++ path ++ "\"."
  | unreadableText => "Failed to parse config file at \"" ++ path ++ "\"."
  | invalid defect => defect.message

def Service.shape : Toml.Shape := .record [("log_level", .any)]

def Endpoint.shape : Toml.Shape :=
  .record [("api_base", .any), ("query_path", .any), ("timeout_ms", .any), ("api_key", .any),
    ("default_headers", .any)]

def DeclaredSort.shape : Toml.Shape := .record [("attribute", .any), ("direction", .any)]

def Search.shape : Toml.Shape :=
  .record [("result_count", .any), ("cache_enabled", .any), ("local_catalog", .any),
    ("federation", .any), ("spellcheck", .any), ("phonetics", .any),
    ("sorts", .list DeclaredSort.shape)]

def DeclaredSource.shape : Toml.Shape :=
  .record [("id", .any), ("classification", .any), ("available", .any)]

/-- What is looked at in the file of a configuration. -/
def shape : Toml.Shape :=
  .record [("service", Service.shape), ("catalog", Endpoint.shape), ("search", Search.shape),
    ("sources", .list DeclaredSource.shape)]

/-- The configuration of a text, in its usual form. -/
def ofText (text : String) : Except LoadFault Config :=
  match ((Toml.read? text).bind (Toml.Value.toJson? shape)).bind decode with
  | none => .error .unreadableText
  | some config =>
    let config := config.normalize
    match config.validate with
    | .error defect => .error (.invalid defect)
    | .ok () => .ok config

/-- The configuration of a file, of which there may be none. -/
def load (file : Option ByteArray) : Except LoadFault Config :=
  match file.bind String.fromUTF8? with
  | none => .error .unreadableFile
  | some text => ofText text

end CatalogSearch.Config
