import TreeLint.Config.Record
import TreeLint.Format.RelaxedJson
import TreeLint.Format.Toml.Document

/-!
# Configuration texts

A configuration is written in one of three formats. In each of them the text is read as data, and
the data are read as a configuration.

## Main definitions

* `TreeLint.ConfigFormat.datum?`, `TreeLint.ConfigFormat.dialect` — texts of a format as data, and
  how data that come from it are read.
* `TreeLint.Config.ofText` — the configuration that a text writes.
-/

namespace TreeLint

namespace ConfigFormat

/-- The data that a text in a format writes. -/
def datum? : ConfigFormat → String → Option Datum
  | toml => Datum.ofToml?
  | json => Datum.ofJson?
  | jsonc => Datum.ofRelaxedJson?

/-- How data that come from a format are read. -/
def dialect : ConfigFormat → Dialect
  | toml => ⟨true, .emptiness, false⟩
  | json => ⟨false, .nothing, false⟩
  | jsonc => ⟨true, .anything, true⟩

end ConfigFormat

/-- The configuration that a text in a format writes. -/
def Config.ofText (format : ConfigFormat) (text : String) : Except Error Config :=
  match (format.datum? text).bind (Config.ofDatum? format.dialect) with
  | some c => .ok c
  | none => .error (.config (.malformed format "no configuration"))

end TreeLint
