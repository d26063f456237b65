/-
  Document/Reader.lean --- reading documents: from text of a known format, from the octets of a
  file, and from octets of which nothing is known.
-/
import Polydoc.Document.Format
import Polydoc.Gzip.Member
import Polydoc.Json.Reader
import Polydoc.Text.Utf8
import Polydoc.Yaml.Reader

set_option autoImplicit false

namespace Polydoc

namespace Document

/-- Why no document is read. -/
inductive Error where
  | malformedJson
  | malformedYaml (cause : Yaml.Error)
  /-- the file cannot be read, or is not text -/
  | unreadable (path reason : String)
  /-- a compressed file cannot be read -/
  | unopened (reason : String)
  /-- a compressed file does not hold compressed text -/
  | corruptFile
  /-- the input starts like compressed octets, but does not hold compressed text -/
  | corruptInput
  /-- the input is not text -/
  | notText
  /-- the input is text of no known format -/
  | unrecognized (cause : Yaml.Error)
  deriving Repr

/-- The wording of an error, without its causes. -/
def Error.message : Error → String
  | .malformedJson => "Failed to parse JSON"
  | .malformedYaml cause => cause.message
  | .unreadable path _ => "Failed to read file " ++ path
  | .unopened _ => "Failed to open gzipped file"
  | .corruptFile => "Failed to decompress gzipped file - file may be corrupted"
  | .corruptInput => "Failed to decompress gzipped input"
  | .notText => "Invalid UTF-8 in input"
  | .unrecognized _ => "Failed to parse input: it is neither valid JSON nor valid YAML"

/-- The wording of an error with its cause, as far as the system gave one. -/
def Error.details : Error → String
  | .unreadable path reason => (Error.unreadable path reason).message ++ ": " ++ reason
  | .unopened reason => (Error.unopened reason).message ++ ": " ++ reason
  | e => e.message

/-! ## Text -/

/-- The document that a text of the given format holds. -/
def parse (format : Format) (text : String) : Except Error Node :=
  match format with
  | .json => (Json.read? text).elim (.error .malformedJson) .ok
  | .yaml => (Yaml.read text).mapError .malformedYaml

/-- The document that a text of unknown format holds: JSON goes before YAML. -/
def parseAny (text : String) : Except Error Node :=
  match Json.read? text with
  | some n => .ok n
  | none => (Yaml.read text).mapError .unrecognized

/-! ## Octets -/

/-- The text that octets encode. -/
def textOf? (octets : List UInt8) : Option String := (Text.decode? octets).map String.ofList

/-- The text that compressed octets hold. -/
def compressedText? (octets : List UInt8) : Option String :=
  (Gzip.decompress? octets).bind textOf?

/-- The document in octets of unknown format, compressed or not. -/
def read (octets : List UInt8) : Except Error Node :=
  if Gzip.isGzip octets then
    (compressedText? octets).elim (.error .corruptInput) parseAny
  else (textOf? octets).elim (.error .notText) parseAny

/-- What is said of octets that are no text. -/
def notTextReason : String := "stream did not contain valid UTF-8"

/-- The document in the file with the given path and content, or with the reason why there is no
content. -/
def load (path : String) (content : Except String (List UInt8)) : Except Error Node :=
  let format := Format.ofPath path
  match content with
  | .error reason => .error (if isCompressed path then .unopened reason else .unreadable path reason)
  | .ok octets =>
    if isCompressed path then
      (compressedText? octets).elim (.error .corruptFile) (parse format)
    else (textOf? octets).elim (.error (.unreadable path notTextReason)) (parse format)

end Document

end Polydoc
