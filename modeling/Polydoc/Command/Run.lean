/-
  Command/Run.lean --- what the program prints, and how it ends, given all that it reads.
-/
import Polydoc.Command.Arguments
import Polydoc.Json.Writer
import Polydoc.Resolver.Decode
import Polydoc.Schema.Compile
import Polydoc.Settings

set_option autoImplicit false

namespace Polydoc

namespace Command

/-- All that a run can read. -/
structure Surroundings where
  /-- the content of the file with a path, or the reason why there is none -/
  file : String → Except String (List UInt8)
  /-- the standard input; a terminal is none -/
  input : Option (List UInt8)
  /-- the content of the file with the user's preferences -/
  settings : Option (List UInt8)

/-- Why a command fails. -/
inductive Failure where
  | path (cause : Path.ReadError)
  | base (cause : Path.ReadError)
  | anchor (cause : Path.Error)
  | unreadableSchema (file reason : String)
  | malformedSchema
  | schema (cause : Schema.Error)
  | document (cause : Document.Error)
  | noInput
  | decode (cause : Resolver.Failure)

/-- The wording of a failure, outermost context first. -/
def Failure.message : Failure → String
  | .path cause => cause.message
  | .base cause => "invalid base path: " ++ cause.message
  | .anchor cause => cause.message
  | .unreadableSchema file reason => "Failed to read schema " ++ file ++ ": " ++ reason
  | .malformedSchema => "Failed to parse schema"
  | .schema cause => cause.message
  | .document cause => cause.details
  | .noInput => "No input: pass a file or pipe a document to stdin"
  | .decode cause => cause.message

/-- The exit code of a failure: only that no type could be chosen has one of its own. -/
def Failure.status : Failure → UInt32
  | .decode cause => if cause.isUnresolved then 2 else 1
  | _ => 1

/-! ## Paths -/

/-- The canonical form of a path.  With a base, a relative path is anchored there; a path that stays
relative keeps its elements. -/
def canonical (text : String) (base : Option String) : Except Failure Path := do
  let p ← (Path.read text).mapError .path
  let p ←
    match base with
    | none => pure p
    | some base => do
      let base ← (Path.read base).mapError .base
      (p.anchor base).mapError .anchor
  if p.absolute then p.normalize.mapError .anchor else return p

/-! ## Documents -/

/-- The schema in a file. -/
def schemaAt (s : Surroundings) (file : String) : Except Failure Schema :=
  match s.file file with
  | .error reason => .error (.unreadableSchema file reason)
  | .ok octets =>
    match Document.textOf? octets with
    | none => .error (.unreadableSchema file Document.notTextReason)
    | some text => (Schema.read? text).elim (.error .malformedSchema) .ok

/-- The document in a file, or in the standard input. -/
def documentAt (s : Surroundings) (file : Option String) : Except Failure Node :=
  match file, s.input with
  | some file, _ => (Document.load file (s.file file)).mapError .document
  | none, some octets => (Document.read octets).mapError .document
  | none, none => .error .noInput

/-- The document in a file, decoded as a schema says. -/
def decoded (s : Surroundings) (file : Option String) (schema : String) (policy : Policy) :
    Except Failure Node := do
  let schema ← schemaAt s schema
  let compiled ← (schema.compile policy).mapError .schema
  let source ← documentAt s file
  match compiled.resolver.decode source compiled.target with
  | (target, .ok _) => return target
  | (_, .error e) => .error (.decode e)

/-! ## Commands -/

/-- What a command prints, a line break at the end apart. -/
def output (s : Surroundings) : Command → Except Failure String
  | .path text base => (canonical text base).map Path.render
  | .decode file schema policy compact => do
    let settings := Settings.read s.settings
    let target ← decoded s file schema (policy.getD settings.policy)
    return Json.write (if compact || !settings.pretty then .compact else .pretty) target

/-- How a run ends. -/
structure Outcome where
  status : UInt32
  output : String
  failure : Option String

/-- Help on a topic. -/
def Topic.text : Topic → String
  | .program =>
    "Decode polymorphic JSON/YAML documents\n\nUsage: polydecode <COMMAND>\n\nCommands:\n"
      ++ "  path    Parse a path and print its canonical, normalized form\n"
      ++ "  decode  Resolve and decode a document with a schema\n"
      ++ "  help    Print this message or the help of the given subcommand(s)\n\nOptions:\n"
      ++ "  -h, --help     Print help\n  -V, --version  Print version\n"
  | .path =>
    "Parse a path and print its canonical, normalized form\n\n"
      ++ "Usage: polydecode path [OPTIONS] <PATH>\n\nArguments:\n"
      ++ "  <PATH>  Path to parse, e.g. `payload/../type`\n\nOptions:\n"
      ++ "  -b, --base <BASE>  Absolute path to anchor a relative path at\n"
      ++ "  -h, --help         Print help\n"
  | .decode =>
    "Resolve and decode a document with a schema\n\n"
      ++ "Usage: polydecode decode [OPTIONS] --schema <SCHEMA> [FILE]\n\nArguments:\n"
      ++ "  [FILE]  Document to decode (omit to read from stdin)\n\nOptions:\n"
      ++ "  -s, --schema <SCHEMA>  TOML schema describing the types and the resolver\n"
      ++ "  -p, --policy <POLICY>  No-match policy (overrides config, not the schema)\n"
      ++ "      --compact          Print JSON on a single line\n"
      ++ "  -h, --help             Print help\n"
  | .help =>
    "Print this message or the help of the given subcommand(s)\n\n"
      ++ "Usage: polydecode help [COMMAND]...\n\nArguments:\n"
      ++ "  [COMMAND]...  Print help for the subcommand(s)\n"

/-- How the program ends for what is no command. -/
def Usage.outcome : Usage → Outcome
  | .help topic => ⟨0, topic.text, none⟩
  | .version => ⟨0, "polydecode 0.1.0\n", none⟩
  | .wrong => ⟨2, "", none⟩

/-- How the program ends. -/
def run (s : Surroundings) (arguments : List String) : Outcome :=
  match ofArguments arguments with
  | .error usage => usage.outcome
  | .ok command =>
    match command.output s with
    | .ok text => ⟨0, text ++ "\n", none⟩
    | .error failure => ⟨failure.status, "", some failure.message⟩

end Command

end Polydoc
