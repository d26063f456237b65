/-
  Command/Arguments.lean --- the arguments of the program.

  Options may stand before and behind operands, up to an argument `--`, behind which everything is
  an operand.  A long option has its value behind `=` or in the next argument, a short one right
  behind its letter, with or without `=`, or in the next argument.  No option may be given twice.
-/
import Polydoc.Resolver.Policy

set_option autoImplicit false

namespace Polydoc

/-- What the program is asked to do. -/
inductive Command where
  /-- to print the canonical form of a path, anchored at another one if it is relative -/
  | path (text : String) (base : Option String)
  /-- to decode a document, from the standard input if no file is given -/
  | decode (file : Option String) (schema : String) (policy : Option Policy) (compact : Bool)
  deriving DecidableEq, Repr

namespace Command

/-- What there is help for. -/
inductive Topic where
  | program
  | path
  | decode
  | help
  deriving DecidableEq, Repr

/-- What arguments are if they are no command. -/
inductive Usage where
  | help (topic : Topic)
  | version
  | wrong
  deriving DecidableEq, Repr

/-! ## Options -/

/-- An option that is known. -/
structure Switch where
  short : Option Char
  long : String
  /-- which values it takes; one that takes none is only given or not -/
  accepts : Option (String → Bool)

/-- The option that asks for help. -/
def helpSwitch : Switch := ⟨some 'h', "help", none⟩

/-- What an argument is. -/
inductive Token where
  | operand
  /-- the end of all options -/
  | ending
  /-- an option without a value -/
  | plain (long : String)
  /-- an option with a value, unless that is in the next argument -/
  | valued (long : String) (accepts : String → Bool) (value : Option String)
  | wrong

/-- The token of an option with what is behind it. -/
def Token.ofSwitch (s : Switch) (value : Option String) : Token :=
  match s.accepts with
  | none => if value.isSome then .wrong else .plain s.long
  | some accepts => .valued s.long accepts value

/-- The value behind a short option. -/
def attached : List Char → Option String
  | [] => none
  | '=' :: rest => some (String.ofList rest)
  | cs => some (String.ofList cs)

/-- The value behind the name of a long option. -/
def assigned : List Char → Option String
  | '=' :: rest => some (String.ofList rest)
  | _ => none

/-- What an argument is, where the given options are known. -/
def Token.of (known : List Switch) (argument : String) : Token :=
  match argument.toList with
  | ['-', '-'] => .ending
  | '-' :: '-' :: rest =>
    let name := String.ofList (rest.takeWhile (· ≠ '='))
    match known.find? fun s => s.long = name with
    | none => .wrong
    | some s => .ofSwitch s (assigned (rest.dropWhile (· ≠ '=')))
  | '-' :: c :: rest =>
    match known.find? fun s => s.short = some c with
    | none => .wrong
    | some s =>
      match s.accepts with
      | none => .plain s.long
      | some _ => .ofSwitch s (attached rest)
  | _ => .operand

/-- Options with their values, and the operand. -/
structure Parsed where
  options : List (String × String)
  operand : Option String

/-- The value of an option. -/
def Parsed.value? (p : Parsed) (long : String) : Option String := p.options.lookup long

/-- Adds an option that is not there yet. -/
def Parsed.withOption (p : Parsed) (long value : String) : Option Parsed :=
  if (p.value? long).isSome then none else some { p with options := (long, value) :: p.options }

/-- Adds the operand, of which there is at most one. -/
def Parsed.withOperand (p : Parsed) (accepts : String → Bool) (argument : String) : Option Parsed :=
  if p.operand.isNone && accepts argument then some { p with operand := some argument } else none

/-- Reads arguments in order.  The first one that is wrong or asks for help decides. -/
def scan (known : List Switch) (acceptsOperand : String → Bool) (topic : Topic) :
    Bool → List String → Parsed → Except Usage Parsed
  | _, [], p => .ok p
  | ended, argument :: rest, p =>
    match if ended then .operand else Token.of known argument with
    | .wrong => .error .wrong
    | .ending => scan known acceptsOperand topic true rest p
    | .operand =>
      match p.withOperand acceptsOperand argument with
      | none => .error .wrong
      | some p => scan known acceptsOperand topic ended rest p
    | .plain long =>
      if long = helpSwitch.long then .error (.help topic)
      else
        match p.withOption long "" with
        | none => .error .wrong
        | some p => scan known acceptsOperand topic ended rest p
    | .valued long accepts (some value) =>
      match if accepts value then p.withOption long value else none with
      | none => .error .wrong
      | some p => scan known acceptsOperand topic ended rest p
    | .valued long accepts none =>
      match rest with
      | [] => .error .wrong
      | value :: rest =>
        match Token.of known value with
        | .operand =>
          match if accepts value then p.withOption long value else none with
          | none => .error .wrong
          | some p => scan known acceptsOperand topic ended rest p
        | _ => .error .wrong

/-! ## Commands -/

/-- The path of a file is not empty. -/
def isFilePath (s : String) : Bool := !s.isEmpty

/-- Reads the name of a policy. -/
def policy? (s : String) : Option Policy := (Policy.read s).toOption

/-- Reads the arguments of the path command. -/
def ofPathArguments (arguments : List String) : Except Usage Command := do
  let p ← scan [⟨some 'b', "base", some fun _ => true⟩, helpSwitch] (fun _ => true) .path
    false arguments ⟨[], none⟩
  match p.operand with
  | some text => return .path text (p.value? "base")
  | none => .error .wrong

/-- Reads the arguments of the decode command. -/
def ofDecodeArguments (arguments : List String) : Except Usage Command := do
  let p ← scan
    [⟨some 's', "schema", some isFilePath⟩, ⟨some 'p', "policy", some fun s => (policy? s).isSome⟩,
      ⟨none, "compact", none⟩, helpSwitch]
    isFilePath .decode false arguments ⟨[], none⟩
  match p.value? "schema" with
  | some schema =>
    return .decode p.operand schema ((p.value? "policy").bind policy?) (p.value? "compact").isSome
  | none => .error .wrong

/-- What the command `help` shows. -/
def ofHelpArguments : List String → Usage
  | [] => .help .program
  | ["path"] => .help .path
  | ["decode"] => .help .decode
  | ["help"] => .help .help
  | _ => .wrong

/-- What an argument in place of a command asks for. -/
def ofOption (argument : String) : Usage :=
  match Token.of [helpSwitch, ⟨some 'V', "version", none⟩] argument with
  | .plain long => if long = helpSwitch.long then .help .program else .version
  | _ => .wrong

/-- The command that arguments give. -/
def ofArguments : List String → Except Usage Command
  | "path" :: rest => ofPathArguments rest
  | "decode" :: rest => ofDecodeArguments rest
  | "help" :: rest => .error (ofHelpArguments rest)
  | argument :: _ => .error (ofOption argument)
  | [] => .error .wrong

end Command

end Polydoc
