/-
  Main.lean --- the program: it reads what a command needs, and prints how it ends.
-/
import Polydoc.Command.Run

set_option autoImplicit false

open Polydoc

/-- The content of a file, or the reason why there is none. -/
def contentOf (path : String) : IO (Except String (List UInt8)) := do
  try
    return .ok (← IO.FS.readBinFile path).toList
  catch e => return .error (toString e)

/-- Everything up to the end of a stream. -/
partial def readAll (stream : IO.FS.Stream) (acc : ByteArray) : IO ByteArray := do
  let chunk ← stream.read 65536
  if chunk.isEmpty then return acc else readAll stream (acc ++ chunk)

/-- The content of the file with the user's preferences. -/
def settingsContent : IO (Option (List UInt8)) := do
  match ← IO.getEnv "HOME" with
  | none => return none
  | some home => return (← contentOf (home ++ "/.config/polydecode/config.toml")).toOption

/-- Reads the files that a command names, and the standard input if it names none. -/
def surroundings (command : Command) : IO Command.Surroundings := do
  let settings ← settingsContent
  match command with
  | .path _ _ => return ⟨fun _ => .error "", none, settings⟩
  | .decode file schema _ _ =>
    let schemaContent ← contentOf schema
    let fileContent ← match file with
      | some file => contentOf file
      | none => pure schemaContent
    let stdin ← IO.getStdin
    let input ←
      if file.isSome || (← stdin.isTty) then pure none
      else do
        let octets ← readAll stdin ByteArray.empty
        pure (some octets.toList)
    return ⟨fun path => if path = schema then schemaContent else fileContent, input, settings⟩

def main (arguments : List String) : IO UInt32 := do
  let known ← match Command.ofArguments arguments with
    | .ok command => surroundings command
    | .error _ => pure ⟨fun _ => .error "", none, none⟩
  let outcome := Command.run known arguments
  IO.print outcome.output
  if let some message := outcome.failure then IO.eprintln ("Error: " ++ message)
  return outcome.status
