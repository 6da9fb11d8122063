import WidthCheck.CommandLine.Program
import WidthCheck.FileTree.Listing

/-!
# The command line

Reads arguments and environment, and, if files are to be checked, their listing from the standard
input; then prints what the program answers.
-/

namespace WidthCheck.CommandLine

/-- The lines of a stream, without their line feeds. -/
partial def readLines (stream : IO.FS.Stream) (read : List (List Char)) :
    IO (List (List Char)) := do
  let line ← stream.getLine
  if line.isEmpty then return read.reverse
  else readLines stream (line.toList.filter (· ≠ '\n') :: read)

/-- What surrounds the program. -/
def readEnvironment : IO Environment := do
  return {
    cwd := ⟨(← IO.currentDir).toString⟩
    config := ← IO.getEnv "WIDTH_LINT_CONFIG"
    configDirectory := (← IO.getEnv "WIDTH_LINT_CONFIG_DIR").map Path.mk
    home := (← IO.getEnv "HOME").map Path.mk
    settings := (← IO.getEnv "XDG_CONFIG_HOME").map Path.mk }

/-- The files that a command needs: those of the listing to check them, and an old configuration
file to write a new one. -/
def readFiles (env : Environment) (args : List String) : IO (Option FileTree) := do
  match (readArguments env.config args).toOption.map Invocation.command with
  | some (.check _) => return FileTree.ofListing? env.cwd (← readLines (← IO.getStdin) [])
  | _ =>
      let old ← try some <$> IO.FS.readFile configName.text catch _ => pure none
      let tree := ({} : FileTree).addDirectory (FileTree.routeFrom env.cwd ⟨"."⟩)
      return some (match old with
        | some content => tree.write (FileTree.routeFrom env.cwd configName) (.text content .empty)
        | none => tree)

end WidthCheck.CommandLine

open WidthCheck.CommandLine in
/-- Runs the program and exits with its status. -/
def main (args : List String) : IO UInt32 := do
  let env ← readEnvironment
  match ← readFiles env args with
  | none =>
      IO.eprintln "Error: malformed listing"
      return 1
  | some tree =>
      let response := run env tree args
      IO.print response.stdout
      if let some (path, content) := response.written then IO.FS.writeFile path.text content
      if let some failure := response.failure then IO.eprintln ("Error: " ++ failure.message)
      return response.exit.toUInt32
