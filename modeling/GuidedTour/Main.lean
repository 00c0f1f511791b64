import GuidedTour.Files.Snapshot
import GuidedTour.Json.Printer
import GuidedTour.Program.Invocation

/-!
# The command line

The program works on a snapshot of a folder. Standard input holds it as JSON, with the members
`name`, `files` and `env`: the name of the folder, its files by their paths, and the variables of
the environment. The snapshot has no syntax trees, so outlines are told from lines, and there is no
network. The result is printed, and after it the tours that the command wrote; failures go to
standard error.
-/

namespace GuidedTour

/-- The members of an object under a key. -/
def snapshotMembers (j : Json) (key : String) : List (String × Json) :=
  match j.member? key with
  | some (.object members) => members
  | _ => []

/-- The program on a snapshot. -/
def Invocation.ofSnapshot? (text : String) : Option Invocation := do
  let j ← Json.parse text.toList
  let name := ((j.member? "name").bind Json.text?).getD "workspace"
  let world ← World.ofSnapshot? "" name (snapshotMembers j "files")
  let vars := snapshotMembers j "env"
  pure
    { world, location := [name]
      env := fun name => (vars.lookup name).bind Json.text?
      parser := .ofTrees .empty []
      network := fun _ => .refused "no network" }

/-- The texts of the tours that are there after a command and were not there before. -/
def ProgramOutcome.newTours (o : ProgramOutcome) (i : Invocation) : List String :=
  let before := i.world.tours i.location
  ((o.world.tours i.location).filter fun tour => !before.contains tour).map Prod.snd

end GuidedTour

open GuidedTour in
/-- Runs the program on the snapshot in standard input. -/
def main (arguments : List String) : IO UInt32 := do
  let text ← (← IO.getStdin).getLine
  match Invocation.ofSnapshot? text with
  | none =>
    IO.eprintln "Error: standard input holds no snapshot"
    pure 1
  | some invocation =>
    let outcome := invocation.outcome arguments
    if let some printed := outcome.printed then IO.println (String.ofList printed.pretty)
    for tour in outcome.newTours invocation do IO.println tour
    if let some failure := outcome.failure then IO.eprintln ("Error: " ++ failure.message)
    pure (UInt32.ofNat outcome.exitCode)
