import CatalogSearch.CommandLine.Execution
import CatalogSearch.Config.Loading
import CatalogSearch.Identifier

/-!
# The program

Reads the arguments and the configuration file, runs the search and prints its
documents.  No network is at hand, so every source that is asked counts as
unreachable.
-/

namespace CatalogSearch

def usage : String :=
  "Usage: ddf-query --config <FILE> [--cql <CQL>] [--federation <SCOPE>] [--source <ID>]...\n" ++
    "                 [--pages <PAGES>] [--tiered-id <ID>]... [--deleted | --historic]"

def version : String := "ddf-query 0.1.0"

/-- Answers arguments that ask for no run, and returns the exit code. -/
def explain (fault : CommandLine.ArgumentFault) : IO UInt32 := do
  match fault with
  | .displayHelp => IO.println usage; pure 0
  | .displayVersion => IO.println version; pure 0
  | fault => IO.eprintln ("error: " ++ fault.name ++ "\n\n" ++ usage); pure 2

def readFile (path : String) : IO (Option ByteArray) := do
  try pure (some (← IO.FS.readBinFile path)) catch _ => pure none

def randomWord : IO Nat := IO.rand 0 (UInt64.size - 1)

def runWith (arguments : CommandLine.Arguments) : IO UInt32 := do
  match Config.load (← readFile arguments.config) with
  | .error fault => IO.eprintln ("Error: " ++ fault.message arguments.config); pure 1
  | .ok config =>
    let high ← randomWord
    let low ← randomWord
    let roundName := fun round => Identifier.ofWords high (low + round)
    let (documents, fault) := CommandLine.run Catalog.offline roundName
      (Identifier.ofWords (← randomWord) (← randomWord)) arguments config
    for document in documents do
      IO.println document.pretty
    match fault with
    | none => pure 0
    | some fault => IO.eprintln ("Error: " ++ fault.message); pure 1

end CatalogSearch

def main (arguments : List String) : IO UInt32 :=
  match CatalogSearch.CommandLine.Arguments.read arguments with
  | .error fault => CatalogSearch.explain fault
  | .ok arguments => CatalogSearch.runWith arguments
