import Mintage.Data.Json
import Mintage.Program.Node
import Mintage.Program.Query
import Mintage.Wire.Ledger
import Std.Time.DateTime.Timestamp

/-!
The programs: the node and the query tool. This layer reads and writes files, waits and
prints. There is no network here, so every request goes unanswered.
-/

namespace Mintage

/-- What is found under a path. -/
def readContent (path : String) : IO FileContent := do
  try
    return .bytes (← IO.FS.readBinFile path).data.toList
  catch
    | .noFileOrDirectory .. => return .missing
    | _ => return .directory

/-- The file of the ledger in a directory. -/
def ledgerPath (directory : String) : String :=
  directory ++ "/ledger.json"

/-- The ledger kept in a directory; without a readable file it is empty. -/
def readLedger (directory : String) : IO Ledger := do
  match ← readContent (ledgerPath directory) with
  | .bytes b => return ((Json.read? b).bind Ledger.ofDatum?).getD .empty
  | _ => return .empty

/-- Writes a ledger to its file; the directory is made first. -/
def writeLedger (directory : String) (L : Ledger) : IO Unit := do
  IO.FS.createDirAll directory
  IO.FS.writeBinFile (ledgerPath directory) ⟨(Json.write L.toDatum).toArray⟩

/-- The time by the clock on the wall. -/
def now : IO Timestamp := do
  let t ← Std.Time.Timestamp.now
  let nanos := t.toNanosecondsSinceUnixEpoch.val
  return (Timestamp.ofUnix? (nanos / 1000000000) (nanos % 1000000000).toNat).getD .epoch

/-- Prints what a program has left to say, and gives its exit code. -/
def leave (printed : Nat) (e : Console.Exit) : IO UInt32 := do
  IO.print (e.stdout.drop printed).toString
  match e.stderr with
  | some words => IO.eprintln words
  | none => if e.code ≠ 0 then IO.eprintln "Error"
  return UInt32.ofNat e.code

/-- Produces blocks as long as there are any to come. -/
partial def produceBlocks (directory : String) (left : Option Nat) (printed : Nat)
  (r : Node.Running) :
    IO UInt32 := do
  let (result, r) := r.produce (← now)
  writeLedger directory r.chain.ledger
  IO.print (r.stdout.drop printed).toString
  let left := left.map (· - 1)
  if result.toBool ∧ left ≠ some 0 then
    IO.sleep (1000 * r.interval.toUInt32)
    produceBlocks directory left r.stdout.length r
  else leave r.stdout.length (Node.finish r.stdout result)

/-- Runs the node program on its command line. -/
def runNode (args : List String) : IO UInt32 := do
  match Node.Line.read args with
  | .error e => leave 0 (Help.instead "ugd-node" Help.node e)
  | .ok line =>
      let home := (← IO.getEnv "HOME").getD ""
      let file ← readContent (line.configPath home)
      let directory := match Config.read file with
        | .ok c => c.chain.directory home
        | .error _ => ""
      let ledger ← readLedger directory
      match Node.start line home file fun _ => ledger with
      | (.stopped e, left) =>
          if let some (d, L) := left then writeLedger d L
          leave 0 e
      | (.running r, _) =>
          IO.print r.stdout
          produceBlocks directory line.limit? r.stdout.length r

end Mintage

/-- The first argument names the program to run. -/
def main (args : List String) : IO UInt32 := do
  match args with
  | "node" :: rest => Mintage.runNode rest
  | "query" :: rest => Mintage.leave 0 (Mintage.QueryTool.run (fun _ => .unreachable) rest)
  | _ =>
      IO.eprintln "usage: mintage (node | query) [ARGUMENTS]"
      return 2
