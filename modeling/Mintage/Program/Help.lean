import Mintage.Program.Console
import Mintage.Program.QueryLine

/-!
The help texts of the programs, and what a program does where its command line asks for
no work.
-/

namespace Mintage.Help

/-- The version of the programs. -/
def version : String := "0.1.0"

/-- A help text: what the program does, how it is called, and its parts with a title
each. -/
def page (about usage : String) (parts : List (String × List String)) : String :=
  about ++ "\n\nUsage: " ++ usage ++ "\n" ++
    String.join (parts.map fun p =>
      "\n" ++ p.1 ++ ":\n" ++ String.join (p.2.map fun l => "  " ++ l ++ "\n"))

/-! ### The query tool -/

/-- The help of the query tool. -/
def queryTool : String :=
  page "Unigrid mint module query tool" "ugd-cli [OPTIONS] <COMMAND>"
    [("Commands",
        ["status                    Show chain height, supply and pending hedgehog mints",
          "params                    Show the current mint parameters",
          "subsidy-halving-interval  Show the minter's subsidy halving interval",
          "mints                     List all applied hedgehog mints",
          "mint                      Show the hedgehog mint applied at a height",
          "provision                 Evaluate the block subsidy offline",
          "help                      Print this message or the help of the given subcommand(s)"]),
      ("Options",
        ["-a, --api <API>  Node API endpoint [default: http://127.0.0.1:52885]",
          "-h, --help       Print help",
          "-V, --version    Print version"])]

/-- A command that takes nothing. -/
def bareCommand (about name : String) : String :=
  page about ("ugd-cli " ++ name) [("Options", ["-h, --help  Print help"])]

/-- The help of the command for one record. -/
def mint : String :=
  page "Show the hedgehog mint applied at a height" "ugd-cli mint <HEIGHT>"
    [("Arguments", ["<HEIGHT>  "]), ("Options", ["-h, --help  Print help"])]

/-- The help of the command for a subsidy. -/
def provision : String :=
  page "Evaluate the block subsidy offline" "ugd-cli provision [OPTIONS] --height <HEIGHT>"
    [("Options",
        ["    --height <HEIGHT>                      ",
          "    --elapsed-secs <ELAPSED_SECS>          Seconds since the previous block [default: 60]",
          "    --halving-interval <HALVING_INTERVAL>  Subsidy halving interval in blocks [default: 1000000]",
          "-h, --help                                 Print help"])]

/-- The help on help. -/
def help : String :=
  page "Print this message or the help of the given subcommand(s)" "ugd-cli help [COMMAND]..."
    [("Arguments", ["[COMMAND]...  Print help for the subcommand(s)"])]

/-- The text on a command of the query tool, or on the tool. -/
def ofCommand : Option String → String
  | some "status" => bareCommand "Show chain height, supply and pending hedgehog mints" "status"
  | some "params" => bareCommand "Show the current mint parameters" "params"
  | some "subsidy-halving-interval" =>
      bareCommand "Show the minter's subsidy halving interval" "subsidy-halving-interval"
  | some "mints" => bareCommand "List all applied hedgehog mints" "mints"
  | some "mint" => mint
  | some "provision" => provision
  | some "help" => help
  | _ => queryTool

/-! ### The node -/

/-- The help of the node. -/
def node : String :=
  page "Unigrid devnet node running the ugdmint module" "ugd-node [OPTIONS]"
    [("Options",
        ["-c, --config <FILE>    Path to configuration file",
          "    --blocks <BLOCKS>  Stop after producing this many blocks",
          "    --no-feed          Do not poll hedgehog; only the block subsidy is minted",
          "-h, --help             Print help",
          "-V, --version          Print version"])]

/-! ### Instead of work -/

/-- What a program does instead of work: it shows its help or its version, or refuses. -/
def instead (program help : String) : Arguments.Early → Console.Exit
  | .help => Console.done help
  | .version => Console.done (program ++ " " ++ version ++ "\n")
  | .misuse => Console.misused

end Mintage.Help
