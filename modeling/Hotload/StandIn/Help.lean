/-!
Texts of the command line: its version, the usage of each command and the help on it.
-/
namespace Hotload.StandIn

def programName : String := "mun"

def versionText : String := "mun, version 0.1.0"

def mainUsage : String := "mun [OPTIONS] COMMAND [ARGS]..."

def buildUsage : String := "mun build [OPTIONS]"

def startUsage : String := "mun start [OPTIONS] LIBRARY"

def serverUsage : String := "mun language-server [OPTIONS]"

def newUsage : String := "mun new [OPTIONS] PATH"

def helpPage (usage : String) (lines : List String) : String :=
  "\n".intercalate (("Usage: " ++ usage) :: lines)

def mainHelp : String := helpPage mainUsage
  ["",
   "  The Mun executable enables compiling and running standalone Mun code.",
   "",
   "Options:",
   "  --version      Show the version and exit.",
   "  -v, --verbose  Enable debug logging",
   "  --help         Show this message and exit.",
   "",
   "Commands:",
   "  build            Compiles a local Mun file into a module.",
   "  language-server  Starts a Mun language server ready to serve language...",
   "  new              Create a new Mun package at PATH.",
   "  start            Starts the runtime with the specified library and..."]

def buildHelp : String := helpPage buildUsage
  ["",
   "  Compiles a local Mun file into a module.",
   "",
   "Options:",
   "  --manifest-path TEXT           Path to mun.toml",
   "  --watch                        Run the compiler in watch mode. Watch input",
   "                                 files and trigger recompilation on changes.",
   "  -O, --opt-level TEXT           optimize with possible levels 0-3",
   "  --target TEXT                  target triple for which code is compiled",
   "  --color [enable|auto|disable]  color text in terminal",
   "  --help                         Show this message and exit."]

def startHelp : String := helpPage startUsage
  ["",
   "  Starts the runtime with the specified library and invokes function ENTRY.",
   "",
   "Options:",
   "  --entry TEXT  the function entry point to call on startup  [default: main]",
   "  --delay TEXT  how much to delay received filesystem events (in ms). This",
   "                allows bundling of identical events, e.g. when several writes",
   "                to the same file are detected. A high delay will make hot",
   "                reloading less responsive. (defaults to 10 ms)",
   "  --help        Show this message and exit."]

def serverHelp : String := helpPage serverUsage
  ["",
   "  Starts a Mun language server ready to serve language information about one",
   "  or more projects.",
   "",
   "Options:",
   "  --help  Show this message and exit."]

def newHelp : String := helpPage newUsage
  ["",
   "  Create a new Mun package at PATH.",
   "",
   "Options:",
   "  -q, --quiet  No output printed to stdout",
   "  --help       Show this message and exit."]

end Hotload.StandIn
