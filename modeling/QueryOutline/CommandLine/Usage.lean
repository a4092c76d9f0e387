import QueryOutline.CommandLine.Help
import QueryOutline.CommandLine.PathArgument
import QueryOutline.CommandLine.Report
import QueryOutline.Text.Escape
import QueryOutline.Text.Quoted

/-!
Messages to the user. Escape sequences are dropped from all of them, whatever they
quote.
-/

namespace QueryOutline.CommandLine

inductive UsageFault where
  | option (fault : OptionFault)
  | noCommand
  | unknownCommand (name : String)
  | extraArguments (arguments : List String)
  | badPath (fault : PathFault)
  | documentMissing (name : String)
  | documentIsDirectory (name : String)
  | configMissing (name : String)
  | configIsDirectory (name : String)
  deriving DecidableEq, Repr

namespace UsageFault

def invalidValue (title message : String) : String :=
  "Invalid value for " ++ title ++ ": " ++ message

def documentTitle : String := "'[DOCUMENT]'"

def message : UsageFault → String
  | option (.unknown name) => "No such option " ++ Text.quote name ++ "."
  | option (.valueMissing name) => "Option " ++ Text.quote name ++ " requires an argument."
  | option (.valueUnwanted name) => "Option " ++ Text.quote name ++ " does not take a value."
  | noCommand => "Missing command."
  | unknownCommand name => "No such command " ++ Text.quote name ++ "."
  | extraArguments arguments =>
      "Got unexpected extra argument" ++ (if arguments.length = 1 then "" else "s") ++
        " (" ++ " ".intercalate arguments ++ ")"
  | badPath fault => invalidValue Opt.toggle.title fault.message
  | documentMissing name =>
      invalidValue documentTitle ("'" ++ name ++ "': No such file or directory")
  | documentIsDirectory name => invalidValue documentTitle ("'" ++ name ++ "': Is a directory")
  | configMissing name =>
      invalidValue Opt.config.title ("File " ++ Text.quote name ++ " does not exist.")
  | configIsDirectory name =>
      invalidValue Opt.config.title ("File " ++ Text.quote name ++ " is a directory.")

/-- Faults in the form of an option stand alone; all others come with the usage. -/
def hasUsage : UsageFault → Bool
  | option (.valueMissing _) | option (.valueUnwanted _) => false
  | _ => true

end UsageFault

namespace Report

/-- A line without escape sequences. -/
def echo (s : String) : Action :=
  print (Text.withoutSequences (s ++ "\n"))

def echoError (s : String) : Action :=
  printError (Text.withoutSequences (s ++ "\n"))

def success (message : String) : Action := echo ("✅ " ++ message)

def info (message : String) : Action := echo ("   " ++ message)

def warning (message : String) : Action := echoError ("⚠️  " ++ message)

def error (message : String) : Action := echoError ("❌ " ++ message)

def misused (s : Scope) (fault : UsageFault) : Action := do
  if fault.hasUsage then
    printError (s.usage ++ "Try '" ++ s.path ++ " --help' for help.\n\n")
  echoError ("Error: " ++ fault.message)
  exit 2

end Report

end QueryOutline.CommandLine
