/-!
Options of a command line. Options may be written short or long, short ones in
clusters, and a value may be attached or stand in the next argument. Two dashes
end the options.
-/

namespace QueryOutline.CommandLine

inductive Opt where
  | version
  | verbose
  | config
  | help
  | json
  | search
  | collapseAll
  | toggle
  | tree
  deriving DecidableEq, Repr

namespace Opt

def names : Opt → List String
  | version => ["--version"]
  | verbose => ["-v", "--verbose"]
  | config => ["-c", "--config"]
  | help => ["--help"]
  | json => ["--json"]
  | search => ["-s", "--search"]
  | collapseAll => ["--collapse-all"]
  | toggle => ["-t", "--toggle"]
  | tree => ["--tree"]

def takesValue : Opt → Bool
  | config | search | toggle => true
  | _ => false

def title (o : Opt) : String :=
  " / ".intercalate (o.names.map fun name => "'" ++ name ++ "'")

end Opt

inductive OptionFault where
  | unknown (name : String)
  | valueMissing (name : String)
  | valueUnwanted (name : String)
  deriving DecidableEq, Repr

/-- The options with their values, and the other arguments, both in order. -/
structure Arguments where
  options : List (Opt × String) := []
  others : List String := []
  deriving DecidableEq, Repr

namespace Arguments

def has (a : Arguments) (o : Opt) : Bool :=
  a.options.any (·.1 == o)

def values (a : Arguments) (o : Opt) : List String :=
  (a.options.filter (·.1 == o)).map (·.2)

def value? (a : Arguments) (o : Opt) : Option String :=
  (a.values o).getLast?

def addOptions (a : Arguments) (options : List (Opt × String)) : Arguments :=
  { a with options := options ++ a.options }

end Arguments

/-- What one argument says: options that are complete, and one that still needs
its value. -/
structure Reading where
  complete : List (Opt × String) := []
  pending : Option (Opt × String) := none

def findOption (known : List Opt) (name : String) : Option Opt :=
  known.find? (·.names.contains name)

/-- A cluster of short options behind its dash. The rest of the cluster is the
value of the first option that takes one. -/
def readCluster (known : List Opt) : List Char → Except OptionFault Reading
  | [] => .ok {}
  | c :: cs =>
      let name := String.ofList ['-', c]
      match findOption known name with
      | none => .error (.unknown name)
      | some o =>
          if o.takesValue then
            if cs.isEmpty then .ok { pending := some (o, name) }
            else .ok { complete := [(o, String.ofList cs)] }
          else do
            let others ← readCluster known cs
            return { others with complete := (o, "") :: others.complete }

/-- A long option, with the value behind its equals sign. -/
def readLong (known : List Opt) (name : String) (attached : Option String) :
    Except OptionFault Reading :=
  match findOption known name, attached with
  | none, _ => .error (.unknown name)
  | some o, some value =>
      if o.takesValue then .ok { complete := [(o, value)] } else .error (.valueUnwanted name)
  | some o, none =>
      if o.takesValue then .ok { pending := some (o, name) } else .ok { complete := [(o, "")] }

/-- An argument that begins with a dash and is longer than it. -/
def readOption (known : List Opt) (argument : List Char) : Except OptionFault Reading :=
  match argument with
  | '-' :: '-' :: _ =>
      let name := String.ofList (argument.takeWhile (· != '='))
      let attached := match argument.dropWhile (· != '=') with
        | _ :: value => some (String.ofList value)
        | [] => none
      readLong known name attached
  | _ => readCluster known (argument.drop 1)

def isOption (argument : List Char) : Bool :=
  argument.head? == some '-' && argument.length != 1

/-- Read the arguments of a command that has the given options. Unless the two may
be mixed, the first argument that is no option ends the options. -/
def readArguments (known : List Opt) (mixed : Bool) : List String → Except OptionFault Arguments
  | [] => .ok {}
  | argument :: rest =>
      if argument = "--" then .ok { others := rest }
      else if !isOption argument.toList then
        if mixed then do
          let a ← readArguments known mixed rest
          return { a with others := argument :: a.others }
        else .ok { others := argument :: rest }
      else
        match readOption known argument.toList with
        | .error fault => .error fault
        | .ok reading =>
            match reading.pending, rest with
            | none, rest => do
                return (← readArguments known mixed rest).addOptions reading.complete
            | some (_, name), [] => .error (.valueMissing name)
            | some (o, _), value :: rest => do
                return (← readArguments known mixed rest).addOptions
                  (reading.complete ++ [(o, value)])

end QueryOutline.CommandLine
