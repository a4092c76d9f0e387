import QueryOutline.CommandLine.Excerpt
import QueryOutline.CommandLine.Log
import QueryOutline.CommandLine.Usage
import QueryOutline.Display.Console
import QueryOutline.Settings.File

/-!
The program. A run depends on its arguments and on the surroundings: the defaults,
the files that can be reached by name, and the standard input.

Faults are reported in a fixed order: the options before the command, the command,
the settings, the options behind the command, the document.
-/

namespace QueryOutline.CommandLine

structure Surroundings where
  defaults : Defaults := {}
  entry : String → Entry
  input : List UInt8 := []

/-- What a run has settled before its command starts. -/
structure Setup where
  verbose : Bool
  settings : Settings

/-- Where a document comes from. -/
structure Source where
  name : String
  content : List UInt8

namespace Run

def inputName : String := "-"

/-- Hand over the text of the document, cut to the limit. -/
def withDocument (s : Setup) (source : Source) (use : String → Action) : Action :=
  match Text.ofBytes? source.content with
  | none => Report.fail .undecodable
  | some text => do
      let limit := s.settings.maxDocumentBytes
      if let some notice := cutNotice? limit text then Report.warning notice
      let kept := excerpt limit text
      Log.line s.verbose .input ("Read " ++ toString kept.length ++ " characters from " ++
        source.name)
      use kept

def warnings (d : Document) : Action := do
  for diagnostic in d.diagnostics do
    Report.warning (diagnostic.kind ++ ": " ++ diagnostic.message)

def listTokens (a : Arguments) (text : String) : Action := do
  let ts := tokenize text
  if a.has .json then Report.echo (Json.list (ts.map .text)).line
  else
    for t in ts do Report.echo t

/-- What a definition is called in a summary, with the number of its fields. -/
def summaryLine (n : Node) : String :=
  let label := (n.root.operationType.map OperationType.text).getD "fragment"
  let name := n.root.name.getD ""
  let fields := (n.preorder.filter (·.kind == .field)).length
  label ++ " " ++ (if name = "" then "(anonymous)" else name) ++ ": " ++ toString fields ++
    " field(s)"

def summarize (s : Setup) (a : Arguments) (text : String) : Action := do
  let d := Document.parse text
  Log.document s.verbose d
  if a.has .json then Report.echo (d.toJson.lines 0)
  else
    Report.success ("Parsed " ++ toString d.tokens.length ++ " tokens into " ++
      toString d.forest.length ++ " definition(s)")
    for n in d.forest.toList do Report.info (summaryLine n)
    warnings d

def toggleAll (verbose : Bool) : List Path → Viewer → StateM Report Viewer
  | [], v => return v
  | path :: paths, v => do
      let (isOpen, v) := v.flip path
      Log.toggled verbose path isOpen
      toggleAll verbose paths v

def gestureAll (verbose : Bool) : List Toolbar.Gesture → Viewer → StateM Report Viewer
  | [], v => return v
  | g :: gs, v => do
      let v := v.gesture g
      Log.toolbar verbose v.toolbar
      gestureAll verbose gs v

/-- All nodes are collapsed first, then nodes are toggled, then the search begins. -/
def showOutline (s : Setup) (a : Arguments) (toggles : List Path) (text : String) : Action := do
  let v := Viewer.ofText text
  Log.document s.verbose v.document
  if v.document.isEmpty then
    Report.echo v.document.text
    warnings v.document
  else
    let v ← gestureAll s.verbose (if a.has .collapseAll then [.collapseAll] else []) v
    let v ← toggleAll s.verbose toggles v
    let term := (a.value? .search).getD ""
    let v ← gestureAll s.verbose (if term = "" then [] else [.toggleSearch, .setTerm term]) v
    Report.print (Console.printOutline s.settings (a.has .tree) Console.defaultLabel v.rows)

/-- The document that is named, the standard input if none is. -/
def source (w : Surroundings) (name : String) : Except UsageFault Source :=
  if name = inputName then .ok ⟨"<stdin>", w.input⟩
  else match w.entry name with
    | .file content => .ok ⟨name, content⟩
    | .missing => .error (.documentMissing name)
    | .directory => .error (.documentIsDirectory name)

/-- What a command needs: the nodes to toggle and the document, and nothing else. -/
def operands (w : Surroundings) (a : Arguments) : Except UsageFault (List Path × Source) := do
  let toggles ← (a.values .toggle).mapM fun text => (readPath text).mapError .badPath
  let document ← source w (a.others.headD inputName)
  if a.others.length ≤ 1 then return (toggles, document)
  else .error (.extraArguments (a.others.drop 1))

def command (w : Surroundings) (s : Setup) (c : Command) (arguments : List String) : Action :=
  let scope : Scope := some c
  match readArguments scope.options true arguments with
  | .error fault => Report.misused scope (.option fault)
  | .ok a =>
      if a.has .help then Report.print scope.help
      else match operands w a with
        | .error fault => Report.misused scope fault
        | .ok (toggles, document) =>
            withDocument s document fun text =>
              match c with
              | .tokens => listTokens a text
              | .parse => summarize s a text
              | .show => showOutline s a toggles text

/-- What stands before the command: a page to print, or options that are sound. -/
inductive Opening where
  | page (text : String)
  | misused (fault : UsageFault)
  | ready (a : Arguments)

def configFault? (w : Surroundings) (a : Arguments) : Option UsageFault :=
  match a.value? .config with
  | none => none
  | some name =>
      match w.entry name with
      | .file _ => none
      | .missing => some (.configMissing name)
      | .directory => some (.configIsDirectory name)

def opening (w : Surroundings) (arguments : List String) : Opening :=
  let scope : Scope := none
  match readArguments scope.options false arguments with
  | .error fault => .misused (.option fault)
  | .ok a =>
      match a.options.find? fun o => o.1 == .version || o.1 == .help with
      | some (.version, _) => .page (versionLine ++ "\n")
      | some _ => .page scope.help
      | none =>
          match configFault? w a with
          | some fault => .misused fault
          | none => .ready a

/-- The settings of a run, and the file that they come from. -/
def settings (w : Surroundings) (a : Arguments) :
    Except SettingsFault (Settings × Option String) := do
  let named := ((a.value? .config).filter (· != "")).map Settings.cleanPath
  match named with
  | some path => return (← Settings.ofFile w.defaults path (w.entry path), some path)
  | none =>
      let path := Settings.defaultFile
      match w.entry path with
      | .missing => return (.ofDefaults w.defaults, none)
      | entry => return (← Settings.ofFile w.defaults path entry, some path)

def refuseSettings (fault : SettingsFault) : Action :=
  match fault.message? with
  | some message => do
      Report.error message
      Report.exit 1
  | none =>
      Report.fail (match fault with
        | .undecodable => .undecodable
        | .badData fault => .badData fault
        | _ => .foreignKey)

def program (w : Surroundings) (arguments : List String) : Action :=
  let scope : Scope := none
  if arguments.isEmpty then do
    Report.printError scope.help
    Report.exit 2
  else match opening w arguments with
    | .page text => Report.print text
    | .misused fault => Report.misused scope fault
    | .ready a =>
        match a.others with
        | [] => Report.misused scope .noCommand
        | name :: rest =>
            match Command.ofName? name with
            | none =>
                -- Behind two dashes an option may stand in the place of the command.
                match opening w (name :: rest) with
                | .page text => Report.print text
                | .misused fault => Report.misused scope fault
                | .ready _ => Report.misused scope (.unknownCommand name)
            | some c => do
                let verbose := a.has .verbose
                match settings w a with
                | .error fault => refuseSettings fault
                | .ok (found, path?) =>
                    if let some path := path? then
                      Log.line verbose .settings ("Loaded settings from " ++ path)
                    command w { verbose, settings := found } c rest

end Run

/-- The name of the document that a run with the given arguments reads, if it comes
to that. -/
def documentName? (arguments : List String) : Option String := do
  let before ← (readArguments (Scope.options none) false arguments).toOption
  let c ← before.others.head?.bind Command.ofName?
  let behind ← (readArguments (Scope.options (some c)) true (before.others.drop 1)).toOption
  let asksForPage := before.has .version || before.has .help || behind.has .help
  if asksForPage then none else some (behind.others.headD Run.inputName)

/-- The names that a run with the given arguments may look up. -/
def namesIn (arguments : List String) : List String :=
  let configs := match readArguments (Scope.options none) false arguments with
    | .ok a => a.values .config
    | .error _ => []
  Settings.defaultFile :: (configs ++ configs.map Settings.cleanPath ++
    (documentName? arguments).toList)

def run (w : Surroundings) (arguments : List String) : Report :=
  ((Run.program w arguments).run {}).2

end QueryOutline.CommandLine
