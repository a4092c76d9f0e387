import QueryOutline.Yaml.Fault

/-!
What a run of the program shows: two streams of text and an exit code. A run is
written as a sequence of actions on its report.
-/

namespace QueryOutline.CommandLine

/-- Why a run broke off without a message of its own. -/
inductive Failure where
  /-- A text could not be decoded. -/
  | undecodable
  /-- A settings file has a key that is no text. -/
  | foreignKey
  /-- The data of a settings file is at fault. -/
  | badData (fault : Yaml.Fault)
  deriving DecidableEq, Repr

def Failure.message : Failure → String
  | undecodable => "a file is not encoded as text"
  | foreignKey => "a key of the settings file is not a text"
  | badData fault => fault.message?.getD "the data of the settings file cannot be read"

structure Report where
  exitCode : Nat := 0
  out : String := ""
  err : String := ""
  failure : Option Failure := none
  deriving DecidableEq, Repr

abbrev Action := StateM Report Unit

namespace Report

def print (s : String) : Action :=
  modify fun r => { r with out := r.out ++ s }

def printError (s : String) : Action :=
  modify fun r => { r with err := r.err ++ s }

def exit (code : Nat) : Action :=
  modify fun r => { r with exitCode := code }

def fail (f : Failure) : Action :=
  modify fun r => { r with exitCode := 1, failure := some f }

end Report

end QueryOutline.CommandLine
