import Handoff.Config
import Handoff.Text.Hex

namespace Handoff.Cli

inductive Command
  | run
  | help
  | doctor (asJson : Bool)
  | keygen
  | version
  deriving DecidableEq, Repr

inductive Error
  | unknownCommand (name : String)
  | unknownFormat (name : String)
  | doctorUsage
  deriving DecidableEq, Repr

def Error.message : Error → String
  | unknownCommand name => "unknown command: " ++ name ++ "; run `rdv-auth --help` for usage"
  | unknownFormat name => "unsupported doctor format: " ++ name
  | doctorUsage => "usage: rdv-auth doctor [--format text|json]"

def parseDoctor : List String → Except Error Command
  | [] => .ok (.doctor false)
  | [flag, format] =>
    if flag ≠ "--format" then .error .doctorUsage
    else if format = "text" then .ok (.doctor false)
    else if format = "json" then .ok (.doctor true)
    else .error (.unknownFormat format)
  | _ => .error .doctorUsage

def parse (args : List String) : Except Error Command :=
  let name := Text.trim (args.headD "")
  if name = "" ∨ name = "run" then .ok .run
  else if name = "-h" ∨ name = "--help" ∨ name = "help" then .ok .help
  else if name = "doctor" then parseDoctor args.tail
  else if name = "keygen" then .ok .keygen
  else if name = "version" then .ok .version
  else .error (.unknownCommand name)

def versionText : String := "0.1.0"

def helpLines : List String := [
  "rdv-auth usage:",
  "  rdv-auth run",
  "  rdv-auth doctor [--format text|json]",
  "  rdv-auth keygen",
  "  rdv-auth version"]

def keyBytes : Nat := 32

def strings (ss : List String) : Json := .arr (ss.map .str)

def reportJson (c : Config) : Json :=
  let v := c.validate
  .obj [("config", .obj c.redacted), ("errors", strings v.errors), ("ok", .bool v.isOk),
    ("warnings", strings v.warnings)]

def reportLines (c : Config) : List String :=
  let v := c.validate
  c.redacted.map (fun (name, j) => name ++ ": " ++ j.compact) ++
    v.warnings.map ("warning: " ++ ·) ++ v.errors.map ("error: " ++ ·)

structure Outcome where
  exit : Nat
  stdout : List String
  stderr : List String
  deriving DecidableEq, Repr

def Command.execute (source : Config.Source) (random : List UInt8) : Command → Option Outcome
  | run => none
  | help => some ⟨0, helpLines, []⟩
  | version => some ⟨0, [versionText], []⟩
  | keygen => some ⟨0, [Text.Hex.encode random], []⟩
  | doctor asJson =>
    let c := Config.ofSource source
    some ⟨if c.validate.isOk then 0 else 1,
      if asJson then [(reportJson c).pretty] else reportLines c, []⟩

def dispatch (source : Config.Source) (random : List UInt8) (args : List String) : Option Outcome :=
  match parse args with
  | .error e => some ⟨1, [], ["Error: " ++ e.message]⟩
  | .ok c => c.execute source random

end Handoff.Cli
