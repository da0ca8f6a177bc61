import Handoff.Config
import Handoff.Log.Filter
import Handoff.Log.Retention

namespace Handoff.Log

inductive SetupError
  | directory (path : String)
  deriving DecidableEq, Repr

def SetupError.message : SetupError → String
  | directory path => "create raw log dir: " ++ path

structure Setup where
  directory : String
  stdoutFilter : Option String
  fileThreshold : Threshold
  keepDays : Nat
  deriving DecidableEq, Repr

namespace Setup

def ofSource (workingDir : String) (source : Config.Source) : Setup where
  directory := Log.directory workingDir (source "RDV_LOG_DIR")
  stdoutFilter := source "RUST_LOG"
  fileThreshold := Log.fileThreshold (source "RDV_FILE_LOG_LEVEL")
  keepDays := retention (source "RDV_LOG_RETENTION_DAYS")

def stdoutLevels (target : String) (s : Setup) : List Level :=
  levels (stdoutThreshold s.stdoutFilter target)

def fileLevels (s : Setup) : List Level := levels s.fileThreshold

def start (canCreate : String → Bool) (today : Date) (items : List Item) (s : Setup) :
    Except SetupError (List Item) :=
  if canCreate s.directory then .ok (prune today s.keepDays items)
  else .error (.directory s.directory)

end Setup

def padded (width n : Nat) : List Char :=
  let ds := Text.natChars n
  List.replicate (width - ds.length) '0' ++ ds

def Date.text (d : Date) : String :=
  String.ofList <| (if d.year < 0 then ['-'] else []) ++ padded 4 d.year.natAbs ++
    '-' :: padded 2 d.month ++ '-' :: padded 2 d.day

def fileName (service : String) (day : Date) : String := service ++ ".log." ++ day.text

end Handoff.Log
