import Handoff.Text.Blank
import Handoff.Text.Decimal

namespace Handoff.Log

inductive Level
  | error
  | warn
  | info
  | debug
  | trace
  deriving DecidableEq, Repr

namespace Level

def all : List Level := [error, warn, info, debug, trace]

def text : Level → String
  | error => "error"
  | warn => "warn"
  | info => "info"
  | debug => "debug"
  | trace => "trace"

end Level

/-- How many of the levels, from the gravest on, are let through. -/
abbrev Threshold := Nat

def thresholdNames : List String := ["off", "error", "warn", "info", "debug", "trace"]

def thresholdNamed (s : String) : Option Threshold :=
  thresholdNames.findIdx? (· = Text.lower s)

/-- A threshold by name or number; nothing means errors only. -/
def parseThreshold (s : String) : Option Threshold :=
  if s.isEmpty then some 1
  else ((Text.readWord s.toList).filter (· ≤ 5)).or (thresholdNamed s)

def passes (t : Threshold) (l : Level) : Bool := Level.all.idxOf l < t

def levels (t : Threshold) : List Level := Level.all.filter (passes t)

structure Directive where
  target : String
  threshold : Threshold
  deriving DecidableEq, Repr

def directiveThreshold (s : String) : Option Threshold :=
  (thresholdNamed s).or (if s.length = 1 then parseThreshold s else none)

def isTargetChar (c : Char) : Bool := Text.isAsciiAlnum c || c = '_' || c = ':' || c = '-'

def isTarget (s : String) : Bool := !s.isEmpty && s.toList.all isTargetChar

def parseDirective (s : String) : Option Directive :=
  match directiveThreshold s with
  | some t => some ⟨"", t⟩
  | none =>
    match Text.cut '=' s with
    | none => if isTarget s then some ⟨s, 5⟩ else none
    | some (target, level) =>
      if !isTarget target then none
      else if level.isEmpty then some ⟨target, 5⟩
      else (directiveThreshold level).map (⟨target, ·⟩)

def parseFilter (s : String) : Option (List Directive) :=
  ((Text.splitOn ',' s).filter (!·.isEmpty)).mapM parseDirective

/-- The threshold of a target: of the longest directives that fit it the last one counts. -/
def thresholdFor (ds : List Directive) (target : String) : Threshold :=
  ((ds.filter fun d => Text.startsWith d.target target).foldl (fun best d =>
    match best with
    | some b => if b.target.length ≤ d.target.length then some d else best
    | none => some d) (none : Option Directive)).elim 0 (·.threshold)

/-- The threshold on standard output: `info` unless there is a filter that can be read. -/
def stdoutThreshold (filter : Option String) (target : String) : Threshold :=
  match filter.bind parseFilter with
  | some ds => thresholdFor ds target
  | none => 3

/-- The threshold in the log file: `debug` unless another can be read. -/
def fileThreshold (setting : Option String) : Threshold :=
  (setting.bind fun s => parseThreshold (Text.trim s)).getD 4

end Handoff.Log
