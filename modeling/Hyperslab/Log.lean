import Hyperslab.Backend
import Hyperslab.Number.Metric
import Hyperslab.Route
import Hyperslab.Traffic

/-!
# The log of calls and its account

Every call that succeeds adds one entry at the end.  An account has the entries and their sums; in
words, an entry is a line and a last line sums up.  An account is put into words even where only the
entries are asked for, so there is none where an extent cannot be written.
-/
namespace Hyperslab

inductive CallKind where
  | resolve
  | slice
  | grad
  | assign
  deriving DecidableEq, Repr

def CallKind.name : CallKind → String
  | resolve => "resolve"
  | slice => "slice"
  | grad => "grad"
  | assign => "assign"

/-- What an entry says about the execution of a call. -/
structure Execution where
  route : Route
  backend : Backend
  itemSize : Nat
  deriving DecidableEq, Repr

structure LogEntry where
  kind : CallKind
  inputShape : Shape
  processingShape : Shape
  finalShape : Shape
  /-- Absent when a call only resolves. -/
  execution : Option Execution
  /-- Nanoseconds, if the call was timed. -/
  duration : Option Nat
  deriving DecidableEq, Repr

namespace LogEntry

def elements (e : LogEntry) : Nat := e.finalShape.size

def traffic (e : LogEntry) : Option Traffic :=
  e.execution.map fun x => .ofShapes e.inputShape e.finalShape x.itemSize (e.kind == .grad)

def bytes (e : LogEntry) : Int := (e.traffic.map Traffic.bytes).getD 0

def bytesText (n : Int) : String := Number.metric "bytes" (Number.binary64.ofInt n)

/-- Nanoseconds as milliseconds with three decimal places. -/
def milliseconds (n : Nat) : String := String.ofList (Number.fixed 3 n 1000000) ++ "ms"

def shapeText (s : Shape) : String := tupleText (s.map toString)

/-- Whether the two shapes that are told can be written. -/
def isLegible (e : LogEntry) : Bool := (e.inputShape ++ e.finalShape).all (Text.legible ·)

def text (e : LogEntry) : String :=
  let details :=
    (e.execution.map fun x => "path=" ++ x.route.name).toList ++
    ["in=" ++ shapeText e.inputShape, "out=" ++ shapeText e.finalShape] ++
    (e.execution.map fun x => "backend=" ++ x.backend.describe).toList ++
    (if e.bytes = 0 then [] else [bytesText e.bytes]) ++
    (e.duration.map fun n => "time=" ++ milliseconds n).toList
  "[" ++ e.kind.name ++ "] " ++ " ".intercalate details

end LogEntry

/-- The entries of a log in the order of the calls. -/
abbrev Log := List LogEntry

namespace Log

def bytes (l : Log) : Int := l.foldr (fun e total => e.bytes + total) 0

def duration (l : Log) : Nat := l.foldr (fun e total => e.duration.getD 0 + total) 0

/-- Sets the duration of the last entry, if that was timed. -/
def stamp (nanoseconds : Nat) : Log → Log
  | [] => []
  | [e] => [{ e with duration := e.duration.map fun _ => nanoseconds }]
  | e :: rest => e :: stamp nanoseconds rest

/-- A line for each entry and a line for all of them; nothing for an empty log. -/
def text (l : Log) : String :=
  let total := ["total=" ++ LogEntry.milliseconds l.duration, s!"ops={l.length}"] ++
    (if l.bytes = 0 then [] else [LogEntry.bytesText l.bytes])
  let lines := l.map LogEntry.text ++
    (if l.isEmpty then [] else ["[perf] " ++ " ".intercalate total])
  "\n".intercalate lines

end Log

/-- What is told of a log: its entries and what they sum up to. -/
structure Account where
  entries : Log
  ops : Nat
  /-- Nanoseconds. -/
  duration : Nat
  bytes : Int
  deriving DecidableEq, Repr

namespace Log

def account (l : Log) : Except Fault Account :=
  if l.all LogEntry.isLegible then .ok ⟨l, l.length, l.duration, l.bytes⟩ else .error .longNumber

/-- The log in words. -/
def explain (l : Log) : Except Fault String :=
  if l.all LogEntry.isLegible then .ok l.text else .error .longNumber

end Log

end Hyperslab
