import SchemaOnRead.Calendar.Moment
import SchemaOnRead.Log.Template

/-!
# Events

An event is something that a part of the program reports, with fields that tell of its
circumstances. `Event.fields` writes it as an object for machines, `Event.line` as text for people.
-/

namespace SchemaOnRead

/-- An error that an event tells of: its kind and its text. -/
structure ReportedError where
  kind : String
  text : String

/-- An event: when it happened, what reports it and how grave it is, the message as a template with
arguments, the circumstances, and what an error says if there was one. -/
structure Event where
  time : Rat
  logger : String
  level : Int
  thread : String
  template : String
  arguments : List Value := []
  circumstances : Value.Fields := []
  error : Option ReportedError := none

/-- What a logger attaches to each of its events. -/
abbrev Circumstances := Value.Fields

namespace Circumstances

/-- Adds circumstances; those that are there already keep their place and change. -/
def bind (known more : Circumstances) : Circumstances :=
  more.foldl (fun fields (k, v) => Value.setField fields k v) known

end Circumstances

namespace Event

/-- The names of the levels. -/
def levelNames : List (Int × String) :=
  [(0, "NOTSET"), (10, "DEBUG"), (20, "INFO"), (30, "WARNING"), (40, "ERROR"), (50, "CRITICAL")]

/-- The name of an event's level. -/
def levelName (e : Event) : String := (levelNames.lookup e.level).getD s!"Level {e.level}"

/-- A fraction rounded to the nearest integer, halves to the even one. -/
def roundEven (r : Rat) : Int :=
  let n := Binary64.roundRatio r.num.natAbs r.den
  if r.num < 0 then -(n : Int) else n

/-- The time to the microsecond, with the offset of UTC. -/
def timestamp (e : Event) : String :=
  match Moment.ofMicros? (roundEven (e.time * 1000000)) with
  | some m =>
    String.ofList (m.date.chars ++ 'T' :: m.timeChars ++ m.fractionChars ++ "+00:00".toList)
  | none => ""

/-- The time to the second; the year has no more digits than it needs. -/
def second (e : Event) : String :=
  match Moment.ofMicros? (e.time.floor * 1000000) with
  | some m => String.ofList (m.date.chars.dropWhile (· == '0') ++ ' ' :: m.timeChars)
  | none => ""

/-- The message of an event. -/
def message (e : Event) : Result String := Template.fill e.template e.arguments

/-- An error as text without its last line end. -/
def errorText (e : ReportedError) : String :=
  let shown := if e.text.isEmpty then e.kind else s!"{e.kind}: {e.text}"
  String.ofList (match shown.toList.reverse with
    | '\n' :: rest => rest.reverse
    | _ => shown.toList)

/-- An event as fields: those of its own, then its circumstances except for names that are taken. An
error takes the place of a circumstance. -/
def fields (e : Event) : Result Value.Fields := do
  let own : Value.Fields := [("timestamp", .text e.timestamp), ("level", .text e.levelName),
    ("logger", .text e.logger), ("thread", .text e.thread), ("message", .text (← e.message))]
  let all := e.circumstances.foldl (fun fields (k, v) =>
    if (fields.lookup k).isSome then fields else fields ++ [(k, v)]) own
  return match e.error with
    | some error => Value.setField all "exception" (.text (errorText error))
    | none => all

/-- The circumstances as pairs of names and values. -/
def pairs (circumstances : Value.Fields) : String :=
  String.intercalate " " (circumstances.map fun (k, v) => s!"{k}={v.shown}")

/-- Puts a text at the end of the first line. -/
def afterFirstLine (cs note : List Char) : List Char :=
  cs.takeWhile (· ≠ '\n') ++ note ++ cs.dropWhile (· ≠ '\n')

/-- An event as text: what it says on one line with its circumstances behind, and an error below. -/
def line (e : Event) : Result String := do
  let message ← e.message
  let first := s!"{e.second} - {e.logger} - {e.levelName} - {message}"
  let text := match e.error with
    | some error =>
      let gap := if first.toList.getLast? = some '\n' then "" else "\n"
      first ++ gap ++ errorText error
    | none => first
  if e.circumstances.isEmpty then return text
  else return String.ofList (afterFirstLine text.toList s!" [{pairs e.circumstances}]".toList)

end Event

end SchemaOnRead
