import SingleFlight.Log.Entry

/-!
# Layouts of the log

How an entry is written: as a line of text, or as an object with named values.
-/

namespace SingleFlight

/-- When, where and on which thread an entry was made. -/
structure LogStamp where
  time : String
  file : String
  line : String
  /-- File and line as a text shows them. -/
  place : String := file ++ ":" ++ line
  thread : String
  threadNumber : Nat
deriving Repr, Inhabited

/-- What is shown besides the entry itself. -/
structure LogLayout where
  time : Bool := true
  place : Bool := true
  thread : Bool := true
deriving DecidableEq, Repr, Inhabited

structure LogObject where
  fields : List (String × LogValue)
  /-- The spans, outermost first. -/
  spans : List (List (String × LogValue))
deriving DecidableEq, Repr, Inhabited

/-- A value in a line of text. -/
def LogValue.inLine : LogValue → String
  | text t => Text.quoted t
  | v => v.plain

def fieldTexts (fields : List (String × LogValue)) : List String :=
  fields.map fun (name, value) => name ++ "=" ++ value.inLine

def LogSpan.inLine (s : LogSpan) : String :=
  s.name ++ "\x7b" ++ Text.joined " " (fieldTexts s.fields) ++ "\x7d:"

def LogSpan.object (s : LogSpan) : List (String × LogValue) :=
  s.fields ++ [("name", .text s.name)]

namespace LogLayout

/-- A part of the line that is there or not. -/
def part (shown : Bool) (text : String) : String := if shown then text else ""

def twoDigits (n : Nat) : String := (if n < 10 then "0" else "") ++ toString n

/-- The level in five places. -/
def levelText (level : LogLevel) : String :=
  (if level.name.length < 5 then " " else "") ++ level.name

def text (l : LogLayout) (stamp : LogStamp) (e : LogEntry) : String :=
  part l.time (stamp.time ++ " ")
    ++ levelText e.level ++ " "
    ++ part l.thread
      (stamp.thread ++ " ThreadId(" ++ twoDigits stamp.threadNumber ++ ") ")
    ++ String.join (e.spans.map LogSpan.inLine)
    ++ part (!e.spans.isEmpty) " "
    ++ e.target ++ ": "
    ++ part l.place (stamp.place ++ ": ")
    ++ Text.joined " " (e.message.toList ++ fieldTexts e.fields)

/-- The entry as an object, which always shows the time. -/
def object (l : LogLayout) (stamp : LogStamp) (e : LogEntry) : LogObject :=
  let only (shown : Bool) (fields : List (String × LogValue)) := if shown then fields else []
  { fields :=
      [("timestamp", .text stamp.time), ("level", .text e.level.name)]
        ++ (e.message.toList.map fun m => ("message", .text m))
        ++ e.fields
        ++ [("target", .text e.target)]
        ++ only l.place [("filename", .text stamp.file), ("line_number", .text stamp.line)]
        ++ only l.thread
          [("threadName", .text stamp.thread),
            ("threadId", .text ("ThreadId(" ++ toString stamp.threadNumber ++ ")"))]
    spans := e.spans.map LogSpan.object }

end LogLayout

end SingleFlight
