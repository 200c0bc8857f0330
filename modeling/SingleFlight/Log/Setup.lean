import SingleFlight.Files
import SingleFlight.Log.Filter
import SingleFlight.Log.Layout

/-!
# Setting up the log

A program has one log. The first set-up that takes effect decides what is shown and where; later
ones are ignored. If something else already receives the entries, that set-up is refused.
-/

namespace SingleFlight

structure LogConfig where
  level : LogLevel := .info
  /-- Whether the console shows objects. -/
  isStructured : Bool := false
  showsPlace : Bool := true
  showsThread : Bool := true
  showsTime : Bool := true
  /-- Directives between commas. -/
  filters : Option String := none
deriving DecidableEq, Repr, Inhabited

namespace LogConfig

def development : LogConfig :=
  { level := .debug, filters := some "courier=debug,courier::pool=trace" }

def production : LogConfig := { isStructured := true, showsPlace := false }

/-- For tests: only what is important, the same in every run. -/
def test : LogConfig := { level := .warn, showsThread := false, showsTime := false }

def layout (c : LogConfig) : LogLayout :=
  { time := c.showsTime, place := c.showsPlace, thread := c.showsThread }

/-- Characters that may surround a directive. -/
def isBlank (c : Char) : Bool :=
  let n := c.toNat
  (0x09 ≤ n && n ≤ 0x0D) || n = 0x20 || n = 0x85 || n = 0xA0 || n = 0x1680
    || (0x2000 ≤ n && n ≤ 0x200A) || n = 0x2028 || n = 0x2029 || n = 0x202F || n = 0x205F
    || n = 0x3000

/-- The text without the blanks around it. -/
def trimmed (s : String) : String :=
  String.ofList (((s.toList.dropWhile isBlank).reverse.dropWhile isBlank).reverse)

def filter (c : LogConfig) (environment : Option String) : LogFilter :=
  let given : List String := ((environment.getD "").splitOn ",")
  let own : List String := (c.filters.map fun t => (t.splitOn ",").map trimmed).getD []
  ((LogFilter.addTexts [] given).add { limit := some c.level }).addTexts own

end LogConfig

/-- How the console shows entries. -/
inductive ConsoleStyle
  | text (layout : LogLayout)
  | objects (layout : LogLayout)
deriving DecidableEq, Repr, Inhabited

/-- What a set-up made. -/
structure LogReceiver where
  filter : LogFilter
  console : ConsoleStyle
  /-- A file that gets the entries too, as text with everything. -/
  file : Option String := none
deriving DecidableEq, Repr, Inhabited

inductive ConsoleOutput
  | text (s : String)
  | object (o : LogObject)
deriving DecidableEq, Repr, Inhabited

/-- What the console shows of an entry. -/
def ConsoleStyle.output (stamp : LogStamp) (e : LogEntry) : ConsoleStyle → ConsoleOutput
  | .text layout => .text (layout.text stamp e)
  | .objects layout => .object (layout.object stamp e)

/-- The log of a program. -/
structure LogSystem where
  /-- The directives that the environment gives. -/
  environment : Option String := none
  /-- Whether something else receives the entries. -/
  isTaken : Bool := false
  /-- Whether a set-up took effect or was refused. -/
  isDecided : Bool := false
  receiver : Option LogReceiver := none
  /-- How many set-ups were refused. -/
  refused : Nat := 0
  files : FileStore := {}
  /-- What the console shows, newest first. -/
  console : List ConsoleOutput := []
deriving Repr, Inhabited

namespace LogSystem

/-- The first set-up installs its receiver unless there is one. -/
def install (s : LogSystem) (receiver : LogReceiver) : LogSystem :=
  if s.isDecided then s
  else if s.isTaken then { s with isDecided := true, refused := s.refused + 1 }
  else { s with isDecided := true, receiver := some receiver }

/-- Sets up a log on the console; objects always show the time. -/
def setUp (s : LogSystem) (c : LogConfig) : LogSystem :=
  s.install
    { filter := c.filter s.environment
      console := if c.isStructured then .objects c.layout else .text c.layout }

/-- Sets up a log on the console, as text with the time, and in a file. The file is opened once
before anything else. -/
def setUpWithFile (s : LogSystem) (c : LogConfig) (path : String) : Except IoError LogSystem :=
  (s.files.append path "").map fun files =>
    { s with files }.install
      { filter := c.filter s.environment, console := .text { c.layout with time := true }
        file := some path }

/-- Something else receives the entries from now on, unless the log is set up. -/
def take (s : LogSystem) : LogSystem :=
  if s.receiver.isSome then s else { s with isTaken := true }

def write (s : LogSystem) (stamp : LogStamp) (e : LogEntry) : LogSystem :=
  match s.receiver with
  | none => s
  | some receiver =>
    match receiver.filter.select? e with
    | none => s
    | some shown =>
      let line := LogLayout.text {} stamp shown ++ "\n"
      let files := match receiver.file with
        | some path => (s.files.append path line).toOption.getD s.files
        | none => s.files
      { s with files, console := receiver.console.output stamp shown :: s.console }

end LogSystem

end SingleFlight
