import SingleFlight.Log.Setup
import SingleFlight.Log.Subject
import SingleFlight.Rehearsal.Workshop

/-!
# A log on the bench

A program that sets up its log, perhaps several times, and then makes entries. It runs on one
thread.
-/

namespace SingleFlight.Rehearsal

inductive LogAttempt
  | setUp (config : LogConfig)
  | setUpWithFile (config : LogConfig) (path : String)
  /-- Something else starts to receive the entries. -/
  | take

/-- What the program does that makes entries. -/
inductive LogAct
  | message (target : String) (level : LogLevel) (message : String)
  | action (id : ActionId) (event : String) (fields : List (String × LogValue))
  | pool (pool event : String) (fields : List (String × LogValue))
  | error (message : String) (fields : List (String × LogValue))
  /-- An entry in the span of a flight. -/
  | inFlight (id : ActionId) (kind : ActionKind) (fields : List (String × LogValue)) (inner : LogAct)
  /-- A scheduler without workers whose only action fails. -/
  | scheduler (message : String)

/-- What a scheduler without workers logs whose only action fails. -/
def failingRun (identity message : String) : List LogEntry :=
  let plan := Plan.register {} .set .unit false
  let script : ActionScript := { reply := .fail { root := .text message } }
  let (w, _) := Workshop.build {} 0 plan [script] none identity "" 1
  let (w, _) := w.step (.call 0 .owner (.act (.apply ⟨0⟩ .unit)))
  let (w, _) := w.step (.call 0 .owner .drop)
  plan.registrations.map Plan.registeredEntry
    ++ ((w.bench? 0).map fun b => b.log.reverse).getD []

/-- The entries that an act makes; `target` is the part of the program that acts. -/
def LogAct.entries (target identity : String) : LogAct → List LogEntry
  | .message t level m => [{ level, target := t, message := some m }]
  | .action id event fields => [actionEntry target id event fields]
  | .pool name event fields => [poolEntry target name event fields]
  | .error m fields => [errorEntry target m fields]
  | .inFlight id kind fields inner =>
    (inner.entries target identity).map fun e =>
      { e with spans := flightSpan target id kind fields :: e.spans }
  | .scheduler m => failingRun identity m

namespace LogBench

def attempt (s : LogSystem) : LogAttempt → LogSystem × Except IoError Unit
  | .setUp config => (s.setUp config, .ok ())
  | .setUpWithFile config path =>
    match s.setUpWithFile config path with
    | .ok s => (s, .ok ())
    | .error e => (s, .error e)
  | .take => (s.take, .ok ())

/-- Makes the attempts one after the other, with what each ended with and whether the log is set up
then. -/
def attempts (s : LogSystem) : List LogAttempt → LogSystem × List (Except IoError Unit × Bool)
  | [] => (s, [])
  | a :: rest =>
    let (s, answer) := attempt s a
    let isSetUp := s.receiver.isSome
    let (s, answers) := attempts s rest
    (s, (answer, isSetUp) :: answers)

def perform (s : LogSystem) (stamp : LogStamp) (target identity : String) (acts : List LogAct) :
    LogSystem :=
  (acts.flatMap (LogAct.entries target identity)).foldl (fun s e => s.write stamp e) s

/-- The lines of a text that ends each of them. -/
def linesOf (text : String) : List String := (text.splitOn "\n").dropLast

def console (s : LogSystem) : List ConsoleOutput :=
  s.console.reverse.flatMap fun
    | .text t => (linesOf (t ++ "\n")).map .text
    | .object o => [.object o]

end LogBench

/-- Opens a file for each of the texts and writes it. -/
def writeEach (s : FileStore) (path : String) : List String → FileStore × List (Except IoError Unit)
  | [] => (s, [])
  | text :: rest =>
    let (s, answer) := match s.append path text with
      | .ok s => (s, .ok ())
      | .error e => (s, .error e)
    let (s, answers) := writeEach s path rest
    (s, answer :: answers)

end SingleFlight.Rehearsal
