import SingleFlight.Log.Entry

/-!
# Filters of the log

A directive says how important the entries of a part of the program must be to be shown. Of the
directives whose target starts the target of an entry the longest one decides.
-/

namespace SingleFlight

abbrev LogLimit := Option LogLevel

namespace LogLimit

/-- The limit that a word or a digit names. -/
def parse? (word : String) : Option LogLimit :=
  match word.toLower with
  | "off" | "0" => some none
  | "error" | "1" => some (some .error)
  | "warn" | "2" => some (some .warn)
  | "info" | "3" => some (some .info)
  | "debug" | "4" => some (some .debug)
  | "trace" | "5" => some (some .trace)
  | _ => none

def includes : LogLimit → LogLevel → Bool
  | none, _ => false
  | some least, level => level.rank ≤ least.rank

end LogLimit

/-- What is shown of the targets that start with a text; every target starts with the empty one. -/
structure LogDirective where
  target : String := ""
  limit : LogLimit
deriving DecidableEq, Repr, Inhabited

namespace LogDirective

/-- Whether a character can stand in a target. -/
def isTargetChar (c : Char) : Bool :=
  c.isAlphanum || c = '_' || c = ':' || c = '-' || 0x80 ≤ c.toNat

/-- A limit for all targets, or a target with its limit; without one everything is shown. -/
def parse? (text : String) : Option LogDirective :=
  match LogLimit.parse? text with
  | some limit => some { limit }
  | none =>
    match text.toList.span isTargetChar with
    | ([], _) => none
    | (target, []) | (target, ['=']) =>
      some { target := String.ofList target, limit := some .trace }
    | (target, '=' :: word) =>
      (LogLimit.parse? (String.ofList word)).map fun limit =>
        { target := String.ofList target, limit }
    | _ => none

/-- Whether the directive is about a target. -/
def covers (d : LogDirective) (target : String) : Bool :=
  d.target.toList.isPrefixOf target.toList

end LogDirective

/-- Directives, at most one for a target. -/
abbrev LogFilter := List LogDirective

namespace LogFilter

/-- Adds a directive in place of the one for the same target. -/
def add (f : LogFilter) (d : LogDirective) : LogFilter :=
  f.filter (·.target ≠ d.target) ++ [d]

/-- Adds the directives of the texts that hold one. -/
def addTexts (f : LogFilter) (texts : List String) : LogFilter :=
  (texts.filterMap LogDirective.parse?).foldl add f

/-- The more specific one of two directives. -/
def closer (found : Option LogDirective) (d : LogDirective) : Option LogDirective :=
  match found with
  | none => some d
  | some best => if best.target.length < d.target.length then some d else some best

/-- The most specific directive about a target. -/
def find? (f : LogFilter) (target : String) : Option LogDirective :=
  (f.filter (·.covers target)).foldl closer none

/-- Whether entries and spans of a target are shown at a level. -/
def shows (f : LogFilter) (target : String) (level : LogLevel) : Bool :=
  match f.find? target with
  | none => false
  | some d => d.limit.includes level

/-- What is shown of an entry: without the spans that are not, or nothing. -/
def select? (f : LogFilter) (e : LogEntry) : Option LogEntry :=
  if f.shows e.target e.level then
    some { e with spans := e.spans.filter fun s => f.shows s.target s.level }
  else none

end LogFilter

end SingleFlight
