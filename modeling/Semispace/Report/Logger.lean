import Semispace.Report.Notice
/-!
# Event loggers

Every event is reported. An enabled logger also prints the events that are important enough, and
keeps the most recent of them up to the length of its history.
-/

namespace Semispace

/-- What a logger prints and keeps. -/
structure LoggerConfig where
  /-- The least important level that is printed and kept. -/
  level : Level
  console : Bool
  /-- Events are printed as JSON lines. -/
  json : Bool
  /-- Printed lines start with the time of day. -/
  timestamps : Bool
  /-- The length of the history. -/
  history : Nat
  deriving DecidableEq, Repr

namespace LoggerConfig

/-- Keeps 256 events and prints nothing. -/
def standard : LoggerConfig := ⟨.info, false, false, true, 256⟩

/-- The logger of a collector; a verbose one prints the details too. -/
def ofConfig (c : Config) : LoggerConfig :=
  { standard with
    level := if c.verbose then .debug else .info
    console := c.verbose
    json := c.jsonLines }

/-- How a logger configuration is shown to a programmer. -/
def text (c : LoggerConfig) : String :=
  Text.record "GcLoggerConfig" [
    ("level", c.level.text),
    ("console", toString c.console),
    ("json", toString c.json),
    ("timestamps", toString c.timestamps),
    ("history", toString c.history)]

end LoggerConfig

/-- A queue without its oldest elements, as many as it takes to make it shorter than `n`. -/
def evict {α : Type} (n : Nat) : List α → List α
  | [] => []
  | x :: xs => if n ≤ (x :: xs).length then evict n xs else x :: xs

/-- A sink of events with a bounded history. -/
structure Logger where
  config : LoggerConfig
  enabled : Bool
  /-- The events kept, oldest first. -/
  events : List Event

namespace Logger

/-- An enabled logger without history. -/
def ofConfig (config : LoggerConfig) : Logger := ⟨config, true, []⟩

/-- Whether an event is printed and kept. -/
def accepts (l : Logger) (e : Event) : Bool :=
  l.enabled && e.level.rank ≤ l.config.level.rank

/-- The history after an event, which takes the place of the oldest when there is no other. -/
def keep (l : Logger) (e : Event) : Logger :=
  if !l.accepts e || l.config.history == 0 then l
  else { l with events := evict l.config.history l.events ++ [e] }

/-- The line an event is printed as. -/
def line (l : Logger) (e : Event) : ConsoleLine :=
  ⟨l.config.timestamps, if l.config.json then e.json else e.text⟩

/-- The journal after an event. -/
def record (l : Logger) (j : Journal) (e : Event) : Journal :=
  let j := j.report (.event e)
  if l.accepts e && l.config.console then { j with console := j.console.push (l.line e) } else j

/-- Lets events through. -/
def enable (l : Logger) : Logger := { l with enabled := true }

/-- Holds events back, though they are still reported. -/
def disable (l : Logger) : Logger := { l with enabled := false }

/-- Forgets the history. -/
def clear (l : Logger) : Logger := { l with events := [] }

/-- The length of the history so far. -/
def eventCount (l : Logger) : Nat := l.events.length

/-- How a logger is shown to a programmer. -/
def text (l : Logger) : String :=
  Text.record "GcLogger" [
    ("config", l.config.text),
    ("enabled", toString l.enabled),
    ("events", toString l.eventCount)]

end Logger

end Semispace
