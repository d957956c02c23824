/-
  This file defines the events that the filter logs.

  Key definitions include:
    * `Log.Span`
    * `Log.Level`
    * `Log.Event`
    * `Log.Event.render`
-/

namespace MailFilter.Log

/- What an event is about. -/
inductive Span where
  /- What came in from the other side of a connection. -/
  | incoming
  /- What went out to the other side of a connection. -/
  | outgoing
  /- What the filter did by itself. -/
  | internal
deriving DecidableEq, Repr

/- How much an event matters. -/
inductive Level where
  | error
  | warn
  | info
  | debug
  | trace
deriving DecidableEq, Repr

/- The name of a span. -/
def Span.name : Span → String
  | .incoming => "incoming"
  | .outgoing => "outgoing"
  | .internal => "internal"

/- The name of a level. -/
def Level.name : Level → String
  | .error => "ERROR"
  | .warn => "WARN"
  | .info => "INFO"
  | .debug => "DEBUG"
  | .trace => "TRACE"

/- Events of this level are logged even if not all are. -/
def Level.isNotable : Level → Bool
  | .error => true
  | .warn => true
  | .info => true
  | .debug => false
  | .trace => false

/-
  An event: what it is about, how much it matters, the
  transaction that it belongs to, if any, and its text.
-/
structure Event where
  span : Span := .internal
  level : Level := .trace
  transaction : Option Nat := none
  text : String
deriving DecidableEq, Repr

namespace Event

/- An event of the filter itself. -/
def internal
    (level : Level)
    (text : String) : Event :=
  { level := level, text := text }

/- An event of the filter in a transaction. -/
def about
    (level : Level)
    (id : Nat)
    (text : String) : Event :=
  { level := level, transaction := some id, text := text }

/- The line of an event. -/
def render
    (event : Event) : String :=
  let mark :=
    match event.transaction with
    | none => ""
    | some id => "[" ++ toString id ++ "] "
  event.level.name ++ " " ++ event.span.name ++ ": " ++ mark ++
    event.text

end Event

end MailFilter.Log
