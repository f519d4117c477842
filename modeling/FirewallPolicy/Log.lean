/-!
Log events.

An event has a level, the part of the program it comes from, and a text. The parts below return
what happened; the events are a function of that.
-/

namespace FirewallPolicy.Log

inductive Level where
  | debug
  | info
  | warning
  deriving DecidableEq, Repr

def Level.rank : Level → Nat
  | debug => 0
  | info => 1
  | warning => 2

inductive Origin where
  | dump
  | solver
  | search
  | equivalenceCommand
  | queryCommand
  deriving DecidableEq, Repr

structure Event where
  level : Level
  origin : Origin
  text : String
  deriving DecidableEq, Repr

def atLeast (level : Level) (events : List Event) : List Event :=
  events.filter fun e => level.rank ≤ e.level.rank

/-! ## Where events go -/

inductive Handler where
  | terminal
  | other
  deriving DecidableEq, Repr

structure Channel where
  level : Level
  handlers : List Handler
  /-- Whether events also go to the receivers of the whole process. -/
  propagates : Bool
  deriving DecidableEq, Repr

/-- What a terminal handler shows of an event: the text alone. -/
def terminalFormat : String := "%(message)s"

/-- Sets the level and leaves exactly one terminal handler, after the handlers of other kinds. -/
def Channel.configure (verbose : Bool) (channel : Channel) : Channel :=
  { level := if verbose then .debug else .info
    handlers := channel.handlers.filter (· != .terminal) ++ [.terminal]
    propagates := false }

def Channel.terminals (channel : Channel) : Nat := channel.handlers.count .terminal

end FirewallPolicy.Log
