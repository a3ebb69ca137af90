/-
What the program says while it runs.

An entry has a level, the part of the program that speaks, and a text. The journal keeps them in order; who listens
(console, file, nobody) is decided elsewhere.
-/
namespace KeyHold

/-- how grave an entry is -/
inductive Level where
  | debug
  | info
  | warning
  | error
  | critical
deriving DecidableEq, Repr

def Level.name : Level → String
  | debug => "DEBUG"
  | info => "INFO"
  | warning => "WARNING"
  | error => "ERROR"
  | critical => "CRITICAL"

/-- the rank that thresholds are compared with -/
def Level.rank : Level → Nat
  | debug => 10
  | info => 20
  | warning => 30
  | error => 40
  | critical => 50

/-- the part of the program that speaks -/
inductive Speaker where
  | generator
  | session
  | simulation
  | effector
  | sender
  | listener
  | host
  | commandLine
deriving DecidableEq, Repr

/-- the name an entry is signed with -/
def Speaker.name : Speaker → String
  | generator => "humanhold.engine.prng"
  | session => "humanhold.engine.session"
  | simulation => "humanhold.simulate"
  | effector => "humanhold.input.effectors"
  | sender => "humanhold.input.remote_sender"
  | listener => "humanhold.input.toggle_listener"
  | host => "humanhold.host"
  | commandLine => "humanhold.cli"

structure Entry where
  level : Level
  speaker : Speaker
  text : String
deriving DecidableEq, Repr

end KeyHold
