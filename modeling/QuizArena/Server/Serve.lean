import Mathlib.Logic.Function.Basic
import QuizArena.Lib.Timed
import QuizArena.Server.Telemetry

/-!
# Serving

`serve` as a transition system: its start, the future that waits for a signal, the one
that waits for the drain to time out, and what axum makes of the first. The futures, the
signals, the requests and the clock make their steps in any order. axum runs the shutdown
future to its end, stops accepting then, and is done when no request is in flight.
-/

namespace QuizArena.Server

open Lib

/-- `SignalKind`, of the signals that `serve` waits for. -/
inductive SignalKind where
  | interrupt
  | terminate
  deriving DecidableEq, Repr

/-- `Duration::from_secs`, in nanoseconds. -/
def fromSecs (seconds : Nat) : Nat := seconds * 10 ^ 9

/-- `propagation_delay`. -/
def propagationDelay : SignalKind → Nat
  | .interrupt => 0
  | .terminate => fromSecs 5

/-- `drain_timeout`. -/
def drainTimeout : Nat := fromSecs 10

/-- What can fail on the way to serving, in order. -/
inductive Startup where
  | reflector
  | bind
  | localAddr
  | sigint
  | sigterm
  deriving DecidableEq, Repr

def Startup.next : Startup → Option Startup
  | .reflector => some .bind
  | .bind => some .localAddr
  | .localAddr => some .sigint
  | .sigint => some .sigterm
  | .sigterm => none

/-- The signals with a handler, after a part of the start has gone well. -/
def Startup.install (installed : SignalKind → Bool) : Startup → SignalKind → Bool
  | .sigint => Function.update installed .interrupt true
  | .sigterm => Function.update installed .terminate true
  | .reflector | .bind | .localAddr => installed

/-- The errors `serve` returns. -/
inductive ServeError where
  | startup (step : Startup)
  | serving
  deriving DecidableEq, Repr

/-- Where `serve` stands. A process that gets a signal without a handler is killed. -/
inductive Stage where
  | starting (step : Startup)
  | selecting
  | shuttingDown
  | leaving (result : Except ServeError Unit)
  | returned (result : Except ServeError Unit)
  | killed

/-- Where the `shutdown` future stands. -/
inductive Shutdown where
  | notSpawned
  | selects
  | reports (signal : SignalKind)
  | delays (signal : SignalKind)
  | sleeps (signal : SignalKind) (deadline : Nat)
  | completed
  deriving DecidableEq, Repr

/-- The sending half of the channel that starts the drain. -/
inductive Sender where
  | held
  | sent
  | dropped
  deriving DecidableEq, Repr

/-- Where the `drain_deadline` future stands. -/
inductive Drain where
  | awaits
  | sleeps (deadline : Nat)
  | completed
  deriving DecidableEq, Repr

/-- What the health service reports. -/
inductive Health where
  | serving
  | notServing
  deriving DecidableEq, Repr

structure State where
  now : Nat
  stage : Stage
  installed : SignalKind → Bool
  /-- The signals that have arrived and that nobody has received. -/
  unread : SignalKind → Bool
  health : Health
  shutdown : Shutdown
  sender : Sender
  drain : Drain
  accepting : Bool
  inFlight : Nat
  /-- The handle, until it is moved. -/
  telemetry : Option Telemetry
  /-- What has been shut down of the exporters. -/
  exported : List Report

/-- `serve` is called. -/
def State.start (telemetry : Telemetry) : State where
  now := 0
  stage := .starting .reflector
  installed := fun _ => false
  unread := fun _ => false
  health := .serving
  shutdown := .notSpawned
  sender := .held
  drain := .awaits
  accepting := false
  inFlight := 0
  telemetry := some telemetry
  exported := []

/-- What happens. -/
inductive Label where
  | tick (time : Nat)
  | arrives (signal : SignalKind)
  | starts (ok : Bool)
  | receives (signal : SignalKind)
  | reports
  | delays
  | sends
  | drops
  | wakes
  | expires
  | stops
  | accepts
  | completes
  | serves (ok : Bool)
  | shutsDown
  | returns
  deriving DecidableEq, Repr

inductive Step : State → Label → State → Prop where
  | tick (s : State) (time : Nat) : Step s (.tick time) { s with now := s.now + time }
  | arrives {s : State} {signal : SignalKind} : s.installed signal = true →
      Step s (.arrives signal) { s with unread := Function.update s.unread signal true }
  | kills {s : State} {signal : SignalKind} : s.installed signal = false →
      Step s (.arrives signal) { s with stage := .killed }
  -- The start.
  | starts {s : State} {step next : Startup} : s.stage = .starting step → step.next = some next →
      Step s (.starts true)
        { s with stage := .starting next, installed := step.install s.installed }
  | listens {s : State} {step : Startup} : s.stage = .starting step → step.next = none →
      Step s (.starts true) { s with
        stage := .selecting, installed := step.install s.installed, shutdown := .selects,
        accepting := true }
  | startFails {s : State} {step : Startup} : s.stage = .starting step →
      Step s (.starts false) { s with stage := .leaving (.error (.startup step)) }
  -- The shutdown future.
  | receives {s : State} {signal : SignalKind} : s.shutdown = .selects → s.unread signal = true →
      Step s (.receives signal) { s with
        unread := Function.update s.unread signal false, shutdown := .reports signal }
  | reports {s : State} {signal : SignalKind} : s.shutdown = .reports signal →
      Step s .reports { s with health := .notServing, shutdown := .delays signal }
  | delays {s : State} {signal : SignalKind} : s.shutdown = .delays signal →
      Step s .delays { s with shutdown := .sleeps signal (s.now + propagationDelay signal) }
  | sends {s : State} {signal : SignalKind} {deadline : Nat} :
      s.shutdown = .sleeps signal deadline → deadline ≤ s.now →
      Step s .sends { s with shutdown := .completed, sender := .sent }
  -- It is dropped unfinished only with the rest of `serve`.
  | drops {s : State} : (∀ step, s.stage ≠ .starting step) → s.stage ≠ .selecting →
      s.shutdown ≠ .notSpawned → s.shutdown ≠ .completed →
      Step s .drops { s with sender := .dropped }
  -- The drain deadline, which wakes as well when the sender has been dropped.
  | wakes {s : State} : s.stage = .selecting → s.drain = .awaits → s.sender ≠ .held →
      Step s .wakes { s with drain := .sleeps (s.now + drainTimeout) }
  | expires {s : State} {deadline : Nat} : s.stage = .selecting → s.drain = .sleeps deadline →
      deadline ≤ s.now →
      Step s .expires { s with stage := .shuttingDown, drain := .completed, accepting := false }
  -- axum.
  | stops {s : State} : s.stage = .selecting → s.shutdown = .completed → s.accepting = true →
      Step s .stops { s with accepting := false }
  | accepts {s : State} : s.stage = .selecting → s.accepting = true →
      Step s .accepts { s with inFlight := s.inFlight + 1 }
  | completes {s : State} {n : Nat} : s.inFlight = n + 1 →
      Step s .completes { s with inFlight := n }
  | serves {s : State} : s.stage = .selecting → s.accepting = false → s.inFlight = 0 →
      Step s (.serves true) { s with stage := .shuttingDown }
  | servingFails {s : State} : s.stage = .selecting → s.accepting = false → s.inFlight = 0 →
      Step s (.serves false) { s with stage := .leaving (.error .serving) }
  -- The end.
  | shutsDown {s : State} {telemetry : Telemetry} : s.stage = .shuttingDown →
      s.telemetry = some telemetry →
      Step s .shutsDown { s with
        stage := .leaving (.ok ()), telemetry := none,
        exported := s.exported ++ telemetry.shutdown }
  | returns {s : State} {result : Except ServeError Unit} : s.stage = .leaving result →
      Step s .returns { s with
        stage := .returned result, telemetry := none,
        exported := s.exported ++ s.telemetry.elim [] Telemetry.drop }

/-- The runs of `serve`. -/
def Run (telemetry : Telemetry) (labels : List Label) (s : State) : Prop :=
  Trace Step (.start telemetry) labels s

/-- The time a label takes. -/
def Label.time : Label → Nat
  | .tick time => time
  | _ => 0

/-- The steps in which the two futures get on. -/
def Label.isPhase : Label → Bool
  | .receives _ | .reports | .delays | .sends | .wakes | .expires => true
  | _ => false

/-- The steps of the two futures in a run, and when they come. -/
def phases (labels : List Label) : List (Nat × Label) := timeline Label.time Label.isPhase labels

/-- The time that has gone by since `serve` was called. -/
def timeOf (labels : List Label) : Nat := elapsed Label.time labels

theorem Step.now {s s' : State} {label : Label} (h : Step s label s') :
    s'.now = s.now + label.time := by
  cases h <;> rfl

end QuizArena.Server
