import Mathlib.Data.List.Basic

/-!
# Transport runtimes

The runtimes a servitude brings up and tears down. The homeservers, the Reticulum daemon and the
libp2p swarm hold a child process or a task between `start` and `stop`; the other runtimes hold
nothing. What the world outside answers to a call (a process that comes up, a kill that fails, a
probe) is a parameter of the call.
-/

namespace Concorrd

inductive TransportError where
  | startFailed (detail : String)
  | stopFailed (detail : String)
  | healthCheck (detail : String)
  | binaryNotFound (detail : String)
  | alreadyRunning
  | notRunning
  | notImplemented (what : String)
  | libP2p (detail : String)
  deriving DecidableEq, Repr

def TransportError.toString : TransportError → String
  | .startFailed detail => "transport start failed: " ++ detail
  | .stopFailed detail => "transport stop failed: " ++ detail
  | .healthCheck detail => "transport health check failed: " ++ detail
  | .binaryNotFound detail => "transport binary not found: " ++ detail
  | .alreadyRunning => "transport is already running"
  | .notRunning => "transport is not running"
  | .notImplemented what => "transport not yet implemented: " ++ what
  | .libP2p detail => "libp2p transport error: " ++ detail

/-- How an attempt to bring a process up ends. A child whose status cannot be read is an error, and
stays behind. -/
inductive StartOutcome where
  | comesUp
  | fails (e : TransportError)
  | strands (e : TransportError)

/-- What the transports of a handle meet, by their place in it. -/
structure Surroundings where
  starts : Nat → StartOutcome
  stops : Nat → Except TransportError Unit
  healthy : Nat → Bool

/-- A runtime. The flag of a runtime that has one says whether it holds its child or its task. -/
inductive TransportRuntime where
  | matrixFederation (child : Bool)
  | dendriteFederation (child : Bool)
  | wireGuard
  | mesh
  | tunnel
  | reticulum (child : Bool)
  | libP2p (swarmTask : Bool)
  | noop
  | noopNonCritical
  | failingNonCritical
  deriving DecidableEq, Repr

namespace TransportRuntime

def name : TransportRuntime → String
  | .matrixFederation _ => "matrix_federation"
  | .dendriteFederation _ => "matrix_federation"
  | .wireGuard => "wireguard"
  | .mesh => "mesh"
  | .tunnel => "tunnel"
  | .reticulum _ => "reticulum"
  | .libP2p _ => "libp2p"
  | .noop => "noop"
  | .noopNonCritical => "noop_noncritical"
  | .failingNonCritical => "failing_noncritical"

def isCritical : TransportRuntime → Bool
  | .matrixFederation _ | .dendriteFederation _ => true
  | .wireGuard | .mesh | .tunnel => true
  | .reticulum _ => false
  | .libP2p _ => false
  | .noop => true
  | .noopNonCritical => false
  | .failingNonCritical => false

/-- A homeserver is spawned and probed until it answers. -/
def startHomeserver (child : Bool) (outcome : StartOutcome) : Except TransportError Unit × Bool :=
  if child then (.error .alreadyRunning, true)
  else
    match outcome with
    | .comesUp => (.ok (), true)
    | .fails e => (.error e, false)
    | .strands e => (.error e, true)

/-- A daemon that is up already is a success, and one that is spawned is not waited for. -/
def startReticulum (child : Bool) (outcome : StartOutcome) : Except TransportError Unit × Bool :=
  if child then (.ok (), true)
  else
    match outcome with
    | .comesUp => (.ok (), true)
    | .fails e | .strands e => (.error e, false)

/-- The task of the swarm is kept once nothing can fail any more. -/
def startSwarm (swarmTask : Bool) (outcome : StartOutcome) : Except TransportError Unit × Bool :=
  if swarmTask then (.error .alreadyRunning, true)
  else
    match outcome with
    | .comesUp => (.ok (), true)
    | .fails e | .strands e => (.error e, false)

def start (outcome : StartOutcome) : TransportRuntime → Except TransportError Unit × TransportRuntime
  | .matrixFederation child => (startHomeserver child outcome).map id .matrixFederation
  | .dendriteFederation child => (startHomeserver child outcome).map id .dendriteFederation
  | .wireGuard => (.error (.notImplemented "wireguard"), .wireGuard)
  | .mesh => (.error (.notImplemented "mesh"), .mesh)
  | .tunnel => (.error (.notImplemented "tunnel"), .tunnel)
  | .reticulum child => (startReticulum child outcome).map id .reticulum
  | .libP2p swarmTask => (startSwarm swarmTask outcome).map id .libP2p
  | .noop => (.ok (), .noop)
  | .noopNonCritical => (.ok (), .noopNonCritical)
  | .failingNonCritical => (.error (.notImplemented "failing_noncritical"), .failingNonCritical)

/-- What is held is let go of whatever the kill answers, and nothing held is an error. -/
def stopHeld (held : Bool) (answer : Except TransportError Unit) : Except TransportError Unit :=
  if held then answer else .error .notRunning

def stop (answer : Except TransportError Unit) :
    TransportRuntime → Except TransportError Unit × TransportRuntime
  | .matrixFederation child => (stopHeld child answer, .matrixFederation false)
  | .dendriteFederation child => (stopHeld child answer, .dendriteFederation false)
  | .wireGuard => (.ok (), .wireGuard)
  | .mesh => (.ok (), .mesh)
  | .tunnel => (.ok (), .tunnel)
  | .reticulum _ => (.ok (), .reticulum false)
  | .libP2p swarmTask => (stopHeld swarmTask answer, .libP2p false)
  | .noop => (.ok (), .noop)
  | .noopNonCritical => (.ok (), .noopNonCritical)
  | .failingNonCritical => (.ok (), .failingNonCritical)

def isHealthy (probe : Bool) : TransportRuntime → Bool
  | .matrixFederation child => child && probe
  | .dendriteFederation child => child && probe
  | .wireGuard | .mesh | .tunnel => false
  | .reticulum child => child && probe
  | .libP2p swarmTask => swarmTask && probe
  | .noop | .noopNonCritical => true
  | .failingNonCritical => false

/-- A start leaves the runtime what it is. -/
@[simp] theorem name_start (outcome : StartOutcome) (t : TransportRuntime) :
    (t.start outcome).2.name = t.name := by
  cases t <;> rfl

@[simp] theorem isCritical_start (outcome : StartOutcome) (t : TransportRuntime) :
    (t.start outcome).2.isCritical = t.isCritical := by
  cases t <;> rfl

end TransportRuntime

end Concorrd
