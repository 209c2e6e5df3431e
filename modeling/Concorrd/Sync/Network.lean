import Concorrd.HeroSync.Protocol
import Concorrd.Lib.Run
import Concorrd.Porch.LocalOp
import Concorrd.Porch.Migrate

/-!
# A network of devices

Every device has a porch, and every delta a device ever collected stays in flight: it may be
applied by any device, at any later moment, any number of times or never. The rounds of the
two protocols are events too, with their checks, so a run of the network interleaves local
writes, whole rounds and single exchanges in any order. What a device refuses leaves its
porch as it was.
-/

namespace Concorrd

/-- The porches of the devices and the deltas in flight. -/
structure Network (ι : Type) where
  porch : ι → Porch
  wire : List SyncDelta

/-- What can happen on the network. -/
inductive NetEvent (ι : Type) where
  | write (i : ι) (op : LocalOp)
  | link (i : ι) (peerId deviceId : String) (label : Option String) (now : Int64)
  | unlink (i : ι) (peerId : String)
  | send (i : ι) (cursor : SyncCursor)
  | receive (i : ι) (n : Nat)
  | sync (i j : ι) (now : Int64)
  | hero (i j : ι) (fresh : Nat → String × Int64)

namespace Network

variable {ι : Type} [DecidableEq ι] (codec : JsonCodec) (peerId : ι → String)

/-- The network with the porch of one device replaced. -/
def set (net : Network ι) (i : ι) (p : Porch) : Network ι :=
  { net with porch := Function.update net.porch i p }

/-- One event. A device does not dial itself. -/
def step (net : Network ι) : NetEvent ι → Network ι
  | .write i op => net.set i ((net.porch i).afterWrite op)
  | .link i peer deviceId label now =>
    match (net.porch i).linkPersonalDevice peer deviceId label now with
    | .ok p => net.set i p
    | .error _ => net
  | .unlink i peer => net.set i ((net.porch i).unlinkDevice peer)
  | .send i cursor => { net with wire := net.wire ++ [(net.porch i).db.collectDelta cursor] }
  | .receive i n =>
    match net.wire[n]? with
    | none => net
    | some delta =>
      match (net.porch i).applySyncBatch delta with
      | .ok (p, _) => net.set i p
      | .error _ => net
  | .sync i j now =>
    if i = j then net
    else
      let round := (net.porch i).syncNow (peerId i) (net.porch j) (peerId j) now
      (net.set i round.caller).set j round.remote
  | .hero i j fresh =>
    if i = j then net
    else
      let round := (net.porch i).runHeroSyncRound codec fresh (net.porch j)
      (net.set i round.initiator).set j round.responder

/-- The network after the events. -/
abbrev run (net : Network ι) (events : List (NetEvent ι)) : Network ι :=
  Machine.run (step codec peerId) net events

/-- Devices that have just opened their porches. -/
def start (old : ι → OldDatabase) (args : ι → Porch.OpenArgs) : Network ι where
  porch i := Porch.opened (old i) (args i)
  wire := []

/-- The network is reached from opened porches with distinct device ids and peer ids. -/
def Reachable (net : Network ι) : Prop :=
  ∃ codec old args events, Function.Injective (fun i => (args i : Porch.OpenArgs).deviceId) ∧
    Function.Injective peerId ∧ net = run codec peerId (start old args) events

variable {net : Network ι} {i j : ι} {p : Porch}

@[simp] theorem porch_set_self : (net.set i p).porch i = p := by
  simp only [set, Function.update_self]

@[simp] theorem porch_set_other (h : j ≠ i) : (net.set i p).porch j = net.porch j := by
  simp only [set, Function.update_of_ne h]

end Network

/-! ## Two devices of one user -/

/-- What opening draws on each of the two. -/
def pairArgs : Bool → Porch.OpenArgs
  | false => ⟨"device-a", "profile-a", 1, true⟩
  | true => ⟨"device-b", "profile-b", 1, true⟩

/-- The peer id of each. -/
def pairPeer : Bool → String
  | false => "peer-a"
  | true => "peer-b"

/-- Each records the other as a personal device. -/
def pairLinks : List (NetEvent Bool) :=
  [.link false "peer-b" "device-b" none 1, .link true "peer-a" "device-a" none 1]

/-- The two devices, opened on old databases and linked, after events. -/
def pairAfter (old : Bool → OldDatabase) (events : List (NetEvent Bool)) : Network Bool :=
  Network.run default pairPeer (Network.start old pairArgs) (pairLinks ++ events)

theorem pairArgs_injective : Function.Injective fun i => (pairArgs i).deviceId := by
  intro i j h
  cases i <;> cases j
  · rfl
  · exact absurd h (by decide)
  · exact absurd h (by decide)
  · rfl

theorem pairPeer_injective : Function.Injective pairPeer := by
  intro i j h
  cases i <;> cases j
  · rfl
  · exact absurd h (by decide)
  · exact absurd h (by decide)
  · rfl

theorem reachable_pairAfter (old : Bool → OldDatabase) (events : List (NetEvent Bool)) :
    (pairAfter old events).Reachable pairPeer :=
  ⟨default, old, pairArgs, pairLinks ++ events, pairArgs_injective, pairPeer_injective, rfl⟩

end Concorrd
