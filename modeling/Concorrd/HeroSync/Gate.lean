import Concorrd.HeroSync.HeroBinding

/-!
# The two gates

A hero round may be opened with a peer that advertises an address of the tailnet, from an install
that has one, when both share a hero. `bothPass_iff` says when the two gates pass.
-/

namespace Concorrd

/-- A part of an address of a peer. -/
inductive MultiaddrProtocol where
  | ip4 (ip : UInt32)
  | other (text : String)
  deriving DecidableEq, Repr

abbrev Multiaddr := List MultiaddrProtocol

/-- The address lies in 100.64.0.0/10. -/
def inCgnat (ip : UInt32) : Bool := ip &&& 0xFFC00000 = 0x64400000

/-- The first IPv4 part of an address. -/
def extractIpv4 : Multiaddr → Option UInt32
  | [] => none
  | .ip4 ip :: _ => some ip
  | .other _ :: rest => extractIpv4 rest

/-- Some address of the peer lies in the range. -/
def anyMultiaddrInCgnat (addrs : List Multiaddr) : Bool :=
  addrs.any fun addr => (extractIpv4 addr).any inCgnat

/-- Some interface of the install has an address in the range. -/
def localInstallHasTailscaleBinding (localAddrs : List UInt32) : Bool := localAddrs.any inCgnat

structure TailscaleGateSnapshot where
  peerInCgnat : Bool
  localInCgnat : Bool
  deriving DecidableEq, Repr

namespace TailscaleGateSnapshot

def passes (snapshot : TailscaleGateSnapshot) : Bool :=
  snapshot.peerInCgnat && snapshot.localInCgnat

def evaluate (localAddrs : List UInt32) (peerMultiaddrs : List Multiaddr) : TailscaleGateSnapshot :=
  ⟨anyMultiaddrInCgnat peerMultiaddrs, localInstallHasTailscaleBinding localAddrs⟩

end TailscaleGateSnapshot

/-- What the gates say of a peer. -/
structure GateOutcome where
  tailscalePasses : Bool
  heroPasses : Bool
  tailscaleSnapshot : TailscaleGateSnapshot
  deriving DecidableEq, Repr

def GateOutcome.bothPass (outcome : GateOutcome) : Bool :=
  outcome.tailscalePasses && outcome.heroPasses

variable (fromSlice : List UInt8 → Except String ConcordUserResponse)

/-- Evaluate both gates for a peer. A peer off the tailnet is not asked for its hero. -/
def evaluateGates (binding : HeroBinding) (localAddrs : List UInt32) (peerId : String)
    (peerMultiaddrs : List Multiaddr) : Except HeroBindingError GateOutcome :=
  let snapshot := TailscaleGateSnapshot.evaluate localAddrs peerMultiaddrs
  if snapshot.passes = false then .ok ⟨false, false, snapshot⟩
  else
    match binding.sharesHeroWith fromSlice peerId with
    | .error e => .error e
    | .ok heroPasses => .ok ⟨true, heroPasses, snapshot⟩

variable {fromSlice : List UInt8 → Except String ConcordUserResponse} {binding : HeroBinding}
  {localAddrs : List UInt32} {peerId : String} {peerMultiaddrs : List Multiaddr}

/-- Both gates pass exactly when both ends are on the tailnet and share a hero. -/
theorem bothPass_iff :
    (∃ outcome, evaluateGates fromSlice binding localAddrs peerId peerMultiaddrs = .ok outcome ∧
      outcome.bothPass = true) ↔
      (TailscaleGateSnapshot.evaluate localAddrs peerMultiaddrs).passes = true ∧
        binding.sharesHeroWith fromSlice peerId = .ok true := by
  cases hpass : (TailscaleGateSnapshot.evaluate localAddrs peerMultiaddrs).passes with
  | false =>
    simp only [evaluateGates, hpass, if_true, Except.ok.injEq, exists_eq_left',
      GateOutcome.bothPass, Bool.and_self, Bool.false_eq_true, false_and]
  | true =>
    simp only [evaluateGates, hpass, Bool.true_eq_false, if_false, true_and]
    cases binding.sharesHeroWith fromSlice peerId with
    | error e => simp only [reduceCtorEq, false_and, exists_false]
    | ok heroPasses =>
      simp only [Except.ok.injEq, exists_eq_left', GateOutcome.bothPass, Bool.true_and]

end Concorrd
