import Mathlib.Data.List.Nodup
import Concorrd.Lib.Run

/-!
# WireGuard tunnels

The registry holds a tunnel a peer, and each tunnel has a forwarder task. `wrap_dial` looks a peer up,
waits for a socket, and then in one go starts the tunnel and registers it, unless another dial has
been faster. `force_disconnect_all` empties the registry and shuts down what it held, and knows
nothing of the dials that wait. Calls give way to each other only where they wait, so a run is a list
of the parts between the waits, in any order. A forwarder that was aborted counts as gone.

There is never more than one tunnel a peer, and no forwarder runs that is not registered. A
disconnect, though, lasts only as long as no dial that began before it comes to its end
(`disconnected_iff`).
-/

namespace Concorrd

open Machine

inductive WgTunnelError where
  | bind (error : String)
  | noLocalAddr
  | multiaddr (error : String)
  deriving DecidableEq, Repr

structure SocketAddr where
  ip : String
  port : Nat
  deriving DecidableEq, Repr

/-- What waiting for a socket ends with. A bound one may fail to name its address. -/
inductive BindOutcome where
  | fails (error : String)
  | bound (localAddr : Option SocketAddr)

/-- A tunnel. Its serial number tells it from every other one. -/
structure WgTunnel (PeerId : Type) where
  serial : Nat
  targetPeerId : PeerId
  localLoopbackAddr : SocketAddr
  deriving DecidableEq

/-- The address libp2p dials, where its own reader takes it. -/
def WgTunnel.wrappedMultiaddr {PeerId : Type} (read : String → Except String Unit)
    (tunnel : WgTunnel PeerId) : Except WgTunnelError String :=
  let s := "/ip4/" ++ tunnel.localLoopbackAddr.ip ++ "/udp/" ++
    toString tunnel.localLoopbackAddr.port ++ "/quic-v1"
  match read s with
  | .error e => .error (.multiaddr e)
  | .ok _ => .ok s

/-- The registry, the forwarders that run, and the next serial number. -/
structure WgRegistry (PeerId : Type) where
  inner : List (PeerId × WgTunnel PeerId)
  forwarders : List (WgTunnel PeerId)
  nextSerial : Nat

variable {PeerId : Type} [DecidableEq PeerId]

namespace WgRegistry

def get (s : WgRegistry PeerId) (peer : PeerId) : Option (WgTunnel PeerId) :=
  (s.inner.find? fun entry => entry.1 = peer).map Prod.snd

/-- Abort the forwarder of a tunnel. -/
def shutdown (forwarders : List (WgTunnel PeerId)) (tunnel : WgTunnel PeerId) :
    List (WgTunnel PeerId) :=
  forwarders.filter fun t => t ≠ tunnel

/-- A tunnel that nobody holds any more is shut down. -/
def dropTunnel (s : WgRegistry PeerId) (tunnel : WgTunnel PeerId) : WgRegistry PeerId :=
  { s with forwarders := shutdown s.forwarders tunnel }

/-- The tunnel of a socket, with its forwarder running. -/
def startTunnel (s : WgRegistry PeerId) (target : PeerId) :
    BindOutcome → Except WgTunnelError (WgTunnel PeerId) × WgRegistry PeerId
  | .fails e => (.error (.bind e), s)
  | .bound none => (.error .noLocalAddr, s)
  | .bound (some addr) =>
    let tunnel := ⟨s.nextSerial, target, addr⟩
    (.ok tunnel,
      { s with forwarders := s.forwarders ++ [tunnel], nextSerial := s.nextSerial + 1 })

def forceDisconnectAll (s : WgRegistry PeerId) : WgRegistry PeerId :=
  { s with
    inner := []
    forwarders := s.inner.foldl (fun forwarders entry => shutdown forwarders entry.2) s.forwarders }

/-- The part of a dial before it waits: the address of a tunnel that is registered. -/
def wrapDialFast (read : String → Except String Unit) (s : WgRegistry PeerId) (target : PeerId) :
    Option (Except WgTunnelError String) :=
  (s.get target).map (WgTunnel.wrappedMultiaddr read)

/-- The part of a dial after it has waited. -/
def wrapDialSlow (read : String → Except String Unit) (s : WgRegistry PeerId) (target : PeerId)
    (outcome : BindOutcome) : Except WgTunnelError String × WgRegistry PeerId :=
  match s.startTunnel target outcome with
  | (.error e, s) => (.error e, s)
  | (.ok tunnel, s) =>
    match tunnel.wrappedMultiaddr read with
    | .error e => (.error e, s.dropTunnel tunnel)
    | .ok wrapped =>
      match s.get target with
      | some existing => (existing.wrappedMultiaddr read, s.dropTunnel tunnel)
      | none => (.ok wrapped, { s with inner := s.inner ++ [(target, tunnel)] })

/-- The dial ends with a tunnel of its own: its socket is bound, the address reads, and no tunnel to
the peer is registered. -/
def Registers (read : String → Except String Unit) (s : WgRegistry PeerId) (target : PeerId)
    (outcome : BindOutcome) : Prop :=
  s.get target = none ∧ ∃ addr, outcome = .bound (some addr) ∧
    ∃ wrapped, (WgTunnel.mk s.nextSerial target addr).wrappedMultiaddr read = .ok wrapped

/-- A tunnel a peer is registered, under the peer, and a forwarder runs for registered ones only. -/
structure Sound (s : WgRegistry PeerId) : Prop where
  keyed : ∀ entry ∈ s.inner, entry.1 = entry.2.targetPeerId
  keys : (s.inner.map Prod.fst).Nodup
  registered : ∀ tunnel ∈ s.forwarders, (tunnel.targetPeerId, tunnel) ∈ s.inner
  targets : (s.forwarders.map WgTunnel.targetPeerId).Nodup

section

variable {read : String → Except String Unit} {s : WgRegistry PeerId} {target : PeerId}

theorem get_eq_none_iff : s.get target = none ↔ target ∉ s.inner.map Prod.fst := by
  simp only [get, Option.map_eq_none_iff, List.find?_eq_none, decide_eq_true_eq, List.mem_map,
    not_exists, not_and]

theorem shutdown_sublist (forwarders : List (WgTunnel PeerId)) (tunnel : WgTunnel PeerId) :
    (shutdown (forwarders ++ [tunnel]) tunnel).Sublist forwarders := by
  unfold shutdown
  rw [List.filter_append, List.filter_cons_of_neg (by simp), List.filter_nil, List.append_nil]
  exact List.filter_sublist

/-- A dial that ends registers the tunnel it started, or leaves nothing new running. -/
theorem wrapDialSlow_cases (read : String → Except String Unit) (s : WgRegistry PeerId)
    (target : PeerId) (outcome : BindOutcome) :
    let after := (s.wrapDialSlow read target outcome).2
    (s.Registers read target outcome ∧ ∃ tunnel, tunnel.targetPeerId = target ∧
      after.inner = s.inner ++ [(target, tunnel)] ∧
      after.forwarders = s.forwarders ++ [tunnel]) ∨
    (¬s.Registers read target outcome ∧ after.inner = s.inner ∧
      after.forwarders.Sublist s.forwarders) := by
  cases outcome with
  | fails e => exact .inr ⟨by rintro ⟨-, addr, ⟨⟩, -⟩, rfl, List.Sublist.refl _⟩
  | bound localAddr =>
    cases localAddr with
    | none => exact .inr ⟨by rintro ⟨-, addr, ⟨⟩, -⟩, rfl, List.Sublist.refl _⟩
    | some addr =>
      let tunnel : WgTunnel PeerId := ⟨s.nextSerial, target, addr⟩
      unfold wrapDialSlow startTunnel Registers
      dsimp only
      cases hread : tunnel.wrappedMultiaddr read with
      | error e =>
        refine .inr ⟨?_, rfl, shutdown_sublist _ _⟩
        rintro ⟨-, addr', same, wrapped, reads⟩
        cases same
        rw [hread] at reads
        cases reads
      | ok wrapped =>
        have same : get ⟨s.inner, s.forwarders ++ [tunnel], s.nextSerial + 1⟩ target =
          s.get target := rfl
        cases hget : s.get target with
        | none =>
          rw [hget] at same
          dsimp only
          rw [same]
          exact .inl ⟨⟨rfl, addr, rfl, wrapped, hread⟩, tunnel, rfl, rfl, rfl⟩
        | some existing =>
          rw [hget] at same
          dsimp only
          rw [same]
          exact .inr ⟨by rintro ⟨⟨⟩, -⟩, rfl, shutdown_sublist _ _⟩

omit [DecidableEq PeerId] in
/-- Fewer forwarders over the same registry. -/
theorem Sound.of_sublist {s' : WgRegistry PeerId} (sound : s.Sound) (same : s'.inner = s.inner)
    (fewer : s'.forwarders.Sublist s.forwarders) : s'.Sound :=
  ⟨same ▸ sound.keyed, same ▸ sound.keys,
    fun tunnel mem => same ▸ sound.registered tunnel (fewer.subset mem),
    sound.targets.sublist (fewer.map _)⟩

/-- A tunnel that is registered where there was none is the only one of its peer. -/
theorem Sound.register {s' : WgRegistry PeerId} {tunnel : WgTunnel PeerId} (sound : s.Sound)
    (absent : s.get target = none) (about : tunnel.targetPeerId = target)
    (inner : s'.inner = s.inner ++ [(target, tunnel)])
    (forwarders : s'.forwarders = s.forwarders ++ [tunnel]) : s'.Sound := by
  have fresh := get_eq_none_iff.mp absent
  refine ⟨?_, ?_, ?_, ?_⟩
  · intro entry mem
    rw [inner] at mem
    rcases List.mem_append.mp mem with mem | mem
    · exact sound.keyed entry mem
    · rw [List.mem_singleton.mp mem]
      exact about.symm
  · rw [inner, List.map_append]
    refine List.nodup_append.mpr ⟨sound.keys, List.nodup_singleton _, fun key mem key' new same => ?_⟩
    rw [same, List.mem_singleton.mp new] at mem
    exact fresh mem
  · intro t mem
    rw [forwarders] at mem
    rw [inner]
    rcases List.mem_append.mp mem with mem | mem
    · exact List.mem_append_left _ (sound.registered t mem)
    · rw [List.mem_singleton.mp mem, about]
      exact List.mem_append_right _ List.mem_cons_self
  · rw [forwarders, List.map_append]
    refine List.nodup_append.mpr
      ⟨sound.targets, List.nodup_singleton _, fun key mem key' new same => fresh ?_⟩
    obtain ⟨t, running, rfl⟩ := List.mem_map.mp mem
    have held := sound.registered t running
    rw [same, List.mem_singleton.mp new, about] at held
    exact List.mem_map.mpr ⟨_, held, rfl⟩

theorem sound_wrapDialSlow (sound : s.Sound) (outcome : BindOutcome) :
    (s.wrapDialSlow read target outcome).2.Sound := by
  rcases wrapDialSlow_cases read s target outcome with
    ⟨registers, tunnel, about, inner, forwarders⟩ | ⟨-, same, fewer⟩
  · exact sound.register registers.1 about inner forwarders
  · exact sound.of_sublist same fewer

/-- The forwarders that survive are those of no tunnel that was shut down. -/
theorem mem_foldl_shutdown_iff {entries : List (PeerId × WgTunnel PeerId)}
    {forwarders : List (WgTunnel PeerId)} {tunnel : WgTunnel PeerId} :
    tunnel ∈ entries.foldl (fun forwarders entry => shutdown forwarders entry.2) forwarders ↔
      tunnel ∈ forwarders ∧ ∀ entry ∈ entries, tunnel ≠ entry.2 := by
  induction entries generalizing forwarders with
  | nil => exact (and_iff_left fun entry mem => absurd mem List.not_mem_nil).symm
  | cons first entries ih =>
    rw [List.foldl_cons, ih, List.forall_mem_cons, shutdown, List.mem_filter, decide_eq_true_eq,
      and_assoc]

/-- A disconnect leaves no tunnel. -/
theorem forwarders_forceDisconnectAll (sound : s.Sound) : s.forceDisconnectAll.forwarders = [] := by
  refine List.eq_nil_iff_forall_not_mem.mpr fun tunnel mem => ?_
  obtain ⟨running, others⟩ := mem_foldl_shutdown_iff.mp mem
  exact others _ (sound.registered tunnel running) rfl

theorem sound_forceDisconnectAll (sound : s.Sound) : s.forceDisconnectAll.Sound := by
  have none := forwarders_forceDisconnectAll sound
  refine ⟨fun entry mem => absurd mem List.not_mem_nil, List.nodup_nil, fun tunnel mem => ?_, ?_⟩
  · rw [none] at mem
    cases mem
  · rw [none]
    exact List.nodup_nil

end

end WgRegistry

/-- A dial that waits for its socket, and how many disconnects were over when it began. -/
structure WaitingDial (PeerId : Type) where
  target : PeerId
  began : Nat

/-- The registry and the dials that wait, with how many disconnects are over, and whether a dial that
began after the last of them has registered a tunnel. -/
structure Tunnels (PeerId : Type) where
  registry : WgRegistry PeerId
  waiting : List (WaitingDial PeerId)
  disconnects : Nat
  renewed : Bool

inductive TunnelEvent (PeerId : Type) where
  | dial (target : PeerId)
  | bound (idx : Nat) (outcome : BindOutcome)
  | cancel (idx : Nat)
  | forceDisconnectAll
  | forwarderEnds (tunnel : WgTunnel PeerId)

namespace Tunnels

def start : Tunnels PeerId := ⟨⟨[], [], 1⟩, [], 0, false⟩

def step (read : String → Except String Unit) (s : Tunnels PeerId) :
    TunnelEvent PeerId → Tunnels PeerId
  | .dial target =>
    match s.registry.wrapDialFast read target with
    | some _ => s
    | none => { s with waiting := s.waiting ++ [⟨target, s.disconnects⟩] }
  | .bound idx outcome =>
    match s.waiting[idx]? with
    | none => s
    | some dial =>
      let registry := (s.registry.wrapDialSlow read dial.target outcome).2
      { s with
        registry
        waiting := s.waiting.eraseIdx idx
        renewed := s.renewed ||
          (s.registry.inner.length < registry.inner.length && dial.began = s.disconnects) }
  | .cancel idx => { s with waiting := s.waiting.eraseIdx idx }
  | .forceDisconnectAll =>
    { s with
      registry := s.registry.forceDisconnectAll
      disconnects := s.disconnects + 1
      renewed := false }
  | .forwarderEnds tunnel => { s with registry := s.registry.dropTunnel tunnel }

/-- What a hard disconnect promises of every state. -/
structure Hard (s : Tunnels PeerId) : Prop where
  one : (s.registry.inner.map Prod.fst).Nodup ∧
    (s.registry.forwarders.map WgTunnel.targetPeerId).Nodup
  registered : ∀ tunnel ∈ s.registry.forwarders, (tunnel.targetPeerId, tunnel) ∈ s.registry.inner
  gone : 0 < s.disconnects → s.renewed = false → s.registry.inner = [] ∧ s.registry.forwarders = []

/-- A dial that began before the last disconnect registers no tunnel before one that began after it
has. -/
def NoStraggler (read : String → Except String Unit) (s : Tunnels PeerId) :
    TunnelEvent PeerId → Prop
  | .bound idx outcome => ∀ dial, s.waiting[idx]? = some dial →
      s.registry.Registers read dial.target outcome → dial.began < s.disconnects → s.renewed = true
  | _ => True

section

variable {read : String → Except String Unit} {s : Tunnels PeerId}

/-- What every state keeps: the registry is sound, and no dial began after a disconnect to come. -/
structure Kept (s : Tunnels PeerId) : Prop where
  sound : s.registry.Sound
  began : ∀ dial ∈ s.waiting, dial.began ≤ s.disconnects

/-- After a disconnect, nothing is there until a dial that began after it has registered a tunnel. -/
def Gone (s : Tunnels PeerId) : Prop :=
  0 < s.disconnects → s.renewed = false → s.registry.inner = [] ∧ s.registry.forwarders = []

omit [DecidableEq PeerId] in
theorem hard_iff_gone (kept : s.Kept) : s.Hard ↔ s.Gone :=
  ⟨Hard.gone, fun gone => ⟨⟨kept.sound.keys, kept.sound.targets⟩, kept.sound.registered, gone⟩⟩

/-- What every state keeps, and the disconnect lasts. -/
def Lasts (s : Tunnels PeerId) : Prop := s.Kept ∧ s.Gone

theorem kept_step (kept : s.Kept) (e : TunnelEvent PeerId) : (s.step read e).Kept := by
  cases e with
  | dial target =>
    cases hfast : s.registry.wrapDialFast read target with
    | some answer =>
      simp only [step, hfast]
      exact kept
    | none =>
      simp only [step, hfast]
      refine ⟨kept.sound, fun dial mem => ?_⟩
      rcases List.mem_append.mp mem with mem | mem
      · exact kept.began dial mem
      · rw [List.mem_singleton.mp mem]
  | bound idx outcome =>
    cases hdial : s.waiting[idx]? with
    | none =>
      simp only [step, hdial]
      exact kept
    | some dial =>
      simp only [step, hdial]
      refine ⟨WgRegistry.sound_wrapDialSlow kept.sound outcome, fun other mem => ?_⟩
      exact kept.began other (List.mem_of_mem_eraseIdx mem)
  | cancel idx => exact ⟨kept.sound, fun dial mem => kept.began dial (List.mem_of_mem_eraseIdx mem)⟩
  | forceDisconnectAll =>
    exact ⟨WgRegistry.sound_forceDisconnectAll kept.sound,
      fun dial mem => Nat.le_succ_of_le (kept.began dial mem)⟩
  | forwarderEnds tunnel => exact ⟨kept.sound.of_sublist rfl List.filter_sublist, kept.began⟩

/-- A dial that ends while nothing may be there leaves nothing there, unless it is a straggler. -/
theorem gone_bound_iff (kept : s.Kept) (gone : s.Gone) (idx : Nat) (outcome : BindOutcome) :
    (s.step read (.bound idx outcome)).Gone ↔ s.NoStraggler read (.bound idx outcome) := by
  unfold NoStraggler
  cases hdial : s.waiting[idx]? with
  | none =>
    simp only [step, hdial]
    exact iff_of_true gone (by rintro dial ⟨⟩)
  | some dial =>
    have began := kept.began dial (List.mem_of_getElem? hdial)
    simp only [step, hdial, Gone, Option.some.injEq, forall_eq']
    rcases WgRegistry.wrapDialSlow_cases read s.registry dial.target outcome with
      ⟨registers, tunnel, -, inner, -⟩ | ⟨nothing, same, fewer⟩
    · have longer : s.registry.inner.length <
          (s.registry.wrapDialSlow read dial.target outcome).2.inner.length := by
        rw [inner, List.length_append]
        exact Nat.lt_succ_self _
      rw [decide_eq_true longer, Bool.true_and]
      constructor
      · intro after _ straggles
        by_contra renewed
        have empty := (after (Nat.zero_lt_of_lt straggles) (by
          rw [Bool.eq_false_iff.mpr renewed, Bool.false_or]
          exact decide_eq_false (Nat.ne_of_lt straggles))).1
        rw [inner] at empty
        exact absurd empty (by simp)
      · intro only _ unrenewed
        obtain ⟨before, other⟩ := Bool.or_eq_false_iff.mp unrenewed
        have straggles := Nat.lt_of_le_of_ne began (of_decide_eq_false other)
        rw [only registers straggles] at before
        cases before
    · rw [same, decide_eq_false (Nat.lt_irrefl _), Bool.false_and, Bool.or_false]
      refine iff_of_true (fun some_over unrenewed => ?_) fun registers => absurd registers nothing
      obtain ⟨empty, idle⟩ := gone some_over unrenewed
      exact ⟨empty, List.sublist_nil.mp (idle ▸ fewer)⟩

/-- A step of a state in which the disconnect lasts ends it only by the tunnel of a straggler. -/
theorem gone_step_iff (kept : s.Kept) (gone : s.Gone) (e : TunnelEvent PeerId) :
    (s.step read e).Gone ↔ s.NoStraggler read e := by
  cases e with
  | dial target =>
    refine iff_of_true ?_ trivial
    cases hfast : s.registry.wrapDialFast read target with
    | some answer =>
      simp only [step, hfast]
      exact gone
    | none =>
      simp only [step, hfast]
      exact gone
  | bound idx outcome => exact gone_bound_iff kept gone idx outcome
  | cancel idx => exact iff_of_true gone trivial
  | forceDisconnectAll =>
    exact iff_of_true (fun _ _ => ⟨rfl, WgRegistry.forwarders_forceDisconnectAll kept.sound⟩) trivial
  | forwarderEnds tunnel =>
    refine iff_of_true (fun some_over unrenewed => ?_) trivial
    obtain ⟨empty, idle⟩ := gone some_over unrenewed
    refine ⟨empty, ?_⟩
    show WgRegistry.shutdown s.registry.forwarders tunnel = []
    rw [idle]
    rfl

end

/-- In a run of dials and disconnects, however long each of them waits, every state keeps the promise
exactly when no dial that began before the last disconnect registers a tunnel before one that began
after it has. -/
theorem disconnected_iff (read : String → Except String Unit) (events : List (TunnelEvent PeerId)) :
    Along (step read) (fun s e => (s.step read e).Hard) start events ↔
      Along (step read) (fun s e => s.NoStraggler read e) start events := by
  have first : (start : Tunnels PeerId).Kept := by
    refine ⟨⟨?_, List.nodup_nil, ?_, List.nodup_nil⟩, ?_⟩ <;>
      exact fun x mem => absurd mem List.not_mem_nil
  -- One tunnel a peer and no forwarder of its own hold in any case; the rest is the last part.
  have agree : Along (step read) (fun s e => (s.step read e).Hard) start events ↔
      Along (step read) (fun s e => (s.step read e).Lasts) start events := by
    refine along_congr Kept (fun s e kept => kept_step kept e) (fun s e kept => ?_) first
    have after : (s.step read e).Kept := kept_step kept e
    rw [hard_iff_gone after]
    exact (and_iff_right after).symm
  rw [agree]
  have lasts : (start : Tunnels PeerId).Lasts :=
    ⟨first, fun some_over => absurd some_over (Nat.lt_irrefl 0)⟩
  refine along_step_iff (fun s e good => ?_) lasts
  exact (and_iff_right (kept_step good.1 e)).trans (gone_step_iff good.1 good.2 e)

/-! ## A dial and a disconnect -/

/-- A dial waits for its socket while everything is disconnected. -/
def dialAcross : List (TunnelEvent String) :=
  [.dial "12D3KooWPeer", .forceDisconnectAll, .bound 0 (.bound (some ⟨"127.0.0.1", 40000⟩))]

/-- The dial registers its tunnel after the disconnect. -/
theorem tunnel_after_disconnect : ¬∀ (read : String → Except String Unit)
    (events : List (TunnelEvent String)),
    Along (step read) (fun s e => (s.step read e).Hard) start events := by
  intro all
  have hard := (all (fun _ => .ok ()) dialAcross).2.2.1
  have gone : [("12D3KooWPeer", _)] = [] := (hard.gone (by decide) rfl).1
  cases gone

end Tunnels

end Concorrd
