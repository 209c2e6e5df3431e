import Concorrd.Lib.Run
import Concorrd.Lib.Walk

/-!
# The noise gate

The processor of the microphone keeps one Web Audio node for each of its fields. A restart destroys
the graph and builds a new one, and `routeClarity` joins the filter and the output by the dry edge or
by the clarity chain. A flag remembers which of the two is joined, and a call that would join what the
flag says is joined does nothing.

`routed_iff` says when every call leaves one path between the source and the output: the flag of a
fresh graph stands for the dry edge, which nobody has joined, so no restart may find clarity switched
off.
-/

namespace Concorrd

open Walk

/-- The fields that hold a node. -/
inductive AudioField where
  | sourceNode
  | highpassFilter
  | clarityNotch
  | clarityPresence
  | claritySibilance
  | clarityCompressor
  | clarityMakeupGain
  | analyserNode
  | outputGainNode
  | gateGainNode
  | destinationNode
  deriving DecidableEq, Repr

/-- A node of the audio context: the restart that made it, and the field it was made for. -/
structure AudioNode where
  restart : Nat
  field : AudioField
  deriving DecidableEq, Repr

/-- The switches among the settings; the others are numbers that tune a node. -/
structure VoiceInputSettings where
  inputNoiseGateEnabled : Bool
  voiceClarityEnabled : Option Bool
  deriving DecidableEq, Repr

/-- Clarity is on unless it is switched off. -/
def VoiceInputSettings.clarityOn (settings : VoiceInputSettings) : Bool :=
  settings.voiceClarityEnabled ≠ some false

/-- The track of the microphone, and the first track of the stream that the graph ends in. -/
structure AudioProcessorOptions where
  track : String
  outputTrack : Option String
  deriving DecidableEq, Repr

/-- The processor, with the connections of the audio context and the number of its restarts. -/
structure ConcordNoiseGateProcessor where
  settings : VoiceInputSettings
  node : AudioField → Option AudioNode
  clarityBypassed : Bool
  monitoring : Bool
  gateOpen : Bool
  heldUntilMs : Int
  processedTrack : Option String
  ownsProcessedTrack : Bool
  connections : Finset (AudioNode × AudioNode)
  restarts : Nat

namespace ConcordNoiseGateProcessor

def new (settings : VoiceInputSettings) : ConcordNoiseGateProcessor where
  settings := settings
  node := fun _ => none
  clarityBypassed := true
  monitoring := false
  gateOpen := false
  heldUntilMs := 0
  processedTrack := none
  ownsProcessedTrack := false
  connections := ∅
  restarts := 0

/-! ## Connections -/

/-- `a.connect(b)` for the nodes of two fields. -/
def connect (s : ConcordNoiseGateProcessor) (e : AudioField × AudioField) :
    ConcordNoiseGateProcessor :=
  { s with
    connections :=
      match s.node e.1, s.node e.2 with
      | some a, some b => insert (a, b) s.connections
      | _, _ => s.connections }

/-- `a.disconnect(b)` for the nodes of two fields; that they are not connected is ignored. -/
def disconnect (s : ConcordNoiseGateProcessor) (e : AudioField × AudioField) :
    ConcordNoiseGateProcessor :=
  { s with
    connections :=
      match s.node e.1, s.node e.2 with
      | some a, some b => s.connections.erase (a, b)
      | _, _ => s.connections }

/-- Drop what leaves the node of a field. -/
def safeDisconnect (s : ConcordNoiseGateProcessor) (field : AudioField) :
    ConcordNoiseGateProcessor :=
  { s with connections := s.connections.filter fun e => s.node field ≠ some e.1 }

/-- Drop the edges of both routes. -/
def dropRoutes (s : ConcordNoiseGateProcessor) : ConcordNoiseGateProcessor :=
  [(AudioField.highpassFilter, AudioField.outputGainNode), (.clarityMakeupGain, .outputGainNode),
    (.highpassFilter, .clarityNotch)].foldl disconnect s

def joinRoute (engaged : Bool) (s : ConcordNoiseGateProcessor) : ConcordNoiseGateProcessor :=
  if engaged then
    [(AudioField.highpassFilter, AudioField.clarityNotch),
      (.clarityMakeupGain, .outputGainNode)].foldl connect s
  else [(AudioField.highpassFilter, AudioField.outputGainNode)].foldl connect s

/-- Join the filter and the output by the clarity chain or by the dry edge, and set the flag. -/
def routeClarity (engaged : Bool) (s : ConcordNoiseGateProcessor) : ConcordNoiseGateProcessor :=
  if (s.node .highpassFilter).isNone || (s.node .outputGainNode).isNone ||
      (s.node .clarityNotch).isNone || (s.node .clarityMakeupGain).isNone then s
  else if engaged = !s.clarityBypassed then s
  else { joinRoute engaged (dropRoutes s) with clarityBypassed := !engaged }

/-! ## Calls -/

/-- The fields in the order in which a destruction disconnects them. -/
def fields : List AudioField :=
  [.sourceNode, .highpassFilter, .clarityNotch, .clarityPresence, .claritySibilance,
    .clarityCompressor, .clarityMakeupGain, .analyserNode, .outputGainNode, .gateGainNode,
    .destinationNode]

def destroy (s : ConcordNoiseGateProcessor) : ConcordNoiseGateProcessor :=
  { fields.foldl safeDisconnect s with
    monitoring := false
    node := fun _ => none
    processedTrack := none
    ownsProcessedTrack := false
    clarityBypassed := true }

/-- What every graph is wired with, whatever the route. -/
def staticWiring : List (AudioField × AudioField) :=
  [(.sourceNode, .highpassFilter), (.highpassFilter, .analyserNode),
    (.clarityNotch, .clarityPresence), (.clarityPresence, .claritySibilance),
    (.claritySibilance, .clarityCompressor), (.clarityCompressor, .clarityMakeupGain),
    (.outputGainNode, .gateGainNode), (.gateGainNode, .destinationNode)]

/-- A new node for every field. -/
def createNodes (s : ConcordNoiseGateProcessor) : ConcordNoiseGateProcessor :=
  { s with
    gateOpen := !s.settings.inputNoiseGateEnabled
    heldUntilMs := 0
    node := fun field => some ⟨s.restarts, field⟩
    restarts := s.restarts + 1 }

/-- Publish the track that the graph ends in, or else the microphone's own, and watch the level. -/
def publish (opts : AudioProcessorOptions) (s : ConcordNoiseGateProcessor) :
    ConcordNoiseGateProcessor :=
  { s with
    processedTrack := some (opts.outputTrack.getD opts.track)
    ownsProcessedTrack := opts.outputTrack.isSome
    monitoring := true }

def restart (opts : AudioProcessorOptions) (s : ConcordNoiseGateProcessor) :
    ConcordNoiseGateProcessor :=
  publish opts
    ((staticWiring.foldl connect s.destroy.createNodes).routeClarity s.settings.clarityOn)

def init (opts : AudioProcessorOptions) (s : ConcordNoiseGateProcessor) :
    ConcordNoiseGateProcessor :=
  restart opts s

/-- Take the settings over, and open the gate where it is switched off. -/
def takeSettings (settings : VoiceInputSettings) (s : ConcordNoiseGateProcessor) :
    ConcordNoiseGateProcessor :=
  if (s.node .gateGainNode).isSome && !settings.inputNoiseGateEnabled then
    { s with settings := settings, gateOpen := true, heldUntilMs := 0 }
  else { s with settings := settings }

def updateSettings (settings : VoiceInputSettings) (s : ConcordNoiseGateProcessor) :
    ConcordNoiseGateProcessor :=
  if settings.clarityOn ≠ s.settings.clarityOn then
    (s.takeSettings settings).routeClarity settings.clarityOn
  else s.takeSettings settings

inductive Call where
  | init (opts : AudioProcessorOptions)
  | restart (opts : AudioProcessorOptions)
  | updateSettings (settings : VoiceInputSettings)
  | destroy
  deriving DecidableEq, Repr

def step (s : ConcordNoiseGateProcessor) : Call → ConcordNoiseGateProcessor
  | .init opts => s.init opts
  | .restart opts => s.restart opts
  | .updateSettings settings => s.updateSettings settings
  | .destroy => s.destroy

/-! ## The route -/

/-- The fields that the voice passes behind the source. -/
def route : Bool → List AudioField
  | true => [.highpassFilter, .clarityNotch, .clarityPresence, .claritySibilance,
      .clarityCompressor, .clarityMakeupGain, .outputGainNode]
  | false => [.highpassFilter, .outputGainNode]

/-- While there is a source, there is one path from it to the output: the one that the settings ask
for. -/
def Routed (s : ConcordNoiseGateProcessor) : Prop :=
  ∀ source ∈ s.node .sourceNode, ∃ output ∈ s.node .outputGainNode,
    ∀ path, IsWalk s.connections output source path ↔
      path.map some = (route s.settings.clarityOn).map s.node

/-- A restart finds clarity switched on. -/
def Careful (s : ConcordNoiseGateProcessor) : Call → Prop
  | .init _ => s.settings.clarityOn = true
  | .restart _ => s.settings.clarityOn = true
  | _ => True

/-! ## The graph of a restart -/

/-- The nodes of one restart. -/
def nodeOf (restart : Nat) : AudioField ↪ AudioNode where
  toFun field := ⟨restart, field⟩
  inj' _ _ same := congrArg AudioNode.field same

/-- The fields hold the nodes of one restart, which are connected like this and no other node is. -/
structure Carries (s : ConcordNoiseGateProcessor) (restart : Nat)
    (graph : Finset (AudioField × AudioField)) : Prop where
  node : s.node = fun field => some (nodeOf restart field)
  connections : s.connections = graph.map ((nodeOf restart).prodMap (nodeOf restart))

/-- The edges that a route adds to the static ones. -/
def tail : Bool → Finset (AudioField × AudioField)
  | true => {(.highpassFilter, .clarityNotch), (.clarityMakeupGain, .outputGainNode)}
  | false => {(.highpassFilter, .outputGainNode)}

variable {s : ConcordNoiseGateProcessor} {restart : Nat} {graph : Finset (AudioField × AudioField)}

theorem connect_carries (carries : s.Carries restart graph) (e : AudioField × AudioField) :
    (s.connect e).Carries restart (insert e graph) := by
  refine ⟨carries.node, ?_⟩
  unfold connect
  rw [carries.node, carries.connections, Finset.map_insert]
  rfl

theorem disconnect_carries (carries : s.Carries restart graph) (e : AudioField × AudioField) :
    (s.disconnect e).Carries restart (graph.erase e) := by
  refine ⟨carries.node, ?_⟩
  unfold disconnect
  rw [carries.node, carries.connections, Finset.map_erase]
  rfl

theorem foldl_connect_carries (edges : List (AudioField × AudioField))
    (carries : s.Carries restart graph) :
    (edges.foldl connect s).Carries restart (edges.foldl (fun graph e => insert e graph) graph) := by
  induction edges generalizing s graph with
  | nil => exact carries
  | cons e edges ih => exact ih (connect_carries carries e)

theorem foldl_disconnect_carries (edges : List (AudioField × AudioField))
    (carries : s.Carries restart graph) :
    (edges.foldl disconnect s).Carries restart (edges.foldl Finset.erase graph) := by
  induction edges generalizing s graph with
  | nil => exact carries
  | cons e edges ih => exact ih (disconnect_carries carries e)

/-- The edges that can be joined when a route is taken. -/
def Joined (graph : Finset (AudioField × AudioField)) : Prop :=
  graph = staticWiring.toFinset ∨ ∃ engaged, graph = staticWiring.toFinset ∪ tail engaged

/-- Dropping the edges of both routes leaves the static ones. -/
theorem dropRoutes_carries (joined : Joined graph) (carries : s.Carries restart graph) :
    s.dropRoutes.Carries restart staticWiring.toFinset := by
  have dropped := foldl_disconnect_carries [(AudioField.highpassFilter, AudioField.outputGainNode),
    (.clarityMakeupGain, .outputGainNode), (.highpassFilter, .clarityNotch)] carries
  have left : [(AudioField.highpassFilter, AudioField.outputGainNode),
      (.clarityMakeupGain, .outputGainNode), (.highpassFilter, .clarityNotch)].foldl Finset.erase graph =
        staticWiring.toFinset := by
    rcases joined with rfl | ⟨_ | _, rfl⟩ <;> decide
  rwa [left] at dropped

theorem joinRoute_carries (engaged : Bool) (carries : s.Carries restart staticWiring.toFinset) :
    (s.joinRoute engaged).Carries restart (staticWiring.toFinset ∪ tail engaged) := by
  cases engaged with
  | true =>
    have joined := foldl_connect_carries [(AudioField.highpassFilter, AudioField.clarityNotch),
      (.clarityMakeupGain, .outputGainNode)] carries
    rwa [show List.foldl (fun graph e => insert e graph) staticWiring.toFinset _ =
      staticWiring.toFinset ∪ tail true by decide] at joined
  | false =>
    have joined := foldl_connect_carries [(AudioField.highpassFilter, AudioField.outputGainNode)] carries
    rwa [show List.foldl (fun graph e => insert e graph) staticWiring.toFinset _ =
      staticWiring.toFinset ∪ tail false by decide] at joined

/-- What each connection keeps, many keep. -/
theorem foldl_settings {α : Type} {f : ConcordNoiseGateProcessor → α → ConcordNoiseGateProcessor}
    (keeps : ∀ s a, (f s a).settings = s.settings) (all : List α) (s : ConcordNoiseGateProcessor) :
    (all.foldl f s).settings = s.settings := by
  induction all generalizing s with
  | nil => rfl
  | cons a all ih => exact (ih (f s a)).trans (keeps s a)

theorem routeClarity_settings (s : ConcordNoiseGateProcessor) (engaged : Bool) :
    (s.routeClarity engaged).settings = s.settings := by
  unfold routeClarity
  split
  · rfl
  · split
    · rfl
    · have dropped := foldl_settings (fun s e => rfl : ∀ s e, (disconnect s e).settings = s.settings)
      have joined := foldl_settings (fun s e => rfl : ∀ s e, (connect s e).settings = s.settings)
      cases engaged
      · exact (joined _ _).trans (dropped _ _)
      · exact (joined _ _).trans (dropped _ _)

/-- A route that the flag does not stand for is joined, whatever was joined before. -/
theorem routeClarity_carries {engaged : Bool} (joined : Joined graph)
    (carries : s.Carries restart graph) (differs : engaged = s.clarityBypassed) :
    (s.routeClarity engaged).Carries restart (staticWiring.toFinset ∪ tail engaged) ∧
      (s.routeClarity engaged).clarityBypassed = !engaged := by
  have apart : ¬engaged = !s.clarityBypassed := by
    rw [differs]
    cases s.clarityBypassed <;> decide
  have routed := joinRoute_carries engaged (dropRoutes_carries joined carries)
  unfold routeClarity
  rw [if_neg (by simp [carries.node]), if_neg apart]
  exact ⟨⟨routed.node, routed.connections⟩, rfl⟩

/-- A route that the flag stands for is left as it is. -/
theorem routeClarity_of_same {engaged : Bool} (same : engaged = !s.clarityBypassed) :
    s.routeClarity engaged = s := by
  unfold routeClarity
  rw [if_pos same, ite_self]

/-! ## States of a run -/

/-- No node, and no connection. -/
structure Idle (s : ConcordNoiseGateProcessor) : Prop where
  node : s.node = fun _ => none
  connections : s.connections = ∅
  clarityBypassed : s.clarityBypassed = true

/-- The graph of one restart, with the route of the settings, which is what the flag stands for. -/
structure Playing (s : ConcordNoiseGateProcessor) : Prop where
  carries : ∃ restart, s.Carries restart (staticWiring.toFinset ∪ tail s.settings.clarityOn)
  clarityBypassed : s.clarityBypassed = !s.settings.clarityOn

/-- The graph of one restart without a route. -/
def Silent (s : ConcordNoiseGateProcessor) : Prop := ∃ restart, s.Carries restart staticWiring.toFinset

def Sound (s : ConcordNoiseGateProcessor) : Prop := s.Idle ∨ s.Playing

theorem safeDisconnect_foldl (fields : List AudioField) (s : ConcordNoiseGateProcessor) :
    (fields.foldl safeDisconnect s).connections =
      s.connections.filter fun e => ∀ field ∈ fields, s.node field ≠ some e.1 := by
  induction fields generalizing s with
  | nil => simp
  | cons field fields ih =>
    rw [List.foldl_cons, ih]
    show (s.connections.filter _).filter (fun e => ∀ field ∈ fields, s.node field ≠ some e.1) = _
    rw [Finset.filter_filter]
    exact Finset.filter_congr fun e _ => by rw [List.forall_mem_cons]

theorem mem_fields (field : AudioField) : field ∈ fields := by
  cases field <;> decide

/-- A destruction leaves nothing of a sound graph. -/
theorem destroy_idle (sound : s.Sound) : s.destroy.Idle := by
  refine ⟨rfl, ?_, rfl⟩
  show (fields.foldl safeDisconnect s).connections = ∅
  rw [safeDisconnect_foldl]
  rcases sound with idle | playing
  · rw [idle.connections, Finset.filter_empty]
  · obtain ⟨restart, carries⟩ := playing.carries
    refine Finset.filter_eq_empty_iff.mpr fun e mem kept => ?_
    rw [carries.connections] at mem
    obtain ⟨⟨a, b⟩, -, rfl⟩ := Finset.mem_map.mp mem
    exact kept a (mem_fields a) (by rw [carries.node]; rfl)

/-- A new graph has the static edges. -/
theorem createNodes_carries (idle : s.Idle) :
    (staticWiring.foldl connect s.createNodes).Carries s.restarts staticWiring.toFinset := by
  have fresh : s.createNodes.Carries s.restarts ∅ := ⟨rfl, by
    rw [Finset.map_empty]
    exact idle.connections⟩
  have wired := foldl_connect_carries staticWiring fresh
  rwa [show staticWiring.foldl (fun graph e => insert e graph) ∅ = staticWiring.toFinset by decide]
    at wired

theorem restart_settings (s : ConcordNoiseGateProcessor) (opts : AudioProcessorOptions) :
    (s.restart opts).settings = s.settings := by
  show (routeClarity _ (staticWiring.foldl connect s.destroy.createNodes)).settings = _
  have wired := foldl_settings (fun s e => rfl : ∀ s e, (connect s e).settings = s.settings)
  have freed := foldl_settings (fun s f => rfl : ∀ s f, (safeDisconnect s f).settings = s.settings)
  rw [routeClarity_settings, wired]
  simp only [createNodes, destroy, freed]

/-- A restart plays when clarity is on. Otherwise the flag of the fresh graph stands for the route that
is asked for, and nothing joins it. -/
theorem restart_cases (sound : s.Sound) (opts : AudioProcessorOptions) :
    (s.settings.clarityOn = true ∧ (s.restart opts).Playing) ∨
      (s.settings.clarityOn = false ∧ (s.restart opts).Silent) := by
  have wired := createNodes_carries (destroy_idle sound)
  have settings : (s.restart opts).settings = s.settings := restart_settings s opts
  cases on : s.settings.clarityOn with
  | true =>
    obtain ⟨carries, bypassed⟩ := routeClarity_carries (.inl rfl) wired (Eq.refl true)
    refine .inl ⟨rfl, ⟨s.destroy.restarts, ?_⟩, ?_⟩
    · rw [settings, on]
      unfold ConcordNoiseGateProcessor.restart
      rw [on]
      exact ⟨carries.node, carries.connections⟩
    · rw [settings, on]
      unfold ConcordNoiseGateProcessor.restart
      rw [on]
      exact bypassed
  | false =>
    have same : (staticWiring.foldl connect s.destroy.createNodes).routeClarity false = _ :=
      routeClarity_of_same rfl
    refine .inr ⟨rfl, s.destroy.restarts, ?_⟩
    unfold ConcordNoiseGateProcessor.restart
    rw [on, same]
    exact ⟨wired.node, wired.connections⟩

/-- Taking settings over changes nothing else that the route depends on. -/
theorem takeSettings_spec (s : ConcordNoiseGateProcessor) (settings : VoiceInputSettings) :
    (s.takeSettings settings).settings = settings ∧ (s.takeSettings settings).node = s.node ∧
      (s.takeSettings settings).connections = s.connections ∧
      (s.takeSettings settings).clarityBypassed = s.clarityBypassed := by
  unfold takeSettings
  split <;> exact ⟨rfl, rfl, rfl, rfl⟩

theorem routeClarity_of_none (engaged : Bool) (none : s.node .highpassFilter = none) :
    s.routeClarity engaged = s := by
  unfold routeClarity
  exact if_pos (by simp [none])

/-- New settings leave a sound state. -/
theorem updateSettings_sound (sound : s.Sound) (settings : VoiceInputSettings) :
    (s.updateSettings settings).Sound := by
  obtain ⟨taken, node, connections, bypassed⟩ := takeSettings_spec s settings
  unfold updateSettings
  rcases sound with idle | playing
  · have still : (s.takeSettings settings).Idle :=
      ⟨node.trans idle.node, connections.trans idle.connections, bypassed.trans idle.clarityBypassed⟩
    rw [routeClarity_of_none _ (by rw [still.node]), ite_self]
    exact .inl still
  · obtain ⟨restart, carries⟩ := playing.carries
    have carriesStill : (s.takeSettings settings).Carries restart
        (staticWiring.toFinset ∪ tail s.settings.clarityOn) :=
      ⟨node.trans carries.node, connections.trans carries.connections⟩
    have flag := bypassed.trans playing.clarityBypassed
    split
    · rename_i differ
      have differs : settings.clarityOn = (s.takeSettings settings).clarityBypassed := by
        rw [flag]
        exact Bool.eq_not_of_ne differ
      obtain ⟨routed, flagged⟩ := routeClarity_carries (.inr ⟨_, rfl⟩) carriesStill differs
      have kept := (s.takeSettings settings).routeClarity_settings settings.clarityOn
      refine .inr ⟨⟨restart, ?_⟩, ?_⟩
      · rwa [kept, taken]
      · rwa [kept, taken]
    · rename_i same
      rw [not_not] at same
      refine .inr ⟨⟨restart, ?_⟩, ?_⟩
      · rwa [taken, same]
      · rwa [taken, same]

/-! ## What is heard -/

/-- How far a field is from the end of the graph. -/
def height : AudioField → Nat
  | .sourceNode => 10
  | .highpassFilter => 9
  | .clarityNotch => 8
  | .clarityPresence => 7
  | .claritySibilance => 6
  | .clarityCompressor => 5
  | .clarityMakeupGain => 4
  | .outputGainNode => 3
  | .gateGainNode => 2
  | .destinationNode => 1
  | .analyserNode => 0

/-- The walks of a graph that a restart carries are those of its fields. -/
theorem isWalk_of_carries (carries : s.Carries restart graph)
    (descends : ∀ e ∈ graph, height e.2 < height e.1) {path : List AudioNode} :
    IsWalk s.connections (nodeOf restart .outputGainNode) (nodeOf restart .sourceNode) path ↔
      ∃ rest ∈ walks graph .outputGainNode 10 .sourceNode, path = rest.map (nodeOf restart) := by
  rw [carries.connections, isWalk_map]
  refine exists_congr fun rest => and_congr_left fun _ => ?_
  exact (mem_walks_iff descends le_rfl).symm

theorem walks_playing (on : Bool) :
    walks (staticWiring.toFinset ∪ tail on) .outputGainNode 10 .sourceNode = {route on} := by
  cases on <;> decide

theorem walks_silent : walks staticWiring.toFinset .outputGainNode 10 .sourceNode = ∅ := by
  decide

/-- A sound state has the one path of its settings, or no source. -/
theorem routed_of_sound (sound : s.Sound) : s.Routed := by
  intro source held
  rcases sound with idle | playing
  · rw [idle.node] at held
    cases held
  · obtain ⟨restart, carries⟩ := playing.carries
    rw [carries.node] at held
    cases held
    refine ⟨nodeOf restart .outputGainNode, by rw [carries.node]; rfl, fun path => ?_⟩
    have descends : ∀ on, ∀ e ∈ staticWiring.toFinset ∪ tail on, height e.2 < height e.1 := by decide
    have nodes : (route s.settings.clarityOn).map s.node =
        ((route s.settings.clarityOn).map (nodeOf restart)).map some := by
      rw [carries.node, List.map_map]
      rfl
    refine (isWalk_of_carries carries (descends _)).trans ?_
    rw [walks_playing, nodes]
    simp only [Finset.mem_singleton, exists_eq_left]
    exact (List.map_injective_iff.mpr (Option.some_injective _)).eq_iff.symm

/-- A silent state has a source and no path. -/
theorem not_routed_of_silent (silent : s.Silent) : ¬s.Routed := by
  obtain ⟨restart, carries⟩ := silent
  intro routed
  obtain ⟨output, held, only⟩ := routed (nodeOf restart .sourceNode) (by rw [carries.node]; rfl)
  rw [carries.node] at held
  cases held
  have descends : ∀ e ∈ staticWiring.toFinset, height e.2 < height e.1 := by decide
  have path := (only ((route s.settings.clarityOn).map (nodeOf restart))).mpr (by
    rw [carries.node, List.map_map]
    rfl)
  obtain ⟨rest, mem, -⟩ := (isWalk_of_carries carries descends).mp path
  rw [walks_silent] at mem
  exact absurd mem (Finset.notMem_empty rest)

/-! ## One call and all calls -/

/-- A careful call leaves a sound state, and any other a silent one. -/
theorem step_cases (sound : s.Sound) (call : Call) :
    (s.Careful call ∧ (s.step call).Sound) ∨ (¬s.Careful call ∧ (s.step call).Silent) := by
  cases call with
  | init opts =>
    refine (restart_cases sound opts).imp (fun h => ⟨h.1, .inr h.2⟩) fun h => ⟨?_, h.2⟩
    exact fun careful => Bool.noConfusion (careful.symm.trans h.1)
  | restart opts =>
    refine (restart_cases sound opts).imp (fun h => ⟨h.1, .inr h.2⟩) fun h => ⟨?_, h.2⟩
    exact fun careful => Bool.noConfusion (careful.symm.trans h.1)
  | updateSettings settings => exact .inl ⟨trivial, updateSettings_sound sound settings⟩
  | destroy => exact .inl ⟨trivial, .inl (destroy_idle sound)⟩

/-- Whatever calls follow on a new processor, each leaves one path from the source to the output, the
one that the settings ask for, exactly when no restart finds clarity switched off. -/
theorem routed_iff (settings : VoiceInputSettings) (calls : List Call) :
    Machine.Along step (fun s call => (s.step call).Routed) (new settings) calls ↔
      Machine.Along step Careful (new settings) calls := by
  refine Machine.along_congr_under Sound (fun s call sound routed => ?_) (fun s call sound => ?_)
    (.inl ⟨rfl, rfl, rfl⟩)
  · rcases step_cases sound call with ⟨-, kept⟩ | ⟨-, silent⟩
    · exact kept
    · exact absurd routed (not_routed_of_silent silent)
  · rcases step_cases sound call with ⟨careful, kept⟩ | ⟨careless, silent⟩
    · exact iff_of_true (routed_of_sound kept) careful
    · exact iff_of_false (not_routed_of_silent silent) careless

/-- A microphone that is opened with clarity switched off is not heard. -/
theorem not_routed_of_clarity_off :
    ¬Machine.Along step (fun s call => (s.step call).Routed) (new ⟨false, some false⟩)
      [.init ⟨"mic", some "processed"⟩] := by
  rintro ⟨routed, -⟩
  have idle : (new ⟨false, some false⟩).Idle := ⟨rfl, rfl, rfl⟩
  rcases step_cases (.inl idle) (.init ⟨"mic", some "processed"⟩) with
    ⟨careful, -⟩ | ⟨-, silent⟩
  · exact Bool.noConfusion careful
  · exact not_routed_of_silent silent routed

end ConcordNoiseGateProcessor

end Concorrd
