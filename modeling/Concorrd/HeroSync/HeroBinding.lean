import Mathlib.Data.Set.Basic
import Concorrd.User.Protocol

/-!
# The shared-hero gate

An install asks a peer for its descriptor and opens the gate when the key in it is the install's
own. Nobody looks at a signature. `Authentic` says of a binding that a peer can open the gate only
with a statement the hero signed about that peer. `authentic_iff` says that the bindings of which
it holds are those that ask nobody or have no hero: any other is opened by a peer that sends the
install's own key back.
-/

namespace Concorrd

/-- A hero as the gate needs it. -/
structure HeroDescriptor where
  heroPubkey : Vector UInt8 32
  displayLabel : String
  deriving DecidableEq, Repr

inductive HeroBindingError where
  | unavailable (detail : String)
  deriving DecidableEq, Repr

/-- The streams of the running transport, by peer. -/
abbrev Control := String → PeerStream

/-- The hero of this install, and the streams to ask peers on. -/
structure HeroBinding where
  loc : Option HeroDescriptor
  control : Option Control

namespace HeroBinding

/-- A binding that asks nobody. -/
def new (loc : Option HeroDescriptor) : HeroBinding := ⟨loc, none⟩

def withControl (loc : Option HeroDescriptor) (control : Control) : HeroBinding :=
  ⟨loc, some control⟩

variable (fromSlice : List UInt8 → Except String ConcordUserResponse)

/-- Ask a peer for its hero. An error body and a missing descriptor both mean that it has none. -/
def lookupPeerHero (binding : HeroBinding) (peerId : String) :
    Except HeroBindingError (Option HeroDescriptor) :=
  match binding.control with
  | none => .ok none
  | some control =>
    match openDescriptorStream fromSlice (control peerId) with
    | .error e => .error (.unavailable e.toString)
    | .ok response =>
      match response.descriptor with
      | none => .ok none
      | some descriptor => .ok (some ⟨descriptor.concordUid.asBytes, descriptor.displayName⟩)

/-- Both sides have a hero and the keys are the same. -/
def sharesHeroWith (binding : HeroBinding) (peerId : String) : Except HeroBindingError Bool :=
  match binding.loc with
  | none => .ok false
  | some loc =>
    match binding.lookupPeerHero fromSlice peerId with
    | .error e => .error e
    | .ok none => .ok false
    | .ok (some remote) => .ok (loc.heroPubkey = remote.heroPubkey)

end HeroBinding

/-- The hero of an install, for its own gate. -/
def localHeroDescriptor (ed : Ed25519) (peerIdOf : ConcordUid → String)
    (stronghold : StrongholdHandle) (displayName : Option String) :
    Except HeroBindingError HeroDescriptor :=
  match buildLocalDescriptor ed peerIdOf stronghold displayName with
  | .error e => .error (.unavailable e.toString)
  | .ok descriptor => .ok ⟨descriptor.concordUid.asBytes, descriptor.displayName⟩

/-! ## Statements about a peer -/

/-- The descriptor holds a row or an edge for the porch of the peer, signed by the hero. -/
def ConcordUserDescriptor.Binds (ed : Ed25519) (hero : ConcordUid) (peerId : String)
    (d : ConcordUserDescriptor) : Prop :=
  (∃ row ∈ d.serverProfiles, row.serverId = porchServer peerId ∧ row.verify ed hero = true) ∨
    ∃ edge, .edge edge ∈ d.trustLog ∧ edge.touches (porchServer peerId) = true ∧
      edge.concordUid = hero ∧ edge.verify ed = true

/-- Whoever made the descriptor has the hero's signatures only on these messages. -/
structure ConcordUserDescriptor.Unforged (ed : Ed25519) (hero : ConcordUid)
    (signed : Set (List UInt8)) (d : ConcordUserDescriptor) : Prop where
  rows : ∀ row ∈ d.serverProfiles, row.verify ed hero = true → row.message hero ∈ signed
  edges : ∀ edge, .edge edge ∈ d.trustLog → edge.concordUid = hero → edge.verify ed = true →
    edge.message ∈ signed

/-- None of the messages is about the porch of the peer. -/
structure SilentOn (hero : ConcordUid) (peerId : String) (signed : Set (List UInt8)) : Prop where
  rows : ∀ row : ServerProfile, row.serverId = porchServer peerId → row.message hero ∉ signed
  edges : ∀ edge : TrustEdge, edge.concordUid = hero →
    edge.touches (porchServer peerId) = true → edge.message ∉ signed

theorem ConcordUserDescriptor.not_binds {ed : Ed25519} {hero : ConcordUid} {peerId : String}
    {signed : Set (List UInt8)} {d : ConcordUserDescriptor} (unforged : d.Unforged ed hero signed)
    (silent : SilentOn hero peerId signed) : ¬ d.Binds ed hero peerId := by
  rintro (⟨row, hrow, about, valid⟩ | ⟨edge, hedge, about, own, valid⟩)
  · exact silent.rows row about (unforged.rows row hrow valid)
  · exact silent.edges edge own about (unforged.edges edge hedge own valid)

/-! ## Who opens the gate -/

namespace HeroBinding

variable {fromSlice : List UInt8 → Except String ConcordUserResponse} {binding : HeroBinding}
  {peerId : String}

/-- **When the gate opens.** The binding has a hero and asks, and the peer's frame decodes to a
descriptor with the hero's key; nothing else in the descriptor matters. -/
theorem sharesHeroWith_eq_true_iff : binding.sharesHeroWith fromSlice peerId = .ok true ↔
    ∃ loc control response descriptor, binding.loc = some loc ∧ binding.control = some control ∧
      openDescriptorStream fromSlice (control peerId) = .ok response ∧
      response.descriptor = some descriptor ∧ descriptor.concordUid.asBytes = loc.heroPubkey := by
  constructor
  · intro h
    unfold sharesHeroWith at h
    split at h
    · cases h
    rename_i loc hloc
    split at h
    · cases h
    · cases h
    rename_i remote hremote
    have same : loc.heroPubkey = remote.heroPubkey := of_decide_eq_true (Except.ok.inj h)
    unfold lookupPeerHero at hremote
    split at hremote
    · cases hremote
    rename_i control hcontrol
    split at hremote
    · cases hremote
    rename_i response hresponse
    split at hremote
    · cases hremote
    rename_i descriptor hdescriptor
    cases hremote
    exact ⟨loc, control, response, descriptor, hloc, hcontrol, hresponse, hdescriptor, same.symm⟩
  · rintro ⟨loc, control, response, descriptor, hloc, hcontrol, hresponse, hdescriptor, same⟩
    simp only [sharesHeroWith, hloc, lookupPeerHero, hcontrol, hresponse, hdescriptor, same,
      decide_true]

/-- The binding where the peer behaves like this. -/
def answeredBy (binding : HeroBinding) (peerId : String) (stream : PeerStream) : HeroBinding :=
  { binding with control := binding.control.map fun control =>
    Function.update control peerId stream }

/-- Whatever the peer sends, it opens the gate only with a statement about itself that the hero
signed, and a peer that has only statements about others opens it with nothing. -/
structure Authentic (fromSlice : List UInt8 → Except String ConcordUserResponse) (ed : Ed25519)
    (binding : HeroBinding) (peerId : String) : Prop where
  vouched : ∀ stream loc, binding.loc = some loc →
    (binding.answeredBy peerId stream).sharesHeroWith fromSlice peerId = .ok true →
    ∃ response d, openDescriptorStream fromSlice stream = .ok response ∧
      response.descriptor = some d ∧ d.Binds ed ⟨loc.heroPubkey⟩ peerId
  keyless : ∀ stream loc signed, binding.loc = some loc →
    SilentOn ⟨loc.heroPubkey⟩ peerId signed →
    (∀ response d, openDescriptorStream fromSlice stream = .ok response →
      response.descriptor = some d → d.Unforged ed ⟨loc.heroPubkey⟩ signed) →
    (binding.answeredBy peerId stream).sharesHeroWith fromSlice peerId ≠ .ok true

/-- A peer that vouches for itself is what both halves ask for. -/
theorem Authentic.of_vouched {ed : Ed25519} (h : ∀ stream loc, binding.loc = some loc →
    (binding.answeredBy peerId stream).sharesHeroWith fromSlice peerId = .ok true →
    ∃ response d, openDescriptorStream fromSlice stream = .ok response ∧
      response.descriptor = some d ∧ d.Binds ed ⟨loc.heroPubkey⟩ peerId) :
    binding.Authentic fromSlice ed peerId where
  vouched := h
  keyless stream loc signed hloc silent unforged opened := by
    obtain ⟨response, d, hresponse, hd, binds⟩ := h stream loc hloc opened
    exact ConcordUserDescriptor.not_binds (unforged response d hresponse hd) silent binds

/-! ## The echo -/

/-- The answer that names a hero and holds nothing else. -/
def echo (hero : ConcordUid) : ConcordUserResponse := ⟨1, some (.empty hero ""), none⟩

/-- The text of the echo around the hero. -/
def echoOpening : String := "\x7b\"request_id\":1,\"descriptor\":\x7b\"concord_uid\":\""

def echoClosing : String :=
  "\",\"display_name\":\"\",\"server_profiles\":[],\"trust_log\":[]\x7d\x7d"

/-- The text of the echo. -/
def echoText (hero : ConcordUid) : String := echoOpening ++ hero.toHex ++ echoClosing

/-- A peer that echoes. -/
def echoing (hero : ConcordUid) : PeerStream := .framed (Bytes.utf8 (echoText hero))

theorem length_echoText (hero : ConcordUid) : (Bytes.utf8 (echoText hero)).length = 166 := by
  have digits : hero.toHex.utf8ByteSize = 64 := by
    rw [ConcordUid.toHex, Bytes.utf8ByteSize_hex, Vector.length_toList]
  have opening : echoOpening.utf8ByteSize = 45 := rfl
  have closing : echoClosing.utf8ByteSize = 57 := rfl
  rw [Bytes.length_utf8, echoText, String.utf8ByteSize_append, String.utf8ByteSize_append, digits,
    opening, closing]

/-- The frame of the echo is decoded. -/
theorem openDescriptorStream_echoing {hero : ConcordUid}
    (decodes : fromSlice (Bytes.utf8 (echoText hero)) = .ok (echo hero)) :
    openDescriptorStream fromSlice (echoing hero) = .ok (echo hero) := by
  refine openDescriptorStream_framed ?_ decodes
  rw [length_echoText]
  decide

/-- The echo opens every gate that asks. -/
theorem sharesHeroWith_echoing {loc : HeroDescriptor} {control : Control}
    (decodes : fromSlice (Bytes.utf8 (echoText ⟨loc.heroPubkey⟩)) = .ok (echo ⟨loc.heroPubkey⟩))
    (hloc : binding.loc = some loc) (hcontrol : binding.control = some control) :
    (binding.answeredBy peerId (echoing ⟨loc.heroPubkey⟩)).sharesHeroWith fromSlice peerId =
      .ok true := by
  refine sharesHeroWith_eq_true_iff.mpr ⟨loc,
    Function.update control peerId (echoing ⟨loc.heroPubkey⟩), echo ⟨loc.heroPubkey⟩,
    .empty ⟨loc.heroPubkey⟩ "", hloc, ?_, ?_, rfl, rfl⟩
  · rw [answeredBy, hcontrol]
    rfl
  · rw [Function.update_self]
    exact openDescriptorStream_echoing decodes

/-- **Which gates are authentic.** Those of an install without a hero, and those that ask nobody:
in every other case any peer opens the gate with the key it can read in the install's own
descriptor. -/
theorem authentic_iff {ed : Ed25519}
    (decodes : ∀ loc, binding.loc = some loc →
      fromSlice (Bytes.utf8 (echoText ⟨loc.heroPubkey⟩)) = .ok (echo ⟨loc.heroPubkey⟩)) :
    binding.Authentic fromSlice ed peerId ↔ binding.loc = none ∨ binding.control = none := by
  constructor
  · intro h
    cases hloc : binding.loc with
    | none => exact .inl rfl
    | some loc =>
      refine .inr ?_
      cases hcontrol : binding.control with
      | none => rfl
      | some control =>
        have opened : (binding.answeredBy peerId _).sharesHeroWith fromSlice peerId = .ok true :=
          sharesHeroWith_echoing (decodes loc hloc) hloc hcontrol
        obtain ⟨response, d, hresponse, hd, binds⟩ := h.vouched _ loc hloc opened
        cases hresponse.symm.trans (openDescriptorStream_echoing (decodes loc hloc))
        cases hd
        rcases binds with ⟨row, hrow, _⟩ | ⟨edge, hedge, _⟩
        · cases hrow
        · cases hedge
  · intro h
    refine .of_vouched fun stream loc hloc opened => ?_
    obtain ⟨_, control, _, _, _, hcontrol, _⟩ := sharesHeroWith_eq_true_iff.mp opened
    rcases h with h | h
    · cases hloc.symm.trans h
    · rw [answeredBy, h] at hcontrol
      cases hcontrol

/-! ## Two installs -/

section Installs

variable {ed : Ed25519} {peerIdOf : ConcordUid → String} {stronghold remote : StrongholdHandle}
  {displayName remoteName : Option String} {loc : HeroDescriptor} {control : Control}

/-- Two installs that both tell the truth open the gate exactly when their seeds have one key,
which is also the key of their peer ids. -/
theorem sharesHeroWith_honest_iff
    (hloc : localHeroDescriptor ed peerIdOf stronghold displayName = .ok loc)
    (answers : openDescriptorStream fromSlice (control peerId) =
      .ok (getSelf ed peerIdOf remote remoteName 1)) :
    (withControl (some loc) control).sharesHeroWith fromSlice peerId = .ok true ↔
      ∃ d d', buildLocalDescriptor ed peerIdOf stronghold displayName = .ok d ∧
        buildLocalDescriptor ed peerIdOf remote remoteName = .ok d' ∧
        d'.concordUid = d.concordUid := by
  unfold localHeroDescriptor at hloc
  cases hd : buildLocalDescriptor ed peerIdOf stronghold displayName with
  | error e => simp only [hd, reduceCtorEq] at hloc
  | ok d =>
    simp only [hd, Except.ok.injEq] at hloc
    subst hloc
    rw [sharesHeroWith_eq_true_iff]
    constructor
    · rintro ⟨_, _, response, descriptor, hloc, hcontrol, hresponse, hdescriptor, same⟩
      cases hloc
      cases hcontrol
      cases hresponse.symm.trans answers
      unfold getSelf at hdescriptor
      split at hdescriptor
      · rename_i theirs htheirs
        cases hdescriptor
        exact ⟨d, descriptor, rfl, htheirs, congrArg ConcordUid.mk same⟩
      · cases hdescriptor
    · rintro ⟨own, theirs, hown, htheirs, same⟩
      cases hown
      refine ⟨_, control, _, theirs, rfl, rfl, answers, ?_, congrArg ConcordUid.asBytes same⟩
      simp only [getSelf, htheirs]

end Installs

end HeroBinding

section Replay

variable {ed : Ed25519} {peerIdOf : ConcordUid → String} {seed : Vector UInt8 32}
  {log : List TrustLogEntry} {d : ConcordUserDescriptor} {peerId : String}

/-- The descriptor of an install binds the peer id of that install. -/
theorem LocalDescriptor.binds (correct : ed.Correct) (h : LocalDescriptor ed peerIdOf seed log d) :
    d.Binds ed d.concordUid (peerIdOf d.concordUid) := by
  refine .inl ⟨_, by rw [h.rows]; exact List.mem_singleton_self _, rfl, ?_⟩
  rw [h.uid, ServerProfile.verify, ConcordUid.verifies, Bool.and_eq_true]
  exact ⟨correct.fromBytes seed, correct.verify seed _⟩

/-- It binds no other peer, unless an edge of its log does. -/
theorem LocalDescriptor.not_binds {hero : ConcordUid} (h : LocalDescriptor ed peerIdOf seed log d)
    (other : peerIdOf d.concordUid ≠ peerId)
    (silent : ∀ edge, .edge edge ∈ log → edge.touches (porchServer peerId) = false) :
    ¬ d.Binds ed hero peerId := by
  rintro (⟨row, hrow, about, _⟩ | ⟨edge, hedge, about, _⟩)
  · rw [h.rows, List.mem_singleton] at hrow
    subst hrow
    exact other (String.append_right_inj _ |>.mp about)
  · rw [h.log] at hedge
    cases (silent edge hedge).symm.trans about

/-- A peer that sends an install its own descriptor back opens the gate. Every signature in the
descriptor verifies, and none is about the peer. -/
theorem HeroBinding.opened_by_replay {fromSlice : List UInt8 → Except String ConcordUserResponse}
    {stronghold : StrongholdHandle} {displayName : Option String} {loc : HeroDescriptor}
    {control : Control} (correct : ed.Correct)
    (hd : buildLocalDescriptor ed peerIdOf stronghold displayName = .ok d)
    (hloc : localHeroDescriptor ed peerIdOf stronghold displayName = .ok loc)
    (own : ∀ entry ∈ d.trustLog, entry.concordUid = d.concordUid ∧ entry.verify ed = true)
    (silent : ∀ edge, .edge edge ∈ d.trustLog → edge.touches (porchServer peerId) = false)
    (other : peerIdOf d.concordUid ≠ peerId)
    (replays : openDescriptorStream fromSlice (control peerId) =
      .ok (getSelf ed peerIdOf stronghold displayName 1)) :
    (withControl (some loc) control).sharesHeroWith fromSlice peerId = .ok true ∧
      d.verifyAllSignatures ed = .ok () ∧ ¬ d.Binds ed d.concordUid peerId := by
  obtain ⟨seed, log, _, _, hlocal⟩ := localDescriptor_of_build hd
  rw [hlocal.log] at own silent
  exact ⟨(sharesHeroWith_honest_iff hloc replays).mpr ⟨d, d, hd, hd, rfl⟩,
    hlocal.verifyAllSignatures correct own, hlocal.not_binds other silent⟩

end Replay

/-! ## A gate that a stranger opens -/

/-- The hero of an install. -/
def ownHero : HeroDescriptor := ⟨.replicate 32 7, "own"⟩

/-- A reader that knows the echo of the hero. -/
def readEcho (bytes : List UInt8) : Except String ConcordUserResponse :=
  if bytes = Bytes.utf8 (HeroBinding.echoText ⟨ownHero.heroPubkey⟩) then
    .ok (HeroBinding.echo ⟨ownHero.heroPubkey⟩)
  else .error "expected value"

/-- Signatures of nobody. -/
def noSignature : Ed25519 := ⟨id, fun _ => true, fun _ _ => .replicate 64 0, fun _ _ _ => false⟩

/-- A running install whose peers do not answer. -/
def silentNetwork : HeroBinding :=
  .withControl (some ownHero) fun _ => ⟨.error "ConnectionClosed", .ok (), [], "early eof"⟩

private theorem readEcho_ownHero : ∀ loc, silentNetwork.loc = some loc →
    readEcho (Bytes.utf8 (HeroBinding.echoText ⟨loc.heroPubkey⟩)) =
      .ok (HeroBinding.echo ⟨loc.heroPubkey⟩) := by
  intro loc hloc
  cases hloc
  exact if_pos rfl

theorem HeroBinding.authentic_iff_silentNetwork :
    silentNetwork.Authentic readEcho noSignature "stranger" ↔
      silentNetwork.loc = none ∨ silentNetwork.control = none :=
  HeroBinding.authentic_iff readEcho_ownHero

/-- A stranger without a signature of the hero opens the gate with the hero's key alone. -/
theorem opened_by_stranger : ¬ silentNetwork.Authentic readEcho noSignature "stranger" := by
  intro h
  have opened : (silentNetwork.answeredBy "stranger"
      (HeroBinding.echoing ⟨ownHero.heroPubkey⟩)).sharesHeroWith readEcho "stranger" = .ok true :=
    HeroBinding.sharesHeroWith_echoing (readEcho_ownHero ownHero rfl) rfl rfl
  refine h.keyless _ ownHero ∅ rfl ⟨fun _ _ => Set.notMem_empty _, fun _ _ _ => Set.notMem_empty _⟩
    (fun response d hresponse hd => ?_) opened
  cases hresponse.symm.trans
    (HeroBinding.openDescriptorStream_echoing (readEcho_ownHero ownHero rfl))
  cases hd
  refine ⟨fun row hrow => ?_, fun edge hedge => ?_⟩
  · cases hrow
  · cases hedge

end Concorrd
