import Concorrd.Lib.JsText
import Concorrd.Peer.Invariant

/-!
# The peer store of the browser

`peerStoreBrowser.ts` keeps the known peers in one item of the local storage, with the operations of the native
store. What is listed is read back from the item field by field, without empty addresses.

The browser takes a card without asking whether its addresses parse, but not one without addresses; it keeps a
repeated address of a new peer and joins those of a known one, where the native store does the opposite.
`stores_agree_iff` says which runs of calls that leaves alike.
-/

namespace Concorrd.BrowserStore

open Machine

/-! ## Lists with one changed entry -/

section
variable {α β γ : Type}

/-- Change the first entry that passes the test. -/
def modifyFirst (p : α → Bool) (f : α → α) : List α → List α
  | [] => []
  | a :: l => if p a then f a :: l else a :: modifyFirst p f l

variable {g : α → γ} {h : β → γ} {p : α → Bool} {q : β → Bool} {l : List α} {l' : List β}

theorem find?_eq_none_of_map (agree : ∀ a b, g a = h b → p a = q b) (same : l.map g = l'.map h)
    (absent : l.find? p = none) : l'.find? q = none := by
  induction l generalizing l' with
  | nil =>
    rw [List.map_eq_nil_iff.mp same.symm]
    rfl
  | cons a l ih =>
    obtain ⟨b, l', rfl, here, rest⟩ := List.map_eq_cons_iff.mp same.symm
    have passes := agree a b here.symm
    cases test : p a with
    | true =>
      rw [List.find?_cons_of_pos test] at absent
      cases absent
    | false =>
      rw [List.find?_cons_of_neg (by simp [test])] at absent
      rw [List.find?_cons_of_neg (by simp [← passes, test])]
      exact ih rest.symm absent

/-- Lists that look the same do so after a change exactly when the changed entries do. -/
theorem map_modifyFirst_eq_iff (agree : ∀ a b, g a = h b → p a = q b) (same : l.map g = l'.map h) {a : α}
    (found : l.find? p = some a) : ∃ b, l'.find? q = some b ∧ g a = h b ∧ ∀ f f',
      (modifyFirst p f l).map g = (modifyFirst q f' l').map h ↔ g (f a) = h (f' b) := by
  induction l generalizing l' with
  | nil => cases found
  | cons a' l ih =>
    obtain ⟨b, l', rfl, here, rest⟩ := List.map_eq_cons_iff.mp same.symm
    have passes := agree a' b here.symm
    cases test : p a' with
    | true =>
      rw [List.find?_cons_of_pos test] at found
      cases found
      refine ⟨b, List.find?_cons_of_pos (passes ▸ test), here.symm, fun f f' => ?_⟩
      rw [modifyFirst, if_pos test, modifyFirst, if_pos (passes ▸ test), List.map_cons, List.map_cons, rest,
        List.cons.injEq, and_iff_left rfl]
    | false =>
      have fails : q b = false := passes ▸ test
      rw [List.find?_cons_of_neg (by simp [test])] at found
      obtain ⟨b', first, look, changes⟩ := ih rest.symm found
      refine ⟨b', ?_, look, fun f f' => ?_⟩
      · rw [List.find?_cons_of_neg (by simp [fails])]
        exact first
      · rw [modifyFirst, if_neg (by simp [test]), modifyFirst, if_neg (by simp [fails]), List.map_cons,
          List.map_cons, here, List.cons.injEq, and_iff_right rfl]
        exact changes f f'

theorem map_filter_eq (agree : ∀ a b, g a = h b → p a = q b) (same : l.map g = l'.map h) :
    (l.filter p).map g = (l'.filter q).map h := by
  induction l generalizing l' with
  | nil =>
    rw [List.map_eq_nil_iff.mp same.symm]
    rfl
  | cons a l ih =>
    obtain ⟨b, l', rfl, here, rest⟩ := List.map_eq_cons_iff.mp same.symm
    rw [List.filter_cons, List.filter_cons, ← agree a b here.symm]
    split
    · rw [List.map_cons, List.map_cons, here, ih rest.symm]
    · exact ih rest.symm

end

/-! ## The item -/

structure BrowserPeer where
  peerId : String
  publicKeyHex : String
  multiaddrs : List String
  source : PeerSource
  firstSeen : String
  lastSeen : String
  accessGranted : Bool
  lastAccessGrantAt : Option String
  deriving DecidableEq, Repr

def sourceText : PeerSource → String
  | .qr => "qr"
  | .deeplink => "deeplink"
  | .matrixRoom => "matrix_room"
  | .dht => "dht"

def sourceOfText (text : String) : Option PeerSource :=
  [PeerSource.qr, .deeplink, .matrixRoom, .dht].find? (sourceText · = text)

def BrowserPeer.toJson (peer : BrowserPeer) : Json :=
  .obj [("peerId", .str peer.peerId), ("publicKeyHex", .str peer.publicKeyHex),
    ("multiaddrs", .arr (peer.multiaddrs.map .str)), ("source", .str (sourceText peer.source)),
    ("firstSeen", .str peer.firstSeen), ("lastSeen", .str peer.lastSeen),
    ("accessGranted", .bool peer.accessGranted),
    ("lastAccessGrantAt", (peer.lastAccessGrantAt.map Json.str).getD .null)]

def storeVersion : Int := 1

/-- On-disk envelope shape. -/
def envelope (peers : List BrowserPeer) : Json :=
  .obj [("version", .num storeVersion), ("peers", .arr (peers.map BrowserPeer.toJson))]

def arrayOf : Json → Option (List Json)
  | .arr items => some items
  | _ => none

/-- An entry of the envelope, field by field; a malformed one is passed over. -/
def readEntry (entry : Json) : Option BrowserPeer := do
  let peerId ← (entry.get "peerId").bind Json.asStr
  let publicKeyHex ← (entry.get "publicKeyHex").bind Json.asStr
  let multiaddrs ← (entry.get "multiaddrs").bind arrayOf
  let source ← (entry.get "source").bind Json.asStr
  let firstSeen ← (entry.get "firstSeen").bind Json.asStr
  let lastSeen ← (entry.get "lastSeen").bind Json.asStr
  let source ← sourceOfText source
  some {
    peerId, publicKeyHex, source, firstSeen, lastSeen
    multiaddrs := (multiaddrs.filterMap Json.asStr).filter (· ≠ "")
    accessGranted := ((entry.get "accessGranted").bind Json.asBool).getD true
    lastAccessGrantAt := (entry.get "lastAccessGrantAt").bind Json.asStr }

/-- Whether there is a storage, whether it can be read, and what its `setItem` throws, if it does. -/
structure StorageIo where
  available : Bool
  reads : Bool
  throws : Option String

/-- The item of the storage, as it is parsed: what was stringified before. -/
abbrev Item := Option Json

def listBrowserPeers (io : StorageIo) (item : Item) : List BrowserPeer :=
  if io.available ∧ io.reads then (((item.bind (·.get "peers")).bind arrayOf).getD []).filterMap readEntry else []

/-- Write the envelope back, and answer. -/
def persistBrowserPeers {α : Type} (io : StorageIo) (peers : List BrowserPeer) (item : Item) (answer : α) :
    Except String α × Item :=
  if io.available then
    match io.throws with
    | some message => (.error ("couldn't persist peers to browser storage: " ++ message), item)
    | none => (.ok answer, some (envelope peers))
  else (.error "browser storage is unavailable in this environment", item)

/-! ## Operations -/

def isHexDigit (c : Char) : Bool := c.isDigit || ('a' ≤ c && c ≤ 'f') || ('A' ≤ c && c ≤ 'F')

/-- Union the address sets, preserving first-seen order. -/
def mergeAddresses (prior : List String) (addresses : List String) : List String :=
  addresses.foldl (fun merged addr => if addr ∈ merged then merged else merged ++ [addr]) prior

def refresh (card : PeerCard) (now : String) (prior : BrowserPeer) : BrowserPeer :=
  { prior with multiaddrs := mergeAddresses prior.multiaddrs card.multiaddrs, lastSeen := now }

/-- Fresh pairing is implicitly access-granted. -/
def introduce (card : PeerCard) (source : PeerSource) (now : String) : BrowserPeer :=
  ⟨card.peerId, card.publicKeyHex, card.multiaddrs, source, now, now, true, some now⟩

/-- Whether a peer has the id. -/
def hasId (peerId : String) (peer : BrowserPeer) : Bool := peer.peerId = peerId

/-- Add (or refresh) a peer. -/
def addBrowserPeerFromCard (io : StorageIo) (now : String) (card : PeerCard) (source : PeerSource) (item : Item) :
    Except String BrowserPeer × Item :=
  if card.peerId = "" then (.error "peerId missing or empty", item)
  else if JsText.length card.publicKeyHex ≠ 64 ∨ ¬card.publicKeyHex.toList.all isHexDigit then
    (.error "publicKeyHex must be 64 hex chars", item)
  else if card.multiaddrs = [] then (.error "multiaddrs must be non-empty", item)
  else
    match (listBrowserPeers io item).find? (hasId card.peerId) with
    | some prior =>
      persistBrowserPeers io (modifyFirst (hasId card.peerId) (refresh card now) (listBrowserPeers io item)) item
        (refresh card now prior)
    | none =>
      persistBrowserPeers io (listBrowserPeers io item ++ [introduce card source now]) item
        (introduce card source now)

/-- Remove a peer by id. -/
def removeBrowserPeer (io : StorageIo) (peerId : String) (item : Item) : Except String Bool × Item :=
  if ((listBrowserPeers io item).filter (!hasId peerId ·)).length = (listBrowserPeers io item).length then
    (.ok false, item)
  else persistBrowserPeers io ((listBrowserPeers io item).filter (!hasId peerId ·)) item true

/-- Change the peer of an id, if there is one, and answer with it. -/
def updateBrowserPeer (io : StorageIo) (peerId : String) (change : BrowserPeer → BrowserPeer) (item : Item) :
    Except String (Option BrowserPeer) × Item :=
  match (listBrowserPeers io item).find? (hasId peerId) with
  | none => (.ok none, item)
  | some peer =>
    persistBrowserPeers io (modifyFirst (hasId peerId) change (listBrowserPeers io item)) item (some (change peer))

def revokeBrowserPeerAccess (io : StorageIo) (peerId : String) (item : Item) :
    Except String (Option BrowserPeer) × Item :=
  updateBrowserPeer io peerId (fun peer => { peer with accessGranted := false }) item

def grantBrowserPeerAccess (io : StorageIo) (now : String) (peerId : String) (item : Item) :
    Except String (Option BrowserPeer) × Item :=
  updateBrowserPeer io peerId (fun peer => { peer with accessGranted := true, lastAccessGrantAt := some now }) item

/-! ## Both stores -/

/-- What the interface shows of a peer, timestamps aside. -/
structure PeerFace where
  peerId : String
  publicKeyHex : String
  multiaddrs : List String
  source : PeerSource
  accessGranted : Bool
  deriving DecidableEq, Repr

def nativeFace (peer : KnownPeer) : PeerFace :=
  ⟨peer.peerId, peer.publicKeyHex, peer.multiaddrs, peer.source, peer.accessGranted⟩

def browserFace (peer : BrowserPeer) : PeerFace :=
  ⟨peer.peerId, peer.publicKeyHex, peer.multiaddrs, peer.source, peer.accessGranted⟩

/-- The file of the native store and the item of the browser's. -/
structure Stores where
  native : List KnownPeer := []
  browser : Item := none

/-- One call to both stores, with the time as each of them writes it. -/
inductive StoreCall where
  | add (card : PeerCard) (source : PeerSource) (now : Int) (iso : String)
  | remove (peerId : String)
  | revokeAccess (peerId : String)
  | grantAccess (peerId : String) (now : Int) (iso : String)

/-- Both storages work. -/
def fileWorks : PeerStoreIo := ⟨.ok (), .ok ()⟩
def storageWorks : StorageIo := ⟨true, true, none⟩

/-- Whether the call is accepted, and what is stored after it. -/
def outcome {ε α σ : Type} (result : Except ε α × σ) : Bool × σ := (result.1.isOk, result.2)

def nativeCall (text : AddressText) (peers : List KnownPeer) : StoreCall → Bool × List KnownPeer
  | .add card source now _ => outcome (PeerStore.add text fileWorks now card source peers)
  | .remove peerId => outcome (PeerStore.remove fileWorks peerId peers)
  | .revokeAccess peerId => outcome (PeerStore.revokeAccess fileWorks peerId peers)
  | .grantAccess peerId now _ => outcome (PeerStore.grantAccess fileWorks now peerId peers)

def browserCall (item : Item) : StoreCall → Bool × Item
  | .add card source _ iso => outcome (addBrowserPeerFromCard storageWorks iso card source item)
  | .remove peerId => outcome (removeBrowserPeer storageWorks peerId item)
  | .revokeAccess peerId => outcome (revokeBrowserPeerAccess storageWorks peerId item)
  | .grantAccess peerId _ iso => outcome (grantBrowserPeerAccess storageWorks iso peerId item)

def step (text : AddressText) (s : Stores) (call : StoreCall) : Stores :=
  ⟨(nativeCall text s.native call).2, (browserCall s.browser call).2⟩

/-- Both stores list the same peers in the same order. -/
def SameList (s : Stores) : Prop :=
  s.native.map nativeFace = (listBrowserPeers storageWorks s.browser).map browserFace

/-- Both accept the call or both refuse it, and both list the same peers after it. -/
def Agree (text : AddressText) (s : Stores) (call : StoreCall) : Prop :=
  (nativeCall text s.native call).1 = (browserCall s.browser call).1 ∧ SameList (step text s call)

/-- The id and the key of the card pass the checks. -/
def Identified (card : PeerCard) : Prop :=
  card.peerId ≠ "" ∧ card.publicKeyHex.toList.length = 64 ∧ card.publicKeyHex.toList.all isHexDigit

/-- The addresses that are listed for an id. -/
def listedAddresses (peers : List KnownPeer) (peerId : String) : List String :=
  ((peers.find? fun peer => peer.peerId = peerId).map KnownPeer.multiaddrs).getD []

/-- The card has addresses, all of them parse and none is empty, and no address that is new to the peer is
repeated. -/
def PlainAddresses (text : AddressText) (peers : List KnownPeer) (card : PeerCard) : Prop :=
  card.multiaddrs ≠ [] ∧ (∀ a ∈ card.multiaddrs, text.parses a = true) ∧ "" ∉ card.multiaddrs ∧
    (card.multiaddrs.filter (· ∉ listedAddresses peers card.peerId)).Nodup

/-- A card that is added has addresses that both stores take alike, or both refuse it for its id or key. -/
def Plain (text : AddressText) (s : Stores) : StoreCall → Prop
  | .add card _ _ _ => Identified card → PlainAddresses text s.native card
  | .remove _ | .revokeAccess _ | .grantAccess _ _ _ => True

/-! ## Addresses -/

theorem mem_mergeAddresses {prior addresses : List String} {a : String} :
    a ∈ mergeAddresses prior addresses ↔ a ∈ prior ∨ a ∈ addresses := by
  induction addresses generalizing prior with
  | nil => simp [mergeAddresses]
  | cons b addresses ih =>
    rw [mergeAddresses, List.foldl_cons]
    by_cases known : b ∈ prior
    · rw [if_pos known]
      refine ih.trans ?_
      rw [List.mem_cons]
      exact ⟨fun h => h.imp_right .inr, fun h => by
        rcases h with h | rfl | h
        · exact .inl h
        · exact .inl known
        · exact .inr h⟩
    · rw [if_neg known]
      refine ih.trans ?_
      rw [List.mem_append, List.mem_singleton, List.mem_cons, or_assoc]

theorem mergeAddresses_concat (prior addresses : List String) (a : String) :
    mergeAddresses prior (addresses ++ [a]) = if a ∈ mergeAddresses prior addresses
      then mergeAddresses prior addresses else mergeAddresses prior addresses ++ [a] := by
  rw [mergeAddresses, List.foldl_append]
  rfl

/-- What is merged in is what is new, each address once. -/
theorem mergeAddresses_append (prior addresses : List String) :
    mergeAddresses prior addresses = prior ++ mergeAddresses [] (addresses.filter (· ∉ prior)) := by
  induction addresses using List.reverseRecOn with
  | nil => exact (List.append_nil prior).symm
  | append_singleton addresses a ih =>
    rw [mergeAddresses_concat, List.filter_append]
    by_cases known : a ∈ prior
    · rw [if_pos (mem_mergeAddresses.mpr (.inl known)), List.filter_cons_of_neg (by simpa using known),
        List.filter_nil, List.append_nil, ih]
    · have again : a ∈ prior ++ mergeAddresses [] (addresses.filter (· ∉ prior)) ↔
          a ∈ mergeAddresses [] (addresses.filter (· ∉ prior)) := by
        rw [List.mem_append, or_iff_right known]
      rw [List.filter_cons_of_pos (by simpa using known), List.filter_nil, mergeAddresses_concat, ih,
        if_congr again rfl rfl]
      split
      · rfl
      · exact List.append_assoc _ _ _

theorem nodup_mergeAddresses {prior : List String} (distinct : prior.Nodup) (addresses : List String) :
    (mergeAddresses prior addresses).Nodup := by
  induction addresses generalizing prior with
  | nil => exact distinct
  | cons a addresses ih =>
    rw [mergeAddresses, List.foldl_cons]
    split
    · exact ih distinct
    · rename_i new
      refine ih (List.nodup_append.mpr ⟨distinct, List.nodup_singleton a, fun b mem c here same => ?_⟩)
      rw [List.mem_singleton.mp here] at same
      exact new (same ▸ mem)

theorem mergeAddresses_of_nodup {addresses : List String} (distinct : addresses.Nodup) :
    mergeAddresses [] addresses = addresses := by
  have all (prior rest : List String) (distinct : (prior ++ rest).Nodup) : mergeAddresses prior rest = prior ++ rest := by
    induction rest generalizing prior with
    | nil => exact (List.append_nil prior).symm
    | cons a rest ih =>
      have new : a ∉ prior := fun mem => (List.nodup_append.mp distinct).2.2 a mem a List.mem_cons_self rfl
      rw [← List.singleton_append, ← List.append_assoc] at distinct
      rw [mergeAddresses, List.foldl_cons, if_neg new]
      refine (ih (prior ++ [a]) distinct).trans ?_
      rw [List.append_assoc, List.singleton_append]
  exact all [] addresses distinct

/-- The addresses of a known peer come out alike exactly when none is empty and no new one is repeated. -/
theorem refreshed_eq_iff {prior : List String} (noEmpty : "" ∉ prior) (addresses : List String) :
    prior ++ addresses.filter (· ∉ prior) = (mergeAddresses prior addresses).filter (· ≠ "") ↔
      "" ∉ addresses ∧ (addresses.filter (· ∉ prior)).Nodup := by
  have kept : prior.filter (· ≠ "") = prior := List.filter_eq_self.mpr fun a mem => by
    simpa using fun same : a = "" => noEmpty (same ▸ mem)
  rw [mergeAddresses_append, List.filter_append, kept, List.append_cancel_left_eq]
  constructor
  · intro same
    have distinct := (nodup_mergeAddresses List.nodup_nil (addresses.filter (· ∉ prior))).filter (· ≠ "")
    rw [← same] at distinct
    refine ⟨fun mem => ?_, distinct⟩
    have new : "" ∈ addresses.filter (· ∉ prior) := List.mem_filter.mpr ⟨mem, by simpa using noEmpty⟩
    rw [same] at new
    simpa using (List.mem_filter.mp new).2
  · rintro ⟨none, distinct⟩
    rw [mergeAddresses_of_nodup distinct]
    refine (List.filter_eq_self.mpr fun a mem => ?_).symm
    simpa using fun same : a = "" => none (same ▸ List.mem_of_mem_filter mem)

/-- The addresses of a new peer do exactly when none is empty or repeated. -/
theorem introduced_eq_iff (addresses : List String) :
    mergeAddresses [] addresses = addresses.filter (· ≠ "") ↔ "" ∉ addresses ∧ addresses.Nodup := by
  constructor
  · intro same
    have none : "" ∉ addresses := by
      intro mem
      have merged : "" ∈ mergeAddresses [] addresses := mem_mergeAddresses.mpr (.inr mem)
      rw [same] at merged
      simpa using (List.mem_filter.mp merged).2
    have whole : addresses.filter (· ≠ "") = addresses := List.filter_eq_self.mpr fun a mem => by
      simpa using fun same : a = "" => none (same ▸ mem)
    have distinct := nodup_mergeAddresses List.nodup_nil addresses
    rw [same, whole] at distinct
    exact ⟨none, distinct⟩
  · rintro ⟨none, distinct⟩
    rw [mergeAddresses_of_nodup distinct]
    refine (List.filter_eq_self.mpr fun a mem => ?_).symm
    simpa using fun same : a = "" => none (same ▸ mem)

/-! ## Reading back -/

/-- The peer as it is listed once it has been written. -/
def BrowserPeer.listed (peer : BrowserPeer) : BrowserPeer :=
  { peer with multiaddrs := peer.multiaddrs.filter (· ≠ "") }

theorem sourceOfText_sourceText (source : PeerSource) : sourceOfText (sourceText source) = some source := by
  cases source <;> decide

/-- A peer that was written is read back, without its empty addresses. -/
theorem readEntry_toJson (peer : BrowserPeer) : readEntry peer.toJson = some peer.listed := by
  have peerId : peer.toJson.get "peerId" = some (.str peer.peerId) := rfl
  have publicKeyHex : peer.toJson.get "publicKeyHex" = some (.str peer.publicKeyHex) := rfl
  have multiaddrs : peer.toJson.get "multiaddrs" = some (.arr (peer.multiaddrs.map .str)) := rfl
  have source : peer.toJson.get "source" = some (.str (sourceText peer.source)) := rfl
  have firstSeen : peer.toJson.get "firstSeen" = some (.str peer.firstSeen) := rfl
  have lastSeen : peer.toJson.get "lastSeen" = some (.str peer.lastSeen) := rfl
  have accessGranted : peer.toJson.get "accessGranted" = some (.bool peer.accessGranted) := rfl
  have lastAccessGrantAt : (peer.toJson.get "lastAccessGrantAt").bind Json.asStr = peer.lastAccessGrantAt := by
    show ((peer.lastAccessGrantAt.map Json.str).getD .null).asStr = _
    cases peer.lastAccessGrantAt <;> rfl
  have addresses : (peer.multiaddrs.map Json.str).filterMap Json.asStr = peer.multiaddrs := by
    rw [List.filterMap_map]
    exact List.filterMap_some
  rw [readEntry, peerId, publicKeyHex, multiaddrs, source, firstSeen, lastSeen, accessGranted, lastAccessGrantAt]
  show (sourceOfText (sourceText peer.source)).bind _ = _
  rw [sourceOfText_sourceText]
  show some ({ peer with multiaddrs := ((peer.multiaddrs.map Json.str).filterMap Json.asStr).filter (· ≠ "") } :
    BrowserPeer) = _
  rw [addresses]
  rfl

theorem list_persisted (peers : List BrowserPeer) :
    listBrowserPeers storageWorks (some (envelope peers)) = peers.map BrowserPeer.listed := by
  show (peers.map BrowserPeer.toJson).filterMap readEntry = _
  rw [List.filterMap_map]
  have each : readEntry ∘ BrowserPeer.toJson = some ∘ BrowserPeer.listed := funext readEntry_toJson
  rw [each, List.filterMap_eq_map]

theorem noEmpty_of_readEntry {entry : Json} {peer : BrowserPeer} (read : readEntry entry = some peer) :
    "" ∉ peer.multiaddrs := by
  simp only [readEntry, Option.bind_eq_bind, Option.bind_eq_some_iff] at read
  obtain ⟨_, -, _, -, multiaddrs, -, _, -, _, -, _, -, _, -, given⟩ := read
  cases given
  intro mem
  simpa using (List.mem_filter.mp mem).2

/-- What is listed has no empty addresses to lose. -/
theorem noEmpty_of_mem {io : StorageIo} {item : Item} {peer : BrowserPeer} (mem : peer ∈ listBrowserPeers io item) :
    "" ∉ peer.multiaddrs := by
  rw [listBrowserPeers] at mem
  split at mem
  · obtain ⟨entry, -, read⟩ := List.mem_filterMap.mp mem
    exact noEmpty_of_readEntry read
  · cases mem

theorem filter_eq_of_noEmpty {addresses : List String} (none : "" ∉ addresses) :
    addresses.filter (· ≠ "") = addresses :=
  List.filter_eq_self.mpr fun a mem => by simpa using fun same : a = "" => none (same ▸ mem)

/-- What is shown of a peer once it has been written. -/
def listedFace (peer : BrowserPeer) : PeerFace := browserFace peer.listed

theorem map_listedFace (item : Item) :
    (listBrowserPeers storageWorks item).map listedFace = (listBrowserPeers storageWorks item).map browserFace := by
  refine List.map_congr_left fun peer mem => ?_
  rw [listedFace, BrowserPeer.listed, filter_eq_of_noEmpty (noEmpty_of_mem mem)]

/-- The item that was written last lists its peers as they were then, without empty addresses. -/
theorem sameList_persisted_iff {native : List KnownPeer} {peers : List BrowserPeer} :
    SameList ⟨native, some (envelope peers)⟩ ↔ native.map nativeFace = peers.map listedFace := by
  rw [SameList, list_persisted, List.map_map]
  rfl

/-! ## Checks -/

theorem le_of_isHexDigit {c : Char} (hex : isHexDigit c = true) : c.toNat ≤ 127 := by
  simp only [isHexDigit, Char.isDigit, Bool.or_eq_true, Bool.and_eq_true, decide_eq_true_eq, Char.le_def,
    UInt32.le_iff_toNat_le] at hex
  have upper : ('9'.val.toNat ≤ 127 ∧ 'f'.val.toNat ≤ 127) ∧ 'F'.val.toNat ≤ 127 := by decide
  show c.val.toNat ≤ 127
  omega

/-- A text of hex digits is as long in bytes, and in the units of a script, as it has digits. -/
theorem lengths_of_hex {text : String} (hex : text.toList.all isHexDigit = true) :
    text.utf8ByteSize = text.toList.length ∧ JsText.length text = text.toList.length := by
  have sizes (cs : List Char) (hex : cs.all isHexDigit = true) :
      (String.ofList cs).utf8ByteSize = cs.length ∧
        (cs.map fun c => if 0x10000 ≤ c.toNat then 2 else 1).sum = cs.length := by
    induction cs with
    | nil => exact ⟨rfl, rfl⟩
    | cons c cs ih =>
      rw [List.all_cons, Bool.and_eq_true] at hex
      have small := le_of_isHexDigit hex.1
      have one : c.utf8Size = 1 := Char.utf8Size_eq_one_iff.mpr (UInt32.le_iff_toNat_le.mpr small)
      have front : String.ofList (c :: cs) = String.singleton c ++ String.ofList cs := by
        rw [String.singleton_eq_ofList, ← String.ofList_append]
        rfl
      obtain ⟨bytes, units⟩ := ih hex.2
      refine ⟨?_, ?_⟩
      · rw [front, String.utf8ByteSize_append, String.utf8ByteSize_singleton, one, bytes, List.length_cons]
        omega
      · rw [List.map_cons, List.sum_cons, units, if_neg (by omega), List.length_cons]
        omega
  have both := sizes text.toList hex
  rw [String.ofList_toList] at both
  exact both

variable {text : AddressText} {card : PeerCard} {s : Stores} {item : Item} {source : PeerSource} {now : Int} {iso : String}

theorem validateCard_ok_iff :
    validateCard text card = .ok () ↔ Identified card ∧ ∀ a ∈ card.multiaddrs, text.parses a = true := by
  have parse : (card.multiaddrs.find? fun address => !text.parses address) = none ↔
      ∀ a ∈ card.multiaddrs, text.parses a = true := by simp
  rw [validateCard, Identified, ← parse]
  by_cases id : card.peerId = ""
  · rw [if_pos id]
    refine iff_of_false (fun given => ?_) fun h => h.1.1 id
    cases given
  rw [if_neg id]
  by_cases hex : card.publicKeyHex.toList.all isHexDigit = true
  · have bytes := (lengths_of_hex hex).1
    by_cases long : card.publicKeyHex.toList.length = 64
    · have size : ¬card.publicKeyHex.utf8ByteSize ≠ publicKeyHexLen := not_not.mpr (bytes.trans long)
      rw [if_neg size, if_neg (by rw [Bool.not_eq_true, Bool.not_eq_false']; exact hex)]
      cases card.multiaddrs.find? fun address => !text.parses address with
      | none => exact iff_of_true rfl ⟨⟨id, long, hex⟩, rfl⟩
      | some address =>
        refine iff_of_false (fun given => ?_) fun h => ?_
        · cases given
        · cases h.2
    · have size : card.publicKeyHex.utf8ByteSize ≠ publicKeyHexLen := fun same => long (bytes.symm.trans same)
      rw [if_pos size]
      refine iff_of_false (fun given => ?_) fun h => long h.1.2.1
      cases given
  · refine iff_of_false (fun given => ?_) fun h => hex h.1.2.2
    split at given
    · cases given
    · rw [if_pos (by rw [Bool.not_eq_true']; exact Bool.eq_false_iff.mpr hex)] at given
      cases given

/-- The browser refuses a card for its id, its key, or for having no addresses. -/
theorem browser_refuses (bad : ¬Identified card ∨ card.multiaddrs = []) :
    ∃ e, addBrowserPeerFromCard storageWorks iso card source item = (.error e, item) := by
  rw [addBrowserPeerFromCard]
  split
  · exact ⟨_, rfl⟩
  · rename_i id
    split
    · exact ⟨_, rfl⟩
    · rename_i key
      rw [not_or, not_not, not_not] at key
      rcases bad with unidentified | nothing
      · refine absurd ⟨id, ?_, key.2⟩ unidentified
        rw [← (lengths_of_hex key.2).2]
        exact key.1
      · rw [if_pos nothing]
        exact ⟨_, rfl⟩

theorem browser_checks (identified : Identified card) (some : card.multiaddrs ≠ []) :
    addBrowserPeerFromCard storageWorks iso card source item =
      match (listBrowserPeers storageWorks item).find? (hasId card.peerId) with
      | .some prior => (.ok (refresh card iso prior), .some (envelope
          (modifyFirst (hasId card.peerId) (refresh card iso) (listBrowserPeers storageWorks item))))
      | none => (.ok (introduce card source iso), .some (envelope
          (listBrowserPeers storageWorks item ++ [introduce card source iso]))) := by
  have key : ¬(JsText.length card.publicKeyHex ≠ 64 ∨ ¬card.publicKeyHex.toList.all isHexDigit) := by
    rw [not_or, not_not, not_not, (lengths_of_hex identified.2.2).2]
    exact identified.2
  rw [addBrowserPeerFromCard, if_neg identified.1, if_neg key, if_neg some]
  rfl

/-! ## One call -/

theorem modifyPeer_eq (peerId : String) (change : KnownPeer → KnownPeer) (peers : List KnownPeer) :
    modifyPeer peerId change peers = modifyFirst (fun peer => peer.peerId = peerId) change peers := by
  induction peers with
  | nil => rfl
  | cons peer peers ih =>
    rw [modifyPeer, modifyFirst, ih]
    by_cases here : peer.peerId = peerId
    · rw [if_pos here, if_pos (by simpa using here)]
    · rw [if_neg here, if_neg (by simpa using here)]

/-- Peers that look alike have the same id. -/
theorem agree_on_id (peerId : String) (peer : KnownPeer) (peer' : BrowserPeer)
    (same : nativeFace peer = listedFace peer') : decide (peer.peerId = peerId) = hasId peerId peer' := by
  have ids : peer.peerId = peer'.peerId := congrArg PeerFace.peerId same
  rw [hasId, ids]

theorem fileWorks_works : fileWorks.Works := ⟨rfl, rfl⟩

/-- What both stores list, as what would be written again. -/
theorem SameList.listed (same : SameList s) :
    s.native.map nativeFace = (listBrowserPeers storageWorks s.browser).map listedFace :=
  same.trans (map_listedFace s.browser).symm

theorem updatePeer_accepts (peerId : String) (change : KnownPeer → KnownPeer) (peers : List KnownPeer) :
    outcome (updatePeer fileWorks peerId change peers) = (true, modifyPeer peerId change peers) := by
  have accepted : (updatePeer fileWorks peerId change peers).1.isOk = true := by
    rw [updatePeer]
    cases found : peers.find? fun peer => peer.peerId = peerId with
    | none =>
      simp only [readEnvelope, fileWorks, Except.map, found]
      rfl
    | some peer =>
      simp only [readEnvelope, fileWorks, Except.map, found]
      rfl
  rw [outcome, accepted, updatePeer_of_works fileWorks_works]

/-- A change of flags that both stores make alike leaves them alike. -/
theorem sameList_update (same : SameList s) (peerId : String) {change : KnownPeer → KnownPeer}
    {change' : BrowserPeer → BrowserPeer} (alike : ∀ peer peer', nativeFace peer = listedFace peer' →
      nativeFace (change peer) = listedFace (change' peer')) :
    (outcome (updateBrowserPeer storageWorks peerId change' s.browser)).1 = true ∧
    SameList ⟨modifyPeer peerId change s.native,
      (outcome (updateBrowserPeer storageWorks peerId change' s.browser)).2⟩ := by
  cases found : s.native.find? fun peer => peer.peerId = peerId with
  | none =>
    have absent : (listBrowserPeers storageWorks s.browser).find? (hasId peerId) = none :=
      find?_eq_none_of_map (agree_on_id peerId) same.listed found
    have kept : modifyPeer peerId change s.native = s.native :=
      modifyPeer_of_unknown (find?_peer_eq_none_iff.mp found)
    rw [updateBrowserPeer, absent, kept]
    exact ⟨rfl, same⟩
  | some peer =>
    obtain ⟨peer', first, look, changes⟩ := map_modifyFirst_eq_iff (agree_on_id peerId) same.listed found
    rw [updateBrowserPeer, first]
    refine ⟨rfl, sameList_persisted_iff.mpr ?_⟩
    rw [modifyPeer_eq]
    exact (changes _ _).mpr (alike peer peer' look)

theorem agree_of_update {call : StoreCall} (same : SameList s) {peerId : String} {change : KnownPeer → KnownPeer}
    {change' : BrowserPeer → BrowserPeer}
    (native : nativeCall text s.native call = outcome (updatePeer fileWorks peerId change s.native))
    (browser : browserCall s.browser call = outcome (updateBrowserPeer storageWorks peerId change' s.browser))
    (alike : ∀ peer peer', nativeFace peer = listedFace peer' →
      nativeFace (change peer) = listedFace (change' peer')) : Agree text s call := by
  obtain ⟨accepted, after⟩ := sameList_update same peerId alike
  rw [Agree, step, native, browser, updatePeer_accepts]
  exact ⟨accepted.symm, after⟩

theorem agree_revoke (same : SameList s) (peerId : String) : Agree text s (.revokeAccess peerId) :=
  agree_of_update same rfl rfl fun _ _ look => congrArg (fun face => { face with accessGranted := false }) look

theorem agree_grant (same : SameList s) (peerId : String) (now : Int) (iso : String) :
    Agree text s (.grantAccess peerId now iso) :=
  agree_of_update same rfl rfl fun _ _ look => congrArg (fun face => { face with accessGranted := true }) look

theorem remove_accepts (peerId : String) (peers : List KnownPeer) :
    outcome (PeerStore.remove fileWorks peerId peers) = (true, peers.filter fun peer => peer.peerId ≠ peerId) := by
  rcases remove_cases_answer fileWorks peerId peers with ⟨removed, done⟩ | ⟨e, failed⟩
  · rw [done]
    rfl
  · rw [PeerStore.remove] at failed
    simp only [readEnvelope, fileWorks, Except.map] at failed
    split at failed
    · cases failed
    · cases failed

theorem agree_remove (same : SameList s) (peerId : String) : Agree text s (.remove peerId) := by
  have native := remove_accepts peerId s.native
  have keeps (peer : KnownPeer) (peer' : BrowserPeer) (look : nativeFace peer = listedFace peer') :
      decide (peer.peerId ≠ peerId) = !hasId peerId peer' := by
    rw [← agree_on_id peerId peer peer' look, decide_not]
  have left := map_filter_eq keeps same.listed
  have browser : (browserCall s.browser (.remove peerId)).1 = true ∧
      SameList ⟨s.native.filter fun peer => peer.peerId ≠ peerId, (browserCall s.browser (.remove peerId)).2⟩ := by
    show (outcome (removeBrowserPeer storageWorks peerId s.browser)).1 = true ∧
      SameList ⟨_, (outcome (removeBrowserPeer storageWorks peerId s.browser)).2⟩
    rw [removeBrowserPeer]
    split
    · rename_i nobody
      refine ⟨rfl, ?_⟩
      have whole := List.filter_eq_self.mpr (List.length_filter_eq_length_iff.mp nobody)
      show List.map nativeFace _ = (listBrowserPeers storageWorks s.browser).map browserFace
      rw [left, whole]
      exact map_listedFace s.browser
    · exact ⟨rfl, sameList_persisted_iff.mpr left⟩
  refine ⟨(congrArg Prod.fst native).trans browser.1.symm, ?_⟩
  rw [step]
  show SameList ⟨(outcome (PeerStore.remove fileWorks peerId s.native)).2, _⟩
  rw [native]
  exact browser.2

theorem nativeFace_refresh_eq_iff {peer : KnownPeer} {peer' : BrowserPeer} (noEmpty : "" ∉ peer'.multiaddrs)
    (look : nativeFace peer = listedFace peer') :
    nativeFace (card.refresh now peer) = listedFace (refresh card iso peer') ↔
      "" ∉ card.multiaddrs ∧ (card.multiaddrs.filter (· ∉ peer.multiaddrs)).Nodup := by
  have addresses : peer.multiaddrs = peer'.multiaddrs :=
    (congrArg PeerFace.multiaddrs look).trans (filter_eq_of_noEmpty noEmpty)
  have noEmpty' : "" ∉ peer.multiaddrs := addresses ▸ noEmpty
  rw [← refreshed_eq_iff noEmpty']
  constructor
  · intro same
    refine (congrArg PeerFace.multiaddrs same).trans ?_
    rw [addresses]
    rfl
  · intro same
    have rest : { nativeFace peer with multiaddrs := [] } = { listedFace peer' with multiaddrs := [] } :=
      congrArg (fun face => { face with multiaddrs := [] }) look
    have both := congrArg (fun face => { face with
      multiaddrs := peer.multiaddrs ++ card.multiaddrs.filter (· ∉ peer.multiaddrs) }) rest
    refine both.trans ?_
    rw [same, addresses]
    rfl

theorem nativeFace_introduce_eq_iff :
    nativeFace (card.introduce source now) = listedFace (introduce card source iso) ↔
      "" ∉ card.multiaddrs ∧ card.multiaddrs.Nodup := by
  rw [← introduced_eq_iff]
  constructor
  · exact fun same => congrArg PeerFace.multiaddrs same
  · exact fun same => congrArg (fun addresses => (⟨card.peerId, card.publicKeyHex, addresses, source, true⟩ : PeerFace)) same

/-- A card that both stores take leaves them alike exactly when its addresses are plain. -/
theorem agree_add_taken_iff (same : SameList s) (identified : Identified card) (some : card.multiaddrs ≠ [])
    (parse : ∀ a ∈ card.multiaddrs, text.parses a = true) :
    Agree text s (.add card source now iso) ↔ PlainAddresses text s.native card := by
  have valid := validateCard_ok_iff.mpr ⟨identified, parse⟩
  rw [PlainAddresses, and_iff_right some, and_iff_right parse, Agree, step, nativeCall, browserCall,
    browser_checks identified some]
  cases found : s.native.find? fun peer => peer.peerId = card.peerId with
  | none =>
    have unknown := find?_peer_eq_none_iff.mp found
    have absent : (listBrowserPeers storageWorks s.browser).find? (hasId card.peerId) = none :=
      find?_eq_none_of_map (agree_on_id card.peerId) same.listed found
    have every : card.multiaddrs.filter (· ∉ listedAddresses s.native card.peerId) = card.multiaddrs := by
      rw [listedAddresses, found]
      exact List.filter_eq_self.mpr fun a _ => by simp
    rw [add_of_unknown now source fileWorks_works valid unknown, absent, every]
    refine (and_iff_right rfl).trans (sameList_persisted_iff.trans ?_)
    show List.map nativeFace (s.native ++ [card.introduce source now]) = _ ↔ _
    rw [List.map_append, List.map_append, same.listed, List.append_cancel_left_eq, List.map_singleton,
      List.map_singleton, List.cons.injEq, and_iff_left rfl]
    exact nativeFace_introduce_eq_iff
  | some peer =>
    have known : card.peerId ∈ knownIds s.native := by
      by_contra unknown
      rw [find?_peer_eq_none_iff.mpr unknown] at found
      cases found
    obtain ⟨peer', first, look, changes⟩ := map_modifyFirst_eq_iff (agree_on_id card.peerId) same.listed found
    obtain ⟨row, added⟩ := add_of_known now source fileWorks_works valid known
    have addresses : listedAddresses s.native card.peerId = peer.multiaddrs := by
      rw [listedAddresses, found]
      rfl
    rw [added, first, addresses, modifyPeer_eq]
    refine (and_iff_right rfl).trans (sameList_persisted_iff.trans ((changes _ _).trans ?_))
    exact nativeFace_refresh_eq_iff (noEmpty_of_mem (List.mem_of_find?_eq_some first)) look

theorem native_accepts_iff (peers : List KnownPeer) :
    (nativeCall text peers (.add card source now iso)).1 = true ↔
      Identified card ∧ ∀ a ∈ card.multiaddrs, text.parses a = true := by
  rw [← validateCard_ok_iff]
  by_cases valid : validateCard text card = .ok ()
  · obtain ⟨row, taken⟩ := add_of_taken now source peers ⟨fileWorks_works, valid⟩
    refine iff_of_true ?_ valid
    rw [nativeCall, outcome, taken]
    rfl
  · obtain ⟨e, refused⟩ := add_of_refused now source peers fun taken => valid taken.2
    refine iff_of_false ?_ valid
    rw [nativeCall, refused]
    exact Bool.false_ne_true

theorem browser_accepts_iff (item : Item) :
    (browserCall item (.add card source now iso)).1 = true ↔ Identified card ∧ card.multiaddrs ≠ [] := by
  by_cases taken : Identified card ∧ card.multiaddrs ≠ []
  · refine iff_of_true ?_ taken
    rw [browserCall, browser_checks taken.1 taken.2]
    cases (listBrowserPeers storageWorks item).find? (hasId card.peerId) <;> rfl
  · have bad : ¬Identified card ∨ card.multiaddrs = [] := by
      by_contra neither
      rw [not_or, not_not] at neither
      exact taken neither
    obtain ⟨e, refused⟩ : ∃ e, addBrowserPeerFromCard storageWorks iso card source item = (.error e, item) :=
      browser_refuses bad
    refine iff_of_false ?_ taken
    rw [browserCall, refused]
    exact Bool.false_ne_true

theorem agree_add_iff (same : SameList s) :
    Agree text s (.add card source now iso) ↔ (Identified card → PlainAddresses text s.native card) := by
  by_cases identified : Identified card
  · rw [forall_prop_of_true identified]
    by_cases taken : card.multiaddrs ≠ [] ∧ ∀ a ∈ card.multiaddrs, text.parses a = true
    · exact agree_add_taken_iff same identified taken.1 taken.2
    · -- one store takes the card and the other does not
      refine iff_of_false (fun agree => taken ?_) fun plain => taken ⟨plain.1, plain.2.1⟩
      have alike := iff_of_eq (congrArg (· = true) agree.1)
      rw [native_accepts_iff, browser_accepts_iff, and_iff_right identified, and_iff_right identified] at alike
      have some : card.multiaddrs ≠ [] := fun nothing =>
        alike.mp (fun a mem => absurd (nothing ▸ mem) List.not_mem_nil) nothing
      exact ⟨some, alike.mpr some⟩
  · refine iff_of_true ?_ fun h => absurd h identified
    obtain ⟨e, refused⟩ := add_of_refused now source s.native fun taken =>
      identified (validateCard_ok_iff.mp taken.2).1
    obtain ⟨e', refused'⟩ : ∃ e, addBrowserPeerFromCard storageWorks iso card source s.browser = (.error e, s.browser) :=
      browser_refuses (.inl identified)
    rw [Agree, step, nativeCall, browserCall, refused, refused']
    exact ⟨rfl, same⟩

/-! ## Runs of calls -/

/-- A call to stores that list the same is taken alike exactly when its card is plain. -/
theorem agree_iff (same : SameList s) (call : StoreCall) : Agree text s call ↔ Plain text s call := by
  cases call with
  | add card source now iso => exact agree_add_iff same
  | remove peerId => exact iff_of_true (agree_remove same peerId) trivial
  | revokeAccess peerId => exact iff_of_true (agree_revoke same peerId) trivial
  | grantAccess peerId now iso => exact iff_of_true (agree_grant same peerId now iso) trivial

/-- From empty stores, both accept the same calls and list the same peers after each exactly as long as every
card that is added, unless both refuse it for its id or key, has addresses, all of them parse, none is empty, and
none that is new to the peer is repeated. -/
theorem stores_agree_iff (text : AddressText) (calls : List StoreCall) :
    Along (step text) (Agree text) {} calls ↔ Along (step text) (Plain text) {} calls :=
  along_congr_under SameList (fun _ _ _ agree => agree.2) (fun _ call same => agree_iff same call) rfl

/-- Addresses that begin with a slash parse. -/
def slashText : AddressText := ⟨fun address => address.toList.head? = some '/', id⟩

/-- The card of a peer. -/
def cardOf (multiaddrs : List String) : PeerCard := ⟨"QmA", String.ofList (List.replicate 64 'a'), multiaddrs⟩

theorem paired_alike : Along (step slashText) (Agree slashText) {}
    [.add (cardOf ["/ip4/1", "/ip4/2"]) .qr 5 "5", .revokeAccess "QmA", .remove "QmA"] := by
  refine (stores_agree_iff slashText _).mpr ⟨fun _ => ?_, trivial, trivial, trivial⟩
  exact ⟨by decide, by decide, by decide, by decide⟩

/-- A card that repeats an address: the native store keeps it once, the browser twice. -/
theorem repeated_address_kept :
    ¬Along (step slashText) (Agree slashText) {} [.add (cardOf ["/ip4/1", "/ip4/1"]) .qr 5 "5"] := by
  rintro ⟨agree, -⟩
  have fresh : SameList ({} : Stores) := rfl
  have identified : Identified (cardOf ["/ip4/1", "/ip4/1"]) := ⟨by decide, by decide, by decide⟩
  have plain := (agree_add_iff fresh).mp agree identified
  exact absurd plain.2.2.2 (by decide)

end Concorrd.BrowserStore
