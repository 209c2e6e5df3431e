import Mathlib.Data.List.Chain
import Concorrd.History.Protocol

/-!
# What a hop chain proves

`Valid` is the list of checks as one condition on a request, the peer of its connection, the
server and its paired peers, for a chain of any length: an empty one asks that the requester
itself is paired. `verifyHopChain_eq_ok_iff` says that the verifier accepts exactly the valid
requests and answers with the length of the chain. The bytes a hop signs determine its subject
and its target, and nothing else: not where it stands in a chain.
-/

namespace Concorrd

namespace PeerCrypto

variable {PeerId Key : Type} [DecidableEq PeerId] (c : PeerCrypto PeerId Key)

/-- The ident parses to a peer and to a key that derives to it. -/
structure Derives (ident : PeerIdent) (peer : PeerId) (key : Key) : Prop where
  parses : c.parsePeerId ident.peerId = some peer
  point : ∃ bytes, c.decodeHex ident.pubkeyHex = .ok bytes ∧ bytes.length = publicKeyLen ∧
    c.verifyingKey bytes = .ok key
  derives : c.derivePeerId key = .ok peer

/-- The hop carries a signature of its canonical message under the key. -/
def Signed (link : VouchLink) (key : Key) : Prop :=
  ∃ bytes, c.decodeHex link.signatureHex = .ok bytes ∧ bytes.length = signatureLen ∧
    c.verify key link.canonicalMessage bytes = .ok ()

/-- One hop by itself: addressed to the server, between two peers whose ids derive from their
keys, and signed by the voucher. -/
structure Vouches (server : String) (link : VouchLink) : Prop where
  target : link.targetPeerId = server
  subject : ∃ peer key, c.Derives link.subject peer key
  voucher : ∃ peer key, c.Derives link.voucher peer key ∧ c.Signed link key

/-- The ids the chain ties together, from the requester on. -/
def Linked (requester : String) (chain : List VouchLink) : Prop :=
  (∀ first ∈ chain.head?, first.subject.peerId = requester) ∧
    chain.IsChain fun earlier later => later.subject.peerId = earlier.voucher.peerId

/-- The peer at the end of the chain: the last voucher, or the requester where there is none. -/
def terminus (requester : String) (chain : List VouchLink) : String :=
  (chain.getLast?.map fun link => link.voucher.peerId).getD requester

/-- The documented checks of a request. -/
structure Valid (request : HistoryRequest) (connection server : PeerId)
    (paired : List String) : Prop where
  length : request.chain.length ≤ maxHopChainLen
  limit : request.limit ≤ maxHistoryLimit * 10
  target : request.targetPeerId = c.toBase58 server
  requester : ∃ key, c.Derives request.requester connection key
  hops : ∀ link ∈ request.chain, c.Vouches (c.toBase58 server) link
  linked : Linked (c.toBase58 connection) request.chain
  anchor : terminus (c.toBase58 connection) request.chain ∈ paired

variable {c} {ident : PeerIdent} {peer connection server : PeerId} {key : Key} {link : VouchLink}
  {request : HistoryRequest} {paired : List String} {n : Nat}

theorem verifyPeeridPubkeyLink_eq_ok_iff :
    c.verifyPeeridPubkeyLink ident = .ok (peer, key) ↔ c.Derives ident peer key := by
  have parse : c.parseVerifyingKey ident = .ok key ↔ ∃ bytes,
      c.decodeHex ident.pubkeyHex = .ok bytes ∧ bytes.length = publicKeyLen ∧
        c.verifyingKey bytes = .ok key := by
    unfold parseVerifyingKey
    cases hdecode : c.decodeHex ident.pubkeyHex with
    | error e => simp only [reduceCtorEq, false_and, exists_false]
    | ok bytes =>
      simp only [Except.ok.injEq, exists_eq_left']
      split
      · rename_i hlength
        simp only [reduceCtorEq, hlength, false_and]
      · rename_i hlength
        rw [not_not] at hlength
        cases hkey : c.verifyingKey bytes with
        | error e => simp [Except.mapError]
        | ok key' => simp [Except.mapError, hlength]
  constructor
  · intro h
    unfold verifyPeeridPubkeyLink at h
    split at h
    · cases h
    rename_i claimed hclaimed
    split at h
    · cases h
    rename_i key' hkey
    split at h
    · cases h
    rename_i derived hderived
    split at h
    · cases h
    rename_i same
    cases h
    rw [not_not] at same
    subst same
    exact ⟨hclaimed, parse.mp hkey, hderived⟩
  · intro h
    unfold verifyPeeridPubkeyLink
    rw [h.parses, parse.mpr h.point]
    dsimp only
    rw [h.derives]
    exact if_neg (not_not.mpr rfl)

theorem verifySignature_eq_ok_iff :
    c.verifySignature link = .ok () ↔ ∃ peer key, c.Derives link.voucher peer key ∧
      c.Signed link key := by
  constructor
  · intro h
    unfold verifySignature at h
    split at h
    · cases h
    rename_i peer key hvoucher
    split at h
    · cases h
    rename_i bytes hdecode
    split at h
    · cases h
    rename_i hlength
    rw [not_not] at hlength
    refine ⟨peer, key, verifyPeeridPubkeyLink_eq_ok_iff.mp hvoucher, bytes, hdecode, hlength, ?_⟩
    cases hverify : c.verify key link.canonicalMessage bytes with
    | error e =>
      rw [hverify] at h
      cases h
    | ok u => rfl
  · rintro ⟨peer, key, hvoucher, bytes, hdecode, hlength, hverify⟩
    unfold verifySignature
    rw [verifyPeeridPubkeyLink_eq_ok_iff.mpr hvoucher]
    dsimp only
    rw [hdecode]
    dsimp only
    rw [if_neg (not_not.mpr hlength), hverify]
    rfl

theorem verifyLink_eq_ok_iff {s : String} {i : Nat} :
    c.verifyLink s i link = .ok () ↔ c.Vouches s link := by
  unfold verifyLink
  constructor
  · intro h
    split at h
    · cases h
    rename_i htarget
    rw [not_not] at htarget
    obtain ⟨⟨subject, subjectKey⟩, hsubject, h⟩ := except_bind_eq_ok.mp h
    obtain ⟨⟨voucher, voucherKey⟩, _, h⟩ := except_bind_eq_ok.mp h
    exact ⟨htarget, ⟨subject, subjectKey, verifyPeeridPubkeyLink_eq_ok_iff.mp hsubject⟩,
      verifySignature_eq_ok_iff.mp h⟩
  · rintro ⟨htarget, ⟨subject, subjectKey, hsubject⟩, ⟨voucher, voucherKey, hvoucher, hsigned⟩⟩
    rw [if_neg (not_not.mpr htarget), verifyPeeridPubkeyLink_eq_ok_iff.mpr hsubject,
      verifyPeeridPubkeyLink_eq_ok_iff.mpr hvoucher]
    exact verifySignature_eq_ok_iff.mpr ⟨voucher, voucherKey, hvoucher, hsigned⟩

/-- The first loop accepts exactly the hops that hold by themselves. -/
theorem verifyLinks_eq_ok_iff {s : String} {i : Nat} {links : List VouchLink} :
    c.verifyLinks s i links = .ok () ↔ ∀ link ∈ links, c.Vouches s link := by
  induction links generalizing i with
  | nil => simp [verifyLinks]
  | cons link links ih =>
    rw [List.forall_mem_cons, ← ih (i := i + 1), ← verifyLink_eq_ok_iff (i := i)]
    show (c.verifyLink s i link >>= fun _ => c.verifyLinks s (i + 1) links) = .ok () ↔ _
    rw [except_bind_eq_ok]
    exact ⟨fun ⟨_, h⟩ => h, fun h => ⟨(), h⟩⟩

omit [DecidableEq PeerId] in
/-- The second loop accepts exactly the hops that follow one another. -/
theorem verifyLinked_eq_ok_iff {i : Nat} {previous : VouchLink} {links : List VouchLink} :
    c.verifyLinked i previous.voucher links = .ok () ↔
      (previous :: links).IsChain fun earlier later =>
        later.subject.peerId = earlier.voucher.peerId := by
  induction links generalizing i previous with
  | nil => simp [verifyLinked]
  | cons link links ih =>
    rw [List.isChain_cons_cons, ← ih (i := i + 1)]
    show (if link.subject.peerId ≠ previous.voucher.peerId then _
      else c.verifyLinked (i + 1) link.voucher links) = _ ↔ _
    by_cases heq : link.subject.peerId = previous.voucher.peerId
    · rw [if_neg (not_not.mpr heq)]
      exact (and_iff_right heq).symm
    · rw [if_pos heq]
      exact iff_of_false nofun fun h => heq h.1

theorem verifyHopChain_of_ok (h : c.verifyHopChain request connection server paired = .ok n) :
    n = request.chain.length ∧ c.Valid request connection server paired := by
  unfold verifyHopChain at h
  split at h
  · cases h
  rename_i hlength
  split at h
  · cases h
  rename_i hlimit
  split at h
  · cases h
  rename_i htarget
  rw [not_not] at htarget
  split at h
  · cases h
  rename_i requester key hrequester
  split at h
  · cases h
  rename_i hconnection
  rw [not_not] at hconnection
  subst hconnection
  have requester := verifyPeeridPubkeyLink_eq_ok_iff.mp hrequester
  split at h
  · rename_i hchain
    split at h
    · rename_i hpaired
      cases h
      refine ⟨by rw [hchain]; rfl, ?_, UInt32.not_lt.mp hlimit, htarget, ⟨key, requester⟩,
        ?_, ?_, ?_⟩
      · exact not_lt.mp hlength
      · rw [hchain]
        exact fun _ hmem => absurd hmem List.not_mem_nil
      · rw [hchain]
        exact ⟨nofun, List.isChain_nil⟩
      · rw [hchain]
        exact hpaired
    · cases h
  · rename_i first rest hchain
    split at h
    · cases h
    rename_i hlinks
    split at h
    · cases h
    rename_i hfirst
    rw [not_not] at hfirst
    split at h
    · cases h
    rename_i hlinked
    dsimp only at h
    split at h
    · rename_i hpaired
      cases h
      refine ⟨by rw [hchain], not_lt.mp hlength, UInt32.not_lt.mp hlimit, htarget, ⟨key, requester⟩,
        ?_, ?_, ?_⟩
      · rw [hchain]
        exact verifyLinks_eq_ok_iff.mp hlinks
      · rw [hchain]
        refine ⟨fun link hlink => ?_, verifyLinked_eq_ok_iff.mp hlinked⟩
        cases hlink
        exact hfirst
      · rw [hchain, terminus, List.getLast?_eq_some_getLast (List.cons_ne_nil first rest)]
        exact hpaired
    · cases h

theorem verifyHopChain_of_valid (h : c.Valid request connection server paired) :
    c.verifyHopChain request connection server paired = .ok request.chain.length := by
  obtain ⟨hlength, hlimit, htarget, ⟨key, hrequester⟩, hhops, hlinked, hanchor⟩ := h
  unfold verifyHopChain
  rw [if_neg (not_lt.mpr hlength), if_neg (UInt32.not_lt.mpr hlimit), if_neg (not_not.mpr htarget),
    verifyPeeridPubkeyLink_eq_ok_iff.mpr hrequester]
  dsimp only
  rw [if_neg (not_not.mpr rfl)]
  cases hchain : request.chain with
  | nil =>
    rw [hchain] at hanchor
    exact if_pos hanchor
  | cons first rest =>
    rw [hchain] at hhops hlinked hanchor
    have hfirst : first.subject.peerId = c.toBase58 connection := hlinked.1 first rfl
    dsimp only
    rw [verifyLinks_eq_ok_iff.mpr hhops]
    dsimp only
    rw [if_neg (not_not.mpr hfirst), verifyLinked_eq_ok_iff.mpr hlinked.2]
    rw [terminus, List.getLast?_eq_some_getLast (List.cons_ne_nil first rest)] at hanchor
    exact if_pos hanchor

/-- The verifier accepts exactly the valid requests. -/
theorem verifyHopChain_eq_ok_iff : c.verifyHopChain request connection server paired = .ok n ↔
    n = request.chain.length ∧ c.Valid request connection server paired := by
  constructor
  · exact verifyHopChain_of_ok
  · rintro ⟨rfl, h⟩
    exact verifyHopChain_of_valid h

/-! ## The signed bytes -/

theorem canonicalMessage_eq (link : VouchLink) : link.canonicalMessage =
    (vouchDomain ++ "\n" ++ link.subject.peerId ++ "\n" ++ link.targetPeerId).toUTF8 := by
  simp only [VouchLink.canonicalMessage, String.toUTF8_eq_toByteArray, String.toByteArray_append]

/-- A text without a separator is what stands before the first one. -/
theorem eq_of_append_cons_eq {α : Type} {sep : α} {xs xs' ys ys' : List α} (hx : sep ∉ xs)
    (hx' : sep ∉ xs') (h : xs ++ sep :: ys = xs' ++ sep :: ys') : xs = xs' ∧ ys = ys' := by
  induction xs generalizing xs' with
  | nil =>
    cases xs' with
    | nil => exact ⟨rfl, (List.cons_eq_cons.mp h).2⟩
    | cons x' xs' =>
      obtain ⟨rfl, _⟩ := List.cons_eq_cons.mp h
      exact absurd List.mem_cons_self hx'
  | cons x xs ih =>
    cases xs' with
    | nil =>
      obtain ⟨rfl, _⟩ := List.cons_eq_cons.mp h
      exact absurd List.mem_cons_self hx
    | cons x' xs' =>
      obtain ⟨rfl, later⟩ := List.cons_eq_cons.mp h
      obtain ⟨rfl, rfl⟩ := ih (fun hm => hx (List.mem_cons_of_mem _ hm))
        (fun hm => hx' (List.mem_cons_of_mem _ hm)) later
      exact ⟨rfl, rfl⟩

/-- Where the subjects hold no newline, the bytes determine the subject and the target. -/
theorem canonicalMessage_injective {link' : VouchLink} (hs : '\n' ∉ link.subject.peerId.toList)
    (hs' : '\n' ∉ link'.subject.peerId.toList)
    (h : link.canonicalMessage = link'.canonicalMessage) :
    link.subject.peerId = link'.subject.peerId ∧ link.targetPeerId = link'.targetPeerId := by
  rw [canonicalMessage_eq, canonicalMessage_eq, String.toUTF8_eq_toByteArray,
    String.toUTF8_eq_toByteArray, String.toByteArray_inj] at h
  have chars := congrArg String.toList h
  simp only [String.toList_append, List.append_assoc] at chars
  have tails := List.append_cancel_left (List.append_cancel_left chars)
  obtain ⟨hsubject, htarget⟩ := eq_of_append_cons_eq hs hs' tails
  exact ⟨String.toList_inj.mp hsubject, String.toList_inj.mp htarget⟩

/-- **The hop chain.** Where the text of a peer id holds no newline, the verifier accepts exactly
the valid requests and answers with the length of the chain, and two hops of accepted requests
under one message have one subject and one target. -/
theorem verifyHopChain_exact (c : PeerCrypto PeerId Key)
    (textual : ∀ s peer, c.parsePeerId s = some peer → '\n' ∉ s.toList) :
    (∀ request connection server paired n,
      c.verifyHopChain request connection server paired = .ok n ↔
        n = request.chain.length ∧ c.Valid request connection server paired) ∧
    ∀ request connection server paired n request' connection' server' paired' n',
      c.verifyHopChain request connection server paired = .ok n →
      c.verifyHopChain request' connection' server' paired' = .ok n' →
      ∀ link ∈ request.chain, ∀ link' ∈ request'.chain,
        link.canonicalMessage = link'.canonicalMessage →
          link.subject.peerId = link'.subject.peerId ∧ c.toBase58 server = c.toBase58 server' := by
  refine ⟨fun request connection server paired n => verifyHopChain_eq_ok_iff, ?_⟩
  intro request connection server paired n request' connection' server' paired' n' h h'
    link hlink link' hlink' message
  obtain ⟨_, valid⟩ := verifyHopChain_of_ok h
  obtain ⟨_, valid'⟩ := verifyHopChain_of_ok h'
  obtain ⟨target, ⟨peer, _, subject⟩, _⟩ := valid.hops link hlink
  obtain ⟨target', ⟨peer', _, subject'⟩, _⟩ := valid'.hops link' hlink'
  obtain ⟨hsubject, htarget⟩ := canonicalMessage_injective (textual _ _ subject.parses)
    (textual _ _ subject'.parses) message
  rw [target, target'] at htarget
  exact ⟨hsubject, htarget⟩

/-! ## Chains end to end -/

section

variable {first rest : List VouchLink} {hop : VouchLink} {requester : String}

theorem linked_append_cons : Linked requester (first ++ hop :: rest) ↔
    Linked requester (first ++ [hop]) ∧ Linked hop.voucher.peerId rest := by
  have head : (first ++ hop :: rest).head? = (first ++ [hop]).head? := by cases first <;> rfl
  have parts : first ++ hop :: rest = (first ++ [hop]) ++ rest := by
    rw [List.append_assoc, List.singleton_append]
  rw [Linked, Linked, Linked, head, parts, List.isChain_append, List.getLast?_concat]
  simp only [Option.mem_some_iff, forall_eq']
  constructor
  · rintro ⟨starts, before, after, meets⟩
    exact ⟨⟨starts, before⟩, meets, after⟩
  · rintro ⟨⟨starts, before⟩, meets, after⟩
    exact ⟨starts, before, after, meets⟩

theorem terminus_append_cons :
    terminus requester (first ++ hop :: rest) = terminus hop.voucher.peerId rest := by
  cases rest with
  | nil => rw [terminus, List.getLast?_concat]; rfl
  | cons next rest =>
    rw [terminus, terminus, List.getLast?_append_cons, List.getLast?_cons_cons,
      List.getLast?_eq_some_getLast (List.cons_ne_nil next rest)]
    rfl

omit [DecidableEq PeerId] in
/-- What a chain proves is what its parts prove, the second one for the last voucher of the first. -/
theorem valid_append_cons {voucher : PeerId} (whole : request.chain = first ++ hop :: rest)
    (derives : c.Derives hop.voucher voucher key) (canonical : c.toBase58 voucher = hop.voucher.peerId) :
    c.Valid request connection server paired ↔
      request.chain.length ≤ maxHopChainLen ∧
        c.Valid { request with chain := first ++ [hop] } connection server [hop.voucher.peerId] ∧
          c.Valid { request with requester := hop.voucher, chain := rest } voucher server paired := by
  have short : request.chain.length ≤ maxHopChainLen →
      (first ++ [hop]).length ≤ maxHopChainLen ∧ rest.length ≤ maxHopChainLen := by
    rw [whole, List.length_append, List.length_append, List.length_cons, List.length_cons, List.length_nil]
    omega
  constructor
  · intro h
    obtain ⟨length, limit, target, requester, hops, linked, anchor⟩ := h
    have fits := short length
    rw [whole] at hops linked anchor
    obtain ⟨before, after⟩ := linked_append_cons.mp linked
    refine ⟨length, ⟨fits.1, limit, target, requester, fun link mem => hops link ?_, before, ?_⟩,
      ⟨fits.2, limit, target, ⟨key, derives⟩, fun link mem => hops link ?_, ?_, ?_⟩⟩
    · simp only [List.mem_append, List.mem_cons, List.not_mem_nil, or_false] at mem ⊢
      exact mem.imp_right Or.inl
    · rw [terminus_append_cons]
      exact List.mem_cons_self
    · exact List.mem_append_right _ (List.mem_cons_of_mem _ mem)
    · rw [canonical]
      exact after
    · rw [canonical, ← terminus_append_cons]
      exact anchor
  · rintro ⟨length, before, after⟩
    refine ⟨length, before.limit, before.target, before.requester, ?_, ?_, ?_⟩
    · rw [whole]
      intro link mem
      rcases List.mem_append.mp mem with mem | mem
      · exact before.hops link (List.mem_append_left _ mem)
      · rcases List.mem_cons.mp mem with rfl | mem
        · exact before.hops link (List.mem_append_right _ List.mem_cons_self)
        · exact after.hops link mem
    · rw [whole]
      exact linked_append_cons.mpr ⟨before.linked, canonical ▸ after.linked⟩
    · rw [whole, terminus_append_cons, ← canonical]
      exact after.anchor

/-- **Chains end to end.** Where an id that parses is written as it was, a chain is accepted exactly when it
is not too long, its first part is accepted from the requester where only the last voucher of it is
paired, and its second part from that voucher. -/
theorem verifyHopChain_append_cons (c : PeerCrypto PeerId Key)
    (canonical : ∀ s peer, c.parsePeerId s = some peer → c.toBase58 peer = s) {voucher : PeerId}
    (whole : request.chain = first ++ hop :: rest) (derives : c.Derives hop.voucher voucher key) :
    (∃ n, c.verifyHopChain request connection server paired = .ok n) ↔
      request.chain.length ≤ maxHopChainLen ∧
        (∃ n, c.verifyHopChain { request with chain := first ++ [hop] } connection server
          [hop.voucher.peerId] = .ok n) ∧
        ∃ n, c.verifyHopChain { request with requester := hop.voucher, chain := rest } voucher server
          paired = .ok n := by
  simp only [verifyHopChain_eq_ok_iff, exists_eq_left]
  exact valid_append_cons whole derives (canonical _ _ derives.parses)

end

end PeerCrypto

/-! ## Two requests to a host -/

private def hexDigit (ch : Char) : Option UInt8 :=
  if '0' ≤ ch ∧ ch ≤ '9' then some (ch.toNat - '0'.toNat).toUInt8
  else if 'a' ≤ ch ∧ ch ≤ 'f' then some (ch.toNat - 'a'.toNat + 10).toUInt8
  else none

private def hexBytes : List Char → Option (List UInt8)
  | [] => some []
  | [_] => none
  | high :: low :: rest => do
    let high ← hexDigit high
    let low ← hexDigit low
    return (16 * high + low) :: (← hexBytes rest)

/-- Ids, keys and signatures of a small mesh: a key is one byte repeated and signs with itself
twice. -/
def meshCrypto : PeerCrypto String (List UInt8) where
  parsePeerId s := if s.toList.all Char.isAlphanum then some s else none
  toBase58 := id
  decodeHex s := match hexBytes s.toList with
    | some bytes => .ok bytes
    | none => .error "Invalid hex"
  verifyingKey bytes := .ok bytes
  derivePeerId key := .ok ("peer" ++ toString (key.headD 0))
  verify key _ signature := if signature = key ++ key then .ok () else .error "signature error"
  quote s := "\"" ++ s ++ "\""

/-- A peer of the mesh by the digits of its key. -/
def meshPeer (peerId digits : String) : PeerIdent :=
  ⟨peerId, String.join (List.replicate 32 digits)⟩

/-- Peer 2 vouches for peer 1 towards the host. -/
def secondVouchesFirst : VouchLink :=
  ⟨meshPeer "peer1" "01", meshPeer "peer2" "02", "host", String.join (List.replicate 64 "02")⟩

/-- Peer 1 vouches for peer 3 towards the host. -/
def firstVouchesThird : VouchLink :=
  ⟨meshPeer "peer3" "03", meshPeer "peer1" "01", "host", String.join (List.replicate 64 "01")⟩

/-- A request of peer 1. -/
def firstRequest (chain : List VouchLink) : HistoryRequest :=
  ⟨meshPeer "peer1" "01", "host", "porch-default", 100, chain⟩

/-- A request of peer 3. -/
def thirdRequest (chain : List VouchLink) : HistoryRequest :=
  ⟨meshPeer "peer3" "03", "host", "porch-default", 100, chain⟩

/-! What the mesh reads from the digits of one byte. -/

private theorem hexBytes_replicate {high low : Char} {u v : UInt8} (hhigh : hexDigit high = some u)
    (hlow : hexDigit low = some v) (n : ℕ) :
    hexBytes (List.replicate n [high, low]).flatten = some (List.replicate n (16 * u + v)) := by
  induction n with
  | zero => rfl
  | succ n ih =>
    rw [List.replicate_succ, List.flatten_cons]
    show (do
      let high ← hexDigit high
      let low ← hexDigit low
      return (16 * high + low) :: (← hexBytes (List.replicate n [_, _]).flatten)) = _
    rw [hhigh, hlow, ih]
    rfl

section Mesh

variable {peerId subjectId digits subjectDigits : String} {high low : Char} {u v byte subject : UInt8}

private theorem decodeHex_mesh (hdigits : digits.toList = [high, low])
    (hhigh : hexDigit high = some u) (hlow : hexDigit low = some v) (n : ℕ) :
    meshCrypto.decodeHex (String.join (List.replicate n digits)) =
      .ok (List.replicate n (16 * u + v)) := by
  have chars : (String.join (List.replicate n digits)).toList =
      (List.replicate n [high, low]).flatten := by
    rw [String.toList_join, List.flatMap_def, List.map_replicate, hdigits]
  simp only [meshCrypto, chars, hexBytes_replicate hhigh hlow]

/-- A peer of the mesh whose id is the one of its byte. -/
private structure InMesh (peerId digits : String) (byte : UInt8) : Prop where
  parses : meshCrypto.parsePeerId peerId = some peerId
  decodes : ∀ n, meshCrypto.decodeHex (String.join (List.replicate n digits)) =
    .ok (List.replicate n byte)
  name : "peer" ++ toString byte = peerId

private theorem InMesh.derives (h : InMesh peerId digits byte) :
    meshCrypto.Derives (meshPeer peerId digits) peerId (List.replicate 32 byte) where
  parses := h.parses
  point := by
    refine ⟨List.replicate 32 byte, ?_, ?_, ?_⟩
    · simp only [meshPeer, h.decodes]
    · rw [List.length_replicate, publicKeyLen]
    · simp only [meshCrypto]
  derives := by
    rw [← h.name]
    simp only [meshCrypto, List.replicate_succ, List.headD_cons]

private theorem InMesh.vouches (h : InMesh peerId digits byte)
    (hsubject : InMesh subjectId subjectDigits subject) :
    meshCrypto.Vouches "host" ⟨meshPeer subjectId subjectDigits, meshPeer peerId digits, "host",
      String.join (List.replicate 64 digits)⟩ where
  target := rfl
  subject := ⟨_, _, hsubject.derives⟩
  voucher := by
    refine ⟨peerId, List.replicate 32 byte, h.derives, List.replicate 64 byte, ?_, ?_, ?_⟩
    · simp only [h.decodes]
    · rw [List.length_replicate, signatureLen]
    · simp only [meshCrypto, List.replicate_append_replicate, Nat.reduceAdd, if_true]

private theorem first_inMesh : InMesh "peer1" "01" 1 :=
  ⟨by decide, decodeHex_mesh (u := 0) (v := 1) rfl (by decide) (by decide), by decide⟩

private theorem second_inMesh : InMesh "peer2" "02" 2 :=
  ⟨by decide, decodeHex_mesh (u := 0) (v := 2) rfl (by decide) (by decide), by decide⟩

private theorem third_inMesh : InMesh "peer3" "03" 3 :=
  ⟨by decide, decodeHex_mesh (u := 0) (v := 3) rfl (by decide) (by decide), by decide⟩

end Mesh

/-- A request of a peer of the mesh is valid by what its chain holds. -/
private theorem valid_mesh {connection digits : String} {byte : UInt8} {chain : List VouchLink}
    {paired : List String} (hpeer : InMesh connection digits byte)
    (hlength : chain.length ≤ maxHopChainLen)
    (hhops : ∀ link ∈ chain, meshCrypto.Vouches "host" link)
    (hlinked : PeerCrypto.Linked connection chain)
    (hanchor : PeerCrypto.terminus connection chain ∈ paired) :
    meshCrypto.Valid ⟨meshPeer connection digits, "host", "porch-default", 100, chain⟩ connection
      "host" paired where
  length := hlength
  limit := (by decide : (100 : UInt32) ≤ maxHistoryLimit * 10)
  target := rfl
  requester := ⟨_, hpeer.derives⟩
  hops := hhops
  linked := hlinked
  anchor := hanchor

theorem verifyHopChain_exact_mesh :
    meshCrypto.verifyHopChain (firstRequest [secondVouchesFirst]) "peer1" "host" ["peer2"] = .ok 1 ↔
      1 = (firstRequest [secondVouchesFirst]).chain.length ∧
        meshCrypto.Valid (firstRequest [secondVouchesFirst]) "peer1" "host" ["peer2"] :=
  (PeerCrypto.verifyHopChain_exact meshCrypto fun s peer h hnewline => by
    change (if s.toList.all Char.isAlphanum then some s else none) = some peer at h
    split at h
    · rename_i hall
      exact absurd (List.all_eq_true.mp hall _ hnewline) (by decide)
    · cases h).1 _ _ _ _ _

/-- Peer 3 asks, with a vouch of peer 1 and one of peer 2. -/
def chainedRequest : HistoryRequest := thirdRequest [firstVouchesThird, secondVouchesFirst]

theorem verifyHopChain_append_cons_mesh :
    (∃ n, meshCrypto.verifyHopChain chainedRequest "peer3" "host" ["peer2"] = .ok n) ↔
      chainedRequest.chain.length ≤ maxHopChainLen ∧
        (∃ n, meshCrypto.verifyHopChain { chainedRequest with chain := [] ++ [firstVouchesThird] }
          "peer3" "host" [firstVouchesThird.voucher.peerId] = .ok n) ∧
        ∃ n, meshCrypto.verifyHopChain { chainedRequest with
          requester := firstVouchesThird.voucher
          chain := [secondVouchesFirst] } "peer1" "host" ["peer2"] = .ok n := by
  have canonical : ∀ s peer, meshCrypto.parsePeerId s = some peer → meshCrypto.toBase58 peer = s := by
    intro s peer h
    change (if s.toList.all Char.isAlphanum then some s else none) = some peer at h
    split at h
    · exact (Option.some.inj h).symm
    · cases h
  have whole : chainedRequest.chain = [] ++ firstVouchesThird :: [secondVouchesFirst] := by
    rw [chainedRequest, thirdRequest, List.nil_append]
  have derives : meshCrypto.Derives firstVouchesThird.voucher "peer1" (List.replicate 32 1) := by
    rw [firstVouchesThird]
    exact first_inMesh.derives
  exact PeerCrypto.verifyHopChain_append_cons meshCrypto canonical whole derives

/-- A paired requester is accepted with no hop at all, and one vouch is accepted as the first hop
of one chain and as the second of another. -/
theorem empty_chain_accepted :
    meshCrypto.verifyHopChain (firstRequest []) "peer1" "host" ["peer1"] = .ok 0 ∧
    meshCrypto.verifyHopChain (firstRequest [secondVouchesFirst]) "peer1" "host" ["peer2"] =
      .ok 1 ∧
    meshCrypto.verifyHopChain (thirdRequest [firstVouchesThird, secondVouchesFirst]) "peer3" "host"
      ["peer2"] = .ok 2 := by
  have second : meshCrypto.Vouches "host" secondVouchesFirst :=
    second_inMesh.vouches first_inMesh
  have first : meshCrypto.Vouches "host" firstVouchesThird := first_inMesh.vouches third_inMesh
  refine ⟨?_, ?_, ?_⟩
  · apply PeerCrypto.verifyHopChain_of_valid
    apply valid_mesh first_inMesh
    · decide
    · simp
    · simp [PeerCrypto.Linked]
    · simp [PeerCrypto.terminus]
  · apply PeerCrypto.verifyHopChain_of_valid
    apply valid_mesh first_inMesh
    · decide
    · simpa using second
    · simp [PeerCrypto.Linked, secondVouchesFirst, meshPeer]
    · simp [PeerCrypto.terminus, secondVouchesFirst, meshPeer]
  · apply PeerCrypto.verifyHopChain_of_valid
    apply valid_mesh third_inMesh
    · decide
    · simpa using ⟨first, second⟩
    · simp [PeerCrypto.Linked, firstVouchesThird, secondVouchesFirst, meshPeer]
    · simp [PeerCrypto.terminus, secondVouchesFirst, meshPeer]

end Concorrd
