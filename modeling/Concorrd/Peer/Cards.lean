import Concorrd.Lib.Base64
import Concorrd.Lib.JsonRead
import Concorrd.Lib.Utf8
import Concorrd.Peer.Store
import Mathlib.Data.List.TakeWhile

/-!
# Peer cards

A card travels as a `concord://peer/` URL with the JSON of the card in base64. The browser writes and
reads the members `peerId`, `publicKeyHex` and `multiaddrs`; the native side reads the fields of its
`PeerCard` under their own names, `peer_id`, `public_key_hex` and `multiaddrs`. `decode_encode` says
that the browser reads what it writes; `codecs_agree_iff` that the native side reads none of it, and
on which URLs both read the same.
-/

namespace Concorrd

open JsonRead

namespace Browser

/-- A card as the browser has it, its texts in UTF-16. -/
structure PeerCard where
  peerId : List Nat
  publicKeyHex : List Nat
  multiaddrs : List (List Nat)
  deriving DecidableEq, Repr

def scheme : String := "concord://peer/"

/-! ## The encoder -/

def base64urlEncode (text : String) : List Char :=
  let b64 := (Base64.encodeChars (Bytes.utf8 text)).map Base64.toUrl
  (b64.reverse.dropWhile (· = '=')).reverse

/-- The card as a JSON value. -/
def payload (card : Concorrd.PeerCard) : Json :=
  .obj [("peerId", .str card.peerId), ("publicKeyHex", .str card.publicKeyHex),
    ("multiaddrs", .arr (card.multiaddrs.map .str))]

def encodeToDeeplink (card : Concorrd.PeerCard) : String :=
  scheme ++ String.ofList (base64urlEncode (payload card).write)

/-! ## The decoder -/

/-- Bytes as text. A mark of the byte order at the start is passed over. -/
def decodeText (bytes : List UInt8) : Text :=
  match Utf8.decode bytes with
  | some '\uFEFF' :: cs => cs
  | cs => cs

def base64urlDecode (text : List Char) : Option Text :=
  let b64 := text.map Base64.fromUrl
  (Base64.atob (b64 ++ List.replicate ((4 - b64.length % 4) % 4) '=')).map decodeText

/-- The property of an object: of members with one key the last. -/
def property (members : List (List Piece × Value)) (name : String) : Option Value :=
  (members.reverse.find? fun m => unitsOf m.1 = utf16 name).map Prod.snd

def isHexUnit (u : Nat) : Bool :=
  (48 ≤ u && u ≤ 57) || (97 ≤ u && u ≤ 102) || (65 ≤ u && u ≤ 70)

/-- An address of a card: a text that is not empty. -/
def addressOf : Value → Option (List Nat)
  | .str pieces => if unitsOf pieces = [] then none else some (unitsOf pieces)
  | _ => none

def validatePeerId : Option Value → Except String (List Nat)
  | some (.str pieces) =>
    if (unitsOf pieces).length = 0 then .error "peerId missing or empty" else .ok (unitsOf pieces)
  | _ => .error "peerId missing or empty"

def validatePublicKeyHex : Option Value → Except String (List Nat)
  | some (.str pieces) =>
    if (unitsOf pieces).length ≠ 64 then
      .error ("publicKeyHex must be 64 hex chars (got " ++ toString (unitsOf pieces).length ++ ")")
    else if !(unitsOf pieces).all isHexUnit then .error "publicKeyHex must be hexadecimal"
    else .ok (unitsOf pieces)
  | _ => .error "publicKeyHex missing"

def validateMultiaddrs : Option Value → Except String (List (List Nat))
  | some (.arr items) =>
    if items.length = 0 then .error "multiaddrs must not be empty"
    else
      match items.mapM addressOf with
      | none => .error "multiaddrs must be non-empty strings"
      | some addresses => .ok addresses
  | _ => .error "multiaddrs missing or not an array"

/-- The members of an object; an array is one without any. -/
def membersOf : Value → Option (List (List Piece × Value))
  | .obj members => some members
  | .arr _ => some []
  | _ => none

def validateCard (parsed : Value) : Except String PeerCard :=
  match membersOf parsed with
  | none => .error "payload is not an object"
  | some members => do
    let peerId ← validatePeerId (property members "peerId")
    let publicKeyHex ← validatePublicKeyHex (property members "publicKeyHex")
    let multiaddrs ← validateMultiaddrs (property members "multiaddrs")
    return { peerId, publicKeyHex, multiaddrs }

def decodeFromDeeplink (url : String) : Except String PeerCard :=
  if !scheme.toList.isPrefixOf url.toList then
    .error ("URL must start with '" ++ scheme ++ "'")
  else if (url.toList.drop scheme.length).length = 0 then .error "URL has no payload"
  else
    match base64urlDecode (url.toList.drop scheme.length) with
    | none => .error "payload is not valid base64url"
    | some json =>
      match read json with
      | none => .error "payload is not valid JSON"
      | some parsed => validateCard parsed

end Browser

/-! ## The native reader -/

/-- A text of a JSON value. -/
def stringOf : Value → Option String
  | .str pieces => textOf pieces
  | _ => none

def stringsOf : Value → Option (List String)
  | .arr items => items.mapM stringOf
  | _ => none

/-- The field of a struct: its key comes once. -/
def fieldOf (members : List (List Piece × Value)) (name : String) : Option Value :=
  match members.filter fun m => textOf m.1 = some name with
  | [m] => some m.2
  | _ => none

/-- The fields of a card: from an array in their order, or from an object by their names, among which
others are passed over. -/
def PeerCard.deserialize : Value → Option PeerCard
  | .arr [peerId, publicKeyHex, multiaddrs] => do
    return { peerId := ← stringOf peerId, publicKeyHex := ← stringOf publicKeyHex,
             multiaddrs := ← stringsOf multiaddrs }
  | .obj members =>
    if members.all fun m => (textOf m.1).isSome then do
      return { peerId := ← (fieldOf members "peer_id").bind stringOf,
               publicKeyHex := ← (fieldOf members "public_key_hex").bind stringOf,
               multiaddrs := ← (fieldOf members "multiaddrs").bind stringsOf }
    else none
  | _ => none

def PeerCard.fromSlice (bytes : List UInt8) : Option PeerCard :=
  (read (Utf8.decode bytes)).bind PeerCard.deserialize

inductive DeeplinkStage where
  | decode
  | json
  | validate
  | add
  deriving DecidableEq, Repr

/-- Why a URL is refused. What the libraries say of base64 and JSON is left out. -/
inductive DeeplinkError where
  | notADeeplink (url : String)
  | base64url
  | json
  | validate (e : PeerStoreError)
  | add (e : PeerStoreError)
  deriving DecidableEq, Repr

def DeeplinkError.stage : DeeplinkError → DeeplinkStage
  | .notADeeplink _ | .base64url => .decode
  | .json => .json
  | .validate _ => .validate
  | .add _ => .add

/-- What stands in front of a query or a fragment. -/
def beforeQuery (rest : List Char) : List Char := rest.takeWhile fun c => c ≠ '?' && c ≠ '#'

/-- The payload behind a prefix. -/
def stripPrefix (url p : String) : Option (List Char) :=
  if p.toList.isPrefixOf url.toList then
    if beforeQuery (url.toList.drop p.length) = [] then none
    else some (beforeQuery (url.toList.drop p.length))
  else none

def stripConcordPrefix (url : String) : Option (List Char) :=
  ["concord://peer/", "concord:peer/"].findSome? (stripPrefix url)

/-- The card of a URL. -/
def readDeeplink (text : AddressText) (url : String) : Except DeeplinkError PeerCard :=
  match stripConcordPrefix url with
  | none => .error (.notADeeplink url)
  | some payload =>
    match Base64.decodeUrlSafe payload with
    | none => .error .base64url
    | some bytes =>
      match PeerCard.fromSlice bytes with
      | none => .error .json
      | some card =>
        match validateCard text card with
        | .error e => .error (.validate e)
        | .ok _ => .ok card

/-- Take in the card of a URL. -/
def handleDeeplinkUrl (text : AddressText) (io : PeerStoreIo) (now : Int) (url : String)
    (peers : List KnownPeer) : Except DeeplinkError KnownPeer × List KnownPeer :=
  match readDeeplink text url with
  | .error e => (.error e, peers)
  | .ok card =>
    ((PeerStore.add text io now card .deeplink peers).1.mapError .add,
      (PeerStore.add text io now card .deeplink peers).2)

/-! ## What is encoded -/

/-- The value that the text of a card is read as. -/
def PeerCard.written (card : PeerCard) : Value :=
  .obj [(piecesOf "peerId", .str (piecesOf card.peerId)),
    (piecesOf "publicKeyHex", .str (piecesOf card.publicKeyHex)),
    (piecesOf "multiaddrs", .arr (card.multiaddrs.map fun a => .str (piecesOf a)))]

/-- The card as the browser has it. -/
def PeerCard.toBrowser (card : PeerCard) : Browser.PeerCard :=
  ⟨utf16 card.peerId, utf16 card.publicKeyHex, card.multiaddrs.map utf16⟩

theorem value_payload (card : PeerCard) {n : Nat} (enough : card.multiaddrs.length + 6 ≤ n) :
    value n (readable (Browser.payload card).write) = some (card.written, []) := by
  obtain ⟨n, rfl⟩ := Nat.exists_eq_add_of_le' (show 5 ≤ n by omega)
  have whole : readable (Browser.payload card).write =
      some '\x7b' :: (readable (Json.quoted "peerId") ++ some ':' ::
        (readable (Json.quoted card.peerId) ++ some ',' ::
          (readable (Json.quoted "publicKeyHex") ++ some ':' ::
            (readable (Json.quoted card.publicKeyHex) ++ some ',' ::
              (readable (Json.quoted "multiaddrs") ++ some ':' ::
                (readable (Json.write (.arr (card.multiaddrs.map .str))) ++ [some '\x7d'])))))) := by
    simp only [Browser.payload, readable_obj, readable_members_cons, readable_members_nil,
      Json.write_str, List.nil_append, List.append_assoc, List.cons_append]
  rw [whole, value, valueWith_object, members, key_quoted, Option.bind_some, value_quoted,
    Option.bind_some, moreMembers_comma, members, key_quoted, Option.bind_some, value_quoted,
    Option.bind_some, moreMembers_comma, members, key_quoted, Option.bind_some,
    value_texts _ (by omega), Option.bind_some, moreMembers_close]
  rfl

/-- The text of a card is read as the card. -/
theorem read_payload (card : PeerCard) :
    read (readable (Browser.payload card).write) = some card.written := by
  have whole := value_payload card
    (Nat.le_max_right (2 * (readable (Browser.payload card).write).length + 2)
      (card.multiaddrs.length + 6))
  rw [value_fuel (Nat.le_max_left _ _)] at whole
  rw [JsonRead.read, whole]
  rfl

theorem exists_readable_payload (card : PeerCard) :
    ∃ cs, readable (Browser.payload card).write = some '\x7b' :: cs := by
  rw [Browser.payload, readable_obj]
  exact ⟨_, rfl⟩

/-! ## A text in a URL -/

/-- The URL of a text. -/
def linkOf (text : String) : String :=
  Browser.scheme ++ String.ofList (Browser.base64urlEncode text)

/-- The payload of the URL of a text. -/
def encoded (text : String) : List Char :=
  (Base64.toDigits (Bytes.utf8 text)).map fun d => Base64.toUrl (Base64.digit d)

section

variable {s : String} {text : AddressText}

theorem decode_text (s : String) : Utf8.decode (Bytes.utf8 s) = readable s := by
  have decoded := Utf8.decode_utf8 s.toList
  rwa [String.ofList_toList] at decoded

theorem toList_linkOf (s : String) : (linkOf s).toList = Browser.scheme.toList ++ encoded s := by
  rw [linkOf, String.toList_append, String.toList_ofList, Browser.base64urlEncode, encoded,
    ← Base64.trim_encodeChars]

theorem mapM_encoded (s : String) :
    (encoded s).mapM Base64.urlDigitOf = some (Base64.toDigits (Bytes.utf8 s)) :=
  Base64.mapM_toUrl (Base64.toDigits_spec _).2.2.2

theorem length_encoded (s : String) : (encoded s).length % 4 ≠ 1 := by
  rw [encoded, List.length_map]
  exact (Base64.toDigits_spec _).2.2.1

theorem encoded_ne_nil (opened : ∃ cs, readable s = some '\x7b' :: cs) : encoded s ≠ [] := by
  intro none
  have empty := mapM_encoded s
  rw [none] at empty
  have decoded := decode_text s
  rw [← (Base64.toDigits_spec (Bytes.utf8 s)).1, ← Option.some.inj empty] at decoded
  obtain ⟨cs, opened⟩ := opened
  rw [opened] at decoded
  cases decoded

/-- What the strict reader reads, the browser reads as the same bytes. -/
theorem base64urlDecode_of_strict {cs : List Char} {ds : List Nat}
    (h : cs.mapM Base64.urlDigitOf = some ds) (whole : cs.length % 4 ≠ 1) :
    Browser.base64urlDecode cs = some (Browser.decodeText (Base64.ofDigits ds)) := by
  rw [Browser.base64urlDecode, Base64.atob_fill h whole]
  rfl

theorem base64urlDecode_encoded (opened : ∃ cs, readable s = some '\x7b' :: cs) :
    Browser.base64urlDecode (encoded s) = some (readable s) := by
  obtain ⟨cs, opened⟩ := opened
  rw [base64urlDecode_of_strict (mapM_encoded s) (length_encoded s), (Base64.toDigits_spec _).1,
    Browser.decodeText, decode_text, opened]
  rfl

/-- The browser reads the text of the URL. -/
theorem decodeFromDeeplink_linkOf (opened : ∃ cs, readable s = some '\x7b' :: cs) {v : Value}
    (read : JsonRead.read (readable s) = some v) :
    Browser.decodeFromDeeplink (linkOf s) = Browser.validateCard v := by
  have prefixed : Browser.scheme.toList.isPrefixOf (linkOf s).toList = true := by
    rw [toList_linkOf, List.isPrefixOf_iff_prefix]
    exact List.prefix_append _ _
  have tail : (linkOf s).toList.drop Browser.scheme.length = encoded s := by
    rw [toList_linkOf]
    exact List.drop_left' String.length_toList
  have some : ¬(encoded s).length = 0 := mt List.length_eq_zero_iff.mp (encoded_ne_nil opened)
  rw [Browser.decodeFromDeeplink, prefixed, tail, base64urlDecode_encoded opened, if_neg (by decide),
    if_neg some]
  dsimp only
  rw [read]

/-- A payload of digits stands as it is. -/
theorem stripConcordPrefix_of_digits {url : String} {payload : List Char}
    (split : url.toList = Browser.scheme.toList ++ payload) (some : payload ≠ [])
    (digits : ∀ c ∈ payload, (c ≠ '?' && c ≠ '#') = true) :
    stripConcordPrefix url = .some payload := by
  have tail : url.toList.drop Browser.scheme.length = payload := by
    rw [split]
    exact List.drop_left' String.length_toList
  have first : stripPrefix url Browser.scheme = .some payload := by
    rw [stripPrefix, tail, beforeQuery, List.takeWhile_eq_self_iff.mpr digits, if_neg some, if_pos]
    rw [split, List.isPrefixOf_iff_prefix]
    exact List.prefix_append _ _
  rw [stripConcordPrefix, List.findSome?_cons,
    show stripPrefix url "concord://peer/" = .some payload from first]

/-- The native side reads the text of the URL. -/
theorem readDeeplink_linkOf (opened : ∃ cs, readable s = some '\x7b' :: cs) :
    readDeeplink text (linkOf s) =
      match (JsonRead.read (readable s)).bind PeerCard.deserialize with
      | none => .error .json
      | some card =>
        match validateCard text card with
        | .error e => .error (.validate e)
        | .ok _ => .ok card := by
  have digits : ∀ c ∈ encoded s, (c ≠ '?' && c ≠ '#') = true := by
    intro c mem
    have read := Base64.isSome_of_mapM (mapM_encoded s) c mem
    rw [Bool.and_eq_true, decide_eq_true_eq, decide_eq_true_eq]
    constructor
    · rintro rfl
      exact absurd read (by decide)
    · rintro rfl
      exact absurd read (by decide)
  have strict : Base64.decodeUrlSafe (encoded s) = some (Bytes.utf8 s) := by
    obtain ⟨back, exact, -⟩ := Base64.toDigits_spec (Bytes.utf8 s)
    rw [Base64.decodeUrlSafe, if_neg (length_encoded s), mapM_encoded, Option.bind_some,
      if_pos exact, back]
  rw [readDeeplink, stripConcordPrefix_of_digits (toList_linkOf s) (encoded_ne_nil opened) digits]
  dsimp only
  rw [strict]
  dsimp only
  rw [PeerCard.fromSlice, decode_text]

end

/-! ## What is encoded -/

/-- A member of the written card is found under its key. -/
theorem property_written (card : PeerCard) :
    Browser.property [(piecesOf "peerId", .str (piecesOf card.peerId)),
      (piecesOf "publicKeyHex", .str (piecesOf card.publicKeyHex)),
      (piecesOf "multiaddrs", .arr (card.multiaddrs.map fun a => .str (piecesOf a)))] =
    fun name => if name = "multiaddrs" then some (.arr (card.multiaddrs.map fun a => .str (piecesOf a)))
      else if name = "publicKeyHex" then some (.str (piecesOf card.publicKeyHex))
      else if name = "peerId" then some (.str (piecesOf card.peerId))
      else none := by
  funext name
  simp only [Browser.property, List.reverse_cons, List.reverse_nil, List.nil_append,
    List.cons_append, List.find?_cons, unitsOf_piecesOf, utf16_inj, List.find?_nil]
  by_cases h₁ : name = "multiaddrs"
  · subst h₁
    rfl
  · by_cases h₂ : name = "publicKeyHex"
    · subst h₂
      rfl
    · by_cases h₃ : name = "peerId"
      · subst h₃
        rfl
      · rw [if_neg h₁, if_neg h₂, if_neg h₃]
        simp only [Ne.symm h₁, Ne.symm h₂, Ne.symm h₃, decide_false, Option.map_none]

theorem addressOf_of_mapM {texts : List String} {addresses : List (List Nat)}
    (h : (texts.map fun a => Value.str (piecesOf a)).mapM Browser.addressOf = some addresses) :
    addresses = texts.map utf16 := by
  induction texts generalizing addresses with
  | nil =>
    cases h
    rfl
  | cons t texts ih =>
    simp only [List.map_cons, List.mapM_cons, Option.bind_eq_bind, Option.bind_eq_some_iff] at h
    obtain ⟨a, first, rest, others, same⟩ := h
    cases same
    rw [Browser.addressOf] at first
    split at first
    · cases first
    · cases first
      rw [unitsOf_piecesOf, ih others]
      rfl

/-- The code units of a value that is a text. -/
def textValue : Value → Option (List Nat)
  | .str pieces => some (unitsOf pieces)
  | _ => none

theorem validatePeerId_eq_ok {v : Option Value} {units : List Nat}
    (h : Browser.validatePeerId v = .ok units) : v.bind textValue = some units := by
  unfold Browser.validatePeerId at h
  split at h
  · split at h
    · cases h
    · cases h
      rfl
  · cases h

theorem validatePublicKeyHex_eq_ok {v : Option Value} {units : List Nat}
    (h : Browser.validatePublicKeyHex v = .ok units) : v.bind textValue = some units := by
  unfold Browser.validatePublicKeyHex at h
  split at h
  · split at h
    · cases h
    · split at h
      · cases h
      · cases h
        rfl
  · cases h

theorem validateMultiaddrs_eq_ok {v : Option Value} {addresses : List (List Nat)}
    (h : Browser.validateMultiaddrs v = .ok addresses) :
    ∃ items, v = some (.arr items) ∧ items.mapM Browser.addressOf = some addresses := by
  unfold Browser.validateMultiaddrs at h
  split at h
  · rename_i items
    split at h
    · cases h
    · split at h
      · cases h
      · rename_i read
        cases h
        exact ⟨items, rfl, read⟩
  · cases h

/-- A card that is accepted has the properties of the object. -/
theorem validateCard_eq_ok {v : Value} {js : Browser.PeerCard} (h : Browser.validateCard v = .ok js) :
    ∃ members, Browser.membersOf v = some members ∧
      (Browser.property members "peerId").bind textValue = some js.peerId ∧
      (Browser.property members "publicKeyHex").bind textValue = some js.publicKeyHex ∧
      ∃ items, Browser.property members "multiaddrs" = some (.arr items) ∧
        items.mapM Browser.addressOf = some js.multiaddrs := by
  unfold Browser.validateCard at h
  split at h
  · cases h
  · rename_i members object
    simp only [bind, Except.bind] at h
    split at h
    · cases h
    · rename_i peerId first
      split at h
      · cases h
      · rename_i publicKeyHex second
        split at h
        · cases h
        · rename_i multiaddrs third
          cases h
          exact ⟨members, object, validatePeerId_eq_ok first, validatePublicKeyHex_eq_ok second,
            validateMultiaddrs_eq_ok third⟩

/-- The browser reads back the card that it accepts. -/
theorem validateCard_written {card : PeerCard} {js : Browser.PeerCard}
    (h : Browser.validateCard card.written = .ok js) : js = card.toBrowser := by
  obtain ⟨members, same, peerId, publicKeyHex, items, multiaddrs, read⟩ := validateCard_eq_ok h
  cases same
  rw [property_written] at peerId publicKeyHex multiaddrs
  cases multiaddrs
  obtain ⟨jsId, jsHex, jsAddrs⟩ := js
  cases addressOf_of_mapM read
  have id : unitsOf (piecesOf card.peerId) = jsId := Option.some.inj peerId
  have hex : unitsOf (piecesOf card.publicKeyHex) = jsHex := Option.some.inj publicKeyHex
  rw [PeerCard.toBrowser, ← id, ← hex, unitsOf_piecesOf, unitsOf_piecesOf]

/-! ## The native side on what is encoded -/

/-- The native side refuses every card that the browser encodes. -/
theorem readDeeplink_encode (text : AddressText) (card : PeerCard) :
    readDeeplink text (Browser.encodeToDeeplink card) = .error .json := by
  have missing : fieldOf [(piecesOf "peerId", .str (piecesOf card.peerId)),
      (piecesOf "publicKeyHex", .str (piecesOf card.publicKeyHex)),
      (piecesOf "multiaddrs", .arr (card.multiaddrs.map fun a => .str (piecesOf a)))] "peer_id" =
      none := by
    simp [fieldOf, textOf_piecesOf]
  have refused : PeerCard.deserialize card.written = none := by
    rw [PeerCard.written, PeerCard.deserialize, missing]
    split
    · rfl
    · rfl
  refine (readDeeplink_linkOf (exists_readable_payload card)).trans ?_
  rw [read_payload, Option.bind_some, refused]

/-! ## URLs that both read -/

/-- The properties of the object in a URL, as the browser reads it. -/
def payloadOf (url : String) : Option (List (List Piece × Value)) :=
  ((Browser.base64urlDecode (url.toList.drop Browser.scheme.length)).bind JsonRead.read).bind
    Browser.membersOf

/-- The object in the URL has one text under both names of a property. -/
def SameUnder (url : String) (name nativeName : String) : Prop :=
  ((payloadOf url).bind fun members => (Browser.property members name).bind textValue) =
    (payloadOf url).bind fun members => (Browser.property members nativeName).bind textValue

instance (url name nativeName : String) : Decidable (SameUnder url name nativeName) :=
  inferInstanceAs (Decidable (_ = _))

/-- What the browser reads of a URL. -/
theorem decodeFromDeeplink_eq_ok {url : String} {js : Browser.PeerCard}
    (h : Browser.decodeFromDeeplink url = .ok js) :
    url.toList = Browser.scheme.toList ++ url.toList.drop Browser.scheme.length ∧
      url.toList.drop Browser.scheme.length ≠ [] ∧
      ∃ json parsed, Browser.base64urlDecode (url.toList.drop Browser.scheme.length) = some json ∧
        JsonRead.read json = some parsed ∧ Browser.validateCard parsed = .ok js := by
  unfold Browser.decodeFromDeeplink at h
  split at h
  · cases h
  · rename_i prefixed
    rw [Bool.not_eq_true, Bool.not_eq_false'] at prefixed
    obtain ⟨rest, same⟩ := List.isPrefixOf_iff_prefix.mp prefixed
    have tail : url.toList.drop Browser.scheme.length = rest := by
      rw [← same]
      exact List.drop_left' String.length_toList
    split at h
    · cases h
    · rename_i nonempty
      split at h
      · cases h
      · rename_i json decoded
        split at h
        · cases h
        · rename_i parsed read
          refine ⟨?_, fun empty => nonempty (by rw [empty]; rfl), json, parsed, decoded, read, h⟩
          rw [tail, same]

/-- What the browser decodes has no query and no fragment. -/
theorem digits_of_decode {cs : List Char} {json : Text} (h : Browser.base64urlDecode cs = some json) :
    ∀ c ∈ cs, (c ≠ '?' && c ≠ '#') = true := by
  obtain ⟨bytes, read, -⟩ := Option.map_eq_some_iff.mp h
  intro c mem
  have fits := Base64.of_atob read (Base64.fromUrl c)
    (List.mem_append_left _ (List.mem_map_of_mem mem))
  rw [Bool.and_eq_true, decide_eq_true_eq, decide_eq_true_eq]
  constructor
  · rintro rfl
    exact absurd fits (by decide)
  · rintro rfl
    exact absurd fits (by decide)

/-- A mark of the byte order begins no JSON. -/
theorem read_mark (cs : Text) : JsonRead.read (some '\uFEFF' :: cs) = none := rfl

/-- What the native side reads of a URL that the browser decodes. -/
theorem readDeeplink_eq_ok {text : AddressText} {url : String} {card : PeerCard} {json : Text}
    (split : url.toList = Browser.scheme.toList ++ url.toList.drop Browser.scheme.length)
    (nonempty : url.toList.drop Browser.scheme.length ≠ [])
    (decoded : Browser.base64urlDecode (url.toList.drop Browser.scheme.length) = some json)
    (h : readDeeplink text url = .ok card) :
    ∃ parsed, JsonRead.read json = some parsed ∧ PeerCard.deserialize parsed = some card := by
  rw [readDeeplink, stripConcordPrefix_of_digits split nonempty (digits_of_decode decoded)] at h
  dsimp only at h
  split at h
  · cases h
  · rename_i bytes strict
    split at h
    · cases h
    · rename_i card' read
      split at h
      · cases h
      · cases h
        obtain ⟨ds, digits, whole, rfl⟩ := Base64.exists_of_decodeUrlSafe strict
        obtain ⟨parsed, read, fields⟩ := Option.bind_eq_some_iff.mp read
        rw [base64urlDecode_of_strict digits whole] at decoded
        cases decoded
        refine ⟨parsed, ?_, fields⟩
        unfold Browser.decodeText
        split
        · rename_i cs marked
          rw [marked, read_mark] at read
          cases read
        · exact read

/-- A field of the native side is the property of its name. -/
theorem property_of_fieldOf {members : List (List Piece × Value)} {name : String} {v : Value}
    (keys : (members.all fun m => (textOf m.1).isSome) = true)
    (h : fieldOf members name = some v) : Browser.property members name = some v := by
  have same : members.filter (fun m => unitsOf m.1 = utf16 name) =
      members.filter fun m => textOf m.1 = some name := by
    refine List.filter_congr fun m mem => ?_
    obtain ⟨t, key⟩ := Option.isSome_iff_exists.mp (List.all_eq_true.mp keys m mem)
    rw [unitsOf_of_textOf key, key, decide_eq_decide, utf16_inj, Option.some.injEq]
  unfold fieldOf at h
  split at h
  · rename_i m single
    cases h
    rw [Browser.property, ← List.head?_filter, List.filter_reverse, same, single]
    rfl
  · cases h

theorem textValue_of_stringOf {v : Value} {s : String} (h : stringOf v = some s) :
    textValue v = some (utf16 s) := by
  unfold stringOf at h
  split at h
  · rw [textValue, unitsOf_of_textOf h]
  · cases h

theorem addresses_eq {items : List Value} {texts : List String} {addresses : List (List Nat)}
    (native : items.mapM stringOf = some texts)
    (browser : items.mapM Browser.addressOf = some addresses) : addresses = texts.map utf16 := by
  induction items generalizing texts addresses with
  | nil =>
    cases native
    cases browser
    rfl
  | cons v items ih =>
    simp only [List.mapM_cons, Option.bind_eq_bind, Option.bind_eq_some_iff] at native browser
    obtain ⟨t, first, texts, rest, same⟩ := native
    obtain ⟨a, first', addresses, rest', same'⟩ := browser
    cases same
    cases same'
    rw [ih rest rest', List.map_cons]
    unfold Browser.addressOf at first'
    split at first'
    · split at first'
      · cases first'
      · cases first'
        rw [unitsOf_of_textOf first]
    · cases first'

/-- The fields of a card that is read from an object. -/
theorem deserialize_obj {members : List (List Piece × Value)} {card : PeerCard}
    (h : PeerCard.deserialize (.obj members) = some card) :
    (members.all fun m => (textOf m.1).isSome) = true ∧
      (∃ v, fieldOf members "peer_id" = some v ∧ stringOf v = some card.peerId) ∧
      (∃ v, fieldOf members "public_key_hex" = some v ∧ stringOf v = some card.publicKeyHex) ∧
      ∃ v, fieldOf members "multiaddrs" = some v ∧ stringsOf v = some card.multiaddrs := by
  rw [PeerCard.deserialize] at h
  split at h
  · rename_i keys
    simp only [bind, Option.bind_eq_some_iff] at h
    obtain ⟨peerId, ⟨v₁, field₁, text₁⟩, hex, ⟨v₂, field₂, text₂⟩, addrs, ⟨v₃, field₃, text₃⟩, same⟩ := h
    cases same
    exact ⟨keys, ⟨v₁, field₁, text₁⟩, ⟨v₂, field₂, text₂⟩, ⟨v₃, field₃, text₃⟩⟩
  · cases h

/-- Both sides read one card exactly when the object has it under the names of both. -/
theorem read_same_iff {text : AddressText} {url : String} {js : Browser.PeerCard} {card : PeerCard}
    (browser : Browser.decodeFromDeeplink url = .ok js) (native : readDeeplink text url = .ok card) :
    js = card.toBrowser ↔
      SameUnder url "peerId" "peer_id" ∧ SameUnder url "publicKeyHex" "public_key_hex" := by
  obtain ⟨split, nonempty, json, parsed, decoded, read, accepted⟩ := decodeFromDeeplink_eq_ok browser
  obtain ⟨parsed', read', fields⟩ := readDeeplink_eq_ok split nonempty decoded native
  cases read.symm.trans read'
  obtain ⟨members, object, peerId, publicKeyHex, items, multiaddrs, addresses⟩ :=
    validateCard_eq_ok accepted
  have payload : payloadOf url = some members := by
    rw [payloadOf, decoded, Option.bind_some, read, Option.bind_some, object]
  cases parsed with
  | obj _ =>
    cases object
    obtain ⟨keys, ⟨v₁, field₁, text₁⟩, ⟨v₂, field₂, text₂⟩, v₃, field₃, text₃⟩ :=
      deserialize_obj fields
    have nativeId : (Browser.property members "peer_id").bind textValue = some (utf16 card.peerId) := by
      rw [property_of_fieldOf keys field₁, Option.bind_some, textValue_of_stringOf text₁]
    have nativeHex : (Browser.property members "public_key_hex").bind textValue =
        some (utf16 card.publicKeyHex) := by
      rw [property_of_fieldOf keys field₂, Option.bind_some, textValue_of_stringOf text₂]
    have addrs : js.multiaddrs = card.multiaddrs.map utf16 := by
      cases multiaddrs.symm.trans (property_of_fieldOf keys field₃)
      exact addresses_eq text₃ addresses
    rw [SameUnder, SameUnder, payload]
    simp only [Option.bind_some]
    rw [peerId, publicKeyHex, nativeId, nativeHex, Option.some.injEq, Option.some.injEq]
    obtain ⟨jsId, jsHex, jsAddrs⟩ := js
    simp only [PeerCard.toBrowser, Browser.PeerCard.mk.injEq]
    exact ⟨fun h => ⟨h.1, h.2.1⟩, fun h => ⟨h.1, h.2, addrs⟩⟩
  | arr vs =>
    cases object
    cases peerId
  | null => cases object
  | bool b => cases object
  | num => cases object
  | str ps => cases object

/-! ## The codecs -/

/-- The browser accepts the card. -/
def PeerCard.Accepted (card : PeerCard) : Prop := ∃ js, Browser.validateCard card.written = .ok js

/-- The browser reads back every card it accepts. The native side takes none in, and leaves its store
as it was. Where both read a URL, they read one card exactly when its object has the id and the key
under the names of both. -/
theorem codecs_agree_iff (text : AddressText) :
    (∀ card : PeerCard, card.Accepted → validateCard text card = .ok () →
      Browser.decodeFromDeeplink (Browser.encodeToDeeplink card) = .ok card.toBrowser ∧
        ∀ io now peers, handleDeeplinkUrl text io now (Browser.encodeToDeeplink card) peers =
          (.error .json, peers)) ∧
    ∀ url js card, Browser.decodeFromDeeplink url = .ok js → readDeeplink text url = .ok card →
      (js = card.toBrowser ↔
        SameUnder url "peerId" "peer_id" ∧ SameUnder url "publicKeyHex" "public_key_hex") := by
  refine ⟨fun card accepted _ => ⟨?_, fun io now peers => ?_⟩,
    fun url js card browser native => read_same_iff browser native⟩
  · obtain ⟨js, accepted⟩ := accepted
    refine (decodeFromDeeplink_linkOf (exists_readable_payload card) (read_payload card)).trans ?_
    rw [accepted, validateCard_written accepted]
  · rw [handleDeeplinkUrl, readDeeplink_encode]

/-! ## A card that does not arrive -/

def anyText : AddressText := ⟨fun _ => true, id⟩

def hexKey : String := String.ofList (List.replicate 64 'a')

def sampleCard : PeerCard := ⟨"12D3", hexKey, ["/ip4/127.0.0.1/tcp/4001"]⟩

/-- An object with the members of both sides, and two ids. -/
def doubleCard : String :=
  Json.write (.obj [("peerId", .str "a"), ("peer_id", .str "b"), ("publicKeyHex", .str hexKey),
    ("public_key_hex", .str hexKey), ("multiaddrs", .arr [.str "m"])])

def doubleValue : Value :=
  .obj [(piecesOf "peerId", .str (piecesOf "a")), (piecesOf "peer_id", .str (piecesOf "b")),
    (piecesOf "publicKeyHex", .str (piecesOf hexKey)),
    (piecesOf "public_key_hex", .str (piecesOf hexKey)),
    (piecesOf "multiaddrs", .arr [.str (piecesOf "m")])]

theorem value_doubleCard {n : Nat} (enough : 9 ≤ n) :
    value n (readable doubleCard) = some (doubleValue, []) := by
  obtain ⟨n, rfl⟩ := Nat.exists_eq_add_of_le' enough
  have whole : readable doubleCard =
      some '\x7b' :: (readable (Json.quoted "peerId") ++ some ':' ::
        (readable (Json.quoted "a") ++ some ',' :: (readable (Json.quoted "peer_id") ++ some ':' ::
        (readable (Json.quoted "b") ++ some ',' :: (readable (Json.quoted "publicKeyHex") ++ some ':' ::
        (readable (Json.quoted hexKey) ++ some ',' ::
        (readable (Json.quoted "public_key_hex") ++ some ':' ::
        (readable (Json.quoted hexKey) ++ some ',' :: (readable (Json.quoted "multiaddrs") ++ some ':' ::
        (readable (Json.write (.arr (["m"].map .str))) ++ [some '\x7d'])))))))))) := by
    simp only [doubleCard, readable_obj, readable_members_cons, readable_members_nil, Json.write_str,
      List.map_cons, List.map_nil, List.nil_append, List.append_assoc, List.cons_append]
  rw [whole, value, valueWith_object]
  simp only [members, key_quoted, Option.bind_some, value_quoted, moreMembers_comma]
  rw [value_texts _ (by simp), Option.bind_some, moreMembers_close]
  rfl

theorem read_doubleCard : JsonRead.read (readable doubleCard) = some doubleValue := by
  have whole := value_doubleCard (Nat.le_max_right (2 * (readable doubleCard).length + 2) 9)
  rw [value_fuel (Nat.le_max_left _ _)] at whole
  rw [JsonRead.read, whole]
  rfl

theorem opened_doubleCard : ∃ cs, readable doubleCard = some '\x7b' :: cs := by
  rw [doubleCard, readable_obj]
  exact ⟨_, rfl⟩

/-- No card that the browser encodes is taken in, and of two ids in one URL each side reads its own. -/
theorem codecs_disagree :
    ¬(∀ (text : AddressText) (card : PeerCard), card.Accepted → validateCard text card = .ok () →
      Browser.decodeFromDeeplink (Browser.encodeToDeeplink card) = .ok card.toBrowser ∧
        ∀ io now peers, io.Works →
          ∃ peer ∈ (handleDeeplinkUrl text io now (Browser.encodeToDeeplink card) peers).2,
            peer.peerId = card.peerId ∧ peer.publicKeyHex = card.publicKeyHex ∧
              peer.multiaddrs = card.multiaddrs) ∧
    ¬∀ (text : AddressText) url js card, Browser.decodeFromDeeplink url = .ok js →
      readDeeplink text url = .ok card → js = card.toBrowser := by
  constructor
  · intro agree
    obtain ⟨-, adds⟩ := agree anyText sampleCard ⟨_, rfl⟩ rfl
    obtain ⟨peer, mem, -⟩ := adds ⟨.ok (), .ok ()⟩ 0 [] ⟨rfl, rfl⟩
    rw [handleDeeplinkUrl, readDeeplink_encode] at mem
    cases mem
  · intro agree
    have browser : Browser.decodeFromDeeplink (linkOf doubleCard) =
        .ok ⟨utf16 "a", utf16 hexKey, [utf16 "m"]⟩ :=
      (decodeFromDeeplink_linkOf opened_doubleCard read_doubleCard).trans (by decide)
    have native : readDeeplink anyText (linkOf doubleCard) = .ok ⟨"b", hexKey, ["m"]⟩ := by
      rw [readDeeplink_linkOf opened_doubleCard, read_doubleCard]
      decide
    have same := agree anyText _ _ _ browser native
    exact absurd (utf16_inj.mp (congrArg Browser.PeerCard.peerId same)) (by decide)

end Concorrd
