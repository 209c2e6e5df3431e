import Concorrd.Lib.LengthFrame
import Concorrd.Lib.Utf8
import Concorrd.Lib.JsText
import Concorrd.Porch.Migrate
import Concorrd.Porch.WireRead

/-!
# Visits over the wire

A request goes out as a frame, the host answers it with a frame, and the visitor makes of that what the
helper of the request promises: `visit_*` of `porch/protocol.rs` for a native visitor, and
`browserVisit*` of `libp2p/porch.ts` for a browser, whose stream comes in chunks. The JSON libraries of
the two sides are given, except for what serde prints. The texts of their own errors are left out.
-/

namespace Concorrd

open Serde (field)

/-! ## The envelope of an answer -/

def PorchErrorBody.toJson (body : PorchErrorBody) : Json :=
  .obj [("code", .num body.code), ("message", .str body.message)]

def PorchErrorBody.ofJson (json : Json) : Option PorchErrorBody := do
  let code ← field Serde.i32 json "code"
  let message ← field Json.asStr json "message"
  some { code, message }

/-- The value whose text an answer is. -/
def responseJson : PorchResponse → Json
  | .ok result => .obj [("ok", .bool true), ("result", result.toJson)]
  | .error body => .obj [("ok", .bool false), ("error", body.toJson)]

theorem responseText_eq (response : PorchResponse) :
    responseText response = Json.write (responseJson response) := by
  cases response <;> rfl

/-- An answer as a native visitor reads it. A result that is null is none. -/
structure WireResponse where
  ok : Bool
  result : Option Json
  error : Option PorchErrorBody

def WireResponse.ofJson (json : Json) : Option WireResponse := do
  let ok ← field Json.asBool json "ok"
  let result ← Serde.optional some json "result"
  let error ← Serde.optional PorchErrorBody.ofJson json "error"
  some { ok, result, error }

/-! ## The two ends -/

/-- The JSON libraries: `serde_json::from_slice`, `JSON.stringify` and `JSON.parse`. -/
structure JsonLibraries where
  fromSlice : List UInt8 → Option Json
  stringify : Json → String
  parse : String → Option Json

/-- A host and a visitor with a stream between them. What the request draws is given with the host, and
how the answer is cut into chunks with the stream. -/
structure Visit where
  libs : JsonLibraries
  files : HostFiles
  porch : Porch
  visitor : String
  id : String
  now : Int64
  cut : List UInt8 → List (List UInt8)

namespace Visit

variable (w : Visit)

/-- What the host comes to for a request. -/
def dispatched (request : PorchRequest) : Except PorchError (Porch × PorchResult) :=
  w.porch.dispatchRequest w.files w.visitor ⟨request, w.id, w.now⟩

/-- The answer that the host sends for it. -/
def response (request : PorchRequest) : PorchResponse :=
  (w.porch.dispatchPorch w.files w.visitor ⟨request, w.id, w.now⟩).2

/-- The host takes a frame and writes one. It drops a stream that it cannot read. -/
def handleInbound (stream : List UInt8) : Option (List UInt8) :=
  match LengthFrame.read maxEnvelopeBytes stream with
  | .error _ => none
  | .ok body =>
    ((w.libs.fromSlice body).bind PorchRequest.ofJson).map fun request =>
      LengthFrame.frame (Bytes.utf8 (responseText (w.response request)))

/-! ## A native visitor -/

def sendOne (request : PorchRequest) : Except PorchError WireResponse :=
  let body := Bytes.utf8 (Json.write request.toJson)
  if body.length > maxEnvelopeBytes then
    .error (.malformedEnvelope ("request envelope too large: " ++ toString body.length ++ " > " ++
      toString maxEnvelopeBytes))
  else
    match LengthFrame.read maxEnvelopeBytes ((w.handleInbound (LengthFrame.frame body)).getD []) with
    | .error (.tooLarge length) =>
      .error (.malformedEnvelope ("response envelope too large: " ++ toString length ++ " > " ++
        toString maxEnvelopeBytes))
    | .error _ => .error (.io "unexpected end of file")
    | .ok bytes =>
      match (w.libs.fromSlice bytes).bind WireResponse.ofJson with
      | none => .error (.serde "")
      | some response => .ok response

/-- The value of an answer, or its error by its code. -/
def decodeOrError {α : Type} (read : Json → Option α) (response : WireResponse) : Except PorchError α :=
  if response.ok then
    match response.result with
    | none => .error (.malformedEnvelope "missing result")
    | some value =>
      match read value with
      | none => .error (.serde "")
      | some a => .ok a
  else
    match response.error with
    | none => .error (.malformedEnvelope "missing error")
    | some body =>
      if body.code = 403 then .error (.accessDenied body.message)
      else if body.code = 404 then .error (.channelNotFound body.message)
      else .error (.invalidInput body.message)

/-- Send a request and read the value of its answer. -/
def call {α : Type} (request : PorchRequest) (read : Json → Option α) : Except PorchError α :=
  (w.sendOne request).bind (decodeOrError read)

def visitListChannels : Except PorchError (List PorchListChannelRow) :=
  w.call .listChannels (Serde.items PorchListChannelRow.ofJson)

def visitKnock (channelId : String) (message : Option String) : Except PorchError Knock :=
  w.call (.knock channelId message) Knock.ofJson

/-- The type of the value is optional, so null would be none. -/
def visitKnockStatus (channelId : String) : Except PorchError (Option Knock) :=
  w.call (.knockStatus channelId) fun value =>
    if value = .null then some none else (Knock.ofJson value).map some

def visitWithdrawKnock (knockId : String) : Except PorchError Knock :=
  w.call (.withdrawKnock knockId) Knock.ofJson

def visitGetMessages (channelId : String) (since : Option Int64) (limit : UInt32) :
    Except PorchError (List ChannelMessage) :=
  w.call (.getMessages channelId since limit) (Serde.items ChannelMessageCols.ofJson)

def visitGetTheme (channelId : String) : Except PorchError ChannelTheme :=
  w.call (.getTheme channelId) ChannelTheme.ofJson

/-- The bytes of an asset that came inline. -/
def inlineBytes : AssetBytesRead → Except PorchError (List UInt8)
  | .inline _ _ text =>
    match Base64.decode text.toList with
    | some bytes => .ok bytes
    | none => .error (.malformedEnvelope "asset bytes base64 decode: ")
  | .tooLarge _ _ bytes =>
    .error (.invalidInput ("asset too large to preview inline: " ++ toString bytes ++ " bytes"))

def visitGetAssetBytes (assetId : String) : Except PorchError (List UInt8) :=
  (w.call (.getAssetBytes assetId) AssetBytesRead.ofJson).bind inlineBytes

def visitListVault (channelId path : String) : Except PorchError (List VaultEntry) :=
  w.call (.listVault channelId path) (Serde.items VaultEntry.ofJson)

def visitReadVaultFile (channelId path : String) : Except PorchError VaultFileRead :=
  w.call (.getVaultFile channelId path) VaultFileRead.ofJson

def visitPostMessage (channelId body : String) : Except PorchError ChannelMessage :=
  w.call (.postMessage channelId body) ChannelMessageCols.ofJson

/-- What a native visitor is given. -/
inductive Visited where
  | channels (rows : List PorchListChannelRow)
  | messages (messages : List ChannelMessage)
  | message (message : ChannelMessage)
  | knock (knock : Knock)
  | knockStatus (status : Option Knock)
  | theme (theme : ChannelTheme)
  | asset (bytes : List UInt8)
  | entries (entries : List VaultEntry)
  | file (response : VaultFileRead)

/-- The helper of a request. -/
def visit : PorchRequest → Except PorchError Visited
  | .listChannels => w.visitListChannels.map .channels
  | .getMessages channelId since limit => (w.visitGetMessages channelId since limit).map .messages
  | .postMessage channelId body => (w.visitPostMessage channelId body).map .message
  | .knock channelId message => (w.visitKnock channelId message).map .knock
  | .knockStatus channelId => (w.visitKnockStatus channelId).map .knockStatus
  | .withdrawKnock knockId => (w.visitWithdrawKnock knockId).map .knock
  | .getTheme channelId => (w.visitGetTheme channelId).map .theme
  | .getAssetBytes assetId => (w.visitGetAssetBytes assetId).map .asset
  | .listVault channelId path => (w.visitListVault channelId path).map .entries
  | .getVaultFile channelId path => (w.visitReadVaultFile channelId path).map .file

/-! ## A browser -/

inductive BrowserError where
  | requestTooLarge (length : Nat)
  | stream (fault : LengthFrame.Fault)
  | notJson
  | missingResult
  | porch (code message : Option Json)
  | assetTooLarge
  | notBase64

/-- Bytes as text. A mark of the byte order at the start is passed over. -/
def textDecoder (bytes : List UInt8) : String :=
  String.ofList <|
    match (Utf8.decode bytes).map (·.getD '\uFFFD') with
    | '\uFEFF' :: cs => cs
    | cs => cs

def sendPorchRequest (request : PorchRequest) : Except BrowserError Json :=
  let body := Bytes.utf8 (w.libs.stringify request.toScript)
  if body.length > maxEnvelopeBytes then .error (.requestTooLarge body.length)
  else
    match LengthFrame.readChunks maxEnvelopeBytes [] none
        (w.cut ((w.handleInbound (LengthFrame.frame body)).getD [])) with
    | .error fault => .error (.stream fault)
    | .ok bytes =>
      match w.libs.parse (textDecoder bytes) with
      | none => .error .notJson
      | some response => .ok response

/-- The result of an answer, whatever it is, or its error. -/
def unwrapResponse (response : Json) : Except BrowserError Json :=
  if (response.get "ok").any Json.isTruthy then
    match response.get "result" with
    | none => .error .missingResult
    | some result => .ok result
  else
    let err := ((response.get "error").filter (· ≠ .null)).getD
      (.obj [("code", .num 0), ("message", .str "unknown")])
    .error (.porch (err.get "code") (err.get "message"))

/-- What a browser is given. -/
inductive BrowserVisited where
  | value (value : Json)
  | bytes (bytes : List UInt8)

/-- The bytes of an asset that came inline. -/
def browserBytes (payload : Json) : Except BrowserError BrowserVisited :=
  if payload.get "kind" = some (.str "too_large") then .error .assetTooLarge
  else
    match (field Json.asStr payload "bytes_b64").bind fun text => Base64.atob text.toList with
    | none => .error .notBase64
    | some bytes => .ok (.bytes bytes)

/-- The helper of a request. -/
def browserVisit (request : PorchRequest) : Except BrowserError BrowserVisited :=
  ((w.sendPorchRequest request).bind unwrapResponse).bind fun result =>
    match request with
    | .getAssetBytes _ => browserBytes result
    | _ => .ok (.value result)

/-! ## What is to hold -/

/-- What a value is for a native visitor. An asset that is too large is none. -/
def nativeValue : PorchResult → Option Visited
  | .channels rows => some (.channels rows)
  | .messages page => some (.messages page)
  | .message posted => some (.message posted)
  | .knock filed => some (.knock filed)
  | .knockStatus latest => some (.knockStatus latest)
  | .theme stored => some (.theme stored)
  | .asset (.inline _ _ bytes) => some (.asset bytes)
  | .asset (.tooLarge _ _ _) => none
  | .entries listing => some (.entries listing)
  | .file response => some (.file response.read)

/-- What a value is for a browser. -/
def browserValue : PorchResult → Option BrowserVisited
  | .asset (.inline _ _ bytes) => some (.bytes bytes)
  | .asset (.tooLarge _ _ _) => none
  | result => some (.value result.toJson)

/-- A native visitor is given what the host came to, or fails with the host's kind of error. -/
structure NativeAgrees (request : PorchRequest) : Prop where
  value : ∀ p result v, w.dispatched request = .ok (p, result) → nativeValue result = some v →
    w.visit request = .ok v
  tooLarge : ∀ p result, w.dispatched request = .ok (p, result) → nativeValue result = none →
    ∃ e, w.visit request = .error e
  denied : ∀ e, w.dispatched request = .error e → e.statusCode = 403 →
    ∃ channelId, w.visit request = .error (.accessDenied channelId)
  notFound : ∀ e, w.dispatched request = .error e → e.statusCode = 404 →
    ∃ channelId, w.visit request = .error (.channelNotFound channelId)
  failed : ∀ e, w.dispatched request = .error e → ∃ e', w.visit request = .error e'

/-- A browser is given what the host came to, or fails. -/
structure BrowserAgrees (request : PorchRequest) : Prop where
  value : ∀ p result v, w.dispatched request = .ok (p, result) → browserValue result = some v →
    w.browserVisit request = .ok v
  tooLarge : ∀ p result, w.dispatched request = .ok (p, result) → browserValue result = none →
    ∃ e, w.browserVisit request = .error e
  failed : ∀ e, w.dispatched request = .error e → ∃ e', w.browserVisit request = .error e'

/-! ## The terms -/

/-- What the libraries print of a value they read back. -/
structure ReadBack (libs : JsonLibraries) (value : Json) : Prop where
  serde : libs.fromSlice (Bytes.utf8 (Json.write value)) = some value
  script : libs.fromSlice (Bytes.utf8 (libs.stringify value)) = some value
  parse : libs.parse (Json.write value) = some value

/-- The frames fit, their integers are exact in a script, the libraries read such values back, and the
chunks are the stream. -/
structure WithinTerms (request : PorchRequest) : Prop where
  native : (Json.write request.toJson).utf8ByteSize ≤ maxEnvelopeBytes
  browser : (w.libs.stringify request.toScript).utf8ByteSize ≤ maxEnvelopeBytes
  answer : (responseText (w.response request)).utf8ByteSize ≤ maxEnvelopeBytes
  exactRequest : request.toJson.isExact
  exactAnswer : (responseJson (w.response request)).isExact
  libs : ∀ value ∈ [request.toJson, request.toScript, responseJson (w.response request)],
    value.isExact → ReadBack w.libs value
  cut : ∀ stream, (w.cut stream).flatten = stream

/-! ## The answer arrives -/

variable {w : Visit} {request : PorchRequest} {p : Porch} {result : PorchResult} {e : PorchError}

theorem response_of_ok (ok : w.dispatched request = .ok (p, result)) : w.response request = .ok result := by
  have called : w.porch.dispatchRequest w.files w.visitor ⟨request, w.id, w.now⟩ = .ok (p, result) := ok
  rw [response, Porch.dispatchPorch, called]

theorem response_of_error (failed : w.dispatched request = .error e) :
    w.response request = .error (.ofError e) := by
  have called : w.porch.dispatchRequest w.files w.visitor ⟨request, w.id, w.now⟩ = .error e := failed
  rw [response, Porch.dispatchPorch, called]

theorem isExact_toScript (exact : request.toJson.isExact) : request.toScript.isExact := by
  cases request with
  | listChannels => rfl
  | _ => exact exact

theorem read_text {text : String} (fits : text.utf8ByteSize ≤ maxEnvelopeBytes) :
    LengthFrame.read maxEnvelopeBytes (LengthFrame.frame (Bytes.utf8 text)) = .ok (Bytes.utf8 text) :=
  LengthFrame.read_frame fits (by decide)

/-- A frame of a request is answered, whichever side printed it. -/
theorem handleInbound_frame {text : String} {value : Json} (fits : text.utf8ByteSize ≤ maxEnvelopeBytes)
    (reads : w.libs.fromSlice (Bytes.utf8 text) = some value) (back : PorchRequest.ofJson value = some request) :
    w.handleInbound (LengthFrame.frame (Bytes.utf8 text)) =
      some (LengthFrame.frame (Bytes.utf8 (responseText (w.response request)))) := by
  rw [handleInbound, read_text fits]
  dsimp only
  rw [reads, Option.bind_some, back]
  rfl

/-- An answer as a native visitor comes to have it. -/
def wireOf : PorchResponse → WireResponse
  | .ok result => ⟨true, if result.toJson = .null then none else some result.toJson, none⟩
  | .error body => ⟨false, none, some body⟩

theorem statusCode_range (e : PorchError) : -2 ^ 31 ≤ e.statusCode ∧ e.statusCode < 2 ^ 31 := by
  cases e <;> simp [PorchError.statusCode]

theorem PorchErrorBody.ofJson_toJson {body : PorchErrorBody} (low : -2 ^ 31 ≤ body.code)
    (high : body.code < 2 ^ 31) : PorchErrorBody.ofJson body.toJson = some body := by
  have code : field Serde.i32 body.toJson "code" = some body.code :=
    Serde.field_eq rfl (if_pos ⟨low, high⟩)
  rw [PorchErrorBody.ofJson, code]
  rfl

theorem ofJson_responseJson (w : Visit) (request : PorchRequest) :
    WireResponse.ofJson (responseJson (w.response request)) = some (wireOf (w.response request)) := by
  cases came : w.dispatched request with
  | ok out =>
    obtain ⟨p, result⟩ := out
    rw [response_of_ok came]
    have value : Serde.optional some (responseJson (.ok result)) "result" =
        some (if result.toJson = .null then none else some result.toJson) := by
      have member : (responseJson (.ok result)).get "result" = some result.toJson := rfl
      rw [Serde.optional, member]
      cases result.toJson <;> rfl
    rw [WireResponse.ofJson, value]
    rfl
  | error e =>
    rw [response_of_error came]
    have body : Serde.optional PorchErrorBody.ofJson (responseJson (.error (.ofError e))) "error" =
        some (some (.ofError e)) := by
      obtain ⟨low, high⟩ := statusCode_range e
      exact congrArg (Option.map some) (PorchErrorBody.ofJson_toJson low high)
    rw [WireResponse.ofJson, body]
    rfl

theorem sendOne_eq (terms : w.WithinTerms request) : w.sendOne request = .ok (wireOf (w.response request)) := by
  have printed := terms.libs request.toJson (by simp) terms.exactRequest
  have answered := terms.libs (responseJson (w.response request)) (by simp) terms.exactAnswer
  have arrived := handleInbound_frame terms.native printed.serde (PorchRequest.ofJson_toJson request)
  have fits : ¬(Bytes.utf8 (Json.write request.toJson)).length > maxEnvelopeBytes := not_lt.mpr terms.native
  rw [sendOne]
  rw [if_neg fits, arrived, Option.getD_some, read_text terms.answer]
  dsimp only
  rw [responseText_eq, answered.serde, Option.bind_some, ofJson_responseJson]

/-! ## Native visits -/

section Native

variable {α : Type} {read : Json → Option α} {a : α}

theorem call_of_ok (terms : w.WithinTerms request) (ok : w.dispatched request = .ok (p, result))
    (value : result.toJson ≠ .null) (back : read result.toJson = some a) : w.call request read = .ok a := by
  rw [call, sendOne_eq terms, response_of_ok ok, wireOf, if_neg value]
  simp only [Except.bind, decodeOrError, if_true, back]

/-- A null result is lost. -/
theorem call_of_null (terms : w.WithinTerms request) (ok : w.dispatched request = .ok (p, result))
    (value : result.toJson = .null) :
    w.call request read = .error (.malformedEnvelope "missing result") := by
  rw [call, sendOne_eq terms, response_of_ok ok, wireOf, if_pos value]
  rfl

/-- The error of the host, by its code. -/
def nativeError (e : PorchError) : PorchError :=
  if e.statusCode = 403 then .accessDenied e.toString
  else if e.statusCode = 404 then .channelNotFound e.toString
  else .invalidInput e.toString

theorem call_of_error (terms : w.WithinTerms request) (failed : w.dispatched request = .error e) :
    w.call request read = .error (nativeError e) := by
  rw [call, sendOne_eq terms, response_of_error failed, nativeError]
  show (if e.statusCode = 403 then _ else if e.statusCode = 404 then _ else _) = _
  split
  · rfl
  · split <;> rfl

end Native

theorem visit_of_error (terms : w.WithinTerms request) (failed : w.dispatched request = .error e) :
    w.visit request = .error (nativeError e) := by
  cases request with
  | listChannels => rw [visit, visitListChannels, call_of_error terms failed]; rfl
  | getMessages channelId since limit => rw [visit, visitGetMessages, call_of_error terms failed]; rfl
  | postMessage channelId body => rw [visit, visitPostMessage, call_of_error terms failed]; rfl
  | knock channelId message => rw [visit, visitKnock, call_of_error terms failed]; rfl
  | knockStatus channelId => rw [visit, visitKnockStatus, call_of_error terms failed]; rfl
  | withdrawKnock knockId => rw [visit, visitWithdrawKnock, call_of_error terms failed]; rfl
  | getTheme channelId => rw [visit, visitGetTheme, call_of_error terms failed]; rfl
  | getAssetBytes assetId => rw [visit, visitGetAssetBytes, call_of_error terms failed]; rfl
  | listVault channelId path => rw [visit, visitListVault, call_of_error terms failed]; rfl
  | getVaultFile channelId path => rw [visit, visitReadVaultFile, call_of_error terms failed]; rfl

/-- The kind of value that a request is answered with. -/
def Answers (w : Visit) : PorchRequest → PorchResult → Prop
  | .listChannels, result => ∃ rows, result = .channels rows
  | .getMessages .., result => ∃ page, result = .messages page
  | .postMessage .., result => ∃ posted, result = .message posted
  | .knock .., result | .withdrawKnock .., result => ∃ filed, result = .knock filed
  | .knockStatus channelId, result => result = .knockStatus (w.porch.knockStatusFor channelId w.visitor)
  | .getTheme .., result => ∃ stored, result = .theme stored
  | .getAssetBytes .., result => ∃ response, result = .asset response
  | .listVault .., result => ∃ listing, result = .entries listing
  | .getVaultFile .., result => ∃ response, result = .file response

theorem answers_of_ok (ok : w.dispatched request = .ok (p, result)) : w.Answers request result := by
  cases request with
  | listChannels =>
    cases ok
    exact ⟨_, rfl⟩
  | getMessages channelId since limit =>
    obtain ⟨_, -, ok⟩ := except_bind_eq_ok.mp ok
    obtain ⟨page, -, ok⟩ := except_bind_eq_ok.mp ok
    cases ok
    exact ⟨page, rfl⟩
  | postMessage channelId body =>
    obtain ⟨_, -, ok⟩ := except_bind_eq_ok.mp ok
    obtain ⟨out, -, ok⟩ := except_bind_eq_ok.mp ok
    cases ok
    exact ⟨out.answer, rfl⟩
  | knock channelId message =>
    rw [dispatched, Porch.dispatchRequest] at ok
    dsimp only at ok
    split at ok
    · cases ok
    · split at ok
      · cases ok
      · cases ok
      · obtain ⟨out, -, ok⟩ := except_bind_eq_ok.mp ok
        cases ok
        exact ⟨out.answer, rfl⟩
  | knockStatus channelId =>
    cases ok
    rfl
  | withdrawKnock knockId =>
    obtain ⟨out, -, ok⟩ := except_bind_eq_ok.mp ok
    cases ok
    exact ⟨out.answer, rfl⟩
  | getTheme channelId =>
    obtain ⟨_, -, ok⟩ := except_bind_eq_ok.mp ok
    cases ok
    exact ⟨_, rfl⟩
  | getAssetBytes assetId =>
    obtain ⟨response, -, ok⟩ := except_bind_eq_ok.mp ok
    cases ok
    exact ⟨response, rfl⟩
  | listVault channelId path =>
    obtain ⟨_, -, ok⟩ := except_bind_eq_ok.mp ok
    obtain ⟨listing, -, ok⟩ := except_bind_eq_ok.mp ok
    cases ok
    exact ⟨listing, rfl⟩
  | getVaultFile channelId path =>
    obtain ⟨_, -, ok⟩ := except_bind_eq_ok.mp ok
    obtain ⟨⟨bytes, mime⟩, -, ok⟩ := except_bind_eq_ok.mp ok
    dsimp only at ok
    split at ok <;> cases ok <;> exact ⟨_, rfl⟩

/-- Only the status of a visitor who never knocked is null. -/
theorem toJson_eq_null : result.toJson = .null ↔ result = .knockStatus none := by
  constructor
  · intro null
    cases result with
    | knockStatus latest =>
      cases latest with
      | none => rfl
      | some knock => cases null
    | theme stored => cases null
    | asset response => cases response <;> cases null
    | file response => cases response <;> cases null
    | channels rows | messages page | message posted | knock filed | entries listing => cases null
  · rintro rfl
    rfl

theorem file_fits {response : VaultFileResponse}
    (exact : (responseJson (.ok (.file response))).isExact = true) : response.size < 2 ^ 64 := by
  have small : response.size ≤ 2 ^ 53 := by
    cases response with
    | inline path mimeType bytes size =>
      simp [responseJson, PorchResult.toJson, VaultFileResponse.toJson, Json.isExact,
        Json.membersExact] at exact
      exact_mod_cast exact
    | tooLarge path mimeType size =>
      simp [responseJson, PorchResult.toJson, VaultFileResponse.toJson, Json.isExact,
        Json.membersExact] at exact
      exact_mod_cast exact
  omega

/-- What a native visitor makes of an asset. -/
theorem inlineBytes_read (response : AssetBytesResponse) :
    (inlineBytes response.read).toOption.map Visited.asset = nativeValue (.asset response) := by
  cases response with
  | inline assetId mimeType bytes =>
    have back : Base64.decode (Base64.encode bytes).toList = some bytes := by
      rw [Base64.encode, String.toList_ofList, Base64.decode_encodeChars]
    simp only [AssetBytesResponse.read, inlineBytes, back]
    rfl
  | tooLarge assetId mimeType bytes => rfl

theorem visit_getAssetBytes {assetId : String} {response : AssetBytesResponse}
    (terms : w.WithinTerms (.getAssetBytes assetId))
    (ok : w.dispatched (.getAssetBytes assetId) = .ok (p, .asset response)) :
    w.visit (.getAssetBytes assetId) = (inlineBytes response.read).map .asset := by
  have full : (PorchResult.asset response).toJson ≠ .null := fun null => by
    cases toJson_eq_null.mp null
  rw [visit, visitGetAssetBytes, call_of_ok terms ok full (AssetBytesRead.ofJson_toJson response)]
  rfl

/-- A value that is not null arrives, an asset apart that is too large. -/
theorem visit_of_ok (terms : w.WithinTerms request) (ok : w.dispatched request = .ok (p, result))
    (full : result ≠ .knockStatus none) {v : Visited} (value : nativeValue result = some v) :
    w.visit request = .ok v := by
  have filled : result.toJson ≠ .null := fun null => full (toJson_eq_null.mp null)
  have kind := answers_of_ok ok
  cases request with
  | listChannels =>
    obtain ⟨rows, rfl⟩ := kind
    cases value
    rw [visit, visitListChannels,
      call_of_ok terms ok filled (Serde.items_map PorchListChannelRow.ofJson_toJson rows)]
    rfl
  | getMessages channelId since limit =>
    obtain ⟨page, rfl⟩ := kind
    cases value
    rw [visit, visitGetMessages,
      call_of_ok terms ok filled (Serde.items_map ChannelMessageCols.ofJson_toJson page)]
    rfl
  | postMessage channelId body =>
    obtain ⟨posted, rfl⟩ := kind
    cases value
    rw [visit, visitPostMessage, call_of_ok terms ok filled (ChannelMessageCols.ofJson_toJson posted)]
    rfl
  | knock channelId message =>
    obtain ⟨filed, rfl⟩ := kind
    cases value
    rw [visit, visitKnock, call_of_ok terms ok filled (Knock.ofJson_toJson filed)]
    rfl
  | knockStatus channelId =>
    cases kind
    cases value
    cases latest : w.porch.knockStatusFor channelId w.visitor with
    | none => exact absurd (congrArg PorchResult.knockStatus latest) full
    | some knock =>
      rw [latest] at ok filled
      have back : (if knock.toJson = .null then some none else (Knock.ofJson knock.toJson).map some) =
          some (some knock) := by
        have there : knock.toJson ≠ .null := filled
        rw [if_neg there, Knock.ofJson_toJson]
        rfl
      rw [visit, visitKnockStatus, call_of_ok terms ok filled back]
      rfl
  | withdrawKnock knockId =>
    obtain ⟨filed, rfl⟩ := kind
    cases value
    rw [visit, visitWithdrawKnock, call_of_ok terms ok filled (Knock.ofJson_toJson filed)]
    rfl
  | getTheme channelId =>
    obtain ⟨stored, rfl⟩ := kind
    cases value
    rw [visit, visitGetTheme, call_of_ok terms ok filled (ChannelTheme.ofJson_toJson stored)]
    rfl
  | getAssetBytes assetId =>
    obtain ⟨response, rfl⟩ := kind
    rw [visit_getAssetBytes terms ok]
    have read := (inlineBytes_read response).trans value
    cases came : inlineBytes response.read with
    | error e =>
      rw [came] at read
      cases read
    | ok bytes =>
      rw [came] at read
      cases read
      rfl
  | listVault channelId path =>
    obtain ⟨listing, rfl⟩ := kind
    cases value
    rw [visit, visitListVault, call_of_ok terms ok filled (Serde.items_map VaultEntry.ofJson_toJson listing)]
    rfl
  | getVaultFile channelId path =>
    obtain ⟨response, rfl⟩ := kind
    cases value
    have fits := file_fits (response_of_ok ok ▸ terms.exactAnswer)
    rw [visit, visitReadVaultFile, call_of_ok terms ok filled (VaultFileRead.ofJson_toJson response fits)]
    rfl

/-- An asset that is too large fails. -/
theorem visit_of_tooLarge (terms : w.WithinTerms request) (ok : w.dispatched request = .ok (p, result))
    (value : nativeValue result = none) : ∃ e, w.visit request = .error e := by
  have kind := answers_of_ok ok
  cases request with
  | getAssetBytes assetId =>
    obtain ⟨response, rfl⟩ := kind
    rw [visit_getAssetBytes terms ok]
    have read := (inlineBytes_read response).trans value
    cases came : inlineBytes response.read with
    | error e => exact ⟨e, rfl⟩
    | ok bytes =>
      rw [came] at read
      cases read
  | knockStatus channelId =>
    cases kind
    cases value
  | listChannels | getMessages channelId since limit | postMessage channelId body
  | knock channelId message | withdrawKnock knockId | getTheme channelId | listVault channelId path
  | getVaultFile channelId path =>
    obtain ⟨_, rfl⟩ := kind
    cases value

/-! ## Visits of a browser -/

/-- A text is decoded to itself, unless it begins with a mark of the byte order. -/
theorem textDecoder_utf8 {text : String} (unmarked : text.toList.head? ≠ some '\uFEFF') :
    textDecoder (Bytes.utf8 text) = text := by
  have decoded := Utf8.decode_utf8 text.toList
  rw [String.ofList_toList] at decoded
  have chars : (Utf8.decode (Bytes.utf8 text)).map (·.getD '\uFFFD') = text.toList := by
    rw [decoded, List.map_map]
    exact List.map_id text.toList
  rw [textDecoder, chars]
  split
  · rename_i cs h
    rw [h] at unmarked
    exact absurd rfl unmarked
  · exact String.ofList_toList

theorem head_write (key : String) (value : Json) (members : List (String × Json)) :
    (Json.write (.obj ((key, value) :: members))).toList.head? = some '\x7b' := by
  have brace : "\x7b".toList = ['\x7b'] := rfl
  rw [Json.write]
  simp only [String.toList_append, List.append_assoc, brace, List.cons_append, List.head?_cons]

theorem head_responseText (response : PorchResponse) :
    (responseText response).toList.head? ≠ some '\uFEFF' := by
  have begins : (responseText response).toList.head? = some '\x7b' := by
    rw [responseText_eq]
    cases response with
    | ok result => exact head_write _ _ _
    | error body => exact head_write _ _ _
  rw [begins]
  decide

theorem sendPorchRequest_eq (terms : w.WithinTerms request) :
    w.sendPorchRequest request = .ok (responseJson (w.response request)) := by
  have printed := terms.libs request.toScript (by simp) (isExact_toScript terms.exactRequest)
  have answered := terms.libs (responseJson (w.response request)) (by simp) terms.exactAnswer
  have arrived := handleInbound_frame terms.browser printed.script (PorchRequest.ofJson_toScript request)
  have fits : ¬(Bytes.utf8 (w.libs.stringify request.toScript)).length > maxEnvelopeBytes :=
    not_lt.mpr terms.browser
  rw [sendPorchRequest]
  rw [if_neg fits, arrived, Option.getD_some, LengthFrame.readChunks_eq, terms.cut, read_text terms.answer]
  dsimp only
  rw [textDecoder_utf8 (head_responseText _), responseText_eq, answered.parse]

theorem browserBytes_toJson (response : AssetBytesResponse) :
    (browserBytes response.toJson).toOption = browserValue (.asset response) := by
  cases response with
  | inline assetId mimeType bytes =>
    have back : Base64.atob (Base64.encode bytes).toList = some bytes := by
      rw [Base64.encode, String.toList_ofList, Base64.atob_encodeChars]
    have text : (field Json.asStr (AssetBytesResponse.inline assetId mimeType bytes).toJson "bytes_b64").bind
        (fun text => Base64.atob text.toList) = some bytes := back
    have kind : ¬(AssetBytesResponse.inline assetId mimeType bytes).toJson.get "kind" =
        some (.str "too_large") := by
      intro same
      exact absurd (Json.str.inj (Option.some.inj same)) (by decide)
    rw [browserBytes, if_neg kind, text]
    rfl
  | tooLarge assetId mimeType bytes => rfl

/-- A result arrives whatever it is. -/
theorem browserVisit_of_ok (terms : w.WithinTerms request) (ok : w.dispatched request = .ok (p, result)) :
    (w.browserVisit request).toOption = browserValue result := by
  have unwrapped : unwrapResponse (responseJson (.ok result)) = .ok result.toJson := rfl
  have kind := answers_of_ok ok
  rw [browserVisit, sendPorchRequest_eq terms, response_of_ok ok]
  show (((unwrapResponse (responseJson (.ok result)))).bind _).toOption = _
  rw [unwrapped]
  cases request with
  | getAssetBytes assetId =>
    obtain ⟨response, rfl⟩ := kind
    exact browserBytes_toJson response
  | knockStatus channelId =>
    cases kind
    rfl
  | listChannels | getMessages channelId since limit | postMessage channelId body
  | knock channelId message | withdrawKnock knockId | getTheme channelId | listVault channelId path
  | getVaultFile channelId path =>
    obtain ⟨_, rfl⟩ := kind
    rfl

theorem browserVisit_of_error (terms : w.WithinTerms request) (failed : w.dispatched request = .error e) :
    ∃ e', w.browserVisit request = .error e' := by
  rw [browserVisit, sendPorchRequest_eq terms, response_of_error failed]
  exact ⟨_, rfl⟩

theorem browserAgrees (terms : w.WithinTerms request) : w.BrowserAgrees request := by
  refine ⟨fun p result v ok value => ?_, fun p result ok value => ?_, fun e failed => ?_⟩
  · have given := (browserVisit_of_ok terms ok).trans value
    cases came : w.browserVisit request with
    | error e =>
      rw [came] at given
      cases given
    | ok v' =>
      rw [came] at given
      exact congrArg Except.ok (Option.some.inj given)
  · have given := (browserVisit_of_ok terms ok).trans value
    cases came : w.browserVisit request with
    | error e => exact ⟨e, rfl⟩
    | ok v =>
      rw [came] at given
      cases given
  · exact browserVisit_of_error terms failed

/-! ## Both visitors -/

/-- Every visit is given what the host came to, but for a native visitor who asks for a knock that was
never made: the null that stands for it is read as a missing result. -/
theorem visits_agree_iff (w : Visit) (request : PorchRequest) (terms : w.WithinTerms request) :
    w.NativeAgrees request ∧ w.BrowserAgrees request ↔
      ∀ channelId, request = .knockStatus channelId →
        w.porch.knockStatusFor channelId w.visitor ≠ none := by
  constructor
  · rintro ⟨native, -⟩ channelId rfl never
    have ok : w.dispatched (.knockStatus channelId) = .ok (w.porch, .knockStatus none) := by
      rw [← never]
      rfl
    have given := native.value _ _ _ ok rfl
    rw [visit, visitKnockStatus, call_of_null terms ok rfl] at given
    cases given
  · intro knocked
    refine ⟨⟨fun p result v ok value => ?_, fun p result ok value => visit_of_tooLarge terms ok value,
      fun e failed code => ?_, fun e failed code => ?_, fun e failed => ?_⟩, browserAgrees terms⟩
    · refine visit_of_ok terms ok (fun never => ?_) value
      have kind := answers_of_ok ok
      rw [never] at kind
      cases request with
      | knockStatus channelId => exact knocked channelId rfl (PorchResult.knockStatus.inj kind).symm
      | listChannels | getMessages channelId since limit | postMessage channelId body
      | knock channelId message | withdrawKnock knockId | getTheme channelId | getAssetBytes assetId
      | listVault channelId path | getVaultFile channelId path =>
        obtain ⟨_, same⟩ := kind
        cases same
    · exact ⟨_, (visit_of_error terms failed).trans (by rw [nativeError, if_pos code])⟩
    · have other : ¬e.statusCode = 403 := by omega
      exact ⟨_, (visit_of_error terms failed).trans (by rw [nativeError, if_neg other, if_pos code])⟩
    · exact ⟨_, visit_of_error terms failed⟩

/-! ## A knock that was never made -/

/-- Libraries that know these values, and read each from its text. -/
def librariesOf (values : List Json) : JsonLibraries where
  fromSlice bytes := values.find? fun value => Bytes.utf8 (Json.write value) = bytes
  stringify := Json.write
  parse text := values.find? fun value => Json.write value = text

/-- A visit to a new porch, by a visitor who gets its answer byte for byte. -/
def newVisit (values : List Json) : Visit where
  libs := librariesOf values
  files := noHostFiles
  porch := Porch.opened .none ⟨"device-a", "profile-a", 1, true⟩
  visitor := "12D3KooWVisitor"
  id := "01"
  now := 2
  cut stream := stream.map fun byte => [byte]

def exchanged (request : PorchRequest) : List Json :=
  [request.toJson, request.toScript, responseJson ((newVisit []).response request)]

def sampleVisit (request : PorchRequest) : Visit := newVisit (exchanged request)

theorem flatten_bytes (stream : List UInt8) : (stream.map fun byte => [byte]).flatten = stream := by
  induction stream with
  | nil => rfl
  | cons byte stream ih => exact congrArg (byte :: ·) ih

/-- The frames of the sample visit fit, its numbers are exact, and its libraries read its texts. -/
def ready (request : PorchRequest) : Bool :=
  let w := sampleVisit request
  (exchanged request).all fun value =>
    value.isExact && decide ((Json.write value).utf8ByteSize ≤ maxEnvelopeBytes) &&
      decide (w.libs.fromSlice (Bytes.utf8 (Json.write value)) = some value) &&
      decide (w.libs.parse (Json.write value) = some value)

theorem withinTerms_of_ready {request : PorchRequest} (h : ready request = true) :
    (sampleVisit request).WithinTerms request := by
  have each : ∀ value ∈ exchanged request, value.isExact ∧
      (Json.write value).utf8ByteSize ≤ maxEnvelopeBytes ∧ ReadBack (sampleVisit request).libs value := by
    intro value mem
    have all := List.all_eq_true.mp h value mem
    simp only [Bool.and_eq_true, decide_eq_true_eq] at all
    obtain ⟨⟨⟨exact, fits⟩, serde⟩, parse⟩ := all
    exact ⟨exact, fits, serde, serde, parse⟩
  obtain ⟨exactRequest, native, -⟩ := each request.toJson List.mem_cons_self
  obtain ⟨-, browser, -⟩ := each request.toScript (List.mem_cons_of_mem _ List.mem_cons_self)
  obtain ⟨exactAnswer, answer, -⟩ := each (responseJson ((newVisit []).response request))
    (List.mem_cons_of_mem _ (List.mem_cons_of_mem _ List.mem_cons_self))
  exact ⟨native, browser, (responseText_eq _).symm ▸ answer, exactRequest, exactAnswer,
    fun value mem _ => (each value mem).2.2, flatten_bytes⟩

set_option maxRecDepth 1000 in
/-- The list of a new porch arrives at both visitors. -/
theorem visits_agree_list : (sampleVisit .listChannels).NativeAgrees .listChannels ∧
    (sampleVisit .listChannels).BrowserAgrees .listChannels := by
  refine (visits_agree_iff _ _ (withinTerms_of_ready (by decide))).mpr fun channelId other => ?_
  cases other

/-- A native visitor who never knocked is told that the result is missing. -/
theorem knock_status_lost :
    (sampleVisit (.knockStatus "inner")).WithinTerms (.knockStatus "inner") ∧
      ¬(sampleVisit (.knockStatus "inner")).NativeAgrees (.knockStatus "inner") := by
  have terms : (sampleVisit (.knockStatus "inner")).WithinTerms (.knockStatus "inner") :=
    withinTerms_of_ready (by decide)
  refine ⟨terms, fun native => ?_⟩
  have never : (sampleVisit (.knockStatus "inner")).porch.knockStatusFor "inner" "12D3KooWVisitor" = none := by
    decide
  have ok : (sampleVisit (.knockStatus "inner")).dispatched (.knockStatus "inner") =
      .ok ((sampleVisit (.knockStatus "inner")).porch, .knockStatus none) := by
    rw [← never]
    rfl
  have given := native.value _ _ _ ok rfl
  rw [visit, visitKnockStatus, call_of_null terms ok rfl] at given
  cases given

end Visit

end Concorrd
