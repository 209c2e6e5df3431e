import Concorrd.Porch.Wire
import Concorrd.Sync.PrimaryProfile

/-!
# The frames a visitor gets

A visitor refuses a frame over `maxEnvelopeBytes`, and the host writes whatever an answer takes.
`answerBytes` counts an answer from the rows and texts it is made of, without writing it, and
`framesFit_along_iff` says of every run which frames fit.
-/

namespace Concorrd

open Json (textSize numSize)

/-! ## Counting an answer -/

/-- Rows between brackets, with a comma after each but the last. -/
def rowsBytes {α : Type} (bytes : α → Nat) (rows : List α) : Nat :=
  2 + ((rows.map fun row => 1 + bytes row).sum - 1)

/-- A value, or the four bytes of null. -/
def optionBytes {α : Type} (bytes : α → Nat) : Option α → Nat
  | none => 4
  | some a => bytes a

def i64Bytes (n : Int64) : Nat := numSize n.toInt

def base64Bytes (bytes : List UInt8) : Nat := 2 + 4 * ((bytes.length + 2) / 3)

def messageBytes (message : ChannelMessage) : Nat :=
  61 + textSize message.authorPeerId + textSize message.body + textSize message.channelId +
    i64Bytes message.createdAt + textSize message.id

def knockBytes (knock : Knock) : Nat :=
  90 + textSize knock.channelId + i64Bytes knock.createdAt + textSize knock.id +
    textSize knock.knockerPeerId + optionBytes textSize knock.message +
    optionBytes i64Bytes knock.resolvedAt + textSize knock.status.asStr

def backgroundBytes : Background → Nat
  | .none => 15
  | .solid color => 25 + textSize color
  | .gradient css => 28 + textSize css
  | .image assetId => 38 + textSize assetId

def themeBytes (theme : ChannelTheme) : Nat :=
  128 + textSize theme.accentColor + backgroundBytes theme.background + textSize theme.channelId +
    textSize theme.fontFamily.asStr + textSize theme.onSurfaceColor + textSize theme.primaryColor +
    textSize theme.surfaceColor + i64Bytes theme.updatedAt

def summaryBytes (summary : ThemeSummary) : Nat :=
  34 + textSize summary.accentColor + textSize summary.primaryColor

def visibilityBytes : ChannelVisibility → Nat
  | .visible => 18
  | .needsKnock existing =>
    40 + optionBytes (fun status : KnockStatus => textSize status.asStr) existing

def channelBytes (row : PorchListChannelRow) : Nat :=
  63 + textSize row.channel.aclMode.asStr + i64Bytes row.channel.createdAt +
    textSize row.channel.id + textSize row.channel.kind.asStr + textSize row.channel.name +
    (row.themeSummary.elim 0 fun summary => 17 + summaryBytes summary) +
    visibilityBytes row.visibility

def entryBytes (entry : VaultEntry) : Nat :=
  40 + textSize entry.kind.asStr + optionBytes i64Bytes entry.modifiedAt + textSize entry.path +
    optionBytes (fun size : UInt64 => numSize size.toNat) entry.size

def assetBytes : AssetBytesResponse → Nat
  | .inline assetId mimeType bytes => 55 + textSize assetId + base64Bytes bytes + textSize mimeType
  | .tooLarge assetId mimeType bytes =>
    54 + textSize assetId + numSize bytes.toNat + textSize mimeType

def fileBytes : VaultFileResponse → Nat
  | .inline path mimeType bytes size =>
    59 + base64Bytes bytes + textSize mimeType + textSize path + numSize size
  | .tooLarge path mimeType size => 49 + textSize mimeType + textSize path + numSize size

/-- An answer with a value. -/
def valueBytes (bytes : Nat) : Nat := 21 + bytes

/-- A refusal. -/
def refusalBytes (e : PorchError) : Nat :=
  41 + numSize e.statusCode + textSize e.toString

/-- The answer to a call that may fail. -/
def callBytes {α : Type} (call : Except PorchError α) (bytes : α → Nat) : Nat :=
  match call with
  | .ok a => valueBytes (bytes a)
  | .error e => refusalBytes e

theorem keySizes : textSize "accent_color" = 14 ∧ textSize "acl_mode" = 10 ∧
    textSize "asset_id" = 10 ∧ textSize "author_peer_id" = 16 ∧ textSize "background" = 12 ∧
    textSize "body" = 6 ∧ textSize "bytes" = 7 ∧ textSize "bytes_b64" = 11 ∧
    textSize "channel_id" = 12 ∧ textSize "code" = 6 ∧ textSize "created_at" = 12 ∧
    textSize "error" = 7 ∧ textSize "existing_knock" = 16 ∧ textSize "font_family" = 13 ∧
    textSize "gradient" = 10 ∧ textSize "id" = 4 ∧ textSize "image" = 7 ∧ textSize "inline" = 8 ∧
    textSize "kind" = 6 ∧ textSize "knocker_peer_id" = 17 ∧ textSize "message" = 9 ∧
    textSize "mime_type" = 11 ∧ textSize "modified_at" = 13 ∧ textSize "name" = 6 ∧
    textSize "needs_knock" = 13 ∧ textSize "none" = 6 ∧ textSize "ok" = 4 ∧
    textSize "on_surface_color" = 18 ∧ textSize "path" = 6 ∧ textSize "primary_color" = 15 ∧
    textSize "resolved_at" = 13 ∧ textSize "result" = 8 ∧ textSize "size" = 6 ∧
    textSize "solid" = 7 ∧ textSize "status" = 8 ∧ textSize "surface_color" = 15 ∧
    textSize "theme_summary" = 15 ∧ textSize "too_large" = 11 ∧ textSize "updated_at" = 12 ∧
    textSize "value" = 7 ∧ textSize "visibility" = 12 ∧ textSize "visible" = 9 := by
  decide

theorem size_optionJson {α : Type} {f : α → Json} {bytes : α → Nat}
    (h : ∀ a, (f a).size = bytes a) (o : Option α) :
    (optionJson f o).size = optionBytes bytes o := by
  cases o with
  | none => rfl
  | some a => exact h a

theorem size_rows {α : Type} {f : α → Json} {bytes : α → Nat} (h : ∀ a, (f a).size = bytes a)
    (rows : List α) : (Json.arr (rows.map f)).size = rowsBytes bytes rows := by
  simp only [Json.size, Json.itemsSize_map, h, rowsBytes]

theorem size_message (message : ChannelMessage) : message.toJson.size = messageBytes message := by
  simp only [ChannelMessageCols.toJson, Json.size, Json.membersSize, keySizes, messageBytes,
    i64Json, i64Bytes]
  omega

theorem size_knock (knock : Knock) : knock.toJson.size = knockBytes knock := by
  have message : (optionJson Json.str knock.message).size = optionBytes textSize knock.message :=
    size_optionJson (fun _ => rfl) _
  have resolved : (optionJson i64Json knock.resolvedAt).size =
      optionBytes i64Bytes knock.resolvedAt := size_optionJson (fun _ => rfl) _
  simp only [Knock.toJson, Json.size, Json.membersSize, keySizes, knockBytes, message, resolved,
    i64Json, i64Bytes]
  omega

theorem size_background (background : Background) :
    background.toJson.size = backgroundBytes background := by
  cases background with
  | none => rfl
  | solid color | gradient css | image assetId =>
    simp only [Background.toJson, Json.size, Json.membersSize, keySizes, backgroundBytes]
    omega

theorem size_theme (theme : ChannelTheme) : theme.toJson.size = themeBytes theme := by
  simp only [ChannelTheme.toJson, Json.size, Json.membersSize, keySizes, themeBytes,
    size_background, i64Json, i64Bytes]
  omega

theorem size_summary (summary : ThemeSummary) : summary.toJson.size = summaryBytes summary := by
  simp only [ThemeSummary.toJson, Json.size, Json.membersSize, keySizes, summaryBytes]
  omega

theorem size_visibility (visibility : ChannelVisibility) :
    visibility.toJson.size = visibilityBytes visibility := by
  cases visibility with
  | visible => rfl
  | needsKnock existing =>
    have status : (optionJson (fun status : KnockStatus => .str status.asStr) existing).size =
        optionBytes (fun status => textSize status.asStr) existing :=
      size_optionJson (fun _ => rfl) _
    simp only [ChannelVisibility.toJson, Json.size, Json.membersSize, keySizes, visibilityBytes,
      status]
    omega

theorem size_channel (row : PorchListChannelRow) : row.toJson.size = channelBytes row := by
  obtain ⟨channel, visibility, summary⟩ := row
  cases summary with
  | none =>
    simp only [PorchListChannelRow.toJson, Option.toList_none, List.map_nil, List.append_nil,
      List.cons_append, List.nil_append, Json.size, Json.membersSize, keySizes, channelBytes,
      size_visibility, Option.elim_none, i64Json, i64Bytes]
    omega
  | some summary =>
    simp only [PorchListChannelRow.toJson, Option.toList_some, List.map_cons, List.map_nil,
      List.cons_append, List.nil_append, Json.size, Json.membersSize, keySizes, channelBytes,
      size_visibility, size_summary, Option.elim_some, i64Json, i64Bytes]
    omega

theorem size_entry (entry : VaultEntry) : entry.toJson.size = entryBytes entry := by
  have modified : (optionJson i64Json entry.modifiedAt).size =
      optionBytes i64Bytes entry.modifiedAt := size_optionJson (fun _ => rfl) _
  have size : (optionJson (fun size : UInt64 => .num size.toNat) entry.size).size =
      optionBytes (fun size => numSize size.toNat) entry.size := size_optionJson (fun _ => rfl) _
  simp only [VaultEntry.toJson, Json.size, Json.membersSize, keySizes, entryBytes, modified, size]
  omega

theorem size_asset (response : AssetBytesResponse) :
    response.toJson.size = assetBytes response := by
  cases response with
  | inline assetId mimeType bytes =>
    simp only [AssetBytesResponse.toJson, Json.size, Json.membersSize, keySizes, assetBytes,
      Base64.textSize_encode, base64Bytes]
    omega
  | tooLarge assetId mimeType bytes =>
    simp only [AssetBytesResponse.toJson, Json.size, Json.membersSize, keySizes, assetBytes]
    omega

theorem size_file (response : VaultFileResponse) : response.toJson.size = fileBytes response := by
  cases response with
  | inline path mimeType bytes size =>
    simp only [VaultFileResponse.toJson, Json.size, Json.membersSize, keySizes, fileBytes,
      Base64.textSize_encode, base64Bytes]
    omega
  | tooLarge path mimeType size =>
    simp only [VaultFileResponse.toJson, Json.size, Json.membersSize, keySizes, fileBytes]
    omega

theorem utf8ByteSize_value (result : PorchResult) :
    (responseText (.ok result)).utf8ByteSize = valueBytes result.toJson.size := by
  simp only [responseText, Json.utf8ByteSize_write, Json.size, Json.membersSize, keySizes,
    valueBytes]
  omega

theorem utf8ByteSize_refusal (e : PorchError) :
    (responseText (.error (.ofError e))).utf8ByteSize = refusalBytes e := by
  simp only [responseText, Json.utf8ByteSize_write, Json.size, Json.membersSize, keySizes,
    refusalBytes, PorchErrorBody.ofError]
  omega

namespace Porch

variable (files : HostFiles) (p : Porch) (visitor : String)

/-- The bytes of the answer to a request, counted on the rows and texts it is made of. -/
def answerBytes (call : PorchCall) : Nat :=
  match call.request with
  | .listChannels => valueBytes <| rowsBytes (fun ch => channelBytes (p.listChannelRow visitor ch))
      (p.listChannels.filter fun ch => ch.aclMode ≠ .ownerOnly)
  | .getMessages channelId since limit =>
    callBytes (do let _ ← p.visitChannel visitor channelId; p.getMessages channelId since limit)
      (rowsBytes messageBytes)
  | .postMessage channelId body =>
    callBytes (do
      let _ ← p.visitChannel visitor channelId
      p.postMessage channelId visitor body call.id call.now) fun _ =>
        messageBytes ⟨call.id, channelId, visitor, body, call.now⟩
  | .knock channelId message =>
    match p.getChannel channelId with
    | none => refusalBytes (.channelNotFound channelId)
    | some ch =>
      match ch.aclMode with
      | .open => refusalBytes (.invalidInput "channel is already open — no knock required")
      | .ownerOnly => refusalBytes (.channelNotFound channelId)
      | .allowlist =>
        callBytes (p.knock channelId visitor message call.id call.now) fun _ =>
          knockBytes ((p.lookupKnockPending channelId visitor).getD
            ⟨call.id, channelId, visitor, message, .pending, call.now, none⟩)
  | .knockStatus channelId =>
    valueBytes (optionBytes knockBytes (p.knockStatusFor channelId visitor))
  | .withdrawKnock knockId =>
    callBytes (p.withdrawKnock knockId visitor call.now) fun _ =>
      (p.lookupKnockById knockId).elim 0 fun knock =>
        knockBytes { knock with status := .withdrawn, resolvedAt := some call.now }
  | .getTheme channelId =>
    callBytes (p.visitChannel visitor channelId) fun _ =>
      themeBytes ((p.getTheme channelId).getD (.defaultFor channelId))
  | .getAssetBytes assetId => callBytes (p.visitAsset files visitor assetId) assetBytes
  | .listVault channelId path =>
    callBytes (do let _ ← p.gateObsidian visitor channelId; p.listVault files.disk channelId path)
      (rowsBytes entryBytes)
  | .getVaultFile channelId path =>
    callBytes (do
      let _ ← p.gateObsidian visitor channelId
      p.readVaultFile files.disk channelId path) fun file =>
        if file.1.length > maxInlineAssetBytes then
          fileBytes (.tooLarge path file.2 file.1.length)
        else fileBytes (.inline path file.2 file.1 file.1.length)

variable {files p visitor} {channelId : String}

theorem answer_of_postMessage {author body id : String} {now : Int64}
    {out : Outcome ChannelMessage} (h : p.postMessage channelId author body id now = .ok out) :
    out.answer = ⟨id, channelId, author, body, now⟩ := by
  unfold postMessage at h
  split at h
  · cases h
  split at h
  · cases h
  split at h
  · cases h
  obtain ⟨db, _, rfl⟩ := finish_eq_ok h
  rfl

theorem answer_of_knock {knocker id : String} {message : Option String} {now : Int64}
    {out : Outcome Knock} (h : p.knock channelId knocker message id now = .ok out) :
    out.answer = (p.lookupKnockPending channelId knocker).getD
      ⟨id, channelId, knocker, message, .pending, now, none⟩ := by
  unfold knock at h
  split at h
  · cases h
  split at h
  · cases h
  cases hp : p.lookupKnockPending channelId knocker with
  | some existing =>
    simp only [hp, Except.ok.injEq] at h
    exact h ▸ rfl
  | none =>
    simp only [hp] at h
    obtain ⟨db, _, rfl⟩ := finish_eq_ok h
    rfl

theorem answer_of_withdrawKnock {knockId knocker : String} {now : Int64} {out : Outcome Knock}
    (h : p.withdrawKnock knockId knocker now = .ok out) :
    (p.lookupKnockById knockId).map (fun knock =>
      { knock with status := .withdrawn, resolvedAt := some now }) = some out.answer := by
  unfold withdrawKnock resolveKnock at h
  split at h
  · cases h
  rename_i row knock hpending
  obtain ⟨hrow, rfl⟩ := pendingKnock_eq_ok hpending
  obtain ⟨db, _, rfl⟩ := finish_eq_ok h
  rw [lookupKnockById, hrow]
  rfl

/-- The response to a request that makes one call and puts its value into the result. -/
theorem utf8ByteSize_call {α : Type} {call : PorchCall} {e : Except PorchError α}
    {f : α → Porch × PorchResult} {b : α → Nat}
    (h : dispatchRequest files p visitor call = e >>= fun a => .ok (f a))
    (size : ∀ a, e = .ok a → (f a).2.toJson.size = b a) :
    (responseText (dispatchPorch files p visitor call).2).utf8ByteSize = callBytes e b := by
  unfold dispatchPorch
  rw [h]
  cases e with
  | error e => exact utf8ByteSize_refusal e
  | ok a => exact (utf8ByteSize_value _).trans (congrArg valueBytes (size a rfl))

/-- The response to a request that cannot fail. -/
theorem utf8ByteSize_answered {call : PorchCall} {result : PorchResult} {bytes : Nat}
    (h : dispatchRequest files p visitor call = .ok (p, result))
    (size : result.toJson.size = bytes) :
    (responseText (dispatchPorch files p visitor call).2).utf8ByteSize = valueBytes bytes :=
  utf8ByteSize_call (e := .ok ()) (f := fun _ => (p, result)) (b := fun _ => bytes) h
    fun _ _ => size

/-- The response to a request that is refused. -/
theorem utf8ByteSize_refused {call : PorchCall} {e : PorchError}
    (h : dispatchRequest files p visitor call = .error e) :
    (responseText (dispatchPorch files p visitor call).2).utf8ByteSize = refusalBytes e :=
  utf8ByteSize_call (e := .error e) (f := fun _ : Unit => (p, .knockStatus none))
    (b := fun _ => 0) h nofun

/-- The count is the size of what is written. -/
theorem utf8ByteSize_response (call : PorchCall) :
    (responseText (dispatchPorch files p visitor call).2).utf8ByteSize =
      p.answerBytes files visitor call := by
  obtain ⟨request, id, now⟩ := call
  unfold answerBytes
  cases request with
  | listChannels =>
    refine utf8ByteSize_answered rfl ?_
    rw [PorchResult.toJson, List.map_map]
    exact size_rows (fun ch => size_channel _) _
  | getMessages channelId since limit =>
    exact utf8ByteSize_call (bind_assoc _ _ _).symm fun page _ => size_rows size_message page
  | postMessage channelId body =>
    refine utf8ByteSize_call (bind_assoc _ _ _).symm fun out hout => ?_
    obtain ⟨_, _, hpost⟩ := except_bind_eq_ok.mp hout
    rw [answer_of_postMessage hpost]
    exact size_message _
  | knock channelId message =>
    dsimp only
    cases hch : p.getChannel channelId with
    | none =>
      refine utf8ByteSize_refused ?_
      simp only [dispatchRequest, hch]
    | some ch =>
      cases hmode : ch.aclMode with
      | «open» | ownerOnly =>
        simp only [hmode]
        refine utf8ByteSize_refused ?_
        simp only [dispatchRequest, hch, hmode]
      | allowlist =>
        simp only [hmode]
        refine utf8ByteSize_call (f := fun out => (out.porch, .knock out.answer)) ?_
          fun out hout => ?_
        · simp only [dispatchRequest, hch, hmode]
          rfl
        rw [answer_of_knock hout]
        exact size_knock _
  | knockStatus channelId =>
    exact utf8ByteSize_answered rfl (size_optionJson size_knock _)
  | withdrawKnock knockId =>
    refine utf8ByteSize_call rfl fun out hout => ?_
    obtain ⟨knock, hknock, hanswer⟩ := Option.map_eq_some_iff.mp (answer_of_withdrawKnock hout)
    rw [hknock, ← hanswer]
    exact size_knock _
  | getTheme channelId => exact utf8ByteSize_call rfl fun _ _ => size_theme _
  | getAssetBytes assetId => exact utf8ByteSize_call rfl fun response _ => size_asset response
  | listVault channelId path =>
    exact utf8ByteSize_call (bind_assoc _ _ _).symm fun listing _ => size_rows size_entry listing
  | getVaultFile channelId path =>
    refine utf8ByteSize_call (f := fun file => (p, .file
      (if file.1.length > maxInlineAssetBytes then .tooLarge path file.2 file.1.length
        else .inline path file.2 file.1 file.1.length))) ?_ fun file _ => ?_
    · refine Eq.trans (bind_congr fun _ => bind_congr fun file => ?_) (bind_assoc _ _ _).symm
      obtain ⟨bytes, mime⟩ := file
      dsimp only
      split <;> rfl
    · rw [PorchResult.toJson, size_file]
      split <;> rfl

end Porch

/-! ## Runs of a host -/

/-- A frame of a visitor, or anything else that can happen to an install. -/
inductive HostEvent where
  | profile (e : ProfileEvent)
  | frame (files : HostFiles) (visitor : String) (len : UInt32) (call : PorchCall)

namespace Porch

/-- One event. -/
def hostStep (p : Porch) : HostEvent → Porch
  | .profile e => p.profileStep e
  | .frame files visitor len call => (p.handleFrame files visitor len call).1

/-- Every frame the event makes the host write is one the visitor takes. -/
def FramesFit (p : Porch) : HostEvent → Prop
  | .profile _ => True
  | .frame files visitor len call =>
    ∀ text ∈ (p.handleFrame files visitor len call).2, text.utf8ByteSize ≤ maxEnvelopeBytes

/-- The rows and texts the answer to a request is made of are few and short enough. -/
def AnswerIsSmall (p : Porch) : HostEvent → Prop
  | .profile _ => True
  | .frame files visitor len call =>
    len.toNat ≤ maxEnvelopeBytes → p.answerBytes files visitor call ≤ maxEnvelopeBytes

theorem framesFit_iff (p : Porch) (e : HostEvent) : p.FramesFit e ↔ p.AnswerIsSmall e := by
  cases e with
  | profile e => exact Iff.rfl
  | frame files visitor len call =>
    unfold FramesFit AnswerIsSmall handleFrame
    dsimp only
    by_cases hlen : len.toNat > maxEnvelopeBytes
    · rw [if_pos hlen]
      exact ⟨fun _ h => absurd hlen (not_lt.mpr h), fun _ text h => nomatch h⟩
    · rw [if_neg hlen, ← utf8ByteSize_response]
      constructor
      · intro h _
        exact h _ rfl
      · intro h text htext
        cases htext
        exact h (not_lt.mp hlen)

/-- **Frames.** Along every run of an install, every frame the host writes is one its visitor takes
exactly when every answer of the run is small. -/
theorem framesFit_along_iff (old : OldDatabase) (args : OpenArgs) (events : List HostEvent) :
    Machine.Along hostStep FramesFit (opened old args) events ↔
      Machine.Along hostStep AnswerIsSmall (opened old args) events :=
  Machine.along_congr (fun _ => True) (fun _ _ h => h) (fun p e _ => framesFit_iff p e) trivial

/-! ## A busy channel -/

section

variable {p : Porch} {body id : String} {now : Int64}

/-- A message that passes the checks is appended to the table of a channel that may be visited. -/
theorem rows_of_post {visitor channelId : String} {ch : PorchChannel} (now : Int64)
    (visited : p.visitChannel visitor channelId = .ok ch) (nonempty : body.isEmpty = false)
    (short : body.utf8ByteSize ≤ maxMessageBodyBytes)
    (free : p.db.find? .channelMessages id = none) (files : HostFiles) :
    let p' := (dispatchPorch files p visitor ⟨.postMessage channelId body, id, now⟩).1
    (p'.tables .channelMessages).rows = (p.tables .channelMessages).rows ++
        [p.stampRow .channelMessages p.nextLamport ⟨id, channelId, visitor, body, now⟩] ∧
      ∀ t, t ≠ .channelMessages → p'.tables t = p.tables t := by
  have there : (p.getChannel channelId).isSome = true := by
    cases h : p.getChannel channelId with
    | none =>
      rw [visitChannel, h] at visited
      cases visited
    | some ch => rfl
  obtain ⟨row, hrow⟩ : ∃ row : ChannelMessageRow, row =
    p.stampRow .channelMessages p.nextLamport ⟨id, channelId, visitor, body, now⟩ := ⟨_, rfl⟩
  have admits : p.db.tables.Admits ⟨.channelMessages, row⟩ := by
    subst hrow
    refine ⟨rfl, fun _ _ entry hentry => ?_, fun channel hchannel => ?_⟩
    · cases hentry
    · cases hchannel
      rw [getChannel, Option.isSome_map] at there
      exact KeyedTable.hasKey_iff_isSome.mpr there
  obtain ⟨db, hdb⟩ := Database.exists_insert_iff.mpr ⟨by rw [hrow]; exact free, admits⟩
  have post : p.postMessage channelId visitor body id now =
      .ok ⟨{ p with db := db }, [⟨.channelMessages, row⟩],
        ⟨id, channelId, visitor, body, now⟩⟩ := by
    unfold postMessage
    rw [nonempty, if_neg Bool.false_ne_true, if_neg (not_lt.mpr short), ← Option.not_isSome, there,
      if_neg (by decide)]
    dsimp only
    rw [← hrow, hdb]
    rfl
  have response : (dispatchPorch files p visitor ⟨.postMessage channelId body, id, now⟩).1 =
      { p with db := db } := by
    simp only [dispatchPorch, dispatchRequest, visited, post, bind, Except.bind, pure,
      Except.pure]
  rw [response, ← hrow]
  exact Database.rows_of_insert hdb

/-- A message of 64 KiB of NUL, which the text of an answer writes with six bytes each. -/
def bigBody : String := String.ofList (List.replicate 65536 '\x00')

/-- A visitor of a fresh install posts the message to its open channel. -/
def postsBig (id : String) (now : Int64) : HostEvent :=
  .frame noHostFiles "visitor" 393290 ⟨.postMessage "porch-default" bigBody, id, now⟩

/-- A visitor reads the messages of that channel. -/
def readsDefault : HostEvent :=
  .frame noHostFiles "visitor" 88 ⟨.getMessages "porch-default" none 50, "04", 5⟩

theorem bigBody_facts : bigBody.isEmpty = false ∧ bigBody.utf8ByteSize ≤ maxMessageBodyBytes ∧
    textSize bigBody = 393218 := by
  have size : bigBody.utf8ByteSize = 65536 := Json.utf8ByteSize_replicate _ _
  have text : textSize bigBody = 393218 := Json.textSize_replicate _ _
  refine ⟨?_, ?_, text⟩
  · rw [String.isEmpty_eq_utf8ByteSize_beq_zero, size]
    rfl
  · rw [size]
    decide

/-- The porch holds these messages, and everything else is as after the installation. -/
structure OnlyMessages (p : Porch) (messages : List ChannelMessage) : Prop where
  cols : (p.tables .channelMessages).rows.map Row.cols = messages
  frame : ∀ t, t ≠ .channelMessages → p.tables t = plainPorch.tables t

/-- The page of a channel, from the messages of the table. -/
theorem page_of_cols {p : Porch} {channelId : String} {ch : PorchChannel}
    {messages page : List ChannelMessage} (found : p.getChannel channelId = some ch)
    (cols : (p.tables .channelMessages).rows.map Row.cols = messages)
    (sorted : (((messages.filter fun cols => cols.channelId = channelId ∧
      Int64.minValue < cols.createdAt).insertionSort fun (a b : ChannelMessageCols) =>
        (toLex (a.createdAt, a.id) : AgeKey) ≤ toLex (b.createdAt, b.id)).take 50) = page) :
    p.getMessages channelId none 50 = .ok page := by
  unfold getMessages
  rw [found, ← sorted, ← cols, List.filter_map]
  rfl

namespace OnlyMessages

variable {messages : List ChannelMessage} (h : OnlyMessages p messages)
include h

theorem getChannel :
    p.getChannel "porch-default" = some ⟨"porch-default", "Porch", .porch, .open, 1⟩ := by
  have channels : p.db.tables .porchChannels = plainPorch.tables .porchChannels :=
    h.frame .porchChannels nofun
  rw [Porch.getChannel, Database.find?, channels]
  rfl

theorem visited : p.visitChannel "visitor" "porch-default" =
    .ok ⟨"porch-default", "Porch", .porch, .open, 1⟩ := by
  rw [visitChannel, h.getChannel]
  rfl

theorem post (id : String) (now : Int64) (free : ∀ message ∈ messages, message.id ≠ id) :
    OnlyMessages (p.hostStep (postsBig id now))
      (messages ++ [⟨id, "porch-default", "visitor", bigBody, now⟩]) := by
  have unused : p.db.find? .channelMessages id = none := by
    refine KeyedTable.find?_eq_none_iff.mpr fun row hrow => free row.cols ?_
    rw [← h.cols]
    exact List.mem_map_of_mem hrow
  obtain ⟨nonempty, short, _⟩ := bigBody_facts
  obtain ⟨appended, kept⟩ := rows_of_post now h.visited nonempty short unused noHostFiles
  refine ⟨(congrArg (List.map Row.cols) appended).trans ?_,
    fun t ht => (kept t ht).trans (h.frame t ht)⟩
  rw [List.map_append, h.cols]
  rfl

/-- The bytes of the page of three such messages. -/
theorem answerBytes (three : messages = [⟨"01", "porch-default", "visitor", bigBody, 2⟩,
      ⟨"02", "porch-default", "visitor", bigBody, 3⟩,
      ⟨"03", "porch-default", "visitor", bigBody, 4⟩]) :
    p.answerBytes noHostFiles "visitor" ⟨.getMessages "porch-default" none 50, "04", 5⟩ =
      valueBytes (rowsBytes messageBytes messages) := by
  have page : p.getMessages "porch-default" none 50 = .ok messages := by
    have cols := h.cols
    rw [three] at cols ⊢
    generalize bigBody = body at cols ⊢
    exact page_of_cols h.getChannel cols rfl
  unfold Porch.answerBytes
  dsimp only
  rw [h.visited]
  show callBytes (p.getMessages "porch-default" none 50) _ = _
  rw [page]
  rfl

end OnlyMessages

/-- Three messages of such a size do not fit together. -/
theorem three_do_not_fit {body : String} (size : textSize body = 393218) :
    maxEnvelopeBytes < valueBytes (rowsBytes messageBytes
      [⟨"01", "porch-default", "visitor", body, 2⟩, ⟨"02", "porch-default", "visitor", body, 3⟩,
        ⟨"03", "porch-default", "visitor", body, 4⟩]) := by
  have long : ∀ id now, 393218 ≤ messageBytes ⟨id, "porch-default", "visitor", body, now⟩ := by
    intro id now
    rw [messageBytes]
    dsimp only
    omega
  have first := long "01" 2
  have second := long "02" 3
  have third := long "03" 4
  simp only [valueBytes, rowsBytes, List.map_cons, List.map_nil, List.sum_cons, List.sum_nil]
  have cap : maxEnvelopeBytes = 1048576 := rfl
  omega

/-- Three long messages of a visitor, and the answer that lists them is refused. -/
theorem long_page_does_not_fit : ¬ Machine.Along hostStep FramesFit plainPorch
    [postsBig "01" 2, postsBig "02" 3, postsBig "03" 4, readsDefault] := by
  intro ⟨_, _, _, fits, _⟩
  have start : OnlyMessages plainPorch [] := ⟨rfl, fun _ _ => rfl⟩
  have first := start.post "01" 2 (by simp)
  have second := first.post "02" 3 (by simp)
  have third := second.post "03" 4 (by simp)
  have small := (framesFit_iff _ _).mp fits (by decide)
  rw [third.answerBytes rfl] at small
  exact absurd small (not_le.mpr (three_do_not_fit bigBody_facts.2.2))

end

end Porch

end Concorrd
