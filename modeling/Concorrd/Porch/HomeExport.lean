import Concorrd.Lib.FrameStream
import Concorrd.Porch.WireRead

/-!
# Delivery of a home package

A package goes out in frames that an empty one ends. The host takes the frames together and answers
with what it counted and hashed, or with the reason why it refuses; it stores nothing. The sender makes
a receipt of the answer.

The receipt does not compare the answer with the package. `delivers_iff` says which streams that lets
through: those that reach a paired host whole but hold another package, or end with more than the
package.
-/

namespace Concorrd

open Serde (field)
open FrameStream (streamOf pieces readExact receive Ending Fits)

/-- Max bytes of a frame. -/
def maxFrameBytes : Nat := 1024 * 1024

/-- The sender's pieces. -/
def chunkBytes : Nat := 64 * 1024

/-- Max bytes of a package. -/
def maxPackageBytes : Nat := 512 * 1024 * 1024

/-- The answer of the host. -/
inductive DeliveryStatus where
  | accepted (sha256 : String) (bytesReceived : UInt64) (receivedAt : Int64)
  | rejected (reason : String)
  deriving DecidableEq, Repr

def DeliveryStatus.toJson : DeliveryStatus → Json
  | .accepted sha256 bytesReceived receivedAt =>
    .obj [("status", .str "accepted"), ("sha256", .str sha256),
      ("bytes_received", .num bytesReceived.toNat), ("received_at", i64Json receivedAt)]
  | .rejected reason => .obj [("status", .str "rejected"), ("reason", .str reason)]

/-- The fields of an acceptance. -/
def DeliveryStatus.acceptedOfJson (json : Json) : Option DeliveryStatus := do
  let sha256 ← field Json.asStr json "sha256"
  let bytesReceived ← field Serde.u64 json "bytes_received"
  let receivedAt ← field Json.asI64 json "received_at"
  some (.accepted sha256 bytesReceived receivedAt)

def DeliveryStatus.ofJson (json : Json) : Option DeliveryStatus :=
  match field Json.asStr json "status" with
  | some "accepted" => acceptedOfJson json
  | some "rejected" => (field Json.asStr json "reason").map .rejected
  | _ => none

theorem DeliveryStatus.ofJson_toJson (status : DeliveryStatus) : ofJson status.toJson = some status := by
  cases status with
  | accepted sha256 bytesReceived receivedAt =>
    have count : field Serde.u64 (accepted sha256 bytesReceived receivedAt).toJson "bytes_received" =
        some bytesReceived := Serde.field_eq rfl (Serde.u64_toJson bytesReceived)
    have time : field Json.asI64 (accepted sha256 bytesReceived receivedAt).toJson "received_at" =
        some receivedAt := Serde.field_eq rfl (Serde.i64_toJson receivedAt)
    have tag : field Json.asStr (accepted sha256 bytesReceived receivedAt).toJson "status" =
        some "accepted" := rfl
    have digest : field Json.asStr (accepted sha256 bytesReceived receivedAt).toJson "sha256" =
        some sha256 := rfl
    rw [ofJson, tag]
    rw [acceptedOfJson, digest, count, time]
    rfl
  | rejected reason => rfl

/-- What the sender gets. -/
structure DeliveryReceipt where
  packageSha256 : String
  bytesSent : UInt64
  deliveredAt : Option Int64
  rejectedReason : Option String
  deriving DecidableEq, Repr

/-- One delivery: what the libraries read and hash, the package, whether the host knows the sender, the
chunks in which bytes reach the host, the time there, and how an answer is cut into chunks. -/
structure HomeExport where
  fromSlice : List UInt8 → Option Json
  digest : List UInt8 → Vector UInt8 32
  package : List UInt8
  paired : Bool
  arrived : List (List UInt8)
  receivedAt : Int64
  cut : List UInt8 → List (List UInt8)

namespace HomeExport

variable (e : HomeExport)

def sha256 (bytes : List UInt8) : String := Bytes.hex (e.digest bytes).toList

/-- The bytes that the sender writes. -/
def written : List UInt8 := streamOf (pieces chunkBytes e.package)

/-- What the host takes of what arrives, and how that ends. -/
def received : List UInt8 × Ending := receive maxFrameBytes maxPackageBytes e.arrived

/-- The answer of the host. A stream that ends inside a frame gets none. -/
def handleInbound : Option DeliveryStatus :=
  if e.received.2 = .midFrame then none
  else if !e.paired then some (.rejected "sender_not_paired")
  else
    match e.received.2 with
    | .overCap => some (.rejected "package_too_large")
    | .frameTooLarge _ => some (.rejected "frame_too_large")
    | .sentinel =>
      some (.accepted (e.sha256 e.received.1) (.ofNat e.received.1.length) e.receivedAt)
    | _ => some (.rejected "framing_error")

/-- The frame of the answer. -/
def reply : List UInt8 :=
  e.handleInbound.elim [] fun status =>
    LengthFrame.frame (Bytes.utf8 (Json.write status.toJson))

/-- The receipt for an answer. -/
def receipt : DeliveryStatus → DeliveryReceipt
  | .accepted sha256 _ receivedAt => ⟨sha256, .ofNat e.package.length, some receivedAt, none⟩
  | .rejected reason => ⟨e.sha256 e.package, .ofNat e.package.length, none, some reason⟩

/-- Read the answer to a package that was sent. -/
def sendHomeExportPackage : Except PorchError DeliveryReceipt :=
  match readExact 4 (e.cut e.reply) with
  | none => .error (.io "unexpected end of file")
  | some (length, rest) =>
    if maxFrameBytes < Bytes.ofBe length then
      .error (.malformedEnvelope ("home-export reply too large: " ++
        toString (Bytes.ofBe length) ++ " > " ++ toString maxFrameBytes))
    else
      match readExact (Bytes.ofBe length) rest with
      | none => .error (.io "unexpected end of file")
      | some (body, _) =>
        match (e.fromSlice body).bind DeliveryStatus.ofJson with
        | none => .error (.serde "")
        | some status => .ok (e.receipt status)

/-! ## What a delivery promises -/

/-- The bytes arrive as they were written. -/
def AsSent : Prop := e.arrived.flatten = e.written

/-- What arrives is the package in frames, and nothing else. -/
def Intact : Prop :=
  ∃ bodies, Fits maxFrameBytes maxPackageBytes bodies ∧ e.arrived.flatten = streamOf bodies ∧
    bodies.flatten = e.package

/-- The sender reports a delivery. -/
def ReportsSuccess : Prop :=
  ∃ receipt, e.sendHomeExportPackage = .ok receipt ∧ receipt.deliveredAt.isSome = true

/-- A package that arrives as it was sent is taken, and answered with a receipt for it; of a stream that
is anything else than the package no success is reported. -/
structure Delivers : Prop where
  whole : e.AsSent → e.package.length ≤ maxPackageBytes →
    e.received = (e.package, .sentinel) ∧
      e.handleInbound = some (.accepted (e.sha256 e.package) (.ofNat e.package.length) e.receivedAt) ∧
      e.sendHomeExportPackage =
        .ok ⟨e.sha256 e.package, .ofNat e.package.length, some e.receivedAt, none⟩
  other : ¬e.Intact → ¬e.ReportsSuccess

/-- A package that arrives as it was sent comes from a known sender. A known sender's stream that begins
with a body in frames is the package in frames. -/
structure Faithful : Prop where
  known : e.AsSent → e.package.length ≤ maxPackageBytes → e.paired = true
  same : e.paired = true → ∀ bodies rest, Fits maxFrameBytes maxPackageBytes bodies →
    e.arrived.flatten = streamOf bodies ++ rest → bodies.flatten = e.package ∧ rest = []

/-- The JSON library reads back the answer that it printed, and the chunks of an answer are the
answer. -/
structure Lawful : Prop where
  reads : ∀ status ∈ e.handleInbound,
    e.fromSlice (Bytes.utf8 (Json.write status.toJson)) = some status.toJson
  cut : ∀ bytes, (e.cut bytes).flatten = bytes

/-! ## The answer comes back -/

variable {e : HomeExport}

theorem length_sha256 (bytes : List UInt8) : (e.sha256 bytes).length = 64 := by
  have digits (bytes : List UInt8) : (Bytes.hexChars bytes).length = 2 * bytes.length := by
    induction bytes with
    | nil => rfl
    | cons b bytes ih =>
      rw [Bytes.hexChars, List.length_cons, List.length_cons, ih, List.length_cons]
      omega
  rw [sha256, Bytes.hex, String.length_ofList, digits, Vector.length_toList]

theorem size_accepted {sha : String} (short : sha.length ≤ 64) (count : UInt64) (time : Int64) :
    Json.size (DeliveryStatus.accepted sha count time).toJson ≤ maxFrameBytes := by
  have hash := Json.textSize_le sha
  have low := time.le_toInt
  have high := time.toInt_lt
  have counted : Json.numSize count.toNat ≤ 4 * (20 + 1) :=
    Json.numSize_le (by decide) (lt_trans count.toNat_lt (by decide))
  have timed : Json.numSize time.toInt ≤ 4 * (20 + 1) := Json.numSize_le (by decide) (by omega)
  have keys : Json.textSize "status" = 8 ∧ Json.textSize "accepted" = 10 ∧
      Json.textSize "sha256" = 8 ∧ Json.textSize "bytes_received" = 16 ∧
      Json.textSize "received_at" = 13 := by decide
  simp only [DeliveryStatus.toJson, i64Json, Json.size, Json.membersSize, maxFrameBytes, keys]
  omega

theorem size_rejected {reason : String} (short : reason.length ≤ 64) :
    Json.size (DeliveryStatus.rejected reason).toJson ≤ maxFrameBytes := by
  have text := Json.textSize_le reason
  have keys : Json.textSize "status" = 8 ∧ Json.textSize "rejected" = 10 ∧
      Json.textSize "reason" = 8 := by decide
  simp only [DeliveryStatus.toJson, Json.size, Json.membersSize, maxFrameBytes, keys]
  omega

/-- The text of an answer that the host gives fits in a frame. -/
theorem short_of_handleInbound {status : DeliveryStatus} (answer : e.handleInbound = some status) :
    (Bytes.utf8 (Json.write status.toJson)).length ≤ maxFrameBytes := by
  rw [Bytes.length_utf8, Json.utf8ByteSize_write]
  unfold handleInbound at answer
  split at answer
  · cases answer
  split at answer
  · cases answer
    exact size_rejected (by decide)
  split at answer <;> cases answer
  · exact size_rejected (by decide)
  · exact size_rejected (by decide)
  · exact size_accepted (length_sha256 _).le _ _
  · exact size_rejected (by decide)

/-- The sender reads the answer that the host gave. -/
theorem send_of_handleInbound (lawful : e.Lawful) {status : DeliveryStatus}
    (answer : e.handleInbound = some status) : e.sendHomeExportPackage = .ok (e.receipt status) := by
  have short := short_of_handleInbound answer
  have framed : (e.cut e.reply).flatten =
      Bytes.be 4 (Bytes.utf8 (Json.write status.toJson)).length ++
        (Bytes.utf8 (Json.write status.toJson) ++ []) := by
    rw [lawful.cut, reply, answer, List.append_nil]
    rfl
  obtain ⟨rest, flat, readLength⟩ := FrameStream.readExact_append framed
  obtain ⟨rest', -, readBody⟩ := FrameStream.readExact_append flat
  rw [Bytes.length_be] at readLength
  have spelt : Bytes.ofBe (Bytes.be 4 (Bytes.utf8 (Json.write status.toJson)).length) =
      (Bytes.utf8 (Json.write status.toJson)).length :=
    Bytes.ofBe_be (lt_of_le_of_lt short (by decide))
  rw [sendHomeExportPackage, readLength]
  simp only [spelt, readBody, lawful.reads status answer, Option.bind_some,
    DeliveryStatus.ofJson_toJson]
  exact if_neg (not_lt.mpr short)

/-- Without an answer there is no receipt. -/
theorem send_of_no_answer (lawful : e.Lawful) (none : e.handleInbound = none) :
    e.sendHomeExportPackage = .error (.io "unexpected end of file") := by
  have nothing : (e.cut e.reply).flatten = [] := by
    rw [lawful.cut, reply, none]
    rfl
  rcases FrameStream.readExact_spec 4 (e.cut e.reply) with ⟨-, read⟩ | ⟨enough, -⟩
  · rw [sendHomeExportPackage, read]
  · rw [nothing] at enough
    cases enough

/-- The host accepts exactly what a known sender's stream holds whole. -/
theorem handleInbound_eq_accepted_iff {sha : String} {count : UInt64} {time : Int64} :
    e.handleInbound = some (.accepted sha count time) ↔ e.paired = true ∧ e.received.2 = .sentinel ∧
      sha = e.sha256 e.received.1 ∧ count = .ofNat e.received.1.length ∧ time = e.receivedAt := by
  unfold handleInbound
  cases ending : e.received.2 <;> cases e.paired <;> simp [eq_comm]

theorem frame_small : maxFrameBytes < 2 ^ 32 := by decide

/-- A success is reported exactly when a known sender's stream begins with a body in frames. -/
theorem reportsSuccess_iff (lawful : e.Lawful) : e.ReportsSuccess ↔
    e.paired = true ∧ ∃ bodies rest, Fits maxFrameBytes maxPackageBytes bodies ∧
      e.arrived.flatten = streamOf bodies ++ rest := by
  constructor
  · rintro ⟨receipt, sent, delivered⟩
    cases answer : e.handleInbound with
    | none =>
      rw [send_of_no_answer lawful answer] at sent
      cases sent
    | some status =>
      rw [send_of_handleInbound lawful answer] at sent
      cases sent
      cases status with
      | rejected reason => cases delivered
      | accepted sha count time =>
        obtain ⟨paired, ending, -⟩ := handleInbound_eq_accepted_iff.mp answer
        obtain ⟨bodies, rest, fits, stream, -⟩ :=
          (FrameStream.receive_sentinel_iff frame_small).mp (Prod.ext rfl ending : e.received = (_, .sentinel))
        exact ⟨paired, bodies, rest, fits, stream⟩
  · rintro ⟨paired, bodies, rest, fits, stream⟩
    have received : e.received = (bodies.flatten, .sentinel) :=
      (FrameStream.receive_sentinel_iff frame_small).mpr ⟨bodies, rest, fits, stream, rfl⟩
    have answer := handleInbound_eq_accepted_iff.mpr
      ⟨paired, congrArg Prod.snd received, rfl, rfl, rfl⟩
    exact ⟨_, send_of_handleInbound lawful answer, rfl⟩

/-- The package in its pieces fits. -/
theorem fits_pieces (small : e.package.length ≤ maxPackageBytes) :
    Fits maxFrameBytes maxPackageBytes (pieces chunkBytes e.package) := by
  have pos : 0 < chunkBytes := by decide
  have below : chunkBytes ≤ maxFrameBytes := by decide
  refine ⟨fun piece mem => ?_, ?_⟩
  · obtain ⟨nonempty, length⟩ := FrameStream.mem_cut pos mem
    exact ⟨nonempty, length.trans below⟩
  · rwa [FrameStream.flatten_pieces pos]

/-- A delivery keeps its promises exactly when a known sender's stream, where it holds a body in frames,
is the package in frames and no more, and a package that arrives as it was sent comes from a known
sender. -/
theorem delivers_iff (lawful : e.Lawful) : e.Delivers ↔ e.Faithful := by
  constructor
  · intro delivers
    refine ⟨fun asSent small => ?_, fun paired bodies rest fits stream => ?_⟩
    · obtain ⟨-, answer, -⟩ := delivers.whole asSent small
      exact (handleInbound_eq_accepted_iff.mp answer).1
    · have success := (reportsSuccess_iff lawful).mpr ⟨paired, bodies, rest, fits, stream⟩
      obtain ⟨bodies', fits', stream', package⟩ := not_imp_not.mp delivers.other success
      have same : streamOf bodies ++ rest = streamOf bodies' ++ [] := by
        rw [← stream, stream', List.append_nil]
      obtain ⟨rfl, rfl⟩ :=
        FrameStream.streamOf_append_inj frame_small fits.frames fits'.frames same
      exact ⟨package, rfl⟩
  · intro faithful
    refine ⟨fun asSent small => ?_, fun other success => other ?_⟩
    · have received : e.received = (e.package, .sentinel) := by
        refine (FrameStream.receive_sentinel_iff frame_small).mpr
          ⟨pieces chunkBytes e.package, [], fits_pieces small, ?_, ?_⟩
        · rw [List.append_nil]
          exact asSent
        · exact (FrameStream.flatten_pieces (by decide) _).symm
      have answer : e.handleInbound =
          some (.accepted (e.sha256 e.package) (.ofNat e.package.length) e.receivedAt) :=
        handleInbound_eq_accepted_iff.mpr ⟨faithful.known asSent small, congrArg Prod.snd received,
          by rw [received], by rw [received], rfl⟩
      exact ⟨received, answer, send_of_handleInbound lawful answer⟩
    · obtain ⟨paired, bodies, rest, fits, stream⟩ := (reportsSuccess_iff lawful).mp success
      obtain ⟨package, rfl⟩ := faithful.same paired bodies rest fits stream
      exact ⟨bodies, fits, by rw [stream, List.append_nil], package⟩

/-! ### The package of one byte -/

/-- The digest of a package of the byte 1, and of any other. -/
def digestOfOne (bytes : List UInt8) : Vector UInt8 32 :=
  if bytes = [1] then
    ⟨#[75, 245, 18, 47, 52, 69, 84, 197, 59, 222, 46, 187, 140, 210, 183, 227, 209, 96, 10, 214, 49,
      195, 133, 165, 215, 204, 226, 60, 119, 133, 69, 154], rfl⟩
  else
    ⟨#[219, 193, 180, 201, 0, 255, 228, 141, 87, 91, 93, 165, 198, 56, 4, 1, 37, 246, 93, 176, 254, 62,
      36, 73, 75, 118, 234, 152, 100, 87, 217, 134], rfl⟩

/-- The answer to a package of one byte. -/
def answerTo (byte : UInt8) : DeliveryStatus :=
  .accepted (Bytes.hex (digestOfOne [byte]).toList) 1 1700000000000

/-- The byte 1 is sent to a host that knows the sender, and a byte arrives in a frame. -/
def oneByte (byte : UInt8) : HomeExport where
  fromSlice text :=
    if text = Bytes.utf8 (Json.write (answerTo byte).toJson) then some (answerTo byte).toJson else none
  digest := digestOfOne
  package := [1]
  paired := true
  arrived := [[0, 0, 0], [1, byte, 0, 0], [0, 0]]
  receivedAt := 1700000000000
  cut bytes := [bytes]

theorem oneByte_arrived (byte : UInt8) : (oneByte byte).arrived.flatten = streamOf [[byte]] := by
  have length : Bytes.be 4 1 = [0, 0, 0, 1] := by decide
  simp only [oneByte, streamOf, LengthFrame.frame, List.map_cons, List.map_nil, List.length_singleton,
    length]
  rfl

theorem fits_oneByte (byte : UInt8) : Fits maxFrameBytes maxPackageBytes [[byte]] := by
  refine ⟨fun body mem => ?_, ?_⟩
  · rw [List.mem_singleton.mp mem]
    exact ⟨List.cons_ne_nil byte [], show 1 ≤ maxFrameBytes by decide⟩
  · exact show 1 ≤ maxPackageBytes by decide

theorem oneByte_lawful (byte : UInt8) : (oneByte byte).Lawful := by
  have received : (oneByte byte).received = ([byte], .sentinel) :=
    (FrameStream.receive_sentinel_iff frame_small).mpr
      ⟨[[byte]], [], fits_oneByte byte, by rw [oneByte_arrived, List.append_nil], rfl⟩
  have answer : (oneByte byte).handleInbound = some (answerTo byte) :=
    handleInbound_eq_accepted_iff.mpr
      ⟨rfl, congrArg Prod.snd received, by rw [received]; rfl, by rw [received]; rfl, rfl⟩
  refine ⟨fun status given => ?_, fun bytes => ?_⟩
  · obtain rfl : answerTo byte = status := Option.some.inj (answer.symm.trans given)
    simp only [oneByte, if_true]
  · exact List.append_nil bytes

theorem oneByte_body {byte : UInt8} {bodies : List (List UInt8)} {rest : List UInt8}
    (fits : Fits maxFrameBytes maxPackageBytes bodies)
    (stream : (oneByte byte).arrived.flatten = streamOf bodies ++ rest) :
    bodies = [[byte]] ∧ rest = [] := by
  have same : streamOf bodies ++ rest = streamOf [[byte]] ++ [] := by
    rw [← stream, oneByte_arrived, List.append_nil]
  exact FrameStream.streamOf_append_inj frame_small fits.frames (fits_oneByte byte).frames same

theorem delivers_of_oneByte : (oneByte 1).Delivers := by
  refine (delivers_iff (oneByte_lawful 1)).mpr ⟨fun _ _ => rfl, fun _ bodies rest fits stream => ?_⟩
  obtain ⟨rfl, rfl⟩ := oneByte_body fits stream
  exact ⟨rfl, rfl⟩

/-- Another byte than the package arrives, and the sender reports that the package is delivered. -/
theorem not_delivers_of_other_byte : ¬(oneByte 2).Delivers := by
  intro delivers
  have success : (oneByte 2).ReportsSuccess :=
    (reportsSuccess_iff (oneByte_lawful 2)).mpr
      ⟨rfl, [[2]], [], fits_oneByte 2, by rw [oneByte_arrived, List.append_nil]⟩
  obtain ⟨bodies, fits, stream, package⟩ := not_imp_not.mp delivers.other success
  have whole : (oneByte 2).arrived.flatten = streamOf bodies ++ [] := by
    rw [stream, List.append_nil]
  obtain ⟨rfl, -⟩ := oneByte_body fits whole
  exact absurd package (by decide)

end HomeExport

end Concorrd
