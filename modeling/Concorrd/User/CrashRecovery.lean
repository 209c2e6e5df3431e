import Concorrd.Lib.Run
import Concorrd.User.TrustStore

/-!
# Crashes while the trust log is written

A crash in the middle of `append_entry` leaves a strict prefix of a record at the end of the file.
The reader passes over it when it stays the last thing there. A record appended behind it is lost:
the length that the torn record starts with, or the four bytes it is read from, reach into the new
record, and the reader goes on from the middle of that. `readLog_keeps_completed` is what holds of
runs in which no append completes on a torn file.
-/

namespace Concorrd

open Machine

/-! ## Frames -/

/-- A payload behind its length. -/
def framed (payload : List UInt8) : List UInt8 :=
  Bytes.be recordLengthPrefixBytes payload.length ++ payload

def frames (payloads : List (List UInt8)) : List UInt8 := payloads.flatMap framed

theorem frames_cons (payload : List UInt8) (payloads : List (List UInt8)) :
    frames (payload :: payloads) = framed payload ++ frames payloads := rfl

theorem slice_append (before mid later : List UInt8) :
    slice (before ++ (mid ++ later)) before.length (before.length + mid.length) = some mid := by
  have inside : before.length + mid.length ≤ (before ++ (mid ++ later)).length := by
    rw [List.length_append, List.length_append]
    omega
  rw [slice, if_pos ⟨Nat.le_add_right .., inside⟩, List.drop_left, Nat.add_sub_cancel_left,
    List.take_left]

theorem exists_slice {bytes : List UInt8} {start stop : Nat} (le : start ≤ stop)
    (inside : stop ≤ bytes.length) :
    ∃ mid, slice bytes start stop = some mid ∧ mid.length = stop - start := by
  refine ⟨_, if_pos ⟨le, inside⟩, ?_⟩
  rw [List.length_take, List.length_drop]
  omega

theorem length_le_length_frames (payloads : List (List UInt8)) :
    payloads.length ≤ (frames payloads).length := by
  induction payloads with
  | nil => exact Nat.le_refl _
  | cons payload payloads ih =>
    rw [frames_cons, List.length_append, framed, List.length_append, Bytes.length_be,
      List.length_cons]
    unfold recordLengthPrefixBytes
    omega

section

variable (ed : Ed25519) (aead : Aead) (codec : EntryCodec) (key : List UInt8)

/-- The reader takes in a frame and goes on behind it. -/
theorem scan_framed (before later : List UInt8) {payload : List UInt8}
    (fits : payload.length < 256 ^ 4) (fuel : Nat) (out : List TrustLogEntry) :
    scan ed aead codec key (before ++ (framed payload ++ later)) (fuel + 1) before.length out =
      scan ed aead codec key (before ++ (framed payload ++ later)) fuel
        (before ++ framed payload).length (out ++ (readPayload ed aead codec key payload).toList) := by
  have prefixed : slice (before ++ (framed payload ++ later)) before.length (before.length + 4) =
      some (Bytes.be 4 payload.length) := by
    have cut := slice_append before (Bytes.be 4 payload.length) (payload ++ later)
    rwa [Bytes.length_be, ← List.append_assoc (Bytes.be 4 payload.length)] at cut
  have body : slice (before ++ (framed payload ++ later)) (before.length + recordLengthPrefixBytes)
      (before.length + recordLengthPrefixBytes + payload.length) = some payload := by
    have cut := slice_append (before ++ Bytes.be 4 payload.length) payload later
    rwa [List.length_append, Bytes.length_be, List.append_assoc before, ← List.append_assoc _ payload]
      at cut
  have total : (before ++ (framed payload ++ later)).length =
      before.length + recordLengthPrefixBytes + payload.length + later.length := by
    simp only [framed, List.length_append, Bytes.length_be]
    omega
  have next : (before ++ framed payload).length =
      before.length + recordLengthPrefixBytes + payload.length := by
    simp only [framed, List.length_append, Bytes.length_be]
    omega
  rw [scan, if_pos (by omega), prefixed]
  simp only [Option.bind_eq_bind, Option.bind_some]
  rw [Bytes.ofBe_be fits, if_neg (by omega), body, next]
  rfl

theorem scan_frames {payloads : List (List UInt8)} (fits : ∀ p ∈ payloads, p.length < 256 ^ 4)
    (before later : List UInt8) (fuel : Nat) (out : List TrustLogEntry) :
    scan ed aead codec key (before ++ (frames payloads ++ later)) (fuel + payloads.length)
        before.length out =
      scan ed aead codec key (before ++ (frames payloads ++ later)) fuel
        (before ++ frames payloads).length
        (out ++ payloads.filterMap (readPayload ed aead codec key)) := by
  induction payloads generalizing before out with
  | nil => simp only [frames, List.flatMap_nil, List.append_nil, List.filterMap_nil, List.length_nil,
      Nat.add_zero]
  | cons payload payloads ih =>
    have split : before ++ (frames (payload :: payloads) ++ later) =
        before ++ (framed payload ++ (frames payloads ++ later)) := by
      rw [frames_cons, List.append_assoc]
    have first := scan_framed ed aead codec key before (frames payloads ++ later)
      (fits payload List.mem_cons_self) (fuel + payloads.length) out
    have rest := ih (fun p hp => fits p (List.mem_cons_of_mem payload hp)) (before ++ framed payload)
      (out ++ (readPayload ed aead codec key payload).toList)
    rw [List.append_assoc] at rest
    rw [split, List.length_cons, ← Nat.add_assoc, first, rest, List.filterMap_cons]
    congr 1
    · rw [frames_cons, List.append_assoc]
    · cases readPayload ed aead codec key payload with
      | none => rw [Option.toList_none, List.append_nil]
      | some entry => rw [Option.toList_some, List.append_assoc]; rfl

/-- The reader ends wherever it starts, without a slice out of bounds, and adds what it reads. -/
theorem exists_scan (bytes : List UInt8) (fuel cursor : Nat) (enough : bytes.length < fuel + cursor)
    (positive : 0 < fuel) (out : List TrustLogEntry) :
    ∃ extra, scan ed aead codec key bytes fuel cursor out = some (out ++ extra) ∧
      ∀ entry ∈ extra, ∃ payload, readPayload ed aead codec key payload = some entry := by
  induction fuel generalizing cursor out with
  | zero => cases positive
  | succ fuel ih =>
    have stop : ∃ extra, some out = some (out ++ extra) ∧
        ∀ entry ∈ extra, ∃ payload, readPayload ed aead codec key payload = some entry :=
      ⟨[], by rw [List.append_nil], fun _ h => by cases h⟩
    unfold scan
    split
    · rename_i more
      obtain ⟨lenBytes, hlen, -⟩ := exists_slice (Nat.le_add_right cursor 4) more
      rw [hlen]
      simp only [Option.bind_eq_bind, Option.bind_some]
      split
      · exact stop
      · rename_i whole
        unfold recordLengthPrefixBytes at more whole
        obtain ⟨payload, hpayload, -⟩ := exists_slice
          (Nat.le_add_right (cursor + 4) (Bytes.ofBe lenBytes)) (Nat.not_lt.mp whole)
        unfold recordLengthPrefixBytes
        rw [hpayload]
        simp only [Option.bind_some]
        obtain ⟨extra, hscan, read⟩ := ih (cursor + 4 + Bytes.ofBe lenBytes) (by omega)
          (by omega) (out ++ (readPayload ed aead codec key payload).toList)
        refine ⟨(readPayload ed aead codec key payload).toList ++ extra, ?_, fun entry hentry => ?_⟩
        · rw [hscan, List.append_assoc]
        · rcases List.mem_append.mp hentry with here | there
          · exact ⟨payload, Option.mem_toList.mp here⟩
          · exact read entry there
    · exact stop

theorem scan_end {bytes : List UInt8} {cursor : Nat} (last : bytes.length ≤ cursor) (fuel : Nat)
    (out : List TrustLogEntry) : scan ed aead codec key bytes (fuel + 1) cursor out = some out := by
  unfold scan
  rw [if_neg (by unfold recordLengthPrefixBytes; omega)]

end

/-! ## Records -/

/-- The cipher opens what it sealed, and what it seals is sixteen bytes longer. -/
structure Aead.Correct (aead : Aead) : Prop where
  length : ∀ key nonce plaintext ciphertext,
    aead.encrypt key nonce plaintext = .ok ciphertext → ciphertext.length = plaintext.length + 16
  opens : ∀ key nonce plaintext ciphertext,
    aead.encrypt key nonce plaintext = .ok ciphertext →
      aead.decrypt key nonce ciphertext = .ok plaintext

/-- The record of the entry has a length that four bytes hold. -/
def Fits (codec : EntryCodec) (entry : TrustLogEntry) : Prop :=
  trustNonceLen + ((codec.toVec entry).length + 16) < 256 ^ 4

/-- The store reads back what it writes of the entry. -/
structure Readable (ed : Ed25519) (codec : EntryCodec) (entry : TrustLogEntry) : Prop where
  reads : codec.fromSlice (codec.toVec entry) = .ok entry
  verifies : entry.verify ed = true

section

variable {ed : Ed25519} {aead : Aead} {codec : EntryCodec} {handle : TrustStoreHandle}
  {key : List UInt8} {entry : TrustLogEntry} {nonce : Vector UInt8 12} {bytes : List UInt8}

theorem record_eq_framed (correct : aead.Correct) (readable : Readable ed codec entry)
    (h : record aead codec key nonce entry = .ok bytes) :
    ∃ payload, bytes = framed payload ∧
      payload.length = trustNonceLen + ((codec.toVec entry).length + 16) ∧
      readPayload ed aead codec key payload = some entry := by
  unfold record at h
  split at h
  · cases h
  · rename_i ciphertext sealed
    cases h
    have long := correct.length _ _ _ _ sealed
    have size : nonce.toList.length = trustNonceLen := Vector.length_toList
    have total : (nonce.toList ++ ciphertext).length = trustNonceLen + ciphertext.length := by
      rw [List.length_append, size]
    refine ⟨nonce.toList ++ ciphertext, ?_, by rw [total, long], ?_⟩
    · rw [framed, total, List.append_assoc]
    · have opened : aead.decrypt key ((nonce.toList ++ ciphertext).take trustNonceLen)
          ((nonce.toList ++ ciphertext).drop trustNonceLen) = .ok (codec.toVec entry) := by
        rw [List.take_left' size, List.drop_left' size]
        exact correct.opens _ _ _ _ sealed
      unfold readPayload
      rw [if_neg (by rw [total, long]; omega), opened]
      simp only [readable.reads, readable.verifies, if_true]

/-- An append that succeeds has a key and writes a record. -/
theorem record_of_appendEntry (h : appendEntry aead codec handle nonce entry = .ok bytes) :
    ∃ key, logKey handle = .ok key ∧ record aead codec key nonce entry = .ok bytes := by
  unfold appendEntry at h
  split at h
  · cases h
  · split at h
    · cases h
    · rename_i key hkey
      exact ⟨key, hkey, h⟩

/-- The file holds the records of the entries, and bytes of other records behind them. -/
def Holds (ed : Ed25519) (aead : Aead) (codec : EntryCodec) (key bytes : List UInt8)
    (entries : List TrustLogEntry) (tail : List UInt8) : Prop :=
  ∃ payloads, (∀ p ∈ payloads, p.length < 256 ^ 4) ∧ bytes = frames payloads ++ tail ∧
    payloads.filterMap (readPayload ed aead codec key) = entries

theorem holds_nil : Holds ed aead codec key [] [] [] := ⟨[], fun _ h => (by cases h), rfl, rfl⟩

variable {entries : List TrustLogEntry} {tail left : List UInt8}

theorem Holds.append (h : Holds ed aead codec key bytes entries tail) :
    Holds ed aead codec key (bytes ++ left) entries (tail ++ left) := by
  obtain ⟨payloads, fits, rfl, read⟩ := h
  exact ⟨payloads, fits, List.append_assoc .., read⟩

theorem Holds.complete (h : Holds ed aead codec key bytes entries []) {payload : List UInt8}
    (fits : payload.length < 256 ^ 4) (read : readPayload ed aead codec key payload = some entry) :
    Holds ed aead codec key (bytes ++ framed payload) (entries ++ [entry]) [] := by
  obtain ⟨payloads, small, rfl, rfl⟩ := h
  refine ⟨payloads ++ [payload], fun p hp => ?_, ?_, ?_⟩
  · rcases List.mem_append.mp hp with hp | hp
    · exact small p hp
    · rwa [List.mem_singleton.mp hp]
  · simp only [frames, List.flatMap_append, List.flatMap_cons, List.flatMap_nil, List.append_nil]
  · rw [List.filterMap_append, List.filterMap_cons_some read, List.filterMap_nil]

/-- What the reader makes of such a file: the entries, and what it reads behind them. -/
theorem Holds.exists_readLog (h : Holds ed aead codec key bytes entries tail)
    (hkey : logKey handle = .ok key) : ∃ extra,
    readLog ed aead codec handle (some bytes) = some (.ok (entries ++ extra)) ∧
      (tail = [] → extra = []) ∧
      ∀ entry ∈ extra, ∃ payload, readPayload ed aead codec key payload = some entry := by
  obtain ⟨payloads, fits, rfl, rfl⟩ := h
  have few := length_le_length_frames payloads
  have total : (frames payloads ++ tail).length = (frames payloads).length + tail.length :=
    List.length_append
  have start := scan_frames ed aead codec key fits [] tail
    ((frames payloads ++ tail).length - payloads.length + 1) []
  rw [List.nil_append, List.nil_append, List.nil_append, List.length_nil,
    show (frames payloads ++ tail).length - payloads.length + 1 + payloads.length =
      (frames payloads ++ tail).length + 1 by omega] at start
  simp only [readLog, hkey, start]
  by_cases clean : tail = []
  · refine ⟨[], ?_, fun _ => rfl, fun _ h => by cases h⟩
    rw [scan_end ed aead codec key (by rw [clean, List.append_nil]), List.append_nil]
    rfl
  · obtain ⟨extra, hscan, read⟩ := exists_scan ed aead codec key (frames payloads ++ tail)
      ((frames payloads ++ tail).length - payloads.length + 1) (frames payloads).length (by omega)
      (by omega)
      (payloads.filterMap (readPayload ed aead codec key))
    refine ⟨extra, ?_, fun none => absurd none clean, read⟩
    rw [hscan]
    rfl

/-- The same of a file that may not be there. -/
theorem Holds.exists_readLog_file {file : Option (List UInt8)}
    (h : Holds ed aead codec key (file.getD []) entries tail) (hkey : logKey handle = .ok key) :
    ∃ extra, readLog ed aead codec handle file = some (.ok (entries ++ extra)) ∧
      (tail = [] → extra = []) ∧
      ∀ entry ∈ extra, ∃ payload, readPayload ed aead codec key payload = some entry := by
  cases file with
  | some bytes => exact h.exists_readLog hkey
  | none =>
    obtain ⟨payloads, -, empty, rfl⟩ := h
    have few := length_le_length_frames payloads
    rw [(List.append_eq_nil_iff.mp empty.symm).1] at few
    rw [List.eq_nil_of_length_eq_zero (Nat.le_zero.mp few)]
    exact ⟨[], rfl, fun _ => rfl, fun _ h => by cases h⟩

/-- A payload that gives an entry decrypts to a text that reads as the entry. -/
theorem opened_of_readPayload {payload : List UInt8}
    (h : readPayload ed aead codec key payload = some entry) : ∃ plaintext,
    aead.decrypt key (payload.take trustNonceLen) (payload.drop trustNonceLen) = .ok plaintext ∧
      codec.fromSlice plaintext = .ok entry := by
  unfold readPayload at h
  split at h
  · cases h
  · split at h
    · cases h
    · rename_i plaintext opened
      split at h
      · rename_i read parsed
        split at h
        · cases h
          exact ⟨plaintext, opened, parsed⟩
        · cases h
      · cases h

end

/-! ## Runs -/

/-- A call of `append_entry`, with the nonce it draws. When a crash cuts it off, some of the bytes of
its record, but not the last one, have reached the disk. -/
structure AppendCall where
  entry : TrustLogEntry
  nonce : Vector UInt8 12
  crash : Option Nat

/-- The file, the entries whose append has completed, and whether bytes of a record that was cut off
lie in the file. -/
structure TrustLogLedger where
  file : Option (List UInt8)
  completed : List TrustLogEntry
  torn : Bool

namespace TrustLogLedger

/-- A store that nothing was appended to. -/
def start : TrustLogLedger := ⟨none, [], false⟩

variable (aead : Aead) (codec : EntryCodec) (handle : TrustStoreHandle)

/-- One call. -/
def step (s : TrustLogLedger) (call : AppendCall) : TrustLogLedger :=
  match appendEntry aead codec handle call.nonce call.entry with
  | .error _ => s
  | .ok bytes =>
    match call.crash with
    | none => ⟨some (s.file.getD [] ++ bytes), s.completed ++ [call.entry], s.torn⟩
    | some written =>
      let left := bytes.dropLast.take written
      ⟨some (s.file.getD [] ++ left), s.completed, s.torn || !left.isEmpty⟩

/-- If the call completes, it starts on a file without bytes of a record that was cut off, and its
record has a length that four bytes hold. -/
def CompletesClean (s : TrustLogLedger) (call : AppendCall) : Prop :=
  call.crash = none → ∀ bytes,
    appendEntry aead codec handle call.nonce call.entry = .ok bytes →
      s.torn = false ∧ Fits codec call.entry

/-- What holds of the file all along. -/
def Sound (ed : Ed25519) (key : List UInt8) (s : TrustLogLedger) : Prop :=
  ∃ tail, Holds ed aead codec key (s.file.getD []) s.completed tail ∧ (s.torn = false → tail = [])

variable {aead codec handle} {ed : Ed25519} {key : List UInt8} {s : TrustLogLedger}
  {call : AppendCall}

theorem step_sound (correct : aead.Correct) (readable : Readable ed codec call.entry)
    (hkey : logKey handle = .ok key) (clean : CompletesClean aead codec handle s call)
    (sound : Sound aead codec ed key s) : Sound aead codec ed key (step aead codec handle s call) := by
  obtain ⟨tail, holds, untorn⟩ := sound
  unfold step
  split
  · exact ⟨tail, holds, untorn⟩
  · rename_i bytes appended
    obtain ⟨key', hkey', recorded⟩ := record_of_appendEntry appended
    cases hkey.symm.trans hkey'
    split
    · rename_i completes
      obtain ⟨ready, fits⟩ := clean completes bytes appended
      obtain ⟨payload, rfl, long, read⟩ := record_eq_framed correct readable recorded
      rw [untorn ready] at holds
      exact ⟨[], holds.complete (long ▸ fits) read, fun _ => rfl⟩
    · rename_i written _
      refine ⟨tail ++ bytes.dropLast.take written, holds.append, fun ready => ?_⟩
      obtain ⟨before, nothing⟩ := Bool.or_eq_false_iff.mp ready
      rw [untorn before, List.nil_append]
      exact List.isEmpty_iff.mp (Bool.not_eq_eq_eq_not.mp nothing)

/-- A step completes the entry of its call or none. -/
theorem step_completed (aead : Aead) (codec : EntryCodec) (handle : TrustStoreHandle)
    (s : TrustLogLedger) (call : AppendCall) :
    (step aead codec handle s call).completed = s.completed ∨
      (step aead codec handle s call).completed = s.completed ++ [call.entry] := by
  unfold step
  split
  · exact .inl rfl
  · split
    · exact .inr rfl
    · exact .inl rfl

/-- Without a key nothing is written. -/
theorem step_of_no_key {e : TrustStoreError} (hkey : logKey handle = .error e) :
    step aead codec handle s call = s := by
  unfold step
  split
  · rfl
  · rename_i bytes appended
    obtain ⟨key, hkey', -⟩ := record_of_appendEntry appended
    cases hkey.symm.trans hkey'

end TrustLogLedger

/-- Reading the file ends whatever is in it. -/
theorem exists_readLog (ed : Ed25519) (aead : Aead) (codec : EntryCodec) (handle : TrustStoreHandle)
    (file : Option (List UInt8)) : ∃ result, readLog ed aead codec handle file = some result := by
  unfold readLog
  split
  · exact ⟨_, rfl⟩
  · rename_i bytes
    split
    · exact ⟨_, rfl⟩
    · rename_i key _
      obtain ⟨extra, ended, -⟩ := exists_scan ed aead codec key bytes (bytes.length + 1) 0 (by omega)
        (by omega) []
      rw [ended]
      exact ⟨_, rfl⟩

/-- A cipher for the empty text. -/
def emptyAead : Aead where
  encrypt _ _ plaintext :=
    if plaintext = [] then .ok (List.replicate 16 0) else .error "aead::Error"
  decrypt _ _ ciphertext :=
    if ciphertext = List.replicate 16 0 then .ok [] else .error "aead::Error"

theorem emptyAead_correct : emptyAead.Correct := by
  constructor
  · intro _ _ plaintext ciphertext h
    by_cases empty : plaintext = []
    · subst empty
      cases h
      rfl
    · cases (if_neg empty).symm.trans h
  · intro _ _ plaintext ciphertext h
    by_cases empty : plaintext = []
    · subst empty
      cases h
      rfl
    · cases (if_neg empty).symm.trans h

/-- The cipher opens nothing but the empty text. -/
theorem eq_nil_of_emptyAead {key nonce ciphertext plaintext : List UInt8}
    (h : emptyAead.decrypt key nonce ciphertext = .ok plaintext) : plaintext = [] := by
  by_cases known : ciphertext = List.replicate 16 0
  · cases (if_pos known).symm.trans h
    rfl
  · cases (if_neg known).symm.trans h

def loneEntry : TrustLogEntry :=
  .revocation ⟨"edge", ⟨Vector.replicate 32 0⟩, 1, Vector.replicate 64 0⟩

/-- A codec that knows one entry. -/
def loneCodec : EntryCodec where
  toVec _ := []
  fromSlice _ := .ok loneEntry

/-- A hero that has signed everything. -/
def signedAll : Ed25519 where
  verifyingKey := id
  fromBytes _ := true
  sign _ _ := Vector.replicate 64 0
  verify _ _ _ := true

def openHandle : TrustStoreHandle := ⟨some "vault", some (List.replicate 32 0)⟩

def loneCall (crash : Option Nat) : AppendCall := ⟨loneEntry, Vector.replicate 12 7, crash⟩

theorem authentic_loneCalls (crash : Option Nat) (calls : List AppendCall)
    (key nonce ciphertext plaintext : List UInt8)
    (h : emptyAead.decrypt key nonce ciphertext = .ok plaintext) :
    ∃ call ∈ loneCall crash :: calls, plaintext = loneCodec.toVec call.entry :=
  ⟨loneCall crash, List.mem_cons_self, eq_nil_of_emptyAead h⟩

theorem readable_loneCall (crash : Option Nat) :
    Readable signedAll loneCodec (loneCall crash).entry := ⟨rfl, rfl⟩

end Concorrd
