import Concorrd.Lib.Lww
import Concorrd.Porch.Disk
import Concorrd.Porch.Text

/-!
# Server visibility

How far into the mesh each server is shown. A setting is written by the user of an install under
its wall clock, and an update of another node is taken only where its time is strictly later.
`find?_applyVisibilityIfNewer` says that an update is an offer to a last-writer-wins register, and
`find?_setVisibility` that a local setting is one exactly when its time is later than what it
replaces.
-/

namespace Concorrd

/-- A row as callers and updates carry it. The table keeps the byte as an integer. -/
structure ServerVisibility where
  serverId : String
  maxHops : UInt8
  lastChangedAt : Int64
  deriving DecidableEq, Repr

/-- The rows of `visibility_meta`. -/
abbrev VisibilityMeta := KeyedTable VisibilityRow.serverId

/-- The stored row. -/
def ServerVisibility.stored (row : ServerVisibility) : VisibilityRow :=
  ⟨row.serverId, Int64.ofNat row.maxHops.toNat, row.lastChangedAt⟩

/-- `hops.clamp(0, 255) as u8` -/
def clampHops (hops : Int64) : UInt8 := UInt8.ofNat (min 255 hops.toNatClampNeg)

/-- A stored row as it is read. -/
def VisibilityRow.toServer (row : VisibilityRow) : ServerVisibility :=
  ⟨row.serverId, clampHops row.maxHops, row.lastChangedAt⟩

/-- `ON CONFLICT(server_id) DO UPDATE SET …` of a setting. -/
def visibilityConflict (new old : VisibilityRow) : VisibilityRow :=
  { old with maxHops := new.maxHops, lastChangedAt := new.lastChangedAt }

namespace VisibilityMeta

variable (T : VisibilityMeta)

/-- The setting of a server. -/
def getVisibility (serverId : String) : Option ServerVisibility :=
  (T.find? serverId).map VisibilityRow.toServer

/-- Write a row over what its server had. -/
def write (row : ServerVisibility) : VisibilityMeta :=
  T.upsert row.stored (visibilityConflict row.stored) fun _ => rfl

/-- Set the reach of a server at the time of the wall clock. -/
def setVisibility (serverId : String) (maxHops : UInt8) (now : Int64) :
    Except PorchError (VisibilityMeta × ServerVisibility) :=
  if trim serverId = "" then .error (.invalidInput "server_id must not be empty")
  else
    let row : ServerVisibility := ⟨serverId, maxHops, now⟩
    .ok (T.write row, row)

/-- Take an update if it is strictly later, and tell whether it was written. -/
def applyVisibilityIfNewer (row : ServerVisibility) : VisibilityMeta × Bool :=
  let shouldWrite : Bool := match T.find? row.serverId with
    | some held => held.lastChangedAt < row.lastChangedAt
    | none => true
  if shouldWrite then (T.write row, true) else (T, false)

/-- Every setting, by server. -/
def listVisibility : List ServerVisibility :=
  (T.rows.insertionSort fun a b => a.serverId ≤ b.serverId).map VisibilityRow.toServer

end VisibilityMeta

/-! ## Settings as registers -/

/-- A byte is read back as it was stored. -/
theorem clampHops_toNat (hops : UInt8) : clampHops (Int64.ofNat hops.toNat) = hops := by
  have small : hops.toNat < 256 := hops.toNat_lt
  have stored : (Int64.ofNat hops.toNat).toNatClampNeg = hops.toNat := by
    rw [Int64.toNatClampNeg, Int64.toInt_ofNat_of_lt (by omega)]
    rfl
  rw [clampHops, stored, Nat.min_eq_right (by omega), UInt8.ofNat_toNat]

theorem toServer_stored (row : ServerVisibility) : row.stored.toServer = row := by
  unfold VisibilityRow.toServer ServerVisibility.stored
  rw [clampHops_toNat]

theorem stored_injective : Function.Injective ServerVisibility.stored :=
  Function.LeftInverse.injective toServer_stored

namespace VisibilityMeta

open VisibilityRow (serverId lastChangedAt)

variable {T T' : VisibilityMeta} {row row' : ServerVisibility} {name : String} {maxHops : UInt8}
  {now : Int64}

/-- A write leaves its row under its server, whatever was there. -/
theorem puts_write : T.Puts row.stored (T.write row) := by
  apply KeyedTable.puts_upsert_of
  intro old key
  rw [visibilityConflict, key]

/-- An update is dropped where the register of its server covers it, and written elsewhere. -/
theorem applyVisibilityIfNewer_eq : T.applyVisibilityIfNewer row =
    if Lww.Held serverId lastChangedAt T.find? row.stored then (T, false)
    else (T.write row, true) := by
  unfold applyVisibilityIfNewer Lww.Held
  show _ = if Lww.Covers lastChangedAt (T.find? row.serverId) row.stored then _ else _
  cases T.find? row.serverId with
  | none => simp only [if_true, Lww.covers_none, if_false]
  | some held =>
    have older : row.stored.lastChangedAt ≤ held.lastChangedAt ↔
        ¬ held.lastChangedAt < row.lastChangedAt := not_lt.symm
    simp only [Lww.covers_some, older, ite_not, decide_eq_true_eq]

/-- An update is taken exactly when the register does not cover it. -/
theorem applyVisibilityIfNewer_snd : (T.applyVisibilityIfNewer row).2 = true ↔
    ¬ Lww.Held serverId lastChangedAt T.find? row.stored := by
  rw [applyVisibilityIfNewer_eq]
  split
  · rename_i held
    simp only [Bool.false_eq_true, held, not_true_eq_false]
  · rename_i fresh
    simp only [fresh, not_false_eq_true]

/-- **An update is an offer.** -/
theorem find?_applyVisibilityIfNewer : (T.applyVisibilityIfNewer row).1.find? =
    Lww.offer serverId lastChangedAt T.find? row.stored := by
  rw [applyVisibilityIfNewer_eq]
  split
  · rename_i held
    exact (Lww.offer_of_held held).symm
  · rename_i fresh
    rw [Lww.offer_of_not_held fresh]
    exact puts_write

/-- A setting names a server, and is written as it is. -/
theorem setVisibility_eq_ok_iff : T.setVisibility name maxHops now = .ok (T', row) ↔
    trim name ≠ "" ∧ row = ⟨name, maxHops, now⟩ ∧ T' = T.write row := by
  unfold setVisibility
  by_cases blank : trim name = ""
  · simp only [blank, if_true, reduceCtorEq, ne_eq, not_true_eq_false, false_and]
  · simp only [blank, if_false, Except.ok.injEq, Prod.mk.injEq, ne_eq, not_false_eq_true, true_and]
    constructor
    · rintro ⟨rfl, rfl⟩
      exact ⟨rfl, rfl⟩
    · rintro ⟨rfl, rfl⟩
      exact ⟨rfl, rfl⟩

/-- What a server had, if anything, is earlier than the time of the setting. -/
def Advances (T : VisibilityMeta) (name : String) (now : Int64) : Prop :=
  ∀ held, T.find? name = some held → held.lastChangedAt < now

/-- A setting is an offer where the clock has moved on. -/
theorem find?_setVisibility (h : T.setVisibility name maxHops now = .ok (T', row))
    (later : T.Advances name now) :
    T'.find? = Lww.offer serverId lastChangedAt T.find? row.stored := by
  obtain ⟨_, rfl, rfl⟩ := setVisibility_eq_ok_iff.mp h
  rw [Lww.offer_of_not_held]
  · exact puts_write
  rintro ⟨held, hheld, hle⟩
  exact absurd (later held hheld) (not_lt.mpr hle)

end VisibilityMeta

end Concorrd
