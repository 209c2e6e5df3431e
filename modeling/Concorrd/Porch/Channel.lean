import Mathlib.Logic.Basic

/-!
# Channel vocabulary

The closed enumerations the porch stores as text, each with its column string and its
parser. The schema accepts exactly the column strings, so a parser reads back what the
writer stored.
-/

namespace Concorrd

/-- What a channel is. -/
inductive ChannelKind where
  | porch
  | inner
  | obsidian
  deriving DecidableEq, Repr

namespace ChannelKind

/-- The column string. -/
def asStr : ChannelKind → String
  | .porch => "porch"
  | .inner => "inner"
  | .obsidian => "obsidian"

/-- Parse the column string. -/
def fromStr : String → Option ChannelKind
  | "porch" => some .porch
  | "inner" => some .inner
  | "obsidian" => some .obsidian
  | _ => none

@[simp] theorem fromStr_asStr (kind : ChannelKind) : fromStr kind.asStr = some kind := by
  cases kind <;> rfl

end ChannelKind

/-- How visitors gain access to a channel. -/
inductive AclMode where
  | open
  | allowlist
  | ownerOnly
  deriving DecidableEq, Repr

namespace AclMode

/-- The column string. -/
def asStr : AclMode → String
  | .open => "open"
  | .allowlist => "allowlist"
  | .ownerOnly => "owner_only"

/-- Parse the column string. -/
def fromStr : String → Option AclMode
  | "open" => some .open
  | "allowlist" => some .allowlist
  | "owner_only" => some .ownerOnly
  | _ => none

@[simp] theorem fromStr_asStr (mode : AclMode) : fromStr mode.asStr = some mode := by
  cases mode <;> rfl

end AclMode

/-- Role of a peer inside a channel's access list. -/
inductive AclRole where
  | visitor
  | member
  | owner
  deriving DecidableEq, Repr

namespace AclRole

/-- The column string. -/
def asStr : AclRole → String
  | .visitor => "visitor"
  | .member => "member"
  | .owner => "owner"

/-- Parse the column string. -/
def fromStr : String → Option AclRole
  | "visitor" => some .visitor
  | "member" => some .member
  | "owner" => some .owner
  | _ => none

@[simp] theorem fromStr_asStr (role : AclRole) : fromStr role.asStr = some role := by
  cases role <;> rfl

end AclRole

/-- Current status of a knock. -/
inductive KnockStatus where
  | pending
  | accepted
  | rejected
  | withdrawn
  deriving DecidableEq, Repr

namespace KnockStatus

/-- The column string. -/
def asStr : KnockStatus → String
  | .pending => "pending"
  | .accepted => "accepted"
  | .rejected => "rejected"
  | .withdrawn => "withdrawn"

/-- Parse the column string. -/
def fromStr : String → Option KnockStatus
  | "pending" => some .pending
  | "accepted" => some .accepted
  | "rejected" => some .rejected
  | "withdrawn" => some .withdrawn
  | _ => none

@[simp] theorem fromStr_asStr (status : KnockStatus) : fromStr status.asStr = some status := by
  cases status <;> rfl

end KnockStatus

/-- Font family of a theme. -/
inductive FontFamily where
  | system
  | serif
  | mono
  | display
  deriving DecidableEq, Repr

namespace FontFamily

/-- The column string. -/
def asStr : FontFamily → String
  | .system => "system"
  | .serif => "serif"
  | .mono => "mono"
  | .display => "display"

/-- Parse the column string. -/
def fromStr : String → Option FontFamily
  | "system" => some .system
  | "serif" => some .serif
  | "mono" => some .mono
  | "display" => some .display
  | _ => none

@[simp] theorem fromStr_asStr (font : FontFamily) : fromStr font.asStr = some font := by
  cases font <;> rfl

end FontFamily

/-- Background descriptor of a theme. -/
inductive Background where
  | none
  | solid (color : String)
  | gradient (css : String)
  | image (assetId : String)
  deriving DecidableEq, Repr

namespace Background

/-- The string stored in `background_kind`. -/
def kindStr : Background → String
  | .none => "none"
  | .solid _ => "solid"
  | .gradient _ => "gradient"
  | .image _ => "image"

/-- The string stored in `background_value`. -/
def valueStr : Background → Option String
  | .none => Option.none
  | .solid s => some s
  | .gradient s => some s
  | .image assetId => some assetId

/-- Read a background back from its two columns. -/
def fromDb : String → Option String → Option Background
  | "none", _ => some .none
  | "solid", some v => some (.solid v)
  | "gradient", some v => some (.gradient v)
  | "image", some v => some (.image v)
  | _, _ => Option.none

end Background

end Concorrd
