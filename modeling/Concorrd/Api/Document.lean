import Concorrd.Lib.Dict
import Concorrd.Api.Invites

/-!
# The settings file

`instance.json` is one dictionary, and every writer of it reads the whole, sets its own keys and writes
the whole back. The routes read what they need of it as `Settings`. The secrets of extensions are kept
in it too.
-/

namespace Concorrd.Api

abbrev Document := Dict String Json

/-- Whether a value counts as true. A float keeps its text as it is printed. -/
def truthy : Json → Bool
  | .null => false
  | .bool value => value
  | .num value => value ≠ 0
  | .float text => text ≠ "0.0" && text ≠ "-0.0"
  | .str value => value ≠ ""
  | .arr items => !items.isEmpty
  | .obj members => !members.isEmpty

def Json.items : Json → List Json
  | .arr items => items
  | _ => []

namespace Document

variable (doc : Document)

def isSet (key : String) : Bool := (doc.get key).any truthy

/-- The users that the file names as administrators. -/
def adminUserIds : List String :=
  ((doc.get "admin_user_ids").map Json.items).getD [] |>.filterMap Json.asStr

/-- What the routes read of the file. -/
def settings : Settings where
  defaultServerId := (doc.get "default_server_id").bind Json.asStr
  firstBootComplete := doc.isSet "first_boot_complete"
  defaultServerSeeded := doc.isSet "default_server_seeded"
  welcomePosted := doc.isSet "welcome_posted"
  openRegistration := (doc.get "open_registration").bind Json.asBool
  adminUserIds := doc.adminUserIds

/-- What the file says is what its keys say. -/
theorem settings_congr {doc doc' : Document} (same : ∀ key, doc.get key = doc'.get key) :
    doc.settings = doc'.settings := by
  simp only [settings, isSet, adminUserIds, same]

theorem isFirstBoot_congr {doc doc' : Document} (same : ∀ key, doc.get key = doc'.get key) :
    doc.settings.isFirstBoot = doc'.settings.isFirstBoot :=
  congrArg Settings.isFirstBoot (settings_congr same)

/-! ## Secrets of extensions -/

/-- The members of an object; nothing otherwise. -/
def members : Option Json → Dict String Json
  | some (.obj members) => members
  | _ => []

def extSecrets (extId : String) : Dict String String :=
  (members ((members (doc.get "extension_secrets")).get extId)).filterMap fun e =>
    e.2.asStr.map (e.1, ·)

def saveExtSecrets (extId : String) (secrets : Dict String String) : Document :=
  let bucket := members (doc.get "extension_secrets")
  doc.set "extension_secrets" <| .obj <|
    if secrets = [] then bucket.pop extId
    else bucket.set extId (.obj (secrets.map fun e => (e.1, .str e.2)))

/-- The characters that are stripped from a text. -/
def isSpace (c : Char) : Bool :=
  (9 ≤ c.toNat && c.toNat ≤ 13) || (28 ≤ c.toNat && c.toNat ≤ 32) ||
    (0x2000 ≤ c.toNat && c.toNat ≤ 0x200a) ||
    [0x85, 0xa0, 0x1680, 0x2028, 0x2029, 0x202f, 0x205f, 0x3000].contains c.toNat

def strip (text : String) : String :=
  String.ofList ((text.toList.dropWhile isSpace).reverse.dropWhile isSpace).reverse

/-- Set the secrets of an extension. A blank one is deleted. -/
def setExtensionSecrets (extId : String) (body : List (String × Option String)) : Document :=
  doc.saveExtSecrets extId <| body.foldl
    (fun secrets e =>
      match e.2.map strip with
      | none | some "" => Dict.pop secrets e.1
      | some text => Dict.set secrets e.1 text)
    (doc.extSecrets extId)

/-- What is saved for an extension is what is read for it. -/
theorem extSecrets_saveExtSecrets_self (extId : String) (secrets : Dict String String) :
    (doc.saveExtSecrets extId secrets).extSecrets extId = secrets := by
  rw [saveExtSecrets, extSecrets, Dict.get_set_self]
  by_cases empty : secrets = []
  · rw [if_pos empty, members, Dict.get_pop_self, empty]
    rfl
  · rw [if_neg empty, members, Dict.get_set_self, members, List.filterMap_map]
    exact List.filterMap_some

theorem extSecrets_saveExtSecrets_of_ne {extId other : String} (secrets : Dict String String)
    (apart : extId ≠ other) : (doc.saveExtSecrets other secrets).extSecrets extId =
      doc.extSecrets extId := by
  rw [saveExtSecrets, extSecrets, Dict.get_set_self, extSecrets]
  by_cases empty : secrets = []
  · rw [if_pos empty, members, Dict.get_pop_of_ne apart]
  · rw [if_neg empty, members, Dict.get_set_of_ne apart]

/-- Setting secrets of one extension leaves those of another. -/
theorem extSecrets_setExtensionSecrets_of_ne {extId other : String}
    (body : List (String × Option String)) (apart : extId ≠ other) :
    (doc.setExtensionSecrets other body).extSecrets extId = doc.extSecrets extId :=
  doc.extSecrets_saveExtSecrets_of_ne _ apart

theorem extSecrets_setExtensionSecrets_congr {doc doc' : Document} {extId : String}
    (body : List (String × Option String)) (same : doc.extSecrets extId = doc'.extSecrets extId) :
    (doc.setExtensionSecrets extId body).extSecrets extId =
      (doc'.setExtensionSecrets extId body).extSecrets extId := by
  rw [setExtensionSecrets, extSecrets_saveExtSecrets_self, setExtensionSecrets,
    extSecrets_saveExtSecrets_self, same]

end Document

/-! ## Who writes it -/

structure InstanceUpdate where
  name : Option String := none
  requireTotp : Option Bool := none
  openRegistration : Option Bool := none

/-- A write of the admin routes. It reads the file and writes it back with no await in between. -/
inductive SettingsWrite where
  | updateInstance (body : InstanceUpdate)
  | setBranding (block : Json)
  | applyFederation (at' : Json) (userId : String)
  | setExtensionSecrets (extId : String) (body : List (String × Option String))

namespace SettingsWrite

/-- Set the key, where a value is given. -/
def setSome (doc : Document) (key : String) (value : Option Json) : Document :=
  (value.map fun value => Dict.set doc key value).getD doc

def apply (doc : Document) : SettingsWrite → Document
  | .updateInstance body =>
    let doc := setSome doc "name" (body.name.map .str)
    let doc := setSome doc "require_totp" (body.requireTotp.map .bool)
    setSome doc "open_registration" (body.openRegistration.map .bool)
  | .setBranding block => doc.set "branding" block
  | .applyFederation at' userId =>
    (doc.set "federation_last_applied_at" at').set "federation_last_applied_by" (.str userId)
  | .setExtensionSecrets extId body => doc.setExtensionSecrets extId body

/-- The keys it may set. -/
def keys : SettingsWrite → List String
  | .updateInstance _ => ["name", "require_totp", "open_registration"]
  | .setBranding _ => ["branding"]
  | .applyFederation .. => ["federation_last_applied_at", "federation_last_applied_by"]
  | .setExtensionSecrets .. => ["extension_secrets"]

variable {doc : Document} {key key' : String}

theorem get_setSome_of_ne {value : Option Json} (other : key' ≠ key) :
    (setSome doc key value).get key' = doc.get key' := by
  cases value with
  | none => rfl
  | some value => exact Dict.get_set_of_ne other

/-- Every other key is left alone. -/
theorem get_apply_of_not_mem (w : SettingsWrite) (other : key ∉ w.keys) :
    (w.apply doc).get key = doc.get key := by
  cases w with
  | updateInstance body =>
    simp only [keys, List.mem_cons, List.not_mem_nil, or_false, not_or] at other
    obtain ⟨name, totp, registration⟩ := other
    rw [apply, get_setSome_of_ne registration, get_setSome_of_ne totp, get_setSome_of_ne name]
  | setBranding block => exact Dict.get_set_of_ne (List.ne_of_not_mem_cons other)
  | applyFederation at' userId =>
    simp only [keys, List.mem_cons, List.not_mem_nil, or_false, not_or] at other
    rw [apply, Dict.get_set_of_ne other.2, Dict.get_set_of_ne other.1]
  | setExtensionSecrets extId body => exact Dict.get_set_of_ne (List.ne_of_not_mem_cons other)

end SettingsWrite

end Concorrd.Api
