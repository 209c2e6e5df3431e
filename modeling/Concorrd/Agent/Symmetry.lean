import Concorrd.HeroSync.HandOff

/-!
# Verdicts of two devices

Two devices that queue the same conflict each put their own event first. `verdicts_agree_iff` says
when the rules lead both to the same event, which is then the later one or the only revoke: always,
except where two revokes with different stamps compete. The first event is picked then, whichever it
is.
-/

namespace Concorrd

/-! ## What the rules look at -/

/-- The kinds that are decided by the stamps alone. -/
def IsRename (conflictKind : String) : Prop :=
  conflictKind = "concurrent_rename" ∨ conflictKind = "concurrent_channel_rename"

/-- The kinds where a revoke beats a grant. -/
def IsRoleChange (conflictKind : String) : Prop :=
  conflictKind = "concurrent_role_change" ∨ conflictKind = "acl_change"

/-- The stamp of an event, when it has one. -/
def stampOf (event : Json) : Option Stamp :=
  ((event.get "lamport").bind Json.asI64).bind fun lamport =>
    ((event.get "device_id").bind Json.asStr).map fun device => toLex (lamport, device)

def isRevoke (event : Json) : Bool :=
  (((event.get "payload").bind (Json.get · "is_revoke")).bind Json.asBool).getD false

/-- The text is read as a payload with the two events. -/
def Queues (codec : JsonCodec) (payloadJson : String) (eventA eventB : Json) : Prop :=
  ∃ parsed, codec.fromStr payloadJson = .ok parsed ∧
    parsed.get "event_a" = some eventA ∧ parsed.get "event_b" = some eventB

/-- The side that the verdict picks. -/
def pickOf (codec : JsonCodec) (conflictKind payloadJson : String) : Option VerdictKind :=
  (deterministicVerdict codec conflictKind payloadJson).toOption.map Verdict.verdictKind

/-- A revoke among role changes. -/
def Revokes (conflictKind : String) (event : Json) : Prop :=
  IsRoleChange conflictKind ∧ isRevoke event = true

instance (conflictKind : String) : Decidable (IsRoleChange conflictKind) :=
  inferInstanceAs (Decidable (_ ∨ _))

instance (conflictKind : String) (event : Json) : Decidable (Revokes conflictKind event) :=
  inferInstanceAs (Decidable (_ ∧ _))

/-- The event is the only revoke of the two, or no other is and it is not older. -/
def Prevails (conflictKind : String) (event other : Json) : Prop :=
  (Revokes conflictKind event ∧ ¬Revokes conflictKind other) ∨
    ((Revokes conflictKind event ↔ Revokes conflictKind other) ∧
      ∀ stamp ∈ stampOf event, ∀ stamp' ∈ stampOf other, stamp' ≤ stamp)

/-- A text of the two events leads to a side when both have a stamp, and the event of that side is the
one that prevails. -/
structure Selects (codec : JsonCodec) (conflictKind text : String) (eventA eventB : Json) : Prop where
  decides : stampOf eventA ≠ none → stampOf eventB ≠ none →
    pickOf codec conflictKind text = some .pickA ∨ pickOf codec conflictKind text = some .pickB
  first : pickOf codec conflictKind text = some .pickA → Prevails conflictKind eventA eventB
  second : pickOf codec conflictKind text = some .pickB → Prevails conflictKind eventB eventA

/-- Two texts that hold the two events in both orders lead to the same event, and to the right one. -/
structure Agree (codec : JsonCodec) (conflictKind text swapped : String) (x y : Json) : Prop where
  same : stampOf x ≠ stampOf y →
    (pickOf codec conflictKind text = some .pickA ↔ pickOf codec conflictKind swapped = some .pickB)
  selects : Selects codec conflictKind text x y
  selectsSwapped : Selects codec conflictKind swapped y x

/-! ## Which side the rules pick -/

/-- The side of a role change, from whether the events are revokes and from their stamps. -/
def sideOf (revokeA revokeB : Bool) (stampA stampB : Stamp) : VerdictKind :=
  match revokeA, revokeB with
  | true, _ => .pickA
  | false, true => .pickB
  | false, false => if stampB ≤ stampA then .pickA else .pickB

variable {codec : JsonCodec} {kind text swapped : String} {x y : Json}

theorem not_isRename_of_isRoleChange (h : IsRoleChange kind) : ¬IsRename kind := by
  rcases h with rfl | rfl <;> simp [IsRename]

theorem pickOf_of_queues (queued : Queues codec text x y) (known : IsRename kind ∨ IsRoleChange kind) :
    pickOf codec kind text = (stampOf x).bind fun stampA => (stampOf y).map fun stampB =>
      sideOf (decide (Revokes kind x)) (decide (Revokes kind y)) stampA stampB := by
  obtain ⟨parsed, hparse, ha, hb⟩ := queued
  unfold pickOf deterministicVerdict stampOf
  simp only [hparse, ha, hb, Except.mapError, okOr, Option.elim_some, bind, Except.bind]
  cases (x.get "lamport").bind Json.asI64 with
  | none => rfl
  | some lamportA =>
    cases (y.get "lamport").bind Json.asI64 with
    | none => simp [Except.toOption]
    | some lamportB =>
      cases (x.get "device_id").bind Json.asStr with
      | none => rfl
      | some deviceA =>
        cases (y.get "device_id").bind Json.asStr with
        | none => rfl
        | some deviceB =>
          rcases known with rename | roleChange
          · have noRevoke (event : Json) : decide (Revokes kind event) = false :=
              decide_eq_false fun h => not_isRename_of_isRoleChange h.1 rename
            rw [noRevoke, noRevoke]
            rcases rename with rfl | rfl <;>
              by_cases later : (toLex (lamportB, deviceB) : Stamp) ≤ toLex (lamportA, deviceA) <;>
              simp [sideOf, later, Except.toOption]
          · have revoke (event : Json) : decide (Revokes kind event) = isRevoke event := by
              simp [Revokes, roleChange]
            rw [revoke, revoke]
            rcases roleChange with rfl | rfl <;>
              by_cases later : (toLex (lamportB, deviceB) : Stamp) ≤ toLex (lamportA, deviceA) <;>
              simp only [Option.elim_some, Option.map_some, Option.bind_some, Except.toOption] <;>
              change some _ = some _ <;> unfold sideOf isRevoke <;> split <;> simp_all

theorem sideOf_eq_pickA_iff {revokeA revokeB : Bool} {stampA stampB : Stamp} :
    sideOf revokeA revokeB stampA stampB = .pickA ↔
      revokeA = true ∨ revokeB = false ∧ stampB ≤ stampA := by
  cases revokeA <;> cases revokeB <;> simp [sideOf]

theorem sideOf_eq_pickB_iff {revokeA revokeB : Bool} {stampA stampB : Stamp} :
    sideOf revokeA revokeB stampA stampB = .pickB ↔
      revokeA = false ∧ (revokeB = true ∨ ¬stampB ≤ stampA) := by
  cases revokeA <;> cases revokeB <;> simp [sideOf]

/-- The first side is picked when its event is a revoke, or when the second is none and not newer. -/
theorem pickOf_eq_pickA_iff (queued : Queues codec text x y) (known : IsRename kind ∨ IsRoleChange kind) :
    pickOf codec kind text = some .pickA ↔ ∃ stamp ∈ stampOf x, ∃ stamp' ∈ stampOf y,
      Revokes kind x ∨ ¬Revokes kind y ∧ stamp' ≤ stamp := by
  rw [pickOf_of_queues queued known]
  simp [Option.bind_eq_some_iff, sideOf_eq_pickA_iff]

/-- The second side is picked when the first is no revoke, and the second is one or newer. -/
theorem pickOf_eq_pickB_iff (queued : Queues codec text x y) (known : IsRename kind ∨ IsRoleChange kind) :
    pickOf codec kind text = some .pickB ↔ ∃ stamp ∈ stampOf x, ∃ stamp' ∈ stampOf y,
      ¬Revokes kind x ∧ (Revokes kind y ∨ ¬stamp' ≤ stamp) := by
  rw [pickOf_of_queues queued known]
  simp [Option.bind_eq_some_iff, sideOf_eq_pickB_iff]

/-! ## When two devices agree -/

/-- Two revokes with different stamps. -/
def RivalRevokes (conflictKind : String) (x y : Json) : Prop :=
  (Revokes conflictKind x ∧ Revokes conflictKind y) ∧
    ∃ stamp ∈ stampOf x, ∃ stamp' ∈ stampOf y, stamp ≠ stamp'

theorem RivalRevokes.symm (rivals : RivalRevokes kind x y) : RivalRevokes kind y x := by
  obtain ⟨⟨hx, hy⟩, stamp, hstamp, stamp', hstamp', hne⟩ := rivals
  exact ⟨⟨hy, hx⟩, stamp', hstamp', stamp, hstamp, hne.symm⟩

/-- A text without rival revokes leads to an event that prevails. -/
theorem selects_of_not_rivalRevokes (queued : Queues codec text x y)
    (known : IsRename kind ∨ IsRoleChange kind) (peace : ¬RivalRevokes kind x y) :
    Selects codec kind text x y := by
  constructor
  · intro hx hy
    obtain ⟨stamp, hstamp⟩ := Option.ne_none_iff_exists'.mp hx
    obtain ⟨stamp', hstamp'⟩ := Option.ne_none_iff_exists'.mp hy
    rw [pickOf_eq_pickA_iff queued known, pickOf_eq_pickB_iff queued known]
    simp only [hstamp, hstamp', Option.mem_some_iff, exists_eq_left']
    tauto
  · intro picked
    obtain ⟨stamp, hstamp, stamp', hstamp', hrevoke | ⟨hnot, hle⟩⟩ :=
      (pickOf_eq_pickA_iff queued known).mp picked
    · by_cases hother : Revokes kind y
      · refine .inr ⟨iff_of_true hrevoke hother, fun s hs s' hs' => ?_⟩
        by_contra hlt
        exact peace ⟨⟨hrevoke, hother⟩, s, hs, s', hs', fun h => hlt h.symm.le⟩
      · exact .inl ⟨hrevoke, hother⟩
    · by_cases hevent : Revokes kind x
      · exact .inl ⟨hevent, hnot⟩
      · refine .inr ⟨iff_of_false hevent hnot, fun s hs s' hs' => ?_⟩
        rwa [Option.mem_unique hs hstamp, Option.mem_unique hs' hstamp']
  · intro picked
    obtain ⟨stamp, hstamp, stamp', hstamp', hnot, hrevoke | hlt⟩ :=
      (pickOf_eq_pickB_iff queued known).mp picked
    · exact .inl ⟨hrevoke, hnot⟩
    · by_cases hevent : Revokes kind y
      · exact .inl ⟨hevent, hnot⟩
      · refine .inr ⟨iff_of_false hevent hnot, fun s hs s' hs' => ?_⟩
        rw [Option.mem_unique hs hstamp', Option.mem_unique hs' hstamp]
        exact (not_le.mp hlt).le

/-- Two devices that queue the same two events under a kind the rules know reach the same event, and the
right one, exactly when the events are not two revokes with different stamps. -/
theorem verdicts_agree_iff (queued : Queues codec text x y) (queuedSwapped : Queues codec swapped y x)
    (known : IsRename kind ∨ IsRoleChange kind) :
    Agree codec kind text swapped x y ↔ ¬RivalRevokes kind x y := by
  constructor
  · rintro agree ⟨⟨hx, hy⟩, stamp, hstamp, stamp', hstamp', hne⟩
    have picked : pickOf codec kind text = some .pickA :=
      (pickOf_eq_pickA_iff queued known).mpr ⟨stamp, hstamp, stamp', hstamp', .inl hx⟩
    have distinct : stampOf x ≠ stampOf y := by
      rw [hstamp, hstamp']
      simpa using hne
    obtain ⟨_, _, _, _, hnot, _⟩ :=
      (pickOf_eq_pickB_iff queuedSwapped known).mp ((agree.same distinct).mp picked)
    exact hnot hy
  · intro peace
    refine ⟨fun distinct => ?_, selects_of_not_rivalRevokes queued known peace,
      selects_of_not_rivalRevokes queuedSwapped known fun rivals => peace rivals.symm⟩
    rw [pickOf_eq_pickA_iff queued known, pickOf_eq_pickB_iff queuedSwapped known]
    have sides : ∀ stamp ∈ stampOf x, ∀ stamp' ∈ stampOf y,
        (Revokes kind x ∨ ¬Revokes kind y ∧ stamp' ≤ stamp ↔
          ¬Revokes kind y ∧ (Revokes kind x ∨ ¬stamp ≤ stamp')) := by
      intro stamp hstamp stamp' hstamp'
      have hne : stamp ≠ stamp' := by
        rintro rfl
        exact distinct (hstamp.trans hstamp'.symm)
      have single : ¬(Revokes kind x ∧ Revokes kind y) := fun both =>
        peace ⟨both, stamp, hstamp, stamp', hstamp', hne⟩
      have order : stamp' ≤ stamp ↔ ¬stamp ≤ stamp' :=
        ⟨fun hle hge => hne (le_antisymm hge hle), fun h => (not_le.mp h).le⟩
      tauto
    constructor
    · rintro ⟨stamp, hstamp, stamp', hstamp', hpick⟩
      exact ⟨stamp', hstamp', stamp, hstamp, (sides stamp hstamp stamp' hstamp').mp hpick⟩
    · rintro ⟨stamp', hstamp', stamp, hstamp, hpick⟩
      exact ⟨stamp, hstamp, stamp', hstamp', (sides stamp hstamp stamp' hstamp').mpr hpick⟩

/-! ### Two revokes -/

/-- The event of a device that revokes an access. -/
def revokeOf (lamport : Int) (device : String) : Json :=
  .obj [("lamport", .num lamport), ("device_id", .str device),
    ("payload", .obj [("is_revoke", .bool true)])]

/-- The event of a device that grants an access. -/
def grantOf (lamport : Int) (device : String) : Json :=
  .obj [("lamport", .num lamport), ("device_id", .str device),
    ("payload", .obj [("is_revoke", .bool false)])]

def conflictOf (eventA eventB : Json) : Json := .obj [("event_a", eventA), ("event_b", eventB)]

/-- A parser for a conflict in both orders. -/
def swapCodec (x y : Json) : JsonCodec where
  toString := renderJson
  fromStr text :=
    if text = renderJson (conflictOf x y) then .ok (conflictOf x y)
    else if text = renderJson (conflictOf y x) then .ok (conflictOf y x)
    else .error "expected value"

theorem verdicts_agree_of_revoke_and_grant :
    Agree (swapCodec (revokeOf 1 "a") (grantOf 2 "b")) "acl_change"
      (renderJson (conflictOf (revokeOf 1 "a") (grantOf 2 "b")))
      (renderJson (conflictOf (grantOf 2 "b") (revokeOf 1 "a")))
      (revokeOf 1 "a") (grantOf 2 "b") :=
  (verdicts_agree_iff ⟨conflictOf (revokeOf 1 "a") (grantOf 2 "b"), by decide, rfl, rfl⟩
    ⟨conflictOf (grantOf 2 "b") (revokeOf 1 "a"), by decide, rfl, rfl⟩
    (.inr (.inr rfl))).mpr fun rivals => absurd rivals.1.2.2 (by decide)

/-- Of two revokes each device keeps its own, and the first keeps the older one. -/
theorem not_verdicts_agree_of_two_revokes :
    Queues (swapCodec (revokeOf 1 "a") (revokeOf 2 "b"))
        (renderJson (conflictOf (revokeOf 1 "a") (revokeOf 2 "b"))) (revokeOf 1 "a") (revokeOf 2 "b") ∧
      Queues (swapCodec (revokeOf 1 "a") (revokeOf 2 "b"))
        (renderJson (conflictOf (revokeOf 2 "b") (revokeOf 1 "a"))) (revokeOf 2 "b") (revokeOf 1 "a") ∧
      ¬Agree (swapCodec (revokeOf 1 "a") (revokeOf 2 "b")) "acl_change"
        (renderJson (conflictOf (revokeOf 1 "a") (revokeOf 2 "b")))
        (renderJson (conflictOf (revokeOf 2 "b") (revokeOf 1 "a")))
        (revokeOf 1 "a") (revokeOf 2 "b") := by
  refine ⟨⟨conflictOf (revokeOf 1 "a") (revokeOf 2 "b"), by decide, rfl, rfl⟩,
    ⟨conflictOf (revokeOf 2 "b") (revokeOf 1 "a"), by decide, rfl, rfl⟩, fun agree => ?_⟩
  have first : pickOf (swapCodec (revokeOf 1 "a") (revokeOf 2 "b")) "acl_change"
      (renderJson (conflictOf (revokeOf 1 "a") (revokeOf 2 "b"))) = some .pickA := by decide
  have second : pickOf (swapCodec (revokeOf 1 "a") (revokeOf 2 "b")) "acl_change"
      (renderJson (conflictOf (revokeOf 2 "b") (revokeOf 1 "a"))) ≠ some .pickB := by decide
  exact second ((agree.same (by decide)).mp first)

end Concorrd
