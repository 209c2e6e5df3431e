import Mathlib.Logic.Function.Basic
import Concorrd.Lib.Dict
import Concorrd.Lib.Run
import Concorrd.Api.Models

/-!
# The second factor

A user has a secret drawn, turns the second factor on with a code for it, and off with another one. A
request loads the row of its user, and what it commits is written over what the row has become
meanwhile, in the columns it changed only.

In every run the second factor of a user is turned on and off by requests of that user with codes that
match (`authorized_run`). That the secret of a second factor that is on has had a code accepted is so
where commits are prompt (`proven_iff_prompt`), and so where no two requests of a user overlap
(`proven_of_alone`).
-/

namespace Concorrd.Api

open Machine

/-- A row of the table. There is one for each user. -/
structure UserTotp where
  secret : String
  enabled : Bool := false
  deriving DecidableEq, Repr

/-- A code that a body passed validation with. -/
structure TotpCode where
  text : String
  six : text.length = 6
  deriving DecidableEq

/-- A request, with the user that is signed in. -/
inductive TotpRequest where
  | status (userId : String)
  | setup (userId : String)
  | verify (userId : String) (code : TotpCode)
  | disable (userId : String) (code : TotpCode)
  | loginVerify (userId : String) (code : TotpCode)
  | usersWithTotp (userId : String)
  deriving DecidableEq

def TotpRequest.userId : TotpRequest → String
  | .status userId | .setup userId | .verify userId _ | .disable userId _ | .loginVerify userId _
  | .usersWithTotp userId => userId

/-- What checks codes and draws pictures, and the name of the instance. -/
structure TotpTools where
  verify : (secret code : String) → (now : Nat) → Bool
  provisioningUri : (secret name issuer : String) → String
  qrDataUri : String → String
  instanceName : String

abbrev TotpAnswer := Except HttpError (List (String × Json))

/-- How far a request has come: the row that was loaded, and when its code was checked. -/
inductive TotpPhase where
  | arrived (request : TotpRequest)
  | enrolling (userId : String) (existing : Option UserTotp) (secret : String)
  | enabling (userId : String) (code : TotpCode) (record : UserTotp) (checked : Nat)
  | disabling (userId : String) (code : TotpCode) (record : UserTotp) (checked : Nat)
  | ended (answer : TotpAnswer)

/-- A request goes on, with the time and the secret that is drawn. -/
structure TotpTurn where
  request : Nat
  now : Nat := 0
  drawn : String := ""

/-- What was committed: a secret that was handed out, or a change, with the code and the secret it was
checked against. -/
inductive TotpRecord where
  | enrolled (userId secret : String)
  | enabled (userId : String) (code : TotpCode) (secret : String) (checked : Nat)
  | disabled (userId : String) (code : TotpCode) (secret : String) (checked : Nat)

structure TotpTable where
  rows : Dict String UserTotp := []
  phase : Nat → TotpPhase
  log : List TotpRecord := []

namespace TotpTable

def opened (requests : Nat → TotpRequest) : TotpTable where
  phase n := .arrived (requests n)

variable (tools : TotpTools) (s : TotpTable)

/-- The row that the queries for enabled rows find. -/
def enabledRow (userId : String) : Option UserTotp := (s.rows.get userId).filter UserTotp.enabled

def totpStatus (userId : String) : TotpAnswer :=
  .ok [("enabled", .bool (s.enabledRow userId).isSome)]

def totpLoginVerify (userId : String) (code : TotpCode) (now : Nat) : TotpAnswer :=
  match s.enabledRow userId with
  | none => .ok (status "not_required")
  | some record =>
    if tools.verify record.secret code.text now then .ok (status "verified")
    else .error ⟨400, "Invalid code", none⟩

def usersWithTotp : TotpAnswer :=
  .ok [("user_ids", .arr ((s.rows.filter fun e => e.2.enabled).map fun e => .str e.1))]

/-- A request up to its commit. -/
def arrive (t : TotpTurn) : TotpRequest → TotpPhase
  | .status userId => .ended (s.totpStatus userId)
  | .setup userId =>
    match s.rows.get userId with
    | some existing =>
      if existing.enabled then
        .ended (.error ⟨400, "TOTP is already enabled. Disable it first to re-setup.", none⟩)
      else .enrolling userId (some existing) t.drawn
    | none => .enrolling userId none t.drawn
  | .verify userId code =>
    match s.rows.get userId with
    | none => .ended (.error ⟨400, "No TOTP setup in progress. Call /setup first.", none⟩)
    | some record =>
      if tools.verify record.secret code.text t.now then .enabling userId code record t.now
      else .ended (.error ⟨400, "Invalid code. Please try again.", none⟩)
  | .disable userId code =>
    match s.enabledRow userId with
    | none => .ended (.error ⟨400, "TOTP is not enabled", none⟩)
    | some record =>
      if tools.verify record.secret code.text t.now then .disabling userId code record t.now
      else .ended (.error ⟨400, "Invalid code", none⟩)
  | .loginVerify userId code => .ended (s.totpLoginVerify tools userId code t.now)
  | .usersWithTotp _ => .ended s.usersWithTotp

def moved (n : Nat) (phase : TotpPhase) : TotpTable :=
  { s with phase := Function.update s.phase n phase }

/-- Change the row of a user, and note what was done. -/
def updated (userId : String) (f : UserTotp → UserTotp) (r : TotpRecord) : TotpTable :=
  match s.rows.get userId with
  | some row => { s with rows := s.rows.set userId (f row), log := s.log ++ [r] }
  | none => s

/-- What the set-up is answered with. -/
def setupBody (userId secret : String) : List (String × Json) :=
  let username := String.ofList
    ((userId.toList.takeWhile (· ≠ ':')).dropWhile (· = '@'))
  let provisioningUri := tools.provisioningUri secret username tools.instanceName
  [("secret", .str secret), ("qr_code", .str (tools.qrDataUri provisioningUri)),
    ("provisioning_uri", .str provisioningUri)]

/-- A request goes on to its next await. A commit writes the columns that differ from what was loaded. -/
def step (t : TotpTurn) : TotpTable :=
  match s.phase t.request with
  | .arrived request => s.moved t.request (s.arrive tools t request)
  | .enrolling userId (some existing) secret =>
    (s.updated userId (fun row =>
      { row with secret := if secret = existing.secret then row.secret else secret })
      (.enrolled userId secret)).moved t.request (.ended (.ok (setupBody tools userId secret)))
  | .enrolling userId none secret =>
    match s.rows.get userId with
    | some _ =>
      -- the insert fails when the row is there by now
      s.moved t.request (.ended (.error .internal))
    | none =>
      let inserted : TotpTable := { s with
        rows := s.rows.set userId { secret }
        log := s.log ++ [.enrolled userId secret] }
      inserted.moved t.request (.ended (.ok (setupBody tools userId secret)))
  | .enabling userId code record checked =>
    (if record.enabled then s
      else s.updated userId (fun row => { row with enabled := true })
        (.enabled userId code record.secret checked)).moved
      t.request (.ended (.ok (status "enabled")))
  | .disabling userId code record checked =>
    (s.updated userId (fun row => { row with enabled := false })
      (.disabled userId code record.secret checked)).moved
      t.request (.ended (.ok (status "disabled")))
  | .ended _ => s

end TotpTable

/-! ## What is asked of runs -/

/-- Whether the second factor of a user is on after the record, where it was so before. -/
def TotpRecord.toggled (userId : String) (on : Bool) : TotpRecord → Bool
  | .enrolled _ _ => on
  | .enabled user _ _ _ => if user = userId then true else on
  | .disabled user _ _ _ => if user = userId then false else on

/-- A user asked for it; a code that matched a secret of the user was shown for a change; and it is
turned off after it has been turned on. -/
def TotpRecord.Authorized (verify : String → String → Nat → Bool) (requests : Nat → TotpRequest)
    (before : List TotpRecord) : TotpRecord → Prop
  | .enrolled userId _ => ∃ n, requests n = .setup userId
  | .enabled userId code secret checked =>
    (∃ n, requests n = .verify userId code) ∧ verify secret code.text checked = true ∧
      .enrolled userId secret ∈ before
  | .disabled userId code secret checked =>
    (∃ n, requests n = .disable userId code) ∧ verify secret code.text checked = true ∧
      .enrolled userId secret ∈ before ∧
        ∃ code' secret' checked', .enabled userId code' secret' checked' ∈ before

/-- The request is between its load and its commit, and has loaded the row. -/
def TotpPhase.loaded : TotpPhase → Option (String × Option UserTotp)
  | .enrolling userId existing _ => some (userId, existing)
  | .enabling userId _ record _ | .disabling userId _ record _ => some (userId, some record)
  | .arrived _ | .ended _ => none

namespace TotpTable

/-- A code has been accepted for the secret, and turned the second factor of the user on. -/
def Proven (log : List TotpRecord) (userId secret : String) : Prop :=
  ∃ code checked, .enabled userId code secret checked ∈ log

/-- The secret of a second factor that is on is proven. -/
def AllProven (s : TotpTable) : Prop :=
  ∀ userId row, s.rows.get userId = some row → row.enabled = true → Proven s.log userId row.secret

/-- A secret is not replaced while the second factor is on, and the second factor is not turned on when
the secret is another one than was loaded, but for a secret that is proven. -/
def Prompt (s : TotpTable) (t : TotpTurn) : Prop :=
  match s.phase t.request with
  | .enrolling userId (some existing) secret => secret ≠ existing.secret →
    ∀ row, s.rows.get userId = some row → row.enabled = true → Proven s.log userId secret
  | .enabling userId _ record _ => record.enabled = false →
    ∀ row, s.rows.get userId = some row →
      row.secret = record.secret ∨ Proven s.log userId row.secret
  | _ => True

/-- A request starts while no other one of its user is between its load and its commit. -/
def Alone (s : TotpTable) (t : TotpTurn) : Prop :=
  ∀ request, s.phase t.request = .arrived request →
    ∀ n row, (s.phase n).loaded ≠ some (request.userId, row)

/-! ## What a run keeps -/

section

variable {s : TotpTable} {n m : Nat} {phase : TotpPhase} {userId : String} {row : UserTotp}
  {f : UserTotp → UserTotp} {r : TotpRecord}

theorem moved_self : (s.moved n phase).phase n = phase := Function.update_self ..

theorem moved_of_ne (other : m ≠ n) : (s.moved n phase).phase m = s.phase m :=
  Function.update_of_ne other ..

theorem updated_of_some (there : s.rows.get userId = some row) :
    s.updated userId f r = { s with rows := s.rows.set userId (f row), log := s.log ++ [r] } := by
  rw [updated, there]

theorem updated_of_none (absent : s.rows.get userId = none) : s.updated userId f r = s := by
  rw [updated, absent]

@[simp] theorem phase_updated : (s.updated userId f r).phase = s.phase := by
  rw [updated]
  split <;> rfl

theorem isSome_enabledRow (there : s.rows.get userId = some row) :
    (s.enabledRow userId).isSome = row.enabled := by
  rw [enabledRow, there]
  cases on : row.enabled <;> simp [Option.filter, on]

theorem enabledRow_eq_some {record : UserTotp} (h : s.enabledRow userId = some record) :
    s.rows.get userId = some record ∧ record.enabled = true := by
  rw [enabledRow, Option.filter_eq_some_iff] at h
  exact h

end

/-- What a request has come with and loaded is so. -/
def Backed (verify : String → String → Nat → Bool) (request : TotpRequest) (log : List TotpRecord) :
    TotpPhase → Prop
  | .arrived arrived => request = arrived
  | .enrolling userId existing _ =>
    request = .setup userId ∧ ∀ row, existing = some row → row.enabled = false
  | .enabling userId code record checked =>
    request = .verify userId code ∧ verify record.secret code.text checked = true ∧
      .enrolled userId record.secret ∈ log
  | .disabling userId code record checked =>
    request = .disable userId code ∧ verify record.secret code.text checked = true ∧
      .enrolled userId record.secret ∈ log ∧
        ∃ code' secret' checked', .enabled userId code' secret' checked' ∈ log
  | .ended _ => True

structure Sound (verify : String → String → Nat → Bool) (requests : Nat → TotpRequest)
    (s : TotpTable) : Prop where
  backed : ∀ n, Backed verify (requests n) s.log (s.phase n)
  enrolled : ∀ userId row, s.rows.get userId = some row → .enrolled userId row.secret ∈ s.log
  toggled : ∀ userId, (s.enabledRow userId).isSome = s.log.foldl (TotpRecord.toggled userId) false
  authorized : ∀ before r after, s.log = before ++ r :: after → r.Authorized verify requests before

section

variable {verify : String → String → Nat → Bool} {requests : Nat → TotpRequest} {s : TotpTable}
  {n : Nat} {phase : TotpPhase} {userId : String} {row : UserTotp} {r : TotpRecord}

theorem backed_append {request : TotpRequest} {log : List TotpRecord}
    (h : Backed verify request log phase) : Backed verify request (log ++ [r]) phase := by
  cases phase with
  | arrived arrived => exact h
  | enrolling userId existing secret => exact h
  | enabling userId code record checked => exact ⟨h.1, h.2.1, List.mem_append_left _ h.2.2⟩
  | disabling userId code record checked =>
    obtain ⟨own, accepted, enrolled, code', secret', checked', was⟩ := h
    exact ⟨own, accepted, List.mem_append_left _ enrolled, code', secret', checked',
      List.mem_append_left _ was⟩
  | ended answer => trivial

/-- Where the second factor is on, the log says that it was turned on. -/
theorem exists_enabled_of_toggled {log : List TotpRecord}
    (on : log.foldl (TotpRecord.toggled userId) false = true) :
    ∃ code secret checked, .enabled userId code secret checked ∈ log := by
  induction log using List.reverseRecOn with
  | nil => cases on
  | append_singleton log r ih =>
    rw [List.foldl_append, List.foldl_cons, List.foldl_nil] at on
    have before : log.foldl (TotpRecord.toggled userId) false = true →
        ∃ code secret checked, .enabled userId code secret checked ∈ log ++ [r] := by
      intro on
      obtain ⟨code, secret, checked, mem⟩ := ih on
      exact ⟨code, secret, checked, List.mem_append_left _ mem⟩
    cases r with
    | enrolled user secret => exact before on
    | enabled user code secret checked =>
      rw [TotpRecord.toggled] at on
      split at on
      · rename_i here
        subst here
        exact ⟨code, secret, checked, List.mem_append_right _ List.mem_cons_self⟩
      · exact before on
    | disabled user code secret checked =>
      rw [TotpRecord.toggled] at on
      split at on
      · cases on
      · exact before on

theorem sound_moved (h : s.Sound verify requests) (backed : Backed verify (requests n) s.log phase) :
    (s.moved n phase).Sound verify requests where
  backed m := by
    by_cases same : m = n
    · rw [same, moved_self]
      exact backed
    · rw [moved_of_ne same]
      exact h.backed m
  enrolled := h.enrolled
  toggled := h.toggled
  authorized := h.authorized

theorem sound_ended {answer : TotpAnswer} (h : s.Sound verify requests) :
    (s.moved n (.ended answer)).Sound verify requests := sound_moved h trivial

/-- A commit is sound where it is authorized and its record says what becomes of the row. -/
theorem sound_commit (h : s.Sound verify requests)
    (enrolled : .enrolled userId row.secret ∈ s.log ++ [r])
    (toggled : row.enabled = r.toggled userId (s.enabledRow userId).isSome)
    (others : ∀ other, other ≠ userId → ∀ on, r.toggled other on = on)
    (authorized : r.Authorized verify requests s.log) :
    Sound verify requests { s with rows := s.rows.set userId row, log := s.log ++ [r] } where
  backed m := backed_append (h.backed m)
  enrolled other row' mem := by
    by_cases same : other = userId
    · subst same
      rw [Dict.get_set_self] at mem
      cases mem
      exact enrolled
    · rw [Dict.get_set_of_ne same] at mem
      exact List.mem_append_left _ (h.enrolled other row' mem)
  toggled other := by
    rw [List.foldl_append, List.foldl_cons, List.foldl_nil, ← h.toggled]
    by_cases same : other = userId
    · subst same
      rw [← toggled, isSome_enabledRow Dict.get_set_self]
    · rw [enabledRow, Dict.get_set_of_ne same, others other same]
      rfl
  authorized := forall_split_concat h.authorized authorized

theorem sound_updated {f : UserTotp → UserTotp} (h : s.Sound verify requests)
    (enrolled : ∀ row, s.rows.get userId = some row → .enrolled userId (f row).secret ∈ s.log ++ [r])
    (toggled : ∀ row, (f row).enabled = r.toggled userId row.enabled)
    (others : ∀ other, other ≠ userId → ∀ on, r.toggled other on = on)
    (authorized : r.Authorized verify requests s.log) :
    (s.updated userId f r).Sound verify requests := by
  cases there : s.rows.get userId with
  | none =>
    rw [updated_of_none there]
    exact h
  | some row =>
    rw [updated_of_some there]
    refine sound_commit h (enrolled row there) ?_ others authorized
    rw [isSome_enabledRow there]
    exact toggled row

theorem sound_opened : (opened requests).Sound verify requests where
  backed n := rfl
  enrolled userId row mem := by cases mem
  toggled userId := rfl
  authorized before r after whole := by
    cases before with
    | nil => cases whole
    | cons b before => cases whole

variable {tools : TotpTools}

theorem backed_arrive (h : s.Sound tools.verify requests) (t : TotpTurn) (request : TotpRequest) :
    Backed tools.verify request s.log (s.arrive tools t request) := by
  cases request with
  | status userId => trivial
  | loginVerify userId code => trivial
  | usersWithTotp userId => trivial
  | setup userId =>
    rw [arrive]
    cases there : s.rows.get userId with
    | none => exact ⟨rfl, fun row none => by cases none⟩
    | some existing =>
      by_cases on : existing.enabled = true
      · simp only [on, if_true]
        trivial
      · simp only [on]
        refine ⟨rfl, fun row same => ?_⟩
        cases same
        exact Bool.eq_false_of_not_eq_true on
  | verify userId code =>
    rw [arrive]
    cases there : s.rows.get userId with
    | none => trivial
    | some record =>
      dsimp only
      split
      · rename_i accepted
        exact ⟨rfl, accepted, h.enrolled userId record there⟩
      · trivial
  | disable userId code =>
    rw [arrive]
    cases there : s.enabledRow userId with
    | none => trivial
    | some record =>
      dsimp only
      split
      · rename_i accepted
        obtain ⟨row, -⟩ := enabledRow_eq_some there
        have on := h.toggled userId
        rw [there] at on
        exact ⟨rfl, accepted, h.enrolled userId record row, exists_enabled_of_toggled on.symm⟩
      · trivial

theorem sound_step (h : s.Sound tools.verify requests) (t : TotpTurn) :
    (s.step tools t).Sound tools.verify requests := by
  have backed := h.backed t.request
  rw [step]
  cases at_ : s.phase t.request with
  | ended answer => exact h
  | arrived request =>
    rw [at_] at backed
    have own : requests t.request = request := backed
    exact sound_moved h (own ▸ backed_arrive h t request)
  | enrolling userId existing secret =>
    rw [at_] at backed
    have asked : ∃ n, requests n = .setup userId := ⟨t.request, backed.1⟩
    have drawn : .enrolled userId secret ∈ s.log ++ [.enrolled userId secret] :=
      List.mem_append_right _ List.mem_cons_self
    cases existing with
    | some existing =>
      refine sound_ended (sound_updated h (fun row there => ?_) (fun row => rfl) (fun _ _ _ => rfl)
        asked)
      dsimp only
      split
      · exact List.mem_append_left _ (h.enrolled userId row there)
      · exact drawn
    | none =>
      cases there : s.rows.get userId with
      | some row =>
        simp only [there]
        exact sound_ended h
      | none =>
        have off : (s.enabledRow userId).isSome = false := by
          rw [enabledRow, there]
          rfl
        have committed : Sound tools.verify requests { s with
            rows := s.rows.set userId { secret }
            log := s.log ++ [.enrolled userId secret] } :=
          sound_commit h drawn off.symm (fun _ _ _ => rfl) asked
        simp only [there]
        exact sound_ended committed
  | enabling userId code record checked =>
    rw [at_] at backed
    obtain ⟨own, accepted, enrolled⟩ := backed
    refine sound_ended ?_
    split
    · exact h
    · refine sound_updated h (fun row there => List.mem_append_left _ (h.enrolled userId row there))
        (fun row => (if_pos rfl).symm) (fun other ne on => if_neg ne.symm)
        ⟨⟨t.request, own⟩, accepted, enrolled⟩
  | disabling userId code record checked =>
    rw [at_] at backed
    obtain ⟨own, accepted, enrolled, was⟩ := backed
    exact sound_ended (sound_updated h
      (fun row there => List.mem_append_left _ (h.enrolled userId row there))
      (fun row => (if_pos rfl).symm) (fun other ne on => if_neg ne.symm)
      ⟨⟨t.request, own⟩, accepted, enrolled, was⟩)

theorem sound_run (tools : TotpTools) (requests : Nat → TotpRequest) (ts : List TotpTurn) :
    (run (step tools) (opened requests) ts).Sound tools.verify requests :=
  invariant (fun s : TotpTable => s.Sound tools.verify requests) (fun _ t _ h => sound_step h t)
    (Along.of_forall (P := fun _ _ => True) fun _ _ => trivial) sound_opened

end

/-- **Authorized changes.** In every run, however the requests overlap, the second factor of a user is on
exactly when the last change turned it on, and every change is one that the user asked for with a code
that matched a secret handed out to the user before. -/
theorem authorized_run (tools : TotpTools) (requests : Nat → TotpRequest) (ts : List TotpTurn) :
    let s := run (step tools) (opened requests) ts
    (∀ userId, (s.enabledRow userId).isSome = s.log.foldl (TotpRecord.toggled userId) false) ∧
      ∀ before r after, s.log = before ++ r :: after →
        r.Authorized tools.verify requests before :=
  ⟨(sound_run tools requests ts).toggled, (sound_run tools requests ts).authorized⟩

section

variable {s : TotpTable} {userId secret : String} {f : UserTotp → UserTotp} {r : TotpRecord}
  {log : List TotpRecord}

theorem Proven.append (h : Proven log userId secret) : Proven (log ++ [r]) userId secret := by
  obtain ⟨code, checked, mem⟩ := h
  exact ⟨code, checked, List.mem_append_left _ mem⟩

theorem proven_enrolled {user drawn : String} :
    Proven (log ++ [.enrolled user drawn]) userId secret ↔ Proven log userId secret := by
  simp [Proven]

theorem proven_enabled {user shown : String} {code : TotpCode} {checked : Nat} :
    Proven (log ++ [.enabled user code shown checked]) userId secret ↔
      userId = user ∧ secret = shown ∨ Proven log userId secret := by
  constructor
  · rintro ⟨code', checked', mem⟩
    rcases List.mem_append.mp mem with mem | mem
    · exact .inr ⟨code', checked', mem⟩
    · cases List.mem_singleton.mp mem
      exact .inl ⟨rfl, rfl⟩
  · rintro (⟨rfl, rfl⟩ | before)
    · exact ⟨code, checked, List.mem_append_right _ List.mem_cons_self⟩
    · exact before.append

/-- All stay proven where the row that is written is. -/
theorem allProven_set_iff {row : UserTotp} (h : s.AllProven) :
    AllProven { s with rows := s.rows.set userId row, log := s.log ++ [r] } ↔
      (row.enabled = true → Proven (s.log ++ [r]) userId row.secret) := by
  constructor
  · intro proven on
    exact proven userId row Dict.get_set_self on
  · intro proven other row' there on
    by_cases same : other = userId
    · subst same
      cases Dict.get_set_self.symm.trans there
      exact proven on
    · have before : s.rows.get other = some row' := (Dict.get_set_of_ne same).symm.trans there
      exact (h other row' before on).append

theorem allProven_updated_iff (h : s.AllProven) : (s.updated userId f r).AllProven ↔
    ∀ row, s.rows.get userId = some row → (f row).enabled = true →
      Proven (s.log ++ [r]) userId (f row).secret := by
  cases there : s.rows.get userId with
  | none =>
    rw [updated_of_none there]
    exact iff_of_true h fun row none => by cases none
  | some row =>
    rw [updated_of_some there, allProven_set_iff h]
    exact ⟨fun proven row' same => by cases same; exact proven, fun proven => proven row rfl⟩

/-- A commit keeps the secrets proven exactly when it is prompt. -/
theorem allProven_step_iff (tools : TotpTools) (h : s.AllProven) (t : TotpTurn) :
    (s.step tools t).AllProven ↔ s.Prompt t := by
  rw [step, Prompt]
  cases s.phase t.request with
  | ended answer => exact iff_of_true h trivial
  | arrived request => exact iff_of_true h trivial
  | enrolling userId existing secret =>
    cases existing with
    | some existing =>
      refine (allProven_updated_iff h).trans ?_
      constructor
      · intro proven differs row there on
        have now := proven row there on
        rw [if_neg differs, proven_enrolled] at now
        exact now
      · intro prompt row there on
        rw [proven_enrolled]
        split
        · exact h userId row there on
        · rename_i differs
          exact prompt differs row there on
    | none =>
      cases there : s.rows.get userId with
      | some row =>
        simp only [there]
        exact iff_of_true h trivial
      | none =>
        simp only [there]
        exact iff_of_true ((allProven_set_iff h).mpr fun off => by cases off) trivial
  | enabling userId code record checked =>
    dsimp only
    by_cases on : record.enabled = true
    · rw [if_pos on]
      exact iff_of_true h fun off => by rw [on] at off; cases off
    · rw [if_neg on]
      refine (allProven_updated_iff h).trans ?_
      have off : record.enabled = false := Bool.eq_false_of_not_eq_true on
      constructor
      · intro proven _ row there
        rcases proven_enabled.mp (proven row there rfl) with ⟨-, same⟩ | before
        · exact .inl same
        · exact .inr before
      · intro prompt row there _
        refine proven_enabled.mpr ((prompt off row there).imp_left fun same => ⟨rfl, same⟩)
  | disabling userId code record checked =>
    refine iff_of_true ((allProven_updated_iff h).mpr ?_) trivial
    intro row _ off
    cases off

theorem allProven_opened (requests : Nat → TotpRequest) : (opened requests).AllProven := by
  intro userId row none
  cases none

end

/-- A request that is under way has loaded the row as it is, and is the only one of its user. -/
def Fresh (s : TotpTable) : Prop :=
  ∀ n userId row, (s.phase n).loaded = some (userId, row) →
    s.rows.get userId = row ∧ ∀ m row', (s.phase m).loaded = some (userId, row') → m = n

section

variable {s : TotpTable} {userId : String}

theorem loaded_arrive {tools : TotpTools} {t : TotpTurn} {request : TotpRequest}
    {row : Option UserTotp} (h : (s.arrive tools t request).loaded = some (userId, row)) :
    userId = request.userId ∧ s.rows.get userId = row := by
  cases request with
  | status user => cases h
  | loginVerify user code => cases h
  | usersWithTotp user => cases h
  | setup user =>
    rw [arrive] at h
    cases there : s.rows.get user with
    | none =>
      rw [there] at h
      cases h
      exact ⟨rfl, there⟩
    | some existing =>
      rw [there] at h
      dsimp only at h
      split at h
      · cases h
      · cases h
        exact ⟨rfl, there⟩
  | verify user code =>
    rw [arrive] at h
    cases there : s.rows.get user with
    | none =>
      rw [there] at h
      cases h
    | some record =>
      rw [there] at h
      dsimp only at h
      split at h
      · cases h
        exact ⟨rfl, there⟩
      · cases h
  | disable user code =>
    rw [arrive] at h
    cases there : s.enabledRow user with
    | none =>
      rw [there] at h
      cases h
    | some record =>
      rw [there] at h
      dsimp only at h
      split at h
      · cases h
        exact ⟨rfl, (enabledRow_eq_some there).1⟩
      · cases h

/-- A commit touches no row that another request has loaded. -/
theorem fresh_commit {s' : TotpTable} {n : Nat} {loaded : Option UserTotp} {answer : TotpAnswer}
    (h : s.Fresh) (here : (s.phase n).loaded = some (userId, loaded))
    (others : ∀ other, other ≠ userId → s'.rows.get other = s.rows.get other)
    (phases : s'.phase = s.phase) : (s'.moved n (.ended answer)).Fresh := by
  intro m user row there
  by_cases same : m = n
  · rw [same, moved_self] at there
    cases there
  · rw [moved_of_ne same, phases] at there
    have apart : user ≠ userId := by
      rintro rfl
      exact same ((h n user loaded here).2 m row there)
    refine ⟨(others user apart).trans (h m user row there).1, fun k row' at_ => ?_⟩
    by_cases ended : k = n
    · rw [ended, moved_self] at at_
      cases at_
    · rw [moved_of_ne ended, phases] at at_
      exact (h m user row there).2 k row' at_

theorem get_updated_of_ne {f : UserTotp → UserTotp} {r : TotpRecord} {other : String}
    (apart : other ≠ userId) : (s.updated userId f r).rows.get other = s.rows.get other := by
  rw [updated]
  split
  · exact Dict.get_set_of_ne apart
  · rfl

theorem fresh_step (tools : TotpTools) {t : TotpTurn} (h : s.Fresh) (alone : s.Alone t) :
    (s.step tools t).Fresh := by
  rw [step]
  cases here : s.phase t.request with
  | ended answer => exact h
  | arrived request =>
    have new := alone request here
    intro n user row there
    by_cases same : n = t.request
    · subst same
      rw [moved_self] at there
      obtain ⟨rfl, now⟩ := loaded_arrive there
      refine ⟨now, fun m row' at_ => ?_⟩
      by_contra other
      rw [moved_of_ne other] at at_
      exact new m row' at_
    · rw [moved_of_ne same] at there
      refine ⟨(h n user row there).1, fun m row' at_ => ?_⟩
      by_cases self : m = t.request
      · subst self
        rw [moved_self] at at_
        obtain ⟨rfl, -⟩ := loaded_arrive at_
        exact absurd there (new n row)
      · rw [moved_of_ne self] at at_
        exact (h n user row there).2 m row' at_
  | enrolling userId existing secret =>
    have loaded : (s.phase t.request).loaded = some (userId, existing) := by rw [here]; rfl
    cases existing with
    | some existing => exact fresh_commit h loaded (fun _ => get_updated_of_ne) phase_updated
    | none =>
      cases there : s.rows.get userId with
      | some row =>
        simp only [there]
        exact fresh_commit h loaded (fun _ _ => rfl) rfl
      | none =>
        simp only [there]
        have others : ∀ other, other ≠ userId →
            Dict.get (s.rows.set userId { secret }) other = s.rows.get other :=
          fun other apart => Dict.get_set_of_ne apart
        exact fresh_commit h loaded others rfl
  | enabling userId code record checked =>
    have loaded : (s.phase t.request).loaded = some (userId, some record) := by rw [here]; rfl
    refine fresh_commit h loaded (fun other apart => ?_) ?_
    · split
      · rfl
      · exact get_updated_of_ne apart
    · split
      · rfl
      · exact phase_updated
  | disabling userId code record checked =>
    have loaded : (s.phase t.request).loaded = some (userId, some record) := by rw [here]; rfl
    exact fresh_commit h loaded (fun _ => get_updated_of_ne) phase_updated

theorem fresh_opened (requests : Nat → TotpRequest) : (opened requests).Fresh := by
  intro n userId row none
  cases none

/-- What was loaded is what is written over. -/
theorem prompt_of_fresh {verify : String → String → Nat → Bool} {requests : Nat → TotpRequest}
    (sound : s.Sound verify requests) (fresh : s.Fresh) (t : TotpTurn) : s.Prompt t := by
  have backed := sound.backed t.request
  have loaded := fresh t.request
  rw [Prompt]
  cases here : s.phase t.request with
  | ended answer => trivial
  | arrived request => trivial
  | disabling userId code record checked => trivial
  | enrolling userId existing secret =>
    rw [here] at backed loaded
    cases existing with
    | none => trivial
    | some existing =>
      intro _ row there on
      cases (loaded userId (some existing) rfl).1.symm.trans there
      rw [backed.2 existing rfl] at on
      cases on
  | enabling userId code record checked =>
    rw [here] at loaded
    intro _ row there
    cases (loaded userId (some record) rfl).1.symm.trans there
    exact .inl rfl

end

/-- **Secrets are proven.** Where no two requests of a user overlap, the secret of each second factor that
is on has had a code accepted, whatever else goes on. -/
theorem proven_of_alone (tools : TotpTools) (requests : Nat → TotpRequest) {ts : List TotpTurn}
    (alone : Along (step tools) Alone (opened requests) ts) {userId : String} {row : UserTotp}
    (there : (run (step tools) (opened requests) ts).rows.get userId = some row)
    (on : row.enabled = true) :
    Proven (run (step tools) (opened requests) ts).log userId row.secret := by
  have keep : ∀ (s : TotpTable) (t : TotpTurn), s.Alone t →
      s.Sound tools.verify requests ∧ s.Fresh ∧ s.AllProven →
      (s.step tools t).Sound tools.verify requests ∧ (s.step tools t).Fresh ∧
        (s.step tools t).AllProven := by
    intro s t alone kept
    obtain ⟨sound, fresh, proven⟩ := kept
    exact ⟨sound_step sound t, fresh_step tools fresh alone,
      (allProven_step_iff tools proven t).mpr (prompt_of_fresh sound fresh t)⟩
  have kept := invariant _ keep alone ⟨sound_opened, fresh_opened requests, allProven_opened requests⟩
  exact kept.2.2 userId row there on

def plainTools : TotpTools where
  verify secret code _ := secret = code
  provisioningUri secret name issuer := issuer ++ name ++ secret
  qrDataUri := id
  instanceName := "Concord"

/-- A user sets the second factor up, and turns it on afterwards. -/
def enrolling : Nat → TotpRequest
  | 0 => .setup "@ann:home"
  | _ => .verify "@ann:home" ⟨"123456", rfl⟩

def enrollingTurns : List TotpTurn := [⟨0, 0, "123456"⟩, ⟨0, 0, ""⟩, ⟨1, 0, ""⟩, ⟨1, 0, ""⟩]

/-- No request of the user starts before the other one has ended. -/
theorem alone_enrolling : Along (step plainTools) Alone (opened enrolling) enrollingTurns := by
  refine ⟨?_, ?_, ?_, ?_, trivial⟩
  · intro request here n row there
    cases there
  · intro request here
    cases here
  · intro request here n row there
    rcases n with _ | n <;> cases there
  · intro request here
    cases here

theorem proven_of_alone_enrolling :
    Proven (run (step plainTools) (opened enrolling) enrollingTurns).log "@ann:home" "123456" := by
  have there : (run (step plainTools) (opened enrolling) enrollingTurns).rows.get "@ann:home" =
      some ⟨"123456", true⟩ := rfl
  exact proven_of_alone plainTools enrolling alone_enrolling there rfl

end TotpTable

end Concorrd.Api
