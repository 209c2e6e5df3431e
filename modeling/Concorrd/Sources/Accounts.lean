import Mathlib.Data.List.Forall2
import Concorrd.Lib.Run
import Concorrd.Sources.Store

/-!
# Accounts and sources

What one user stores is not to be seen by the next. A source that is not primary goes when another
user is bound; a primary one stays, with everything it holds. So the accounts are apart as long as no
user stores a secret, or anything but the description of the host, in a primary source.
-/

namespace Concorrd

open JsText (truthy)

/-! ## Whose a source is -/

namespace ConcordSource

/-- The access token, the user id and the device id. -/
def secrets (s : ConcordSource) : List Secret :=
  s.accessToken.toList ++ s.userId.toList ++ s.deviceId.toList

/-- No secret was stored while a user was bound, other than the one. -/
def ClearFor (user : Option String) (s : ConcordSource) : Prop :=
  ∀ secret ∈ s.secrets, ∀ u ∈ secret.storedBy, user = some u

def IsPrimary (s : ConcordSource) : Prop := isPrimarySource s.toSourceFields

/-- A source of the user alone. -/
def Private (u : String) (s : ConcordSource) : Prop :=
  ¬s.IsPrimary ∧ (s.ownerUserId = none ∨ s.ownerUserId = some u)

instance (s : ConcordSource) : Decidable s.IsPrimary :=
  inferInstanceAs (Decidable (isPrimarySource s.toSourceFields = true))

end ConcordSource

/-- The patch describes the host, and leaves its name. -/
def SourcePatch.HostLevel (patch : SourcePatch) : Prop :=
  patch =
    { instanceName := patch.instanceName, apiBase := patch.apiBase
      homeserverUrl := patch.homeserverUrl, serverName := patch.serverName
      delegatedFrom := patch.delegatedFrom, authFlows := patch.authFlows, branding := patch.branding }

namespace SourcesState

/-- While a user is bound, a call stores nothing in a primary source but the description of its host,
and makes no source of the user's own into a primary one or another user's. No call makes a primary
source into another. -/
def Discreet (toLowerCase : String → String) (st : SourcesState) : SourcesCall → Prop
  | .addSource _ _ source =>
    ∀ u ∈ st.boundUserId,
      ¬isPrimarySource source ∧ (source.ownerUserId = none ∨ source.ownerUserId = some u)
  | .updateSource id patch =>
    ∀ s ∈ st.sources, s.id = id →
      (s.IsPrimary → (s.patched patch st.boundUserId).IsPrimary) ∧
        ∀ u ∈ st.boundUserId, (s.IsPrimary → patch.HostLevel) ∧
          (¬s.IsPrimary → patch.id = none ∧ (s.patched patch st.boundUserId).Private u)
  | .ensurePrimarySource _ _ config =>
    ∀ _u ∈ st.boundUserId, ∀ s ∈ ofHost toLowerCase st.sources config.host, s.IsPrimary
  | _ => True

/-- What is shown to a user was not stored by another. -/
def Unshared (st : SourcesState) : Prop :=
  ∀ v ∈ st.boundUserId, ∀ s ∈ st.sources, s.ClearFor (some v)

/-! ## One run -/

/-- With no user bound there are no secrets of any user; with one bound, they are in sources of that
user. -/
def Kept (bound : Option String) (s : ConcordSource) : Prop :=
  match bound with
  | none => s.ClearFor none
  | some u => s.IsPrimary ∧ s.ClearFor none ∨ s.Private u ∧ s.ClearFor (some u)

variable {s s' : ConcordSource} {u : String} {bound : Option String}

theorem clearFor_of_none (clear : s.ClearFor none) (user : Option String) : s.ClearFor user :=
  fun secret mem u stored => by cases clear secret mem u stored

theorem Kept.clearFor (kept : Kept bound s) : s.ClearFor bound := by
  cases bound with
  | none => exact kept
  | some u =>
    rcases kept with ⟨-, clear⟩ | ⟨-, clear⟩
    · exact clearFor_of_none clear _
    · exact clear

theorem Kept.private_of_not_primary (kept : Kept (some u) s) (other : ¬s.IsPrimary) :
    s.Private u ∧ s.ClearFor (some u) :=
  kept.resolve_left fun primary => other primary.1

theorem Kept.clear_of_primary (kept : Kept bound s) (primary : s.IsPrimary) : s.ClearFor none := by
  cases bound with
  | none => exact kept
  | some u =>
    rcases kept with ⟨-, clear⟩ | ⟨⟨other, -⟩, -⟩
    · exact clear
    · exact absurd primary other

theorem clearFor_added (id addedAt : String) (source : SourceFields String) (user : Option String) :
    (ConcordSource.added id addedAt source user).ClearFor user := by
  intro secret mem u stored
  simp only [ConcordSource.secrets, ConcordSource.added, SourceFields.storedBy, List.mem_append,
    Option.mem_toList, Option.map_eq_some_iff] at mem
  rcases mem with (⟨_, -, rfl⟩ | ⟨_, -, rfl⟩) | ⟨_, -, rfl⟩
  · exact stored
  · exact stored
  · exact stored

theorem private_added {id addedAt : String} {source : SourceFields String}
    (other : ¬isPrimarySource source)
    (owner : source.ownerUserId = none ∨ source.ownerUserId = some u) :
    (ConcordSource.added id addedAt source (some u)).Private u := by
  refine ⟨other, .inr ?_⟩
  rcases owner with nobody | mine
  · exact congrArg (Option.or · (some u)) nobody
  · exact congrArg (Option.or · (some u)) mine

theorem kept_added {id addedAt : String} {source : SourceFields String}
    (discreet : ∀ u ∈ bound,
      ¬isPrimarySource source ∧ (source.ownerUserId = none ∨ source.ownerUserId = some u)) :
    Kept bound (.added id addedAt source bound) := by
  have clear := clearFor_added id addedAt source bound
  cases bound with
  | none => exact clear
  | some u => exact .inr ⟨private_added (discreet u rfl).1 (discreet u rfl).2, clear⟩

/-- A field of a patch is the old one or stored now. -/
theorem mem_patched_field {field : Option (Option String)} {old : Option Secret} {user : Option String}
    {secret : Secret} (mem : secret ∈ (field.map (Option.map (⟨·, user⟩))).getD old) :
    secret ∈ old ∨ secret.storedBy = user := by
  cases field with
  | none => exact .inl mem
  | some value =>
    cases value with
    | none => cases mem
    | some text =>
      cases mem
      exact .inr rfl

theorem clearFor_patched {patch : SourcePatch} {user : Option String} (clear : s.ClearFor user) :
    (s.patched patch user).ClearFor user := by
  intro secret mem u stored
  simp only [ConcordSource.secrets, List.mem_append, Option.mem_toList] at mem
  have known : secret ∈ s.secrets ∨ secret.storedBy = user := by
    simp only [ConcordSource.secrets, List.mem_append, Option.mem_toList]
    rcases mem with (token | userId) | deviceId
    · exact (mem_patched_field token).imp_left fun h => .inl (.inl h)
    · exact (mem_patched_field userId).imp_left fun h => .inl (.inr h)
    · exact (mem_patched_field deviceId).imp_left .inr
  rcases known with old | now
  · exact clear secret old u stored
  · exact now.symm.trans stored

theorem patched_of_hostLevel {patch : SourcePatch} (level : patch.HostLevel) (user : Option String) :
    (s.patched patch user).secrets = s.secrets ∧
      isPrimarySource (s.patched patch user).toSourceFields = isPrimarySource s.toSourceFields := by
  rw [level]
  exact ⟨rfl, rfl⟩

theorem Kept.patched {patch : SourcePatch} (kept : Kept bound s)
    (discreet : ∀ u ∈ bound, (s.IsPrimary → patch.HostLevel) ∧
      (¬s.IsPrimary → patch.id = none ∧ (s.patched patch bound).Private u)) :
    Kept bound (s.patched patch bound) := by
  cases bound with
  | none => exact clearFor_patched kept
  | some u =>
    obtain ⟨level, stays⟩ := discreet u rfl
    by_cases primary : s.IsPrimary
    · obtain ⟨same, still⟩ := patched_of_hostLevel (s := s) (level primary) (some u)
      refine .inl ⟨still.trans primary, fun secret mem => ?_⟩
      exact kept.clear_of_primary primary secret (same ▸ mem)
    · exact .inr ⟨(stays primary).2, clearFor_patched kept.clearFor⟩

/-- A change that leaves the secrets, and what makes a source primary, and takes no owner but away. -/
theorem Kept.of_same (kept : Kept bound s) (secrets : s'.secrets = s.secrets)
    (primary : isPrimarySource s'.toSourceFields = isPrimarySource s.toSourceFields)
    (owner : s'.ownerUserId = none ∨ s'.ownerUserId = s.ownerUserId) : Kept bound s' := by
  have clear : ∀ user, s.ClearFor user → s'.ClearFor user := fun user clear secret mem =>
    clear secret (secrets ▸ mem)
  cases bound with
  | none => exact clear none kept
  | some u =>
    rcases kept with ⟨isPrimary, isClear⟩ | ⟨⟨other, owned⟩, isClear⟩
    · exact .inl ⟨primary.trans isPrimary, clear none isClear⟩
    · refine .inr ⟨⟨fun now => other (primary.symm.trans now), ?_⟩, clear _ isClear⟩
      rcases owner with gone | same
      · exact .inl gone
      · exact same ▸ owned

/-- Binding a user leaves no secret of another. -/
theorem Kept.bindUser {userId : Option String} (kept : Kept bound s)
    (stays : s.bound bound userId = some s') : Kept userId s' := by
  rw [ConcordSource.bound] at stays
  split at stays
  · rename_i primary
    cases stays
    have clear : s.ClearFor none := kept.clear_of_primary primary
    cases userId with
    | none => exact clear
    | some v => exact .inl ⟨primary, clear⟩
  · rename_i other
    obtain ⟨v, named, owned⟩ := Option.bind_eq_some_iff.mp stays
    obtain ⟨named, -⟩ := Option.filter_eq_some_iff.mp named
    clear stays
    split at owned
    · rename_i resolves
      cases named
      cases owned
      refine .inr ⟨⟨other, .inr resolves⟩, ?_⟩
      rw [resolveOwnedSourceUserId, if_neg other] at resolves
      cases bound with
      | none => exact clearFor_of_none kept _
      | some u =>
        obtain ⟨⟨-, mineOrNone⟩, clear⟩ := kept.private_of_not_primary other
        have same : u = v := by
          rcases mineOrNone with nobody | mine
          · rw [nobody] at resolves
            exact Option.some.inj resolves
          · rw [mine] at resolves
            exact Option.some.inj resolves
        exact same ▸ clear
    · cases owned

theorem mem_of_byId {sources : List ConcordSource} {id : String} (h : byId sources id = some s) :
    s ∈ sources := List.mem_reverse.mp (List.mem_of_find?_eq_some h)

theorem mem_of_ordered {sources : List ConcordSource} {seen ids : List String}
    (mem : s ∈ ordered sources seen ids) : s ∈ sources := by
  induction ids generalizing seen with
  | nil => exact (List.mem_filter.mp mem).1
  | cons id ids ih =>
    rw [ordered] at mem
    split at mem
    · rename_i source found
      split at mem
      · exact ih mem
      · rcases List.mem_cons.mp mem with rfl | later
        · exact mem_of_byId found
        · exact ih later
    · exact ih mem

theorem mem_of_spliced {sources : List ConcordSource} {start dest : Nat}
    (mem : s ∈ spliced sources start dest) : s ∈ sources := by
  rw [spliced] at mem
  split at mem
  · rename_i moved after split
    have old : ∀ x, x ∈ sources.take start ++ after → x ∈ sources := fun x there => by
      rcases List.mem_append.mp there with before | later
      · exact List.mem_of_mem_take before
      · exact List.mem_of_mem_drop (split ▸ List.mem_cons_of_mem moved later)
    rcases List.mem_append.mp mem with before | later
    · exact old s (List.mem_of_mem_take before)
    · rcases List.mem_cons.mp later with rfl | rest
      · exact List.mem_of_mem_drop (split ▸ List.mem_cons_self)
      · exact old s (List.mem_of_mem_drop rest)
  · exact mem

/-- Every source of the state is kept. -/
def Sound (st : SourcesState) : Prop := ∀ s ∈ st.sources, Kept st.boundUserId s

variable {st : SourcesState} {toLowerCase : String → String}

theorem Sound.changeWhere (sound : st.Sound) {id : String} {change : ConcordSource → ConcordSource}
    (keeps : ∀ s ∈ st.sources, s.id = id → Kept st.boundUserId s → Kept st.boundUserId (change s)) :
    (st.changeWhere id change).Sound := by
  intro s' mem
  obtain ⟨s, there, rfl⟩ := List.mem_map.mp mem
  by_cases named : s.id = id
  · rw [if_pos named]
    exact keeps s there named (sound s there)
  · rw [if_neg named]
    exact sound s there

theorem Sound.step (sound : st.Sound) {call : SourcesCall} (discreet : st.Discreet toLowerCase call) :
    (st.step toLowerCase call).Sound := by
  cases call with
  | addSource id addedAt source =>
    intro s mem
    rcases List.mem_append.mp mem with old | new
    · exact sound s old
    · cases List.mem_singleton.mp new
      exact kept_added discreet
  | updateSource id patch =>
    exact sound.changeWhere fun s mem named kept => kept.patched (discreet s mem named).2
  | ensurePrimarySource id addedAt config =>
    rw [SourcesState.step, ensurePrimarySource]
    split
    · exact sound.changeWhere fun s _ _ kept => kept.of_same rfl rfl (.inl rfl)
    · intro s mem
      rcases List.mem_append.mp mem with old | new
      · exact sound s old
      · cases List.mem_singleton.mp new
        have clear : (ConcordSource.ofConfig id addedAt config).ClearFor none := fun _ mem => by cases mem
        show Kept st.boundUserId _
        cases st.boundUserId with
        | none => exact clear
        | some u => exact .inl ⟨rfl, clear⟩
  | reorderSources activeId overId =>
    rw [SourcesState.step, reorderSources]
    split
    · exact sound
    · split
      · exact fun s mem => sound s (mem_of_spliced mem)
      · exact sound
  | setSourceOrder orderedIds => exact fun s mem => sound s (mem_of_ordered mem)
  | markOwner id isOwner =>
    exact sound.changeWhere fun s _ _ kept => kept.of_same rfl rfl (.inr rfl)
  | bindToUser userId =>
    intro s' mem
    obtain ⟨s, there, stays⟩ := List.mem_filterMap.mp mem
    exact Kept.bindUser (sound s there) stays

theorem sound_initial : initial.Sound := fun _ mem => by cases mem

theorem Sound.unshared (sound : st.Sound) : st.Unshared := fun _ here s mem =>
  here ▸ (sound s mem).clearFor

/-! ## Two runs -/

end SourcesState

namespace ConcordSource

/-- A source without the description of its host. -/
def blank (s : ConcordSource) : ConcordSource :=
  { s with
    host := "", instanceName := none, apiBase := "", homeserverUrl := "", serverName := none
    delegatedFrom := none, authFlows := none, branding := none }

/-- What is compared of a source: of a primary one, all but the description of the host. -/
def accountView (s : ConcordSource) : ConcordSource := if s.IsPrimary then s.blank else s

variable {a b : ConcordSource}

theorem isPrimary_congr (platform : a.platform = b.platform) (token : a.inviteToken = b.inviteToken) :
    a.IsPrimary ↔ b.IsPrimary := by
  rw [IsPrimary, IsPrimary, isPrimarySource, isPrimarySource, platform, token]

theorem accountView_keeps (s : ConcordSource) :
    s.accountView.platform = s.platform ∧ s.accountView.inviteToken = s.inviteToken := by
  rw [accountView]
  split
  · exact ⟨rfl, rfl⟩
  · exact ⟨rfl, rfl⟩

/-- Sources that look alike are both primary, or one and the same. -/
theorem accountView_eq_iff : a.accountView = b.accountView ↔
    a.IsPrimary ∧ b.IsPrimary ∧ a.blank = b.blank ∨ ¬a.IsPrimary ∧ a = b := by
  constructor
  · intro same
    obtain ⟨platform, token⟩ := accountView_keeps a
    rw [same, (accountView_keeps b).1] at platform
    rw [same, (accountView_keeps b).2] at token
    have both := isPrimary_congr platform token
    by_cases primary : b.IsPrimary
    · have alsoLeft := both.mp primary
      rw [accountView, accountView, if_pos primary, if_pos alsoLeft] at same
      exact .inl ⟨alsoLeft, primary, same⟩
    · have notLeft := fun h => primary (both.mpr h)
      rw [accountView, accountView, if_neg primary, if_neg notLeft] at same
      exact .inr ⟨notLeft, same⟩
  · rintro (⟨left, right, same⟩ | ⟨-, rfl⟩)
    · rw [accountView, accountView, if_pos left, if_pos right, same]
    · rfl

/-- The sources look alike and are of one host. -/
def SameView (a b : ConcordSource) : Prop := a.accountView = b.accountView ∧ a.host = b.host

/-- A change that reads no more of the description of the host than its name. -/
theorem SameView.change {f : ConcordSource → ConcordSource} (same : SameView a b)
    (blind : ∀ s, (f s).blank = (f s.blank).blank)
    (host : a.host = b.host → (f a).host = (f b).host)
    (stays : a.IsPrimary → (f a).IsPrimary) : SameView (f a) (f b) := by
  refine ⟨?_, host same.2⟩
  rcases accountView_eq_iff.mp same.1 with ⟨left, -, blank⟩ | ⟨-, rfl⟩
  · have changed : (f a).blank = (f b).blank := by rw [blind a, blind b, blank]
    have both : (f a).IsPrimary ↔ (f b).IsPrimary :=
      isPrimary_congr
        (show (f a).blank.platform = (f b).blank.platform from congrArg (fun s => s.platform) changed)
        (show (f a).blank.inviteToken = (f b).blank.inviteToken from
          congrArg (fun s => s.inviteToken) changed)
    exact accountView_eq_iff.mpr (.inl ⟨stays left, both.mp (stays left), changed⟩)
  · rfl

end ConcordSource

namespace SourcesState

open ConcordSource

/-- The calls store different things, and are otherwise one call. -/
inductive Stores : SourcesCall → SourcesCall → Prop
  | added (id addedAt : String) (source source' : SourceFields String) :
    Stores (.addSource id addedAt source) (.addSource id addedAt source')
  | updated (id : String) (patch patch' : SourcePatch) :
    Stores (.updateSource id patch) (.updateSource id patch')

/-- Two runs that differ in nothing but what is stored while the user is bound. -/
def DifferWhile (toLowerCase : String → String) (u : String) :
    SourcesState → List SourcesCall → List SourcesCall → Prop
  | _, [], [] => True
  | st, call :: calls, call' :: calls' =>
    (call = call' ∨ st.boundUserId = some u ∧ Stores call call') ∧
      DifferWhile toLowerCase u (st.step toLowerCase call) calls calls'
  | _, [], _ :: _ => False
  | _, _ :: _, [] => False

/-- The sources look alike, or both are private to the user that is bound. -/
def Twins (u : String) (bound : Option String) (a b : ConcordSource) : Prop :=
  a.id = b.id ∧ (SameView a b ∨ bound = some u ∧ a.Private u ∧ b.Private u)

theorem forall₂_map_of_mem {α β γ δ : Type*} {R : α → β → Prop} {S : γ → δ → Prop} {f : α → γ}
    {g : β → δ} {l : List α} {l' : List β} (h : List.Forall₂ R l l')
    (maps : ∀ a ∈ l, ∀ b ∈ l', R a b → S (f a) (g b)) : List.Forall₂ S (l.map f) (l'.map g) := by
  induction h with
  | nil => exact .nil
  | cons first _ ih =>
    exact .cons (maps _ List.mem_cons_self _ List.mem_cons_self first)
      (ih fun a there b there' => maps a (List.mem_cons_of_mem _ there) b (List.mem_cons_of_mem _ there'))

variable {u : String} {bound : Option String} {l l' : List ConcordSource}

theorem ids_of_twins (h : List.Forall₂ (Twins u bound) l l') :
    l.map ConcordSource.id = l'.map ConcordSource.id := by
  rw [← List.forall₂_eq_eq_eq, List.forall₂_map_left_iff, List.forall₂_map_right_iff]
  exact h.imp fun a b twins => twins.1

theorem findIdx?_eq_of_twins (h : List.Forall₂ (Twins u bound) l l') (id : String) :
    l.findIdx? (·.id = id) = l'.findIdx? (·.id = id) := by
  have byIds : ∀ m : List ConcordSource,
      m.findIdx? (·.id = id) = (m.map ConcordSource.id).findIdx? (· = id) := fun m => by
    rw [List.findIdx?_map]
    rfl
  rw [byIds, byIds, ids_of_twins h]

theorem twins_spliced (h : List.Forall₂ (Twins u bound) l l') (start dest : Nat) :
    List.Forall₂ (Twins u bound) (spliced l start dest) (spliced l' start dest) := by
  have dropped := List.forall₂_drop start h
  rw [spliced, spliced]
  cases left : l.drop start with
  | nil =>
    rw [left] at dropped
    rw [List.forall₂_nil_left_iff.mp dropped]
    exact h
  | cons moved after =>
    rw [left] at dropped
    obtain ⟨moved', after', first, rest, right⟩ := List.forall₂_cons_left_iff.mp dropped
    rw [right]
    have others := List.rel_append (List.forall₂_take start h) rest
    exact List.rel_append (List.forall₂_take dest others) (.cons first (List.forall₂_drop dest others))

theorem twins_find? (h : List.Forall₂ (Twins u bound) l l') (id : String) :
    Option.Rel (Twins u bound) (l.find? (·.id = id)) (l'.find? (·.id = id)) := by
  induction h with
  | nil => exact .none
  | @cons a b _ _ first _ ih =>
    by_cases named : a.id = id
    · rw [List.find?_cons_of_pos (by simpa using named),
        List.find?_cons_of_pos (by simpa using first.1.symm.trans named)]
      exact .some first
    · rw [List.find?_cons_of_neg (by simpa using named),
        List.find?_cons_of_neg (by simpa using fun same => named (first.1.trans same))]
      exact ih

theorem twins_ordered (h : List.Forall₂ (Twins u bound) l l') (seen ids : List String) :
    List.Forall₂ (Twins u bound) (ordered l seen ids) (ordered l' seen ids) := by
  induction ids generalizing seen with
  | nil =>
    refine List.rel_filter (fun a b twins => ?_) h
    show decide (a.id ∉ seen) = true ↔ decide (b.id ∉ seen) = true
    rw [twins.1]
  | cons id ids ih =>
    have found : Option.Rel (Twins u bound) (byId l id) (byId l' id) :=
      twins_find? (List.rel_reverse h) id
    rw [ordered, ordered]
    cases left : byId l id with
    | none =>
      rw [left] at found
      cases right : byId l' id with
      | none => exact ih seen
      | some b =>
        rw [right] at found
        cases found
    | some a =>
      rw [left] at found
      cases right : byId l' id with
      | none =>
        rw [right] at found
        cases found
      | some b =>
        rw [right] at found
        cases found with
        | some first =>
          dsimp only
          split
          · exact ih seen
          · exact .cons first (ih (id :: seen))

/-- Where no user's own source comes first, the first source of a host is one source in both runs. -/
theorem ofHost_of_twins {toLowerCase : String → String} {host : String}
    (h : List.Forall₂ (Twins u bound) l l')
    (primary : ∀ _u ∈ bound, ∀ s ∈ ofHost toLowerCase l host, s.IsPrimary)
    (primary' : ∀ _u ∈ bound, ∀ s ∈ ofHost toLowerCase l' host, s.IsPrimary) :
    (ofHost toLowerCase l host).map ConcordSource.id =
      (ofHost toLowerCase l' host).map ConcordSource.id := by
  induction h with
  | nil => rfl
  | @cons a b _ _ first rest ih =>
    have agree : toLowerCase a.host = toLowerCase host ↔ toLowerCase b.host = toLowerCase host := by
      rcases first.2 with same | ⟨here, left, right⟩
      · rw [same.2]
      · constructor
        · intro ofThis
          refine absurd (primary u here a ?_) left.1
          exact List.find?_cons_of_pos (by simpa using ofThis)
        · intro ofThis
          refine absurd (primary' u here b ?_) right.1
          exact List.find?_cons_of_pos (by simpa using ofThis)
    by_cases ofThis : toLowerCase a.host = toLowerCase host
    · rw [ofHost, ofHost, List.find?_cons_of_pos (by simpa using ofThis),
        List.find?_cons_of_pos (by simpa using agree.mp ofThis)]
      exact congrArg some first.1
    · have later : ∀ {x : ConcordSource} {xs : List ConcordSource},
          ¬toLowerCase x.host = toLowerCase host →
            ofHost toLowerCase (x :: xs) host = ofHost toLowerCase xs host :=
        fun other => List.find?_cons_of_neg (by simpa using other)
      rw [later ofThis] at primary
      rw [later (agree.not.mp ofThis)] at primary'
      rw [later ofThis, later (agree.not.mp ofThis)]
      exact ih primary primary'

/-! ## One call in two runs -/

variable {a b : ConcordSource} {st st' : SourcesState} {toLowerCase : String → String}

theorem twins_refl (u : String) (bound : Option String) (a : ConcordSource) : Twins u bound a a :=
  ⟨rfl, .inl ⟨rfl, rfl⟩⟩

/-- A patch of the host's description leaves the view of a primary source. -/
theorem sameView_of_hostLevel {patch : SourcePatch} (level : patch.HostLevel) (primary : a.IsPrimary)
    (user : Option String) :
    (a.patched patch user).accountView = a.accountView ∧ (a.patched patch user).host = a.host ∧
      (a.patched patch user).id = a.id := by
  rw [level]
  exact ⟨accountView_eq_iff.mpr (.inl ⟨primary, primary, rfl⟩), rfl, rfl⟩

theorem private_patched_of_discreet {patch : SourcePatch}
    (discreet : ∀ u ∈ bound, (a.IsPrimary → patch.HostLevel) ∧
      (¬a.IsPrimary → patch.id = none ∧ (a.patched patch bound).Private u))
    (here : bound = some u) (other : ¬a.IsPrimary) :
    (a.patched patch bound).Private u ∧ (a.patched patch bound).id = a.id := by
  obtain ⟨noId, stays⟩ := (discreet u here).2 other
  exact ⟨stays, by rw [ConcordSource.patched, noId]; rfl⟩

/-- Two patches while the user is bound. -/
theorem Twins.patched_while {patch patch' : SourcePatch} (twins : Twins u bound a b)
    (here : bound = some u)
    (discreet : ∀ u ∈ bound, (a.IsPrimary → patch.HostLevel) ∧
      (¬a.IsPrimary → patch.id = none ∧ (a.patched patch bound).Private u))
    (discreet' : ∀ u ∈ bound, (b.IsPrimary → patch'.HostLevel) ∧
      (¬b.IsPrimary → patch'.id = none ∧ (b.patched patch' bound).Private u)) :
    Twins u bound (a.patched patch bound) (b.patched patch' bound) := by
  have hidden : ¬a.IsPrimary → ¬b.IsPrimary →
      Twins u bound (a.patched patch bound) (b.patched patch' bound) := fun other other' => by
    obtain ⟨mine, sameId⟩ := private_patched_of_discreet discreet here other
    obtain ⟨mine', sameId'⟩ := private_patched_of_discreet discreet' here other'
    exact ⟨sameId.trans (twins.1.trans sameId'.symm), .inr ⟨here, mine, mine'⟩⟩
  rcases twins.2 with same | ⟨-, mine, mine'⟩
  · rcases accountView_eq_iff.mp same.1 with ⟨primary, primary', -⟩ | ⟨other, rfl⟩
    · obtain ⟨view, host, sameId⟩ := sameView_of_hostLevel ((discreet u here).1 primary) primary bound
      obtain ⟨view', host', sameId'⟩ :=
        sameView_of_hostLevel ((discreet' u here).1 primary') primary' bound
      exact ⟨sameId.trans (twins.1.trans sameId'.symm),
        .inl ⟨view.trans (same.1.trans view'.symm), host.trans (same.2.trans host'.symm)⟩⟩
    · exact hidden other other
  · exact hidden mine.1 mine'.1

/-- One patch on both sides. -/
theorem Twins.patched_same {patch : SourcePatch} (twins : Twins u bound a b)
    (discreet : (a.IsPrimary → (a.patched patch bound).IsPrimary) ∧
      ∀ u ∈ bound, (a.IsPrimary → patch.HostLevel) ∧
        (¬a.IsPrimary → patch.id = none ∧ (a.patched patch bound).Private u))
    (discreet' : (b.IsPrimary → (b.patched patch bound).IsPrimary) ∧
      ∀ u ∈ bound, (b.IsPrimary → patch.HostLevel) ∧
        (¬b.IsPrimary → patch.id = none ∧ (b.patched patch bound).Private u)) :
    Twins u bound (a.patched patch bound) (b.patched patch bound) := by
  by_cases here : bound = some u
  · exact twins.patched_while here discreet.2 discreet'.2
  · have same := twins.2.resolve_right fun hidden => here hidden.1
    exact ⟨congrArg patch.id.getD twins.1,
      .inl (same.change (f := fun s => s.patched patch bound) (fun _ => rfl)
        (fun host => congrArg patch.host.getD host) discreet.1)⟩

theorem Twins.configured (twins : Twins u bound a b) (config : PrimaryConfig) :
    Twins u bound (a.configured config) (b.configured config) :=
  ⟨twins.1, twins.2.imp
    (fun same => same.change (f := fun s => s.configured config) (fun _ => rfl) id id)
    fun hidden => ⟨hidden.1, ⟨hidden.2.1.1, .inl rfl⟩, ⟨hidden.2.2.1, .inl rfl⟩⟩⟩

theorem Twins.markOwner (twins : Twins u bound a b) (isOwner : Bool) :
    Twins u bound { a with isOwner := some isOwner } { b with isOwner := some isOwner } :=
  ⟨twins.1, twins.2.imp
    (fun same => same.change (f := fun s => { s with isOwner := some isOwner }) (fun _ => rfl) id id)
    fun hidden => ⟨hidden.1, hidden.2.1, hidden.2.2⟩⟩

theorem bound_of_primary (primary : a.IsPrimary) (userId : Option String) :
    a.bound bound userId = some { a with ownerUserId := none } := if_pos primary

theorem bound_of_private (mine : a.Private u) (userId : Option String) :
    a.bound (some u) userId =
      if truthy userId = some u then some { a with ownerUserId := some u } else none := by
  have other : ¬isPrimarySource a.toSourceFields = true := mine.1
  have resolves : resolveOwnedSourceUserId a (some u) = some u := by
    rw [resolveOwnedSourceUserId, if_neg other]
    rcases mine.2 with nobody | owned
    · rw [nobody]
      rfl
    · rw [owned]
      rfl
  rw [ConcordSource.bound, if_neg other, resolves]
  cases truthy userId with
  | none => rfl
  | some user =>
    rw [Option.bind_some]
    by_cases same : u = user
    · rw [if_pos (congrArg some same), if_pos (congrArg some same.symm)]
    · rw [if_neg fun h => same (Option.some.inj h), if_neg fun h => same (Option.some.inj h).symm]

theorem Twins.bindUser (twins : Twins u bound a b) (userId : Option String) :
    Option.Rel (Twins u userId) (a.bound bound userId) (b.bound bound userId) := by
  rcases twins.2 with same | ⟨rfl, mine, mine'⟩
  · rcases accountView_eq_iff.mp same.1 with ⟨primary, primary', -⟩ | ⟨-, rfl⟩
    · rw [bound_of_primary primary, bound_of_primary primary']
      exact .some ⟨twins.1, .inl (same.change (f := fun s => { s with ownerUserId := none })
        (fun _ => rfl) id id)⟩
    · cases a.bound bound userId with
      | none => exact .none
      | some kept => exact .some (twins_refl u userId kept)
  · rw [bound_of_private mine, bound_of_private mine']
    split
    · rename_i again
      have now : userId = some u := (Option.filter_eq_some_iff.mp again).1
      exact .some ⟨twins.1, .inr ⟨now, ⟨mine.1, .inr rfl⟩, ⟨mine'.1, .inr rfl⟩⟩⟩
    · exact .none

/-- Two states of which all but the user's own sources look alike. -/
structure TwinStates (u : String) (st st' : SourcesState) : Prop where
  bound : st.boundUserId = st'.boundUserId
  sources : List.Forall₂ (Twins u st.boundUserId) st.sources st'.sources

theorem TwinStates.changeWhere (twins : TwinStates u st st') {id : String}
    {f g : ConcordSource → ConcordSource}
    (changes : ∀ a ∈ st.sources, ∀ b ∈ st'.sources, a.id = id → b.id = id →
      Twins u st.boundUserId a b → Twins u st.boundUserId (f a) (g b)) :
    TwinStates u (st.changeWhere id f) (st'.changeWhere id g) where
  bound := twins.bound
  sources := forall₂_map_of_mem twins.sources fun a mem b mem' pair => by
    by_cases named : a.id = id
    · have named' := pair.1.symm.trans named
      rw [if_pos named, if_pos named']
      exact changes a mem b mem' named named' pair
    · rw [if_neg named, if_neg fun h => named (pair.1.trans h)]
      exact pair

theorem TwinStates.append (twins : TwinStates u st st') (pair : Twins u st.boundUserId a b) :
    TwinStates u { st with sources := st.sources ++ [a] } { st' with sources := st'.sources ++ [b] } :=
  ⟨twins.bound, List.rel_append twins.sources (.cons pair .nil)⟩

theorem TwinStates.ensurePrimarySource (twins : TwinStates u st st') {id addedAt : String}
    {config : PrimaryConfig}
    (discreet : st.Discreet toLowerCase (.ensurePrimarySource id addedAt config))
    (discreet' : st'.Discreet toLowerCase (.ensurePrimarySource id addedAt config)) :
    TwinStates u (st.ensurePrimarySource toLowerCase id addedAt config)
      (st'.ensurePrimarySource toLowerCase id addedAt config) := by
  have found := ofHost_of_twins twins.sources discreet (twins.bound ▸ discreet')
  rw [SourcesState.ensurePrimarySource, SourcesState.ensurePrimarySource]
  cases left : ofHost toLowerCase st.sources config.host with
  | none =>
    rw [left] at found
    rw [Option.map_eq_none_iff.mp found.symm]
    exact twins.append (twins_refl u _ _)
  | some existing =>
    rw [left] at found
    obtain ⟨existing', right, sameId⟩ := Option.map_eq_some_iff.mp found.symm
    rw [right]
    dsimp only
    rw [sameId]
    exact twins.changeWhere fun _ _ _ _ _ _ pair => pair.configured config

/-- A call in both runs. -/
theorem TwinStates.step (twins : TwinStates u st st') {call : SourcesCall}
    (discreet : st.Discreet toLowerCase call) (discreet' : st'.Discreet toLowerCase call) :
    TwinStates u (st.step toLowerCase call) (st'.step toLowerCase call) := by
  cases call with
  | addSource id addedAt source =>
    have same : Twins u st.boundUserId (.added id addedAt source st.boundUserId)
        (.added id addedAt source st'.boundUserId) := twins.bound ▸ twins_refl u st.boundUserId _
    exact twins.append same
  | updateSource id patch =>
    refine twins.changeWhere fun a mem b mem' named named' pair => ?_
    have right := discreet' b mem' named'
    rw [← twins.bound] at right ⊢
    exact pair.patched_same (discreet a mem named) right
  | ensurePrimarySource id addedAt config => exact twins.ensurePrimarySource discreet discreet'
  | reorderSources activeId overId =>
    rw [SourcesState.step, SourcesState.step, reorderSources, reorderSources,
      findIdx?_eq_of_twins twins.sources, findIdx?_eq_of_twins twins.sources]
    split
    · exact twins
    · split
      · exact ⟨twins.bound, twins_spliced twins.sources _ _⟩
      · exact twins
  | setSourceOrder orderedIds => exact ⟨twins.bound, twins_ordered twins.sources [] orderedIds⟩
  | markOwner id isOwner => exact twins.changeWhere fun _ _ _ _ _ _ pair => pair.markOwner isOwner
  | bindToUser userId =>
    refine ⟨rfl, ?_⟩
    show List.Forall₂ (Twins u userId) _ (st'.sources.filterMap fun s => s.bound st'.boundUserId userId)
    rw [← twins.bound]
    exact List.rel_filterMap (fun a b pair => pair.bindUser userId) twins.sources

/-- Calls that store different things while the user is bound. -/
theorem TwinStates.stores (twins : TwinStates u st st') (here : st.boundUserId = some u)
    {call call' : SourcesCall} (stores : Stores call call')
    (discreet : st.Discreet toLowerCase call) (discreet' : st'.Discreet toLowerCase call') :
    TwinStates u (st.step toLowerCase call) (st'.step toLowerCase call') := by
  cases stores with
  | added id addedAt source source' =>
    have mine := discreet u here
    have mine' := discreet' u (twins.bound.symm.trans here)
    have pair : Twins u st.boundUserId (.added id addedAt source st.boundUserId)
        (.added id addedAt source' st'.boundUserId) := by
      rw [← twins.bound, here]
      exact ⟨rfl, .inr ⟨rfl, private_added mine.1 mine.2, private_added mine'.1 mine'.2⟩⟩
    exact twins.append pair
  | updated id patch patch' =>
    refine twins.changeWhere fun a mem b mem' named named' pair => ?_
    have right := (discreet' b mem' named').2
    rw [← twins.bound] at right ⊢
    exact pair.patched_while here (discreet a mem named).2 right

/-! ## The accounts -/

open Machine

theorem twinStates_run {calls calls' : List SourcesCall} (twins : TwinStates u st st')
    (differ : DifferWhile toLowerCase u st calls calls')
    (discreet : Along (step toLowerCase) (Discreet toLowerCase) st calls)
    (discreet' : Along (step toLowerCase) (Discreet toLowerCase) st' calls') :
    TwinStates u (run (step toLowerCase) st calls) (run (step toLowerCase) st' calls') := by
  induction calls generalizing st st' calls' with
  | nil =>
    cases calls' with
    | nil => exact twins
    | cons call' calls' => exact differ.elim
  | cons call calls ih =>
    cases calls' with
    | nil => exact differ.elim
    | cons call' calls' =>
      have next : TwinStates u (st.step toLowerCase call) (st'.step toLowerCase call') := by
        rcases differ.1 with same | ⟨here, stores⟩
        · subst same
          exact twins.step discreet.1 discreet'.1
        · exact twins.stores here stores discreet.1 discreet'.1
      have later := ih next differ.2 discreet.2 discreet'.2
      exact later

/-- In a run of discreet calls no user is shown what another stored; and two such runs that differ in
nothing but what one user stored show every other user the same sources, apart from the description of
the hosts of primary ones. -/
theorem accounts_apart (toLowerCase : String → String) :
    (∀ calls, Along (step toLowerCase) (Discreet toLowerCase) initial calls →
      Along (step toLowerCase) (fun st call => (st.step toLowerCase call).Unshared) initial calls) ∧
    ∀ u v calls calls', u ≠ v → DifferWhile toLowerCase u initial calls calls' →
      Along (step toLowerCase) (Discreet toLowerCase) initial calls →
      Along (step toLowerCase) (Discreet toLowerCase) initial calls' →
      (run (step toLowerCase) initial calls).boundUserId = some v →
        (run (step toLowerCase) initial calls).sources.map accountView =
          (run (step toLowerCase) initial calls').sources.map accountView := by
  constructor
  · intro calls discreet
    exact discreet.of_invariant Sound (fun st call discreet sound => sound.step discreet)
      (fun st call discreet sound => (sound.step discreet).unshared) sound_initial
  · intro u v calls calls' apart differ discreet discreet' here
    have twins := twinStates_run ⟨rfl, .nil⟩ differ discreet discreet'
    have alike : List.Forall₂ (fun a b => accountView a = accountView b)
        (run (step toLowerCase) initial calls).sources
        (run (step toLowerCase) initial calls').sources :=
      twins.sources.imp fun a b pair =>
        (pair.2.resolve_right fun hidden =>
          apart (Option.some.inj (hidden.1.symm.trans here))).1
    rw [← List.forall₂_eq_eq_eq, List.forall₂_map_left_iff, List.forall₂_map_right_iff]
    exact alike

/-! ## A login on a primary source -/

def sampleConfig : PrimaryConfig := ⟨"h", none, "/api", "/hs"⟩

/-- Fields of a source that was reached with an invite. -/
def invitedFields (token : String) : SourceFields String :=
  ⟨"i", none, "invite", some token, none, none, "/api", "/hs", none, none, none, none, .connected, true,
    none, none, none, none, none⟩

def aliceThenBob (token : String) : List SourcesCall :=
  [.bindToUser (some "alice"), .ensurePrimarySource "p" "t" sampleConfig,
    .addSource "s" "t" (invitedFields token), .bindToUser (some "bob")]

theorem discreet_aliceThenBob (token : String) :
    Along (step id) (Discreet id) initial (aliceThenBob token) := by
  have invited : JsText.trim "invite" ≠ "" := by decide
  have other : ¬isPrimarySource (invitedFields token) := fun primary =>
    invited (of_decide_eq_true (Bool.and_eq_true_iff.mp primary).2)
  exact ⟨trivial, fun _ _ _ there => (by cases there), fun _ _ => ⟨other, .inl rfl⟩, trivial, trivial⟩

theorem accounts_apart_invited :
    Along (step id) (fun st call => (st.step id call).Unshared) initial (aliceThenBob "x") ∧
      (run (step id) initial (aliceThenBob "x")).sources.map accountView =
        (run (step id) initial (aliceThenBob "y")).sources.map accountView :=
  ⟨(accounts_apart id).1 _ (discreet_aliceThenBob "x"),
    (accounts_apart id).2 "alice" "bob" _ _ (by decide)
      ⟨.inl rfl, .inl rfl, .inr ⟨rfl, .added "s" "t" _ _⟩, .inl rfl, trivial⟩
      (discreet_aliceThenBob "x") (discreet_aliceThenBob "y") rfl⟩

/-- Alice signs in on the primary source, and Bob has her token. -/
def aliceSignsIn (token : String) : List SourcesCall :=
  [.bindToUser (some "alice"), .ensurePrimarySource "p" "t" sampleConfig,
    .updateSource "p" { accessToken := some (some token) }, .bindToUser (some "bob")]

theorem accounts_shared :
    (¬∀ calls, (run (step id) initial calls).Unshared) ∧
      ¬∀ u v calls calls', u ≠ v → DifferWhile id u initial calls calls' →
        (run (step id) initial calls).boundUserId = some v →
          (run (step id) initial calls).sources.map accountView =
            (run (step id) initial calls').sources.map accountView := by
  constructor
  · intro unshared
    have shown := unshared (aliceSignsIn "x") "bob" rfl _ (List.mem_singleton_self _) ⟨"x", some "alice"⟩
      (by decide) "alice" rfl
    exact absurd shown (by decide)
  · intro same
    have shown := same "alice" "bob" (aliceSignsIn "x") (aliceSignsIn "y") (by decide)
      ⟨.inl rfl, .inl rfl, .inr ⟨rfl, .updated "p" _ _⟩, .inl rfl, trivial⟩ rfl
    exact absurd shown (by decide)

end SourcesState

end Concorrd
