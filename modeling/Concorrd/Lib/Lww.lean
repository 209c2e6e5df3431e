import Mathlib.Order.Basic
import Mathlib.Data.Set.Basic
import Mathlib.Logic.Function.Basic

/-!
# Last-writer-wins registers and stores

A register holds at most one row. A row offered to it replaces what it holds when the
offered stamp is strictly larger, and is dropped otherwise, so the incumbent survives a
tie. A store is one register per key, and offering a list of rows to a store offers each
row to its own register.

The law of the module is `offerAll_congr`: when a stamp determines the row, a store ends
the same whatever the order, the grouping and the multiplicity of the rows it was offered.
It is reached through `Winner`, which names the outcome of a register without naming an
order, and `Winner.unique`, which says there is one such outcome.

`larger` is the register join of two stores at one key. `offerAll_of_lists` reads an
exchange back as that join: offering every row of a store that passes a filter leaves, at
each key, the larger of what was held and what passed.
-/

namespace Lww

variable {κ ρ σ : Type*} [LinearOrder σ]

/-! ## One register -/

section Register

variable (stamp : ρ → σ)

/-- What a register holds once a row is offered to it. -/
def absorb : Option ρ → ρ → Option ρ
  | none, r => some r
  | some c, r => if stamp c < stamp r then some r else some c

/-- The register holds a stamp at least as large as the row's. -/
def Covers (o : Option ρ) (r : ρ) : Prop := ∃ c, o = some c ∧ stamp r ≤ stamp c

/-- Rows offered one after another. -/
def absorbAll (o : Option ρ) (rs : List ρ) : Option ρ := rs.foldl (absorb stamp) o

variable {stamp} {o : Option ρ} {r r' w : ρ} {rs : List ρ}

@[simp] theorem covers_none : ¬ Covers stamp none r := by
  rintro ⟨c, h, _⟩
  cases h

@[simp] theorem covers_some {c : ρ} : Covers stamp (some c) r ↔ stamp r ≤ stamp c :=
  ⟨fun ⟨_, h, hle⟩ => Option.some.inj h ▸ hle, fun h => ⟨c, rfl, h⟩⟩

instance : Decidable (Covers stamp o r) :=
  match o with
  | none => isFalse covers_none
  | some _ => decidable_of_iff _ covers_some.symm

/-- A covered row is dropped. -/
theorem absorb_of_covers (h : Covers stamp o r) : absorb stamp o r = o := by
  obtain ⟨c, rfl, hle⟩ := h
  simp only [absorb, if_neg (not_lt.mpr hle)]

/-- A row that is not covered takes the register. -/
theorem absorb_of_not_covers (h : ¬ Covers stamp o r) : absorb stamp o r = some r := by
  cases o with
  | none => rfl
  | some c =>
    have hlt : stamp c < stamp r := not_le.mp (fun hle => h (covers_some.mpr hle))
    simp only [absorb, if_pos hlt]

/-- The register covers what it was just offered. -/
theorem covers_absorb_self (o : Option ρ) (r : ρ) : Covers stamp (absorb stamp o r) r := by
  by_cases h : Covers stamp o r
  · rwa [absorb_of_covers h]
  · rw [absorb_of_not_covers h]
    exact covers_some.mpr le_rfl

/-- An offer never lowers the register's stamp. -/
theorem Covers.absorb (h : Covers stamp o r) (r' : ρ) :
    Covers stamp (Lww.absorb stamp o r') r := by
  by_cases h' : Covers stamp o r'
  · rwa [absorb_of_covers h']
  · rw [absorb_of_not_covers h']
    obtain ⟨c, rfl, hle⟩ := h
    exact covers_some.mpr (hle.trans (le_of_not_ge fun hge => h' (covers_some.mpr hge)))

/-- What the register holds was there before or is the offered row. -/
theorem eq_or_eq_of_absorb (h : absorb stamp o r = some w) : o = some w ∨ w = r := by
  by_cases hc : Covers stamp o r
  · exact .inl (absorb_of_covers hc ▸ h)
  · exact .inr (Option.some.inj (h.symm.trans (absorb_of_not_covers hc)))

/-- A list of offers never lowers the register's stamp. -/
theorem Covers.absorbAll (h : Covers stamp o r) (rs : List ρ) :
    Covers stamp (Lww.absorbAll stamp o rs) r := by
  induction rs generalizing o with
  | nil => exact h
  | cons r' rs ih => exact ih (h.absorb r')

/-- The register covers every row it was offered. -/
theorem covers_absorbAll_of_mem (h : r ∈ rs) : Covers stamp (absorbAll stamp o rs) r := by
  induction rs generalizing o with
  | nil => cases h
  | cons r' rs ih =>
    rcases List.mem_cons.mp h with rfl | hm
    · exact (covers_absorb_self o r).absorbAll rs
    · exact ih hm

/-- Offers of covered rows leave the register as it was. -/
theorem absorbAll_of_covers (h : ∀ r ∈ rs, Covers stamp o r) : absorbAll stamp o rs = o := by
  induction rs with
  | nil => rfl
  | cons r rs ih =>
    have hr : absorb stamp o r = o := absorb_of_covers (h r List.mem_cons_self)
    calc absorbAll stamp o (r :: rs) = absorbAll stamp (absorb stamp o r) rs := rfl
      _ = absorbAll stamp o rs := by rw [hr]
      _ = o := ih fun r' hr' => h r' (List.mem_cons_of_mem _ hr')

/-- The outcome of a register, stated without the order of the offers. The last field is
the tie rule: an offer of equal stamp does not displace the incumbent. -/
structure Winner (stamp : ρ → σ) (o : Option ρ) (rs : List ρ) (w : Option ρ) : Prop where
  source : ∀ r, w = some r → o = some r ∨ r ∈ rs
  covers_old : ∀ c, o = some c → Covers stamp w c
  covers_new : ∀ r ∈ rs, Covers stamp w r
  tie : ∀ c r, o = some c → w = some r → stamp c = stamp r → c = r

/-- Offering the rows one after another reaches a winner. -/
theorem winner_absorbAll (o : Option ρ) (rs : List ρ) :
    Winner stamp o rs (absorbAll stamp o rs) := by
  induction rs generalizing o with
  | nil =>
    refine ⟨fun r h => .inl h, fun c h => ⟨c, h, le_rfl⟩, by simp, ?_⟩
    intro c r hc hr _
    exact Option.some.inj (hc.symm.trans hr)
  | cons r rs ih =>
    have hw := ih (absorb stamp o r)
    refine ⟨?_, ?_, fun r' h => covers_absorbAll_of_mem h, ?_⟩
    · intro w h
      rcases hw.source w h with hs | hm
      · rcases eq_or_eq_of_absorb hs with ho | rfl
        · exact .inl ho
        · exact .inr List.mem_cons_self
      · exact .inr (List.mem_cons_of_mem _ hm)
    · intro c hc
      have hcov : Covers stamp o c := ⟨c, hc, le_rfl⟩
      exact hcov.absorbAll (r :: rs)
    · intro c w hc hw' heq
      subst hc
      have hrest : absorbAll stamp (absorb stamp (some c) r) rs = some w := hw'
      by_cases hcov : Covers stamp (some c) r
      · exact hw.tie c w (absorb_of_covers hcov) hrest heq
      · -- the offered row took the register, so the winner's stamp is above the incumbent's
        have hle : stamp r ≤ stamp w := by
          have := hw.covers_old r (absorb_of_not_covers hcov)
          rwa [hrest, covers_some] at this
        exact absurd (covers_some.mpr (hle.trans heq.ge)) hcov

/-- An outcome does not depend on how the rows were listed. -/
theorem Winner.of_mem_iff {rs' : List ρ} {w : Option ρ} (h : Winner stamp o rs w)
    (same : ∀ r, r ∈ rs ↔ r ∈ rs') : Winner stamp o rs' w where
  source r hr := (h.source r hr).imp_right (same r).mp
  covers_old := h.covers_old
  covers_new r hr := h.covers_new r ((same r).mpr hr)
  tie := h.tie

/-- Where equal stamps mean equal rows there is one winner, whatever listed the rows. -/
theorem Winner.unique {rs' : List ρ} {w w' : Option ρ} (hw : Winner stamp o rs w)
    (hw' : Winner stamp o rs' w') (same : ∀ r, r ∈ rs ↔ r ∈ rs')
    (agree : ∀ r ∈ rs, ∀ r' ∈ rs, stamp r = stamp r' → r = r') : w = w' := by
  have covered : ∀ {rs rs' : List ρ} {w w' : Option ρ}, Winner stamp o rs w →
      Winner stamp o rs' w' → (∀ r, r ∈ rs → r ∈ rs') → ∀ r, w = some r → Covers stamp w' r := by
    intro rs rs' w w' hw hw' sub r hr
    rcases hw.source r hr with ho | hm
    · exact hw'.covers_old r ho
    · exact hw'.covers_new r (sub r hm)
  cases hr : w with
  | none =>
    cases hr' : w' with
    | none => rfl
    | some r' =>
      have := covered hw' hw (fun r h => (same r).mpr h) r' hr'
      rw [hr] at this
      exact absurd this covers_none
  | some r =>
    obtain ⟨r', hr', hle⟩ := covered hw hw' (fun r h => (same r).mp h) r hr
    have hge := covered hw' hw (fun r h => (same r).mpr h) r' hr'
    rw [hr, covers_some] at hge
    have heq : stamp r = stamp r' := le_antisymm hle hge
    rw [hr', Option.some.injEq]
    rcases hw.source r hr with ho | hm
    · exact hw'.tie r r' ho hr' heq
    · rcases hw'.source r' hr' with ho' | hm'
      · exact (hw.tie r' r ho' hr heq.symm).symm
      · exact agree r hm r' ((same r').mpr hm') heq

end Register

/-! ## A store: one register per key -/

section Store

variable [DecidableEq κ] (key : ρ → κ) (stamp : ρ → σ)

/-- A row offered to the register of its key. -/
def offer (m : κ → Option ρ) (r : ρ) : κ → Option ρ :=
  Function.update m (key r) (absorb stamp (m (key r)) r)

/-- Rows offered one after another. -/
def offerAll (m : κ → Option ρ) (rs : List ρ) : κ → Option ρ := rs.foldl (offer key stamp) m

/-- The store holds, under the row's key, a stamp at least as large as the row's. -/
def Held (m : κ → Option ρ) (r : ρ) : Prop := Covers stamp (m (key r)) r

/-- Every row the store returns for a key carries that key. -/
def WellKeyed (m : κ → Option ρ) : Prop := ∀ k r, m k = some r → key r = k

/-- Within the set, a key and a stamp determine the row. -/
def OneRowPerStamp (S : Set ρ) : Prop :=
  ∀ r ∈ S, ∀ r' ∈ S, key r = key r' → stamp r = stamp r' → r = r'

/-- The rows a store holds. -/
def rowsOf (m : κ → Option ρ) : Set ρ := {r | ∃ k, m k = some r}

variable {key stamp} {m m' : κ → Option ρ} {r r' : ρ} {rs rs' : List ρ} {k : κ}

instance : Decidable (Held key stamp m r) :=
  inferInstanceAs (Decidable (Covers stamp (m (key r)) r))

theorem offer_self (m : κ → Option ρ) (r : ρ) :
    offer key stamp m r (key r) = absorb stamp (m (key r)) r := by
  simp only [offer, Function.update_self]

theorem offer_other (h : k ≠ key r) : offer key stamp m r k = m k := by
  simp only [offer, Function.update_of_ne h]

/-- A held row changes nothing. -/
theorem offer_of_held (h : Held key stamp m r) : offer key stamp m r = m := by
  rw [offer, absorb_of_covers h, Function.update_eq_self]

/-- A row that is not held is what its key holds next. -/
theorem offer_of_not_held (h : ¬ Held key stamp m r) :
    offer key stamp m r = Function.update m (key r) (some r) := by
  rw [offer, absorb_of_not_covers h]

/-- Offering a list to a store offers each register the rows of its key, in order. -/
theorem offerAll_apply (m : κ → Option ρ) (rs : List ρ) (k : κ) :
    offerAll key stamp m rs k = absorbAll stamp (m k) (rs.filter (fun r => key r = k)) := by
  induction rs generalizing m with
  | nil => rfl
  | cons r rs ih =>
    have step : offerAll key stamp m (r :: rs) k = offerAll key stamp (offer key stamp m r) rs k :=
      rfl
    rw [step, ih, List.filter_cons]
    by_cases h : key r = k
    · subst h
      simp only [decide_true, if_true, offer_self]
      rfl
    · simp only [decide_eq_true_eq, if_neg h, offer_other (Ne.symm h)]

theorem offerAll_append (m : κ → Option ρ) (rs rs' : List ρ) :
    offerAll key stamp m (rs ++ rs') = offerAll key stamp (offerAll key stamp m rs) rs' := by
  simp only [offerAll, List.foldl_append]

/-- What a key holds after the offers is a winner among the rows of that key. -/
theorem winner_offerAll (m : κ → Option ρ) (rs : List ρ) (k : κ) :
    Winner stamp (m k) (rs.filter (fun r => key r = k)) (offerAll key stamp m rs k) := by
  rw [offerAll_apply]
  exact winner_absorbAll (m k) _

/-- Offers never lower the stamp of a key. -/
theorem Held.offerAll (h : Held key stamp m r) (rs : List ρ) :
    Held key stamp (Lww.offerAll key stamp m rs) r := by
  unfold Held
  rw [offerAll_apply]
  exact Covers.absorbAll h _

/-- Every offered row is held afterwards. -/
theorem held_offerAll_of_mem (h : r ∈ rs) : Held key stamp (offerAll key stamp m rs) r := by
  unfold Held
  rw [offerAll_apply]
  exact covers_absorbAll_of_mem (List.mem_filter.mpr ⟨h, by simp only [decide_true]⟩)

/-- The store is unmoved exactly when it already held every offered row. -/
theorem offerAll_eq_self_iff : offerAll key stamp m rs = m ↔ ∀ r ∈ rs, Held key stamp m r := by
  constructor
  · intro h r hr
    exact h ▸ held_offerAll_of_mem hr
  · intro h
    funext k
    rw [offerAll_apply]
    refine absorbAll_of_covers fun r hr => ?_
    obtain ⟨hm, hk⟩ := List.mem_filter.mp hr
    have := h r hm
    rwa [Held, of_decide_eq_true hk] at this

/-- What a key holds after the offers was there before or was offered under that key. -/
theorem source_of_offerAll (h : offerAll key stamp m rs k = some r) :
    m k = some r ∨ (r ∈ rs ∧ key r = k) := by
  rw [offerAll_apply] at h
  rcases (winner_absorbAll (m k) _).source r h with ho | hm
  · exact .inl ho
  · obtain ⟨hm, hk⟩ := List.mem_filter.mp hm
    exact .inr ⟨hm, of_decide_eq_true hk⟩

/-- **Order, grouping and multiplicity are irrelevant.** Where a stamp determines the row,
two lists with the same rows leave a store the same. -/
theorem offerAll_congr (m : κ → Option ρ) (same : ∀ r, r ∈ rs ↔ r ∈ rs')
    (one : OneRowPerStamp key stamp {r | r ∈ rs}) :
    offerAll key stamp m rs = offerAll key stamp m rs' := by
  funext k
  rw [offerAll_apply, offerAll_apply]
  refine (winner_absorbAll (m k) _).unique (winner_absorbAll (m k) _) ?_ ?_
  · intro r
    simp only [List.mem_filter, same r]
  · intro r hr r' hr' heq
    obtain ⟨hm, hk⟩ := List.mem_filter.mp hr
    obtain ⟨hm', hk'⟩ := List.mem_filter.mp hr'
    exact one r hm r' hm' ((of_decide_eq_true hk).trans (of_decide_eq_true hk').symm) heq

/-! ### The join of two stores -/

/-- The larger-stamped of what two stores hold at a key; the first one on a tie. -/
def larger (stamp : ρ → σ) : Option ρ → Option ρ → Option ρ
  | o, none => o
  | o, some r => absorb stamp o r

@[simp] theorem larger_none (o : Option ρ) : larger stamp o none = o := rfl

@[simp] theorem larger_some (o : Option ρ) (r : ρ) : larger stamp o (some r) = absorb stamp o r :=
  rfl

@[simp] theorem none_larger (o : Option ρ) : larger stamp none o = o := by
  cases o <;> rfl

/-- The larger of the two covers the first. -/
theorem covers_larger {o o' : Option ρ} {r : ρ} (h : o = some r) :
    Covers stamp (larger stamp o o') r := by
  have held : Covers stamp o r := ⟨r, h, le_rfl⟩
  cases o' with
  | none => exact held
  | some r' => exact held.absorb r'

/-- The larger of the two covers the second. -/
theorem covers_larger' {o o' : Option ρ} {r : ρ} (h : o' = some r) :
    Covers stamp (larger stamp o o') r := by
  cases h
  exact covers_absorb_self o r

/-- A register that holds one of the two and covers both holds the larger. -/
theorem eq_larger {o o' w : Option ρ} (source : ∀ r, w = some r → o = some r ∨ o' = some r)
    (covers : ∀ r, o = some r → Covers stamp w r) (covers' : ∀ r, o' = some r → Covers stamp w r)
    (agree : ∀ r r', o = some r → o' = some r' → stamp r = stamp r' → r = r') :
    w = larger stamp o o' := by
  cases w with
  | none =>
    have empty : o = none := Option.eq_none_iff_forall_ne_some.mpr fun r h =>
      covers_none (covers r h)
    have empty' : o' = none := Option.eq_none_iff_forall_ne_some.mpr fun r h =>
      covers_none (covers' r h)
    rw [empty, empty']
    rfl
  | some w =>
    cases o' with
    | none => exact ((source w rfl).resolve_right (Option.some_ne_none w).symm).symm
    | some r' =>
      have above' : stamp r' ≤ stamp w := covers_some.mp (covers' r' rfl)
      cases o with
      | none => exact ((source w rfl).resolve_left (Option.some_ne_none w).symm).symm
      | some r =>
        have above : stamp r ≤ stamp w := covers_some.mp (covers r rfl)
        simp only [larger_some, absorb]
        split
        · rename_i hlt
          rcases source w rfl with h | h
          · cases h
            exact absurd above' (not_le.mpr hlt)
          · exact h.symm
        · rename_i hge
          rcases source w rfl with h | h
          · exact h.symm
          · cases h
            rw [agree r w rfl rfl (le_antisymm above (not_lt.mp hge))]

/-- **An exchange is a join.** Offering exactly the rows of a store that pass a filter
leaves at each key the larger of what was held and what passed. -/
theorem offerAll_of_lists {p : ρ → Bool} (wk : WellKeyed key m')
    (lists : ∀ r, r ∈ rs ↔ m' (key r) = some r ∧ p r = true) (k : κ) :
    offerAll key stamp m rs k = larger stamp (m k) ((m' k).filter p) := by
  have single : ∀ r, r ∈ rs.filter (fun r => key r = k) ↔ (m' k).filter p = some r := by
    intro r
    simp only [List.mem_filter, lists, decide_eq_true_eq, Option.filter_eq_some_iff]
    constructor
    · rintro ⟨⟨hm, hp⟩, rfl⟩
      exact ⟨hm, hp⟩
    · rintro ⟨hm, hp⟩
      have hk := wk k r hm
      exact ⟨⟨hk ▸ hm, hp⟩, hk⟩
  rw [offerAll_apply]
  cases hf : (m' k).filter p with
  | none =>
    have : rs.filter (fun r => key r = k) = [] := List.eq_nil_iff_forall_not_mem.mpr fun r hr => by
      rw [single, hf] at hr
      cases hr
    rw [this]
    rfl
  | some c =>
    have only : ∀ r, r ∈ rs.filter (fun r => key r = k) ↔ r ∈ [c] := by
      intro r
      rw [single, hf, Option.some.injEq, List.mem_singleton, eq_comm]
    refine (winner_absorbAll (m k) _).unique (winner_absorbAll (m k) [c]) only ?_
    intro r hr r' hr' _
    rw [List.mem_singleton.mp ((only r).mp hr), List.mem_singleton.mp ((only r').mp hr')]

end Store

end Lww
