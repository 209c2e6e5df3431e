import Concorrd.Lib.Ranked
import Concorrd.Api.Models

/-!
# Reordering the channels of a server

`reorder_channels` of `routers/servers.py`, between the loading of the channels and the commit: a list
that names every channel once is stored as positions from 0 on, and every other list is refused.
-/

namespace Concorrd.Api

open Ranked

def duplicateOrder : HttpError := ⟨400, "order contains duplicate channel ids", none⟩

def foreignOrder : HttpError := ⟨400, "order contains channel ids that do not belong to this server", none⟩

def partialOrder (expected got : Nat) : HttpError :=
  ⟨400, "order must list every channel of the server exactly once (expected " ++ toString expected ++
    ", got " ++ toString got ++ ")", none⟩

/-- The checks of the order against the channels that were loaded. -/
def checkOrder (existing requested : List Nat) : Except HttpError Unit := do
  refuse (¬ requested.Nodup) duplicateOrder
  refuse (¬ requested ⊆ existing) foreignOrder
  refuse (¬ existing ⊆ requested) (partialOrder existing.length requested.length)

/-- The position that the loop over the order leaves a channel with. -/
def Channel.placed (requested : List Nat) (id : Nat) (channel : Channel) : Channel :=
  { channel with position := (lastIndexOf id requested).getD channel.position }

/-- The loaded channels with their new positions, in the new order. -/
def reorderChannels (channels : List (Row Channel)) (requested : List Nat) : Except HttpError (List (Row Channel)) := do
  checkOrder (channels.map Row.id) requested
  return (channels.map fun row => ⟨row.id, row.val.placed requested row.id⟩).insertionSort fun a b =>
    a.val.position ≤ b.val.position

variable {existing requested : List Nat} {channels updated : List (Row Channel)}

theorem checkOrder_eq_ok : checkOrder existing requested = .ok () ↔
    requested.Nodup ∧ requested ⊆ existing ∧ existing ⊆ requested := by
  rw [checkOrder, refuse_bind, refuse_bind, refuse]
  by_cases distinct : requested.Nodup
  · by_cases own : requested ⊆ existing
    · by_cases all : existing ⊆ requested <;> simp [distinct, own, all]
    · simp [distinct, own]
  · simp [distinct]

/-- What is stored is what was asked for. -/
theorem ids_of_reorderChannels (distinct : (channels.map Row.id).Nodup)
    (stored : reorderChannels channels requested = .ok updated) :
    requested.Nodup ∧ (channels.map Row.id).Perm requested ∧ updated.map Row.id = requested := by
  obtain ⟨checked, same⟩ : checkOrder (channels.map Row.id) requested = .ok () ∧
      ((channels.map fun row => ⟨row.id, row.val.placed requested row.id⟩).insertionSort fun a b =>
        a.val.position ≤ b.val.position) = updated := by
    rw [reorderChannels] at stored
    cases checked : checkOrder (channels.map Row.id) requested with
    | error e => rw [checked] at stored; cases stored
    | ok u => rw [checked] at stored; exact ⟨rfl, Except.ok.inj stored⟩
  obtain ⟨once, own, all⟩ := checkOrder_eq_ok.mp checked
  have perm : (channels.map Row.id).Perm requested :=
    (List.perm_ext_iff_of_nodup distinct once).mpr fun id => ⟨fun mem => all mem, fun mem => own mem⟩
  refine ⟨once, perm, ?_⟩
  rw [← same]
  refine map_insertionSort (by rw [List.map_map]; exact perm) (pairwise_lastIndexOf once 0) ?_
  intro row mem
  obtain ⟨loaded, found, rfl⟩ := List.mem_map.mp mem
  obtain ⟨i, place⟩ := Option.isSome_iff_exists.mp (isSome_lastIndexOf (all (List.mem_map_of_mem found)))
  simp [Channel.placed, place]

end Concorrd.Api
