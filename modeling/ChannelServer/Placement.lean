import ChannelServer.Objects

/-! # The placement loops of `TradeFinish` — which item lands in which slot

    Step 2 of `Parsers::TradeFinish::Parse` (lines 201–231) runs the same loop
    twice, once per receiving inventory:

        for (i = 0; i < ItemsCount() && itemIter != items.end(); i++)
          if (freeSlots.find(i) != freeSlots.end()) { place *itemIter++ at i }

    `placeItems F slots L` is that loop over the index list `slots`: the list
    of writes `(slot, item)` it performs, in order.  Its whole behaviour is
    `placeItems_eq_zip`: the writes pair the members of `F` met along `slots`
    with `L`, in order, until one of the two runs out.  Over `0 … ItemsCount-1`
    the members met are `slotsBelow F`, the members of `F` below `ItemsCount`
    in increasing order, which gives the loop's contract. -/

namespace TradePlacement

open ChannelObjects

/-- One placement loop: scan `slots` while items remain; a slot in `F` takes
    the next item. -/
def placeItems (F : Finset Nat) : List Nat → List UUID → List (Nat × UUID)
  | [], _ => []
  | _ :: _, [] => []
  | i :: is, x :: xs =>
      if i ∈ F then (i, x) :: placeItems F is xs else placeItems F is (x :: xs)

/-- The members of `F` below `ItemsCount`, smallest first. -/
def slotsBelow (F : Finset Nat) : List Nat :=
  (F.filter (· < ItemsCount)).sort (· ≤ ·)

/-- **THE LOOP IS A ZIP**: the writes pair the members of `F` met along
    `slots` with the items, in order. -/
theorem placeItems_eq_zip (F : Finset Nat) (slots : List Nat) (L : List UUID) :
    placeItems F slots L = (slots.filter (· ∈ F)).zip L := by
  induction slots generalizing L with
  | nil => rfl
  | cons i is ih =>
      cases L with
      | nil => simp [placeItems]
      | cons x xs =>
          by_cases hi : i ∈ F
          · simp [placeItems, hi, ih]
          · simp [placeItems, hi, ih]

/-- Scanning `0 … ItemsCount-1` meets the members of `F` below `ItemsCount`
    in increasing order. -/
theorem range_filter_eq_slotsBelow (F : Finset Nat) :
    (List.range ItemsCount).filter (· ∈ F) = slotsBelow F := by
  unfold slotsBelow
  apply List.eq_of_perm_of_sorted (r := (· ≤ ·))
  · rw [List.perm_ext_iff_of_nodup ((List.nodup_range _).filter _) (Finset.sort_nodup _ _)]
    intro i
    simp [and_comm]
  · exact ((List.sorted_lt_range _).filter _).le_of_lt
  · exact Finset.sort_sorted _ _

theorem placeItems_range (F : Finset Nat) (L : List UUID) :
    placeItems F (List.range ItemsCount) L = (slotsBelow F).zip L := by
  rw [placeItems_eq_zip, range_filter_eq_slotsBelow]

/-- **PLACEMENT LOOP CONTRACT.**  With `k` items and `S` the free slots below
    `ItemsCount` in increasing order, the loop writes the `j`-th item into the
    `j`-th slot of `S`.  If `k ≤ |S|` it writes exactly the first `k` slots of
    `S` and places every item; otherwise it fills all of `S` and places exactly
    the first `|S|` items. -/
theorem placement_loop_contract (F : Finset Nat) (L : List UUID) :
    placeItems F (List.range ItemsCount) L = (slotsBelow F).zip L ∧
    (L.length ≤ (slotsBelow F).length →
      (placeItems F (List.range ItemsCount) L).map Prod.fst = (slotsBelow F).take L.length ∧
      (placeItems F (List.range ItemsCount) L).map Prod.snd = L) ∧
    ((slotsBelow F).length < L.length →
      (placeItems F (List.range ItemsCount) L).map Prod.fst = slotsBelow F ∧
      (placeItems F (List.range ItemsCount) L).map Prod.snd = L.take (slotsBelow F).length) := by
  rw [placeItems_range]
  refine ⟨rfl, fun hk => ⟨?_, List.map_snd_zip _ _ hk⟩, fun hk => ⟨List.map_fst_zip _ _ hk.le, ?_⟩⟩
  · rw [List.zip_eq_zip_take_min, Nat.min_eq_right hk, List.take_length,
      List.map_fst_zip _ _ (by simp)]
  · rw [List.zip_eq_zip_take_min, Nat.min_eq_left hk.le, List.take_length,
      List.map_snd_zip _ _ (by simp)]

/-- The slots a placement loop writes are distinct members of `F` below
    `ItemsCount`. -/
theorem placeItems_range_slots (F : Finset Nat) (L : List UUID) :
    ((placeItems F (List.range ItemsCount) L).map Prod.fst).Sublist (slotsBelow F) := by
  rw [placeItems_range, List.zip_eq_zip_take_min, List.map_fst_zip _ _ (by simp)]
  exact List.take_sublist _ _

/-- The items a placement loop places are a prefix of its list. -/
theorem placeItems_range_items (F : Finset Nat) (L : List UUID) :
    ((placeItems F (List.range ItemsCount) L).map Prod.snd).Sublist L := by
  rw [placeItems_range, List.zip_eq_zip_take_min, List.map_snd_zip _ _ (by simp)]
  exact List.take_sublist _ _

theorem mem_slotsBelow {F : Finset Nat} {i : Nat} : i ∈ slotsBelow F ↔ i ∈ F ∧ i < ItemsCount := by
  simp [slotsBelow]

theorem nodup_slotsBelow (F : Finset Nat) : (slotsBelow F).Nodup := Finset.sort_nodup _ _

end TradePlacement
