import ChannelServer.TradeSteps

/-! # The commit of `TradeFinish` — capacity, placement and conservation

    When both sides are finished and every staged item really sits in its
    owner's inventory, `TradeFinish` commits exactly when each side's items fit
    into the other side's free slots plus the slots it vacates.  The commit then
    moves every staged item, in staging order, into the lowest such slots of the
    other inventory, leaves every other slot alone, points each moved item's
    back-reference at its new slot, and keeps the items of the two inventories
    the same set with no item in two slots.

    The route:

    * one side at a time: a held item sits at its recorded slot
      (`slot_recorded`), so the loop's free set is `openSlots` and its size is
      the free slots plus the staged items (`card_loopFreeSlots`);
    * `tradeWorld`, slot by slot (`slot_tradeWorld_*`, `items_tradeWorld_*`);
    * consistency survives the commit (`consistent_tradeWorld_*`), which gives
      no item in two slots, and membership is conserved, which gives the
      permutation. -/

namespace TradeCommit

open ChannelObjects ChannelWorld ChannelTrade TradePlacement TradeSteps

/-- The slots of `box` a trade may fill: the empty ones and those holding an
    item of `L`, which the trade vacates. -/
def openSlots (w : World) (box : UUID) (L : List UUID) : Finset Nat :=
  (Finset.range ItemsCount).filter fun i => ∀ x, w.slot box i = some x → x ∈ L

@[simp] theorem openSlots_setFinished (w : World) (c : EntityId) :
    openSlots (setFinished w c) = openSlots w := rfl

/-! ## One side -/

section Side

variable {w : World} {box : UUID} {L : List UUID}

/-- A held item of a consistent box sits at its recorded slot. -/
theorem slot_recorded (hc : w.BoxConsistent box) {x : UUID} (hx : x ∈ w.held box) :
    w.slot box (sizeT (w.items x).boxSlot) = some x ∧ sizeT (w.items x).boxSlot < ItemsCount ∧
      (w.items x).itemBox = box := by
  obtain ⟨i, hi⟩ := World.mem_held.mp hx
  have hlt := World.lt_of_slot_eq_some hi
  obtain ⟨hbox, hslot⟩ := hc.of_slot hi
  rw [hslot, sizeT_natCast (by unfold ItemsCount at hlt; omega)]
  exact ⟨hi, hlt, hbox⟩

/-- Over held items of a consistent box, the loop's free set is `openSlots`. -/
theorem loopFreeSlots_eq (hc : w.BoxConsistent box) (hL : ∀ x ∈ L, x ∈ w.held box) :
    loopFreeSlots w box L = openSlots w box L := by
  ext i
  simp only [loopFreeSlots, openSlots, Finset.mem_union, mem_getFreeSlots, List.mem_toFinset,
    List.mem_map, Finset.mem_filter, Finset.mem_range]
  constructor
  · rintro (⟨hi, hnone⟩ | ⟨x, hx, rfl⟩)
    · refine ⟨hi, fun y hy => ?_⟩
      rw [World.slot, hnone] at hy
      cases hy
    · obtain ⟨hs, hlt, -⟩ := slot_recorded hc (hL x hx)
      exact ⟨hlt, fun y hy => by rw [hs] at hy; cases hy; exact hx⟩
  · rintro ⟨hi, hall⟩
    cases hs : w.slot box i with
    | none => exact .inl ⟨hi, hs⟩
    | some y =>
        refine .inr ⟨y, hall y hs, ?_⟩
        rw [(hc.of_slot hs).2, sizeT_natCast (by unfold ItemsCount at hi; omega)]

/-- **FREE-SLOT COUNT**: the loop's free set has the box's empty slots plus one
    slot per staged item. -/
theorem card_loopFreeSlots (hc : w.BoxConsistent box) (hL : ∀ x ∈ L, x ∈ w.held box)
    (hnd : L.Nodup) :
    (loopFreeSlots w box L).card = (getFreeSlots (w.boxes box)).card + L.length := by
  rw [loopFreeSlots, Finset.card_union_of_disjoint, List.toFinset_card_of_nodup, List.length_map]
  · refine hnd.map_on fun x hx y hy hxy => ?_
    have h1 := (slot_recorded hc (hL x hx)).1
    rw [hxy, (slot_recorded hc (hL y hy)).1] at h1
    exact (Option.some.inj h1).symm
  · refine Finset.disjoint_left.mpr fun i hi hi' => ?_
    obtain ⟨x, hx, rfl⟩ := List.mem_map.mp (List.mem_toFinset.mp hi')
    have h1 := (slot_recorded hc (hL x hx)).1
    rw [World.slot, (mem_getFreeSlots.mp hi).2] at h1
    cases h1

end Side

/-! ## Both sides -/

/-- The ground truth the commit relies on: two distinct consistent
    inventories, and each side's staged items held in its own inventory,
    without repetition. -/
structure SidesHeld (w : World) (a b : EntityId) : Prop where
  distinct : w.inventoryOf a ≠ w.inventoryOf b
  consistent_a : w.BoxConsistent (w.inventoryOf a)
  consistent_b : w.BoxConsistent (w.inventoryOf b)
  nodup_a : (stagedItems w a).Nodup
  nodup_b : (stagedItems w b).Nodup
  held_a : ∀ x ∈ stagedItems w a, x ∈ w.held (w.inventoryOf a)
  held_b : ∀ x ∈ stagedItems w b, x ∈ w.held (w.inventoryOf b)

/-- Where the trade puts `a`'s staged items: in staging order, into the open
    slots of `b`'s inventory, lowest first. -/
def transfers (w : World) (a b : EntityId) : List (Nat × UUID) :=
  (slotsBelow (openSlots w (w.inventoryOf b) (stagedItems w b))).zip (stagedItems w a)

@[simp] theorem transfers_setFinished (w : World) (c a b : EntityId) :
    transfers (setFinished w c) a b = transfers w a b := by
  simp [transfers, openSlots]

namespace SidesHeld

variable {w : World} {a b : EntityId}

theorem symm (h : SidesHeld w a b) : SidesHeld w b a :=
  ⟨h.distinct.symm, h.consistent_b, h.consistent_a, h.nodup_b, h.nodup_a, h.held_b, h.held_a⟩

theorem box_of_mem (h : SidesHeld w a b) {x : UUID} (hx : x ∈ stagedItems w a) :
    (w.items x).itemBox = w.inventoryOf a :=
  (slot_recorded h.consistent_a (h.held_a x hx)).2.2

theorem phantomFree (h : SidesHeld w a b) : PhantomFree w a := fun _ => h.box_of_mem

theorem not_mem_of_mem (h : SidesHeld w a b) {x : UUID} (hx : x ∈ stagedItems w a) :
    x ∉ stagedItems w b := fun hb => h.distinct ((h.box_of_mem hx).symm.trans (h.symm.box_of_mem hb))

theorem loopFreeSlots_eq (h : SidesHeld w a b) :
    loopFreeSlots w (w.inventoryOf a) (stagedItems w a) =
      openSlots w (w.inventoryOf a) (stagedItems w a) :=
  TradeCommit.loopFreeSlots_eq h.consistent_a h.held_a

theorem of_setFinished (h : SidesHeld w a b) (c : EntityId) :
    SidesHeld (setFinished w c) a b where
  distinct := by simpa using h.distinct
  consistent_a := by rw [inventoryOf_setFinished]; exact h.consistent_a
  consistent_b := by rw [inventoryOf_setFinished]; exact h.consistent_b
  nodup_a := by simpa using h.nodup_a
  nodup_b := by simpa using h.nodup_b
  held_a := by simpa using h.held_a
  held_b := by simpa using h.held_b

end SidesHeld

theorem length_slotsBelow_openSlots (w : World) (box : UUID) (L : List UUID) :
    (slotsBelow (openSlots w box L)).length = (openSlots w box L).card := by
  rw [slotsBelow, Finset.length_sort, Finset.filter_true_of_mem]
  intro i hi
  exact Finset.mem_range.mp (Finset.mem_filter.mp hi).1

theorem mem_transfers {w : World} {a b : EntityId} {p : Nat × UUID} (hp : p ∈ transfers w a b) :
    p.2 ∈ stagedItems w a ∧ p.1 < ItemsCount ∧
      p.1 ∈ openSlots w (w.inventoryOf b) (stagedItems w b) := by
  have h := List.of_mem_zip hp
  exact ⟨h.2, (mem_slotsBelow.mp h.1).2, (mem_slotsBelow.mp h.1).1⟩

theorem not_mem_transfers {w : World} {a b : EntityId} {x : UUID} (hx : x ∉ stagedItems w a) :
    x ∉ (transfers w a b).map Prod.snd := by
  rw [transfers, ← placeItems_range]
  exact not_mem_placeItems hx

theorem nodup_transfers_slots (w : World) (a b : EntityId) :
    ((transfers w a b).map Prod.fst).Nodup := by
  rw [transfers, ← placeItems_range]
  exact (nodup_slotsBelow _).sublist (placeItems_range_slots _ _)

theorem nodup_transfers_items {w : World} {a b : EntityId} (h : (stagedItems w a).Nodup) :
    ((transfers w a b).map Prod.snd).Nodup := by
  rw [transfers, ← placeItems_range]
  exact h.sublist (placeItems_range_items _ _)

theorem transfers_items_eq {w : World} {a b : EntityId}
    (hcap : (stagedItems w a).length ≤ (openSlots w (w.inventoryOf b) (stagedItems w b)).card) :
    (transfers w a b).map Prod.snd = stagedItems w a :=
  List.map_snd_zip _ _ (by rw [length_slotsBelow_openSlots]; exact hcap)

/-! ## The commit, slot by slot -/

/-- The world the commit leaves when each loop's free set is the open slots. -/
def movedWorld (w : World) (a b : EntityId) : World :=
  tradeWorld w a b (stagedItems w a) (stagedItems w b)
    (openSlots w (w.inventoryOf a) (stagedItems w a)) (openSlots w (w.inventoryOf b) (stagedItems w b))

section Moved

variable {w : World} {a b : EntityId}

theorem movedWorld_eq (w : World) (a b : EntityId) :
    movedWorld w a b =
      placeAll (placeAll (vacate (vacate w a (w.inventoryOf a) (stagedItems w a)) b
        (w.inventoryOf b) (stagedItems w b)) (w.inventoryOf a) (transfers w b a))
        (w.inventoryOf b) (transfers w a b) := by
  simp only [movedWorld, tradeWorld, placeItems_range, transfers]

/-- Each of `a`'s items lands in its slot of `b`'s inventory. -/
theorem slot_moved_of_transfer {p : Nat × UUID} (hp : p ∈ transfers w a b) :
    (movedWorld w a b).slot (w.inventoryOf b) p.1 = some p.2 :=
  movedWorld_eq w a b ▸ slot_placeAll_of_mem (nodup_transfers_slots w a b) (mem_transfers hp).2.1 hp

/-- Each of `b`'s items lands in its slot of `a`'s inventory. -/
theorem slot_moved_of_transfer' (h : SidesHeld w a b) {p : Nat × UUID} (hp : p ∈ transfers w b a) :
    (movedWorld w a b).slot (w.inventoryOf a) p.1 = some p.2 := by
  rw [movedWorld_eq, slot_placeAll_of_not_mem (.inl h.distinct)]
  exact slot_placeAll_of_mem (nodup_transfers_slots w b a) (mem_transfers hp).2.1 hp

/-- A moved item of `a` records its new box and slot. -/
theorem items_moved_of_transfer (h : SidesHeld w a b) {p : Nat × UUID} (hp : p ∈ transfers w a b) :
    (movedWorld w a b).items p.2 =
      { w.items p.2 with boxSlot := int8 p.1, itemBox := w.inventoryOf b } := by
  rw [movedWorld_eq, items_placeAll_of_mem (nodup_transfers_items h.nodup_a) hp,
    items_placeAll_of_not_mem (not_mem_transfers (h.not_mem_of_mem (mem_transfers hp).1)),
    vacate_items, vacate_items]

/-- A moved item of `b` records its new box and slot. -/
theorem items_moved_of_transfer' (h : SidesHeld w a b) {p : Nat × UUID} (hp : p ∈ transfers w b a) :
    (movedWorld w a b).items p.2 =
      { w.items p.2 with boxSlot := int8 p.1, itemBox := w.inventoryOf a } := by
  rw [movedWorld_eq,
    items_placeAll_of_not_mem (not_mem_transfers (h.symm.not_mem_of_mem (mem_transfers hp).1)),
    items_placeAll_of_mem (nodup_transfers_items h.nodup_b) hp, vacate_items, vacate_items]

/-- Items of neither side keep their fields. -/
theorem items_moved_of_not_mem {x : UUID} (ha : x ∉ stagedItems w a) (hb : x ∉ stagedItems w b) :
    (movedWorld w a b).items x = w.items x := by
  rw [movedWorld_eq, items_placeAll_of_not_mem (not_mem_transfers ha),
    items_placeAll_of_not_mem (not_mem_transfers hb), vacate_items, vacate_items]

/-- A slot of `b`'s inventory that receives nothing is cleared if a staged
    item of `b` recorded it, and is otherwise unchanged. -/
theorem slot_moved_of_not_transfer (h : SidesHeld w a b) {i : Nat}
    (hi : i ∉ (transfers w a b).map Prod.fst) :
    (movedWorld w a b).slot (w.inventoryOf b) i =
      if (∃ y ∈ stagedItems w b, sizeT (w.items y).boxSlot = i) ∧ i < ItemsCount then none
      else w.slot (w.inventoryOf b) i := by
  rw [movedWorld_eq, slot_placeAll_of_not_mem (.inr hi),
    slot_placeAll_of_not_mem (.inl (Ne.symm h.distinct)), slot_vacate, vacate_items,
    slot_vacate]
  simp [Ne.symm h.distinct]

/-- A slot of `a`'s inventory that receives nothing is cleared if a staged
    item of `a` recorded it, and is otherwise unchanged. -/
theorem slot_moved_of_not_transfer' (h : SidesHeld w a b) {i : Nat}
    (hi : i ∉ (transfers w b a).map Prod.fst) :
    (movedWorld w a b).slot (w.inventoryOf a) i =
      if (∃ y ∈ stagedItems w a, sizeT (w.items y).boxSlot = i) ∧ i < ItemsCount then none
      else w.slot (w.inventoryOf a) i := by
  rw [movedWorld_eq, slot_placeAll_of_not_mem (.inl h.distinct), slot_placeAll_of_not_mem (.inr hi),
    slot_vacate, vacate_items, slot_vacate]
  simp [h.distinct]

/-- A slot of `b`'s inventory holding no staged item of `b` and receiving
    nothing keeps its entry. -/
theorem slot_moved_other (h : SidesHeld w a b) {i : Nat}
    (hfree : ∀ x ∈ stagedItems w b, w.slot (w.inventoryOf b) i ≠ some x)
    (hi : i ∉ (transfers w a b).map Prod.fst) :
    (movedWorld w a b).slot (w.inventoryOf b) i = w.slot (w.inventoryOf b) i := by
  rw [slot_moved_of_not_transfer h hi, if_neg]
  rintro ⟨⟨y, hy, rfl⟩, -⟩
  exact hfree y hy (slot_recorded h.consistent_b (h.held_b y hy)).1

theorem slot_moved_other' (h : SidesHeld w a b) {i : Nat}
    (hfree : ∀ x ∈ stagedItems w a, w.slot (w.inventoryOf a) i ≠ some x)
    (hi : i ∉ (transfers w b a).map Prod.fst) :
    (movedWorld w a b).slot (w.inventoryOf a) i = w.slot (w.inventoryOf a) i := by
  rw [slot_moved_of_not_transfer' h hi, if_neg]
  rintro ⟨⟨y, hy, rfl⟩, -⟩
  exact hfree y hy (slot_recorded h.consistent_a (h.held_a y hy)).1

/-- An item held outside the staged ones sits in a slot the trade neither
    vacates nor fills. -/
theorem held_moved_of_not_staged (h : SidesHeld w a b) {x : UUID}
    (hx : x ∈ w.held (w.inventoryOf b)) (hxb : x ∉ stagedItems w b) :
    x ∈ (movedWorld w a b).held (w.inventoryOf b) := by
  obtain ⟨i, hi⟩ := World.mem_held.mp hx
  have hfree : ∀ y ∈ stagedItems w b, w.slot (w.inventoryOf b) i ≠ some y :=
    fun y hy hiy => hxb (Option.some.inj (hi.symm.trans hiy) ▸ hy)
  have hnt : i ∉ (transfers w a b).map Prod.fst := fun hm => by
    obtain ⟨p, hp, rfl⟩ := List.mem_map.mp hm
    exact hxb ((Finset.mem_filter.mp (mem_transfers hp).2.2).2 x hi)
  exact World.mem_held.mpr ⟨i, (slot_moved_other h hfree hnt).trans hi⟩

theorem held_moved_of_not_staged' (h : SidesHeld w a b) {x : UUID}
    (hx : x ∈ w.held (w.inventoryOf a)) (hxa : x ∉ stagedItems w a) :
    x ∈ (movedWorld w a b).held (w.inventoryOf a) := by
  obtain ⟨i, hi⟩ := World.mem_held.mp hx
  have hfree : ∀ y ∈ stagedItems w a, w.slot (w.inventoryOf a) i ≠ some y :=
    fun y hy hiy => hxa (Option.some.inj (hi.symm.trans hiy) ▸ hy)
  have hnt : i ∉ (transfers w b a).map Prod.fst := fun hm => by
    obtain ⟨p, hp, rfl⟩ := List.mem_map.mp hm
    exact hxa ((Finset.mem_filter.mp (mem_transfers hp).2.2).2 x hi)
  exact World.mem_held.mpr ⟨i, (slot_moved_other' h hfree hnt).trans hi⟩

/-- What `b`'s inventory holds after the commit came from `a`'s staged items
    or was there before. -/
theorem mem_of_held_moved (h : SidesHeld w a b) {x : UUID}
    (hx : x ∈ (movedWorld w a b).held (w.inventoryOf b)) :
    x ∈ stagedItems w a ∨ x ∈ w.held (w.inventoryOf b) := by
  obtain ⟨i, hi⟩ := World.mem_held.mp hx
  by_cases ht : i ∈ (transfers w a b).map Prod.fst
  · obtain ⟨p, hp, rfl⟩ := List.mem_map.mp ht
    rw [slot_moved_of_transfer hp] at hi
    exact .inl (Option.some.inj hi ▸ (mem_transfers hp).1)
  · rw [slot_moved_of_not_transfer h ht] at hi
    split_ifs at hi
    exact .inr (World.mem_held.mpr ⟨i, hi⟩)

theorem mem_of_held_moved' (h : SidesHeld w a b) {x : UUID}
    (hx : x ∈ (movedWorld w a b).held (w.inventoryOf a)) :
    x ∈ stagedItems w b ∨ x ∈ w.held (w.inventoryOf a) := by
  obtain ⟨i, hi⟩ := World.mem_held.mp hx
  by_cases ht : i ∈ (transfers w b a).map Prod.fst
  · obtain ⟨p, hp, rfl⟩ := List.mem_map.mp ht
    rw [slot_moved_of_transfer' h hp] at hi
    exact .inl (Option.some.inj hi ▸ (mem_transfers hp).1)
  · rw [slot_moved_of_not_transfer' h ht] at hi
    split_ifs at hi
    exact .inr (World.mem_held.mpr ⟨i, hi⟩)

theorem SidesHeld.commitReady (h : SidesHeld w a b) :
    CommitReady w a b (stagedItems w a) (stagedItems w b) :=
  ⟨h.distinct, fun _ => h.box_of_mem, fun _ => h.symm.box_of_mem, h.nodup_a, h.nodup_b⟩

/-- **CONSISTENCY SURVIVES THE COMMIT** in `b`'s inventory. -/
theorem consistent_moved (h : SidesHeld w a b) : (movedWorld w a b).BoxConsistent (w.inventoryOf b) :=
  consistent_tradeWorld h.commitReady h.consistent_b

/-- **CONSISTENCY SURVIVES THE COMMIT** in `a`'s inventory. -/
theorem consistent_moved' (h : SidesHeld w a b) : (movedWorld w a b).BoxConsistent (w.inventoryOf a) :=
  consistent_tradeWorld h.commitReady h.consistent_a

end Moved

/-! ## The contract -/

/-- What a committed trade leaves in `w'`, against the world `w` it started
    from: each side's staged items sit, with back-references to match, in the
    slots `transfers` assigns them; every slot neither vacated nor filled is
    unchanged; and the two inventories hold the same items as before, none
    twice. -/
structure TradeEffects (w w' : World) (a b : EntityId) : Prop where
  placed : ∀ p ∈ transfers w a b, w'.slot (w.inventoryOf b) p.1 = some p.2 ∧
    (w'.items p.2).itemBox = w.inventoryOf b ∧ (w'.items p.2).boxSlot = p.1
  placed' : ∀ p ∈ transfers w b a, w'.slot (w.inventoryOf a) p.1 = some p.2 ∧
    (w'.items p.2).itemBox = w.inventoryOf a ∧ (w'.items p.2).boxSlot = p.1
  moved : ∀ x ∈ stagedItems w a, x ∈ w'.held (w.inventoryOf b)
  moved' : ∀ x ∈ stagedItems w b, x ∈ w'.held (w.inventoryOf a)
  others : ∀ i, (∀ x ∈ stagedItems w b, w.slot (w.inventoryOf b) i ≠ some x) →
    i ∉ (transfers w a b).map Prod.fst → w'.slot (w.inventoryOf b) i = w.slot (w.inventoryOf b) i
  others' : ∀ i, (∀ x ∈ stagedItems w a, w.slot (w.inventoryOf a) i ≠ some x) →
    i ∉ (transfers w b a).map Prod.fst → w'.slot (w.inventoryOf a) i = w.slot (w.inventoryOf a) i
  conserved : (w'.held (w.inventoryOf a) ++ w'.held (w.inventoryOf b)).Perm
    (w.held (w.inventoryOf a) ++ w.held (w.inventoryOf b))
  nodup : (w'.held (w.inventoryOf a) ++ w'.held (w.inventoryOf b)).Nodup

namespace TradeEffects

variable {w w' : World} {a b : EntityId}

/-- The effects only read the boxes and the items of the final world. -/
theorem of_objects (h : TradeEffects w w' a b) {w'' : World} (hb : w''.boxes = w'.boxes)
    (hi : w''.items = w'.items) : TradeEffects w w'' a b := by
  obtain ⟨⟩ := w''
  obtain ⟨⟩ := w'
  simp only at hb hi
  subst hb hi
  exact ⟨h.1, h.2, h.3, h.4, h.5, h.6, h.7, h.8⟩

/-- Marking a side finished does not change what the effects compare against. -/
theorem of_setFinished {c : EntityId} (h : TradeEffects (setFinished w c) w' a b) :
    TradeEffects w w' a b := by
  obtain ⟨h1, h2, h3, h4, h5, h6, h7, h8⟩ := h
  simp only [transfers_setFinished, inventoryOf_setFinished, stagedItems_setFinished,
    slot_setFinished, held_setFinished] at h1 h2 h3 h4 h5 h6 h7 h8
  exact ⟨h1, h2, h3, h4, h5, h6, h7, h8⟩

end TradeEffects

section Contract

variable {w : World} {a b : EntityId}

/-- With room on both sides, every staged item of `a` reaches `b`'s inventory. -/
theorem held_moved_of_staged (hcap : (stagedItems w a).length ≤
      (openSlots w (w.inventoryOf b) (stagedItems w b)).card) {x : UUID}
    (hx : x ∈ stagedItems w a) : x ∈ (movedWorld w a b).held (w.inventoryOf b) := by
  rw [← transfers_items_eq hcap] at hx
  obtain ⟨p, hp, rfl⟩ := List.mem_map.mp hx
  exact World.mem_held.mpr ⟨p.1, slot_moved_of_transfer hp⟩

theorem held_moved_of_staged' (h : SidesHeld w a b) (hcap : (stagedItems w b).length ≤
      (openSlots w (w.inventoryOf a) (stagedItems w a)).card) {x : UUID}
    (hx : x ∈ stagedItems w b) : x ∈ (movedWorld w a b).held (w.inventoryOf a) := by
  rw [← transfers_items_eq hcap] at hx
  obtain ⟨p, hp, rfl⟩ := List.mem_map.mp hx
  exact World.mem_held.mpr ⟨p.1, slot_moved_of_transfer' h hp⟩

/-- **THE COMMIT'S EFFECTS**, on the moved world. -/
theorem tradeEffects_moved (h : SidesHeld w a b)
    (hcap : (stagedItems w a).length ≤ (openSlots w (w.inventoryOf b) (stagedItems w b)).card)
    (hcap' : (stagedItems w b).length ≤ (openSlots w (w.inventoryOf a) (stagedItems w a)).card) :
    TradeEffects w (movedWorld w a b) a b where
  placed p hp := by
    have hlt := (mem_transfers hp).2.1
    rw [items_moved_of_transfer h hp]
    exact ⟨slot_moved_of_transfer hp, rfl, int8_of_lt (by unfold ItemsCount at hlt; omega)⟩
  placed' p hp := by
    have hlt := (mem_transfers hp).2.1
    rw [items_moved_of_transfer' h hp]
    exact ⟨slot_moved_of_transfer' h hp, rfl, int8_of_lt (by unfold ItemsCount at hlt; omega)⟩
  moved _ := held_moved_of_staged hcap
  moved' _ := held_moved_of_staged' h hcap'
  others _ := slot_moved_other h
  others' _ := slot_moved_other' h
  conserved := by
    refine (List.perm_ext_iff_of_nodup
      (World.nodup_held_append (consistent_moved' h) (consistent_moved h) h.distinct)
      (World.nodup_held_append h.consistent_a h.consistent_b h.distinct)).mpr fun x => ?_
    simp only [List.mem_append]
    constructor
    · rintro (hx | hx)
      · exact (mem_of_held_moved' h hx).elim (.inr <| h.held_b x ·) .inl
      · exact (mem_of_held_moved h hx).elim (.inl <| h.held_a x ·) .inr
    · rintro (hx | hx)
      · by_cases hxa : x ∈ stagedItems w a
        · exact .inr (held_moved_of_staged hcap hxa)
        · exact .inl (held_moved_of_not_staged' h hx hxa)
      · by_cases hxb : x ∈ stagedItems w b
        · exact .inl (held_moved_of_staged' h hcap' hxb)
        · exact .inr (held_moved_of_not_staged h hx hxb)
  nodup := World.nodup_held_append (consistent_moved' h) (consistent_moved h) h.distinct

/-- The loop's free set, counted: the empty slots plus the staged items. -/
theorem card_openSlots (h : SidesHeld w a b) :
    (openSlots w (w.inventoryOf a) (stagedItems w a)).card =
      (getFreeSlots (w.boxes (w.inventoryOf a))).card + (stagedItems w a).length := by
  rw [← h.loopFreeSlots_eq, card_loopFreeSlots h.consistent_a h.held_a h.nodup_a]

variable {db : ChangeSet → Bool}

/-- With both sides held, the settlement after `a` is marked finished reads
    as the two capacity checks over the open slots, then the commit. -/
theorem settleTrade_of_held {sB : ExchangeSession} (hsB : w.session b = some sB)
    (h : SidesHeld w a b) :
    settleTrade db (markFinished ⟨w, []⟩ a b) a b =
      if (openSlots w (w.inventoryOf b) (stagedItems w b)).card < (stagedItems w a).length then
        ((markFinished ⟨w, []⟩ a b).endExchange a 3).endExchange b 2
      else if (openSlots w (w.inventoryOf a) (stagedItems w a)).card < (stagedItems w b).length then
        ((markFinished ⟨w, []⟩ a b).endExchange a 2).endExchange b 3
      else commitTrade db (markFinished ⟨w, []⟩ a b) a b (stagedItems w a) (stagedItems w b)
        (openSlots w (w.inventoryOf a) (stagedItems w a))
        (openSlots w (w.inventoryOf b) (stagedItems w b)) := by
  have hw := markFinished_world_of_finished w a hsB
  simp only [settleTrade, hw, setFinished_items, setFinished_boxes, inventoryOf_setFinished,
    stagedOf_setFinished, collect_of_phantomFree h.phantomFree,
    collect_of_phantomFree h.symm.phantomFree, h.loopFreeSlots_eq, h.symm.loopFreeSlots_eq]

/-- The commit's world, read through boxes and items, is `movedWorld`. -/
theorem commitTrade_marked_objects (db : ChangeSet → Bool) {sB : ExchangeSession}
    (hsB : w.session b = some sB) :
    let e := commitTrade db (markFinished ⟨w, []⟩ a b) a b (stagedItems w a) (stagedItems w b)
      (openSlots w (w.inventoryOf a) (stagedItems w a))
      (openSlots w (w.inventoryOf b) (stagedItems w b))
    e.world.boxes = (movedWorld (setFinished w a) a b).boxes ∧
      e.world.items = (movedWorld (setFinished w a) a b).items := by
  have hw := markFinished_world_of_finished w a hsB
  simp only [commitTrade_boxes, commitTrade_items, hw, movedWorld, stagedItems_setFinished,
    inventoryOf_setFinished, openSlots_setFinished, and_self]

/-- **TRADE COMMIT CONTRACT.**  Let `a`'s exchange session name `b`, a
    connected client whose session is finished, and let both sides' staged
    items be held, without repetition, in their owners' distinct consistent
    inventories.  Then `TradeFinish` from `a` commits exactly when each side's
    items fit into the other side's free slots plus the slots it vacates, and a
    commit has the `TradeEffects`: placement in staging order into the lowest
    open slots, back-references updated, every other slot unchanged, the items
    of the two inventories conserved with none in two slots. -/
theorem tradeFinish_commit_contract (db : ChangeSet → Bool) {sA sB : ExchangeSession}
    (hsA : w.session a = some sA) (hother : sA.otherCharacter = some b)
    (hconn : (w.clients b).isSome) (hsB : w.session b = some sB) (hfin : sB.finished = true)
    (h : SidesHeld w a b) :
    ∃ e, tradeFinish db w a = .ok e ∧
      (e.processed = true ↔
        (stagedItems w a).length ≤
            (getFreeSlots (w.boxes (w.inventoryOf b))).card + (stagedItems w b).length ∧
          (stagedItems w b).length ≤
            (getFreeSlots (w.boxes (w.inventoryOf a))).card + (stagedItems w a).length) ∧
      (e.processed = true → TradeEffects w e.world a b) := by
  have hc : counterpart w a = some b := by simp [counterpart, hsA, hother, hconn]
  refine ⟨_, tradeFinish_of_finished hc hsB (.inl hfin), ?_⟩
  rw [settleTrade_of_held hsB h, ← card_openSlots h, ← card_openSlots h.symm]
  split_ifs with capA capB
  · simp [capA]
  · simp [capB]
  · have h₁ := h.of_setFinished a
    obtain ⟨hb, hi⟩ := commitTrade_marked_objects db hsB
    refine ⟨iff_of_true (commitTrade_processed _ _ _ _ _) ⟨by omega, by omega⟩,
      fun _ => TradeEffects.of_setFinished ((tradeEffects_moved h₁ ?_ ?_).of_objects hb hi)⟩
    · simpa using Nat.le_of_not_lt capA
    · simpa using Nat.le_of_not_lt capB

/-- Two clients swapping one item each: client 1 holds item 100 in slot 0 of
    inventory 10, client 2 holds item 200 in slot 0 of inventory 20 and has
    already finished. -/
def swapWorld : World where
  clients
    | 1 => some { inventory := 10, exchangeSession := some ⟨some 2, [some 100], false⟩ }
    | 2 => some { inventory := 20, exchangeSession := some ⟨some 1, [some 200], true⟩ }
    | _ => none
  items x := if x = 100 then ⟨7, 10, 0⟩ else if x = 200 then ⟨8, 20, 0⟩ else ⟨0, 0, 0⟩
  itemLive _ := true
  boxes u := if u = 10 then ItemBox.empty.setItems 0 (some 100)
    else if u = 20 then ItemBox.empty.setItems 0 (some 200) else ItemBox.empty

theorem tradeFinish_commit_swap : SidesHeld swapWorld 1 2 ∧
    ∃ e, tradeFinish (fun _ => true) swapWorld 1 = .ok e ∧
      (e.processed = true ↔
        (stagedItems swapWorld 1).length ≤
            (getFreeSlots (swapWorld.boxes (swapWorld.inventoryOf 2))).card +
              (stagedItems swapWorld 2).length ∧
          (stagedItems swapWorld 2).length ≤
            (getFreeSlots (swapWorld.boxes (swapWorld.inventoryOf 1))).card +
              (stagedItems swapWorld 1).length) ∧
      (e.processed = true → TradeEffects swapWorld e.world 1 2) :=
  have h : SidesHeld swapWorld 1 2 := ⟨by decide, by decide, by decide, by decide, by decide,
    by decide, by decide⟩
  ⟨h, tradeFinish_commit_contract (fun _ => true) rfl rfl rfl rfl rfl h⟩

end Contract

/-! ## A staged item that is no longer there -/

/-- Client 1 stages item 300, dropped from slot 0 of its inventory 10, whose
    back-reference still names that slot now that item 100 holds it; and item
    400, dropped from slot 5, which stayed empty.  Client 2 is finished and
    stages nothing. -/
def staleWorld : World where
  clients
    | 1 => some { inventory := 10, exchangeSession := some ⟨some 2, [some 300, some 400], false⟩ }
    | 2 => some { inventory := 20, exchangeSession := some ⟨some 1, [], true⟩ }
    | _ => none
  items x := if x = 100 then ⟨7, 10, 0⟩ else if x = 300 then ⟨9, 10, 0⟩
    else if x = 400 then ⟨9, 10, 5⟩ else ⟨0, 0, 0⟩
  itemLive x := x == 100
  boxes u := if u = 10 then ItemBox.empty.setItems 0 (some 100) else ItemBox.empty

/-- Every hypothesis of the commit law without "held" holds, the trade
    commits, and the two inventories end with items 300 and 400 in place of
    item 100: the slot cleared for item 300 was item 100's. -/
theorem tradeFinish_stale_item_breaks_conservation :
    staleWorld.inventoryOf 1 ≠ staleWorld.inventoryOf 2 ∧ staleWorld.BoxConsistent 10 ∧
      staleWorld.BoxConsistent 20 ∧ (stagedItems staleWorld 1).Nodup ∧
      (stagedItems staleWorld 2).Nodup ∧ PhantomFree staleWorld 1 ∧ PhantomFree staleWorld 2 ∧
      ∃ e, tradeFinish (fun _ => true) staleWorld 1 = .ok e ∧ e.processed = true ∧
        staleWorld.held 10 ++ staleWorld.held 20 = [100] ∧
        e.world.held 10 ++ e.world.held 20 = [300, 400] :=
  ⟨by decide, by decide, by decide, by decide, by decide, by decide, by decide, _, rfl, by decide⟩

/-- The commit goes ahead although item 300 is not in the slot it records:
    the check of lines 119 and 146 reads the recorded box only. -/
theorem tradeFinish_moves_unheld_item :
    staleWorld.slot 10 (sizeT (staleWorld.items 300).boxSlot) ≠ some 300 ∧
      ∃ e, tradeFinish (fun _ => true) staleWorld 1 = .ok e ∧
        e.world.slot 10 0 ≠ staleWorld.slot 10 0 ∧ e.world.slot 20 0 = some 300 :=
  ⟨by decide, _, rfl, by decide⟩

end TradeCommit
