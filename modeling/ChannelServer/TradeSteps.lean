import ChannelServer.TradeFinish

/-! # `TradeFinish`, stage by stage — one spec lemma per stage

    The handler's stages are proved about once, here, and every later result
    about the protocol cites these lemmas instead of unfolding the handler:

    * the staging loop stops exactly at a phantom, and otherwise collects the
      non-null references and their recorded slots (`collectTradeItems_*`);
    * `vacate` clears the recorded slots of its list and writes no item;
    * `placeAll` writes exactly its pairs, and moves each item's
      back-reference to its new slot;
    * none of these touches a session, an inventory or a connection;
    * once the phantom checks have passed and no item is staged twice, the
      commit keeps every consistent box consistent, stale items included
      (`consistent_tradeWorld`). -/

namespace TradeSteps

open ChannelObjects ChannelWorld ChannelTrade TradePlacement

variable {w : World} {items : UUID → Item} {box : UUID}

/-! ## The staging loop -/

/-- **PHANTOM STOP**: the staging loop fails exactly when some staged item's
    recorded box is not the expected one. -/
theorem collectTradeItems_eq_none_iff {staged : List (Option UUID)} {l : List UUID}
    {F : Finset Nat} :
    collectTradeItems items box staged l F = none ↔
      ∃ x ∈ staged.reduceOption, (items x).itemBox ≠ box := by
  induction staged, l, F using collectTradeItems.induct items box with
  | case1 l F => simp [collectTradeItems]
  | case2 rest l F ih => simpa [collectTradeItems, List.reduceOption_cons_of_none] using ih
  | case3 x rest l F hx =>
      simp only [collectTradeItems, hx, List.reduceOption_cons_of_some]
      exact iff_of_true (if_pos hx) ⟨x, List.mem_cons_self _ _, hx⟩
  | case4 x rest l F hx ih =>
      simp only [collectTradeItems, hx, if_false, ih, List.reduceOption_cons_of_some,
        List.mem_cons, exists_eq_or_imp, false_or]

/-- Without a phantom, the loop collects the non-null references in order and
    adds their recorded slots to the free slots. -/
theorem collectTradeItems_of_clean {staged : List (Option UUID)}
    (h : ∀ x ∈ staged.reduceOption, (items x).itemBox = box) (l : List UUID) (F : Finset Nat) :
    collectTradeItems items box staged l F =
      some (l ++ staged.reduceOption,
        F ∪ (staged.reduceOption.map fun x => sizeT (items x).boxSlot).toFinset) := by
  induction staged, l, F using collectTradeItems.induct items box with
  | case1 l F => simp [collectTradeItems]
  | case2 rest l F ih =>
      simpa [collectTradeItems, List.reduceOption_cons_of_none] using
        ih (by simpa [List.reduceOption_cons_of_none] using h)
  | case3 x rest l F hx =>
      exact absurd (h x (by simp [List.reduceOption_cons_of_some])) hx
  | case4 x rest l F hx ih =>
      rw [collectTradeItems, if_neg hx,
        ih fun y hy => h y (by simp [List.reduceOption_cons_of_some, hy])]
      simp [List.reduceOption_cons_of_some, Finset.union_insert, Finset.insert_union]

/-! ## Step 1: unequip and clear -/

@[simp] theorem vacate_items (c : EntityId) (L : List UUID) :
    (vacate w c box L).items = w.items := by
  induction L generalizing w with
  | nil => rfl
  | cons x xs ih => simp [vacate, ih]

@[simp] theorem vacate_itemLive (c : EntityId) (L : List UUID) :
    (vacate w c box L).itemLive = w.itemLive := by
  induction L generalizing w with
  | nil => rfl
  | cons x xs ih => simp [vacate, ih]

@[simp] theorem vacate_queue (c : EntityId) (L : List UUID) :
    (vacate w c box L).queue = w.queue := by
  induction L generalizing w with
  | nil => rfl
  | cons x xs ih => simp [vacate, ih]

/-- `vacate` changes no client field but the equipment. -/
theorem map_clients_vacate {α : Type} {g : ClientState → α}
    (hg : ∀ st : ClientState, ∀ e, g { st with equipment := e } = g st)
    (c c' : EntityId) (L : List UUID) :
    ((vacate w c box L).clients c').map g = (w.clients c').map g := by
  induction L generalizing w with
  | nil => rfl
  | cons x xs ih =>
      rw [vacate, ih]
      exact World.map_clients_modifyClient _ _ _ fun st => hg st _

@[simp] theorem session_vacate (c c' : EntityId) (L : List UUID) :
    (vacate w c box L).session c' = w.session c' := by
  induction L generalizing w with
  | nil => rfl
  | cons x xs ih => simp [vacate, ih]

@[simp] theorem inventoryOf_vacate (c c' : EntityId) (L : List UUID) :
    (vacate w c box L).inventoryOf c' = w.inventoryOf c' := by
  simp only [World.inventoryOf, map_clients_vacate (g := ClientState.inventory) (fun _ _ => rfl)]

@[simp] theorem connection_vacate (c c' : EntityId) (L : List UUID) :
    (vacate w c box L).connection c' = w.connection c' :=
  map_clients_vacate (g := ClientState.connection) (fun _ _ => rfl) c c' L

/-- **VACATE**: the recorded slot of every listed item is cleared in `box`;
    nothing else is written. -/
theorem slot_vacate (c : EntityId) (L : List UUID) (box' : UUID) (i : Nat) :
    (vacate w c box L).slot box' i =
      if box' = box ∧ (∃ x ∈ L, sizeT (w.items x).boxSlot = i) ∧ i < ItemsCount then none
      else w.slot box' i := by
  induction L generalizing w with
  | nil => simp [vacate]
  | cons x xs ih =>
      rw [vacate, ih]
      simp only [World.setItems_items, World.unequipItem_items, World.slot_setItems,
        World.slot_unequipItem, List.exists_mem_cons]
      by_cases hb : box' = box
      · subst hb
        by_cases hx : sizeT (w.items x).boxSlot = i
        · subst hx; by_cases hlt : sizeT (w.items x).boxSlot < ItemsCount <;> simp [hlt]
        · simp [hx]
      · simp [hb]

/-! ## Step 2: the placements -/

@[simp] theorem placeAll_cons (p : Nat × UUID) (ps : List (Nat × UUID)) :
    placeAll w box (p :: ps) = placeAll (placeItem w box p) box ps := rfl

@[simp] theorem placeAll_clients (ps : List (Nat × UUID)) :
    (placeAll w box ps).clients = w.clients := by
  induction ps generalizing w with
  | nil => rfl
  | cons p ps ih => simp [ih, placeItem]

@[simp] theorem placeAll_itemLive (ps : List (Nat × UUID)) :
    (placeAll w box ps).itemLive = w.itemLive := by
  induction ps generalizing w with
  | nil => rfl
  | cons p ps ih => simp [ih, placeItem]

@[simp] theorem placeAll_queue (ps : List (Nat × UUID)) :
    (placeAll w box ps).queue = w.queue := by
  induction ps generalizing w with
  | nil => rfl
  | cons p ps ih => simp [ih, placeItem]

theorem slot_placeItem (p : Nat × UUID) (box' : UUID) (i : Nat) :
    (placeItem w box p).slot box' i =
      if box' = box ∧ p.1 = i ∧ p.1 < ItemsCount then some p.2 else w.slot box' i := by
  simp [placeItem, World.slot_setItems]

theorem items_placeItem (p : Nat × UUID) (y : UUID) :
    (placeItem w box p).items y =
      if y = p.2 then { w.items p.2 with boxSlot := int8 p.1, itemBox := box } else w.items y := by
  simp [placeItem, World.setItem_items]

/-- A slot no placement names keeps its entry. -/
theorem slot_placeAll_of_not_mem {ps : List (Nat × UUID)} {box' : UUID} {i : Nat}
    (h : box' ≠ box ∨ i ∉ ps.map Prod.fst) :
    (placeAll w box ps).slot box' i = w.slot box' i := by
  induction ps generalizing w with
  | nil => rfl
  | cons p ps ih =>
      rw [List.map_cons, List.mem_cons, not_or] at h
      rw [placeAll_cons, ih (h.imp id And.right), slot_placeItem, if_neg]
      rintro ⟨hb, hi, -⟩
      exact h.elim (· hb) fun h => h.1 hi.symm

/-- With distinct slots, each placement's item ends up in its slot. -/
theorem slot_placeAll_of_mem {ps : List (Nat × UUID)} {i : Nat} {x : UUID}
    (hnd : (ps.map Prod.fst).Nodup) (hlt : i < ItemsCount) (hp : (i, x) ∈ ps) :
    (placeAll w box ps).slot box i = some x := by
  induction ps generalizing w with
  | nil => simp at hp
  | cons p ps ih =>
      rw [List.map_cons, List.nodup_cons] at hnd
      rw [placeAll_cons]
      rcases List.mem_cons.mp hp with rfl | hp
      · rw [slot_placeAll_of_not_mem (.inr hnd.1), slot_placeItem]
        simp [hlt]
      · exact ih hnd.2 hp

/-- An item no placement names keeps its fields. -/
theorem items_placeAll_of_not_mem {ps : List (Nat × UUID)} {x : UUID}
    (h : x ∉ ps.map Prod.snd) : (placeAll w box ps).items x = w.items x := by
  induction ps generalizing w with
  | nil => rfl
  | cons p ps ih =>
      rw [List.map_cons, List.mem_cons, not_or] at h
      rw [placeAll_cons, ih h.2, items_placeItem, if_neg h.1]

/-- With distinct items, each placed item's back-reference names its slot. -/
theorem items_placeAll_of_mem {ps : List (Nat × UUID)} {i : Nat} {x : UUID}
    (hnd : (ps.map Prod.snd).Nodup) (hp : (i, x) ∈ ps) :
    (placeAll w box ps).items x = { w.items x with boxSlot := int8 i, itemBox := box } := by
  induction ps generalizing w with
  | nil => simp at hp
  | cons p ps ih =>
      rw [List.map_cons, List.nodup_cons] at hnd
      rw [placeAll_cons]
      rcases List.mem_cons.mp hp with rfl | hp
      · rw [items_placeAll_of_not_mem hnd.1, items_placeItem, if_pos rfl]
      · have hx : x ≠ p.2 := fun h => hnd.1 (h ▸ List.mem_map_of_mem _ hp)
        rw [ih hnd.2 hp, items_placeItem, if_neg hx]

@[simp] theorem session_placeAll (ps : List (Nat × UUID)) (c : EntityId) :
    (placeAll w box ps).session c = w.session c := by
  simp [World.session]

@[simp] theorem connection_placeAll (ps : List (Nat × UUID)) (c : EntityId) :
    (placeAll w box ps).connection c = w.connection c := by
  simp [World.connection]

/-- The commit in memory keeps every session and every connection. -/
@[simp] theorem session_tradeWorld (a b : EntityId) (L L' : List UUID) (F F' : Finset Nat)
    (c : EntityId) : (tradeWorld w a b L L' F F').session c = w.session c := by
  simp [tradeWorld]

@[simp] theorem connection_tradeWorld (a b : EntityId) (L L' : List UUID) (F F' : Finset Nat)
    (c : EntityId) : (tradeWorld w a b L L' F F').connection c = w.connection c := by
  simp [tradeWorld]

/-! ## Marking the requester finished -/

@[simp] theorem setFinished_items (c : EntityId) : (setFinished w c).items = w.items := rfl
@[simp] theorem setFinished_boxes (c : EntityId) : (setFinished w c).boxes = w.boxes := rfl
@[simp] theorem setFinished_itemLive (c : EntityId) : (setFinished w c).itemLive = w.itemLive := rfl
@[simp] theorem setFinished_queue (c : EntityId) : (setFinished w c).queue = w.queue := rfl

@[simp] theorem slot_setFinished (c : EntityId) : (setFinished w c).slot = w.slot := rfl
@[simp] theorem held_setFinished (c : EntityId) : (setFinished w c).held = w.held := rfl

@[simp] theorem inventoryOf_setFinished (c c' : EntityId) :
    (setFinished w c).inventoryOf c' = w.inventoryOf c' :=
  World.inventoryOf_modifyClient _ _ _ fun _ => rfl

@[simp] theorem connection_setFinished (c c' : EntityId) :
    (setFinished w c).connection c' = w.connection c' :=
  World.connection_modifyClient _ _ _ fun _ => rfl

@[simp] theorem equipmentOf_setFinished (c c' : EntityId) :
    (setFinished w c).equipmentOf c' = w.equipmentOf c' :=
  World.equipmentOf_modifyClient _ _ _ fun _ => rfl

theorem session_setFinished (c c' : EntityId) :
    (setFinished w c).session c' =
      if c' = c then (w.session c).map ({ · with finished := true }) else w.session c' := by
  by_cases h : c' = c
  · subst h; cases hc : w.clients c' <;> simp [setFinished, World.session, hc]
  · simp [setFinished, h]

@[simp] theorem stagedOf_setFinished (c c' : EntityId) :
    stagedOf (setFinished w c) c' = stagedOf w c' := by
  simp only [stagedOf, session_setFinished]
  split_ifs with h
  · subst h; cases w.session c' <;> rfl
  · rfl

@[simp] theorem markFinished_processed (e : Exec) (a b : EntityId) :
    (markFinished e a b).processed = e.processed := by
  unfold markFinished; split <;> simp

theorem markFinished_world (e : Exec) (a b : EntityId) :
    (markFinished e a b).world =
      if (e.world.session b).isSome then setFinished e.world a else e.world := by
  unfold markFinished; split <;> simp_all

/-- The world once the requester is marked finished, when both sides are. -/
theorem markFinished_world_of_finished (w : World) (a : EntityId) {b : EntityId} {s : ExchangeSession}
    (hb : w.session b = some s) : (markFinished ⟨w, []⟩ a b).world = setFinished w a := by
  simp [markFinished_world, hb]

/-! ## The paths of the handler -/

variable {db : ChangeSet → Bool} {a b : EntityId}

/-- Without a counterpart client, only the requester's exchange ends. -/
theorem tradeFinish_of_counterpart_none (h : counterpart w a = none) :
    tradeFinish db w a = .ok ((⟨w, []⟩ : Exec).endExchange a 0) := by
  simp [tradeFinish, h]

/-- A counterpart client without a session: the read at line 104 faults. -/
theorem tradeFinish_of_session_none (h : counterpart w a = some b) (hb : w.session b = none) :
    tradeFinish db w a = .error .nullOtherSession := by
  simp [tradeFinish, h, markFinished, hb]

/-- The counterpart has not finished: the requester is marked and waits. -/
theorem tradeFinish_of_waiting {s : ExchangeSession} (h : counterpart w a = some b)
    (hb : w.session b = some s) (hne : b ≠ a) (hs : s.finished = false) :
    tradeFinish db w a = .ok (markFinished ⟨w, []⟩ a b) := by
  simp [tradeFinish, h, markFinished_world, hb, session_setFinished, hne, hs]

/-- Both sides finished: the handler goes on to settle the trade. -/
theorem tradeFinish_of_finished {s : ExchangeSession} (h : counterpart w a = some b)
    (hb : w.session b = some s) (hs : s.finished = true ∨ b = a) :
    tradeFinish db w a = .ok (settleTrade db (markFinished ⟨w, []⟩ a b) a b) := by
  rcases hs with hs | rfl
  · by_cases hne : b = a
    · subst hne; simp [tradeFinish, h, markFinished_world, hb, session_setFinished]
    · simp [tradeFinish, h, markFinished_world, hb, session_setFinished, hne, hs]
  · simp [tradeFinish, h, markFinished_world, hb, session_setFinished]

/-! ## The paths of `settleTrade` -/

/-- The non-null staged items of client `c`, in staging order. -/
def stagedItems (w : World) (c : EntityId) : List UUID := (stagedOf w c).reduceOption

@[simp] theorem stagedItems_setFinished (c c' : EntityId) :
    stagedItems (setFinished w c) c' = stagedItems w c' := by
  simp [stagedItems]

/-- Every staged item of client `c` records `c`'s inventory as its box: the
    phantom check of lines 119 and 146 passes for `c`. -/
def PhantomFree (w : World) (c : EntityId) : Prop :=
  ∀ x ∈ stagedItems w c, (w.items x).itemBox = w.inventoryOf c

instance (w : World) (c : EntityId) : Decidable (PhantomFree w c) :=
  inferInstanceAs (Decidable (∀ x ∈ stagedItems w c, (w.items x).itemBox = w.inventoryOf c))

@[simp] theorem phantomFree_setFinished (c c' : EntityId) :
    PhantomFree (setFinished w c) c' ↔ PhantomFree w c' := by
  simp [PhantomFree]

/-- The free slots a staging loop ends with: the box's empty slots and the
    recorded slots of the collected items. -/
def loopFreeSlots (w : World) (box : UUID) (L : List UUID) : Finset Nat :=
  getFreeSlots (w.boxes box) ∪ (L.map fun x => sizeT (w.items x).boxSlot).toFinset

@[simp] theorem loopFreeSlots_setFinished (c : EntityId) :
    loopFreeSlots (setFinished w c) = loopFreeSlots w := rfl

theorem collect_of_phantomFree {c : EntityId} (h : PhantomFree w c) :
    collectTradeItems w.items (w.inventoryOf c) (stagedOf w c) []
        (getFreeSlots (w.boxes (w.inventoryOf c))) =
      some (stagedItems w c, loopFreeSlots w (w.inventoryOf c) (stagedItems w c)) := by
  rw [collectTradeItems_of_clean h]; rfl

theorem collect_of_not_phantomFree {c : EntityId} (h : ¬PhantomFree w c) :
    collectTradeItems w.items (w.inventoryOf c) (stagedOf w c) []
        (getFreeSlots (w.boxes (w.inventoryOf c))) = none := by
  rw [collectTradeItems_eq_none_iff]
  by_contra h'
  exact h fun x hx => by_contra fun hne => h' ⟨x, hx, hne⟩

theorem commitTrade_boxes (e : Exec) (L L' : List UUID) (F F' : Finset Nat) :
    (commitTrade db e a b L L' F F').world.boxes = (tradeWorld e.world a b L L' F F').boxes := by
  unfold commitTrade; dsimp only; split <;> simp

theorem commitTrade_items (e : Exec) (L L' : List UUID) (F F' : Finset Nat) :
    (commitTrade db e a b L L' F F').world.items = (tradeWorld e.world a b L L' F F').items := by
  unfold commitTrade; dsimp only; split <;> simp

@[simp] theorem commitTrade_processed (e : Exec) (L L' : List UUID) (F F' : Finset Nat) :
    (commitTrade db e a b L L' F F').processed = true := by
  unfold commitTrade; dsimp only; split <;> simp <;> simp [Exec.processed]

variable (e : Exec)

theorem settleTrade_of_phantom_a (h : ¬PhantomFree e.world a) :
    settleTrade db e a b = ((e.endExchange a 1).endExchange b 1).kill a := by
  simp [settleTrade, collect_of_not_phantomFree h]

theorem settleTrade_of_phantom_b (ha : PhantomFree e.world a) (hb : ¬PhantomFree e.world b) :
    settleTrade db e a b = ((e.endExchange a 1).endExchange b 1).kill b := by
  simp [settleTrade, collect_of_phantomFree ha, collect_of_not_phantomFree hb]

theorem settleTrade_of_capacity_a (ha : PhantomFree e.world a) (hb : PhantomFree e.world b)
    (hcap : (loopFreeSlots e.world (e.world.inventoryOf b) (stagedItems e.world b)).card <
      (stagedItems e.world a).length) :
    settleTrade db e a b = (e.endExchange a 3).endExchange b 2 := by
  simp [settleTrade, collect_of_phantomFree ha, collect_of_phantomFree hb, hcap]

theorem settleTrade_of_capacity_b (ha : PhantomFree e.world a) (hb : PhantomFree e.world b)
    (hcapA : (stagedItems e.world a).length ≤
      (loopFreeSlots e.world (e.world.inventoryOf b) (stagedItems e.world b)).card)
    (hcap : (loopFreeSlots e.world (e.world.inventoryOf a) (stagedItems e.world a)).card <
      (stagedItems e.world b).length) :
    settleTrade db e a b = (e.endExchange a 2).endExchange b 3 := by
  simp [settleTrade, collect_of_phantomFree ha, collect_of_phantomFree hb, hcap, not_lt.mpr hcapA]

theorem settleTrade_of_capacity_ok (ha : PhantomFree e.world a) (hb : PhantomFree e.world b)
    (hcapA : (stagedItems e.world a).length ≤
      (loopFreeSlots e.world (e.world.inventoryOf b) (stagedItems e.world b)).card)
    (hcapB : (stagedItems e.world b).length ≤
      (loopFreeSlots e.world (e.world.inventoryOf a) (stagedItems e.world a)).card) :
    settleTrade db e a b = commitTrade db e a b (stagedItems e.world a)
      (stagedItems e.world b)
      (loopFreeSlots e.world (e.world.inventoryOf a) (stagedItems e.world a))
      (loopFreeSlots e.world (e.world.inventoryOf b) (stagedItems e.world b)) := by
  simp [settleTrade, collect_of_phantomFree ha, collect_of_phantomFree hb, not_lt.mpr hcapA,
    not_lt.mpr hcapB]

/-! ## The commit keeps consistency -/

/-- What the commit may rely on once the code's phantom checks have passed
    and no item is staged twice: distinct inventories, each side's items
    recorded in its own inventory, and no repetition. -/
structure CommitReady (w : World) (a b : EntityId) (L L' : List UUID) : Prop where
  distinct : w.inventoryOf a ≠ w.inventoryOf b
  box_a : ∀ x ∈ L, (w.items x).itemBox = w.inventoryOf a
  box_b : ∀ x ∈ L', (w.items x).itemBox = w.inventoryOf b
  nodup_a : L.Nodup
  nodup_b : L'.Nodup

theorem CommitReady.disjoint {w : World} {a b : EntityId} {L L' : List UUID}
    (h : CommitReady w a b L L') {x : UUID} (hx : x ∈ L) : x ∉ L' :=
  fun hx' => h.distinct ((h.box_a x hx).symm.trans (h.box_b x hx'))

/-- An occupied slot after a placement loop was written by it or was
    occupied before. -/
theorem slot_placeAll_eq_some {w : World} {box box' : UUID} {ps : List (Nat × UUID)} {i : Nat}
    {y : UUID} (h : (placeAll w box ps).slot box' i = some y) :
    (box' = box ∧ (i, y) ∈ ps) ∨ w.slot box' i = some y := by
  induction ps generalizing w with
  | nil => exact .inr h
  | cons p ps ih =>
    rcases ih h with ⟨hb, hp⟩ | h'
    · exact .inl ⟨hb, List.mem_cons_of_mem _ hp⟩
    · rw [slot_placeItem] at h'
      split_ifs at h' with hp
      · have hpy : p = (i, y) := Prod.ext hp.2.1 (Option.some.inj h')
        exact .inl ⟨hp.1, hpy ▸ List.mem_cons_self _ _⟩
      · exact .inr h'

/-- A placement of the trade loop names an item of its list and a slot of the
    inventory. -/
theorem mem_placeItems {F : Finset Nat} {L : List UUID} {p : Nat × UUID}
    (hp : p ∈ placeItems F (List.range ItemsCount) L) : p.2 ∈ L ∧ p.1 < ItemsCount := by
  rw [placeItems_range] at hp
  exact ⟨List.of_mem_zip hp |>.2, (mem_slotsBelow.mp (List.of_mem_zip hp).1).2⟩

theorem not_mem_placeItems {F : Finset Nat} {L : List UUID} {y : UUID} (hy : y ∉ L) :
    y ∉ (placeItems F (List.range ItemsCount) L).map Prod.snd := fun hm => by
  obtain ⟨p, hp, rfl⟩ := List.mem_map.mp hm
  exact hy (mem_placeItems hp).1

theorem int8_slot {i : Nat} (h : i < ItemsCount) : int8 i = i :=
  int8_of_lt (by unfold ItemsCount at h; omega)

section Commit

variable {w : World} {a b : EntityId} {L L' : List UUID} {F F' : Finset Nat}

/-- **THE COMMIT KEEPS CONSISTENCY**: once the phantom checks have passed and
    no item is staged twice, every box consistent before the commit is
    consistent after it.  A placed item's back-reference names its new slot;
    any other occupant was untouched, so it is no staged item (a staged item
    sitting in a consistent box sits at its recorded slot, which was
    cleared). -/
theorem consistent_tradeWorld (h : CommitReady w a b L L') {box : UUID}
    (hc : w.BoxConsistent box) : (tradeWorld w a b L L' F F').BoxConsistent box := by
  have hndA := h.nodup_a.sublist (placeItems_range_items F' L)
  have hndB := h.nodup_b.sublist (placeItems_range_items F L')
  intro i _ y hy
  rw [Option.mem_def] at hy
  simp only [tradeWorld] at hy ⊢
  rcases slot_placeAll_eq_some hy with ⟨rfl, hp⟩ | hy
  · -- one of `a`'s items, placed into `b`'s inventory
    rw [items_placeAll_of_mem hndA hp]
    exact ⟨rfl, int8_slot (mem_placeItems hp).2⟩
  rcases slot_placeAll_eq_some hy with ⟨rfl, hp⟩ | hy
  · -- one of `b`'s items, placed into `a`'s inventory
    have hyL := h.disjoint.mt (not_not.mpr (mem_placeItems hp).1)
    rw [items_placeAll_of_not_mem (not_mem_placeItems hyL), items_placeAll_of_mem hndB hp]
    exact ⟨rfl, int8_slot (mem_placeItems hp).2⟩
  -- an occupant the commit did not touch
  simp only [slot_vacate, vacate_items] at hy
  split_ifs at hy with hvb hva
  have hrec := hc.of_slot hy
  have hsz : sizeT (w.items y).boxSlot = i := by
    rw [hrec.2, sizeT_natCast (by have := World.lt_of_slot_eq_some hy; unfold ItemsCount at this; omega)]
  have hyL : y ∉ L := fun hy' =>
    hva ⟨(h.box_a y hy').symm.trans hrec.1 |>.symm, ⟨y, hy', hsz⟩, World.lt_of_slot_eq_some hy⟩
  have hyL' : y ∉ L' := fun hy' =>
    hvb ⟨(h.box_b y hy').symm.trans hrec.1 |>.symm, ⟨y, hy', hsz⟩, World.lt_of_slot_eq_some hy⟩
  rw [items_placeAll_of_not_mem (not_mem_placeItems hyL), items_placeAll_of_not_mem (not_mem_placeItems hyL'),
    vacate_items, vacate_items]
  exact hrec

end Commit

end TradeSteps
