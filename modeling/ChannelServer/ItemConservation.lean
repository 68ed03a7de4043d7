import ChannelServer.ItemSafety
import ChannelServer.TradeAborts

/-! # Item conservation — trades lose nothing, and no run mints an item

    `ItemSafety` shows that no item ever sits in two slots, and `ItemRuns`
    that a stale drop can lose one.  This file settles the rest of the
    ledger, with `Holds w x` for "some client's inventory holds `x`" and
    `Exact w` for "every item whose back-reference names a client's inventory
    sits in it".

    The route:

    * one inversion lemma for `TradeFinish` over the object stores: every
      path but the commit leaves boxes and item records alone, and the commit
      writes `tradeWorld` over the marked world once both phantom checks and
      both capacity checks have passed (`tradeFinish_objects`);
    * the commit places only staged items, whose back-references named an
      inventory, and otherwise only clears slots, and a drop only clears a
      slot; so over EVERY run, drops included, an item held at the end was
      held at the start (`run_mints_no_item`);
    * with `Exact`, the code's phantom check is the real one, so the commit is
      `movedWorld` and neither loses nor creates a held item; over every run
      without drops, `Exact` holds throughout and the held items stay the same
      set (`run_conserves_items`). -/

namespace ItemConservation

open ChannelObjects ChannelWorld ChannelTrade TradePlacement TradeSteps TradeCommit TradeAborts
  ItemDrop ItemRuns ItemSafety

/-- Some client's inventory holds `x`. -/
def Holds (w : World) (x : UUID) : Prop :=
  ∃ c, (w.clients c).isSome ∧ x ∈ w.held (w.inventoryOf c)

/-- The converse of consistency for the clients' inventories: every item
    whose back-reference names a client's inventory sits in it. -/
def Exact (w : World) : Prop :=
  ∀ c x, (w.clients c).isSome → (w.items x).itemBox = w.inventoryOf c →
    x ∈ w.held (w.inventoryOf c)

theorem held_of_boxes {w w' : World} (h : w'.boxes = w.boxes) : w'.held = w.held := by
  funext box
  simp only [World.held]
  congr 1
  funext i
  simp only [World.slot, h]

/-! ## Frames -/

/-- A step that writes no box, no item record and no inventory. -/
structure SameObjects (w w' : World) : Prop where
  boxes : w'.boxes = w.boxes
  items : w'.items = w.items
  inventories : ∀ c, (w'.clients c).map (·.inventory) = (w.clients c).map (·.inventory)

namespace SameObjects

variable {w w' w'' : World}

theorem trans (h₁ : SameObjects w w') (h₂ : SameObjects w' w'') : SameObjects w w'' :=
  ⟨h₂.boxes.trans h₁.boxes, h₂.items.trans h₁.items,
    fun c => (h₂.inventories c).trans (h₁.inventories c)⟩

theorem holds_iff (h : SameObjects w w') (x : UUID) : Holds w' x ↔ Holds w x := by
  simp only [Holds, held_of_boxes h.boxes, inventoryOf_of_inventories h.inventories,
    isSome_clients_of_inventories h.inventories]

theorem exact (h : SameObjects w w') (hx : Exact w) : Exact w' := by
  intro c x hc hr
  rw [isSome_clients_of_inventories h.inventories] at hc
  rw [h.items, inventoryOf_of_inventories h.inventories] at hr
  rw [held_of_boxes h.boxes, inventoryOf_of_inventories h.inventories]
  exact hx c x hc hr

end SameObjects

theorem sameObjects_modifyClient (w : World) (c : EntityId) {f : ClientState → ClientState}
    (hf : ∀ st, (f st).inventory = st.inventory) : SameObjects w (w.modifyClient c f) :=
  ⟨rfl, rfl, fun c' => World.map_clients_modifyClient w c c' hf⟩

theorem sameObjects_endExchange (e : Exec) (c : EntityId) (o : Int) :
    SameObjects e.world (e.endExchange c o).world :=
  ⟨by simp, by simp, (keeps_endExchange e c o).inventories⟩

/-- A step that writes no item record and no inventory, and only empties
    slots. -/
structure Shrinks (w w' : World) : Prop where
  items : w'.items = w.items
  inventories : ∀ c, (w'.clients c).map (·.inventory) = (w.clients c).map (·.inventory)
  slots : ∀ box i x, w'.slot box i = some x → w.slot box i = some x

theorem SameObjects.shrinks {w w' : World} (h : SameObjects w w') : Shrinks w w' :=
  ⟨h.items, h.inventories, fun box i x hx => by simpa only [World.slot, h.boxes] using hx⟩

/-! ## What each step writes -/

theorem dropItem_world_cases (defs : ItemDefinitions) (w : World) (c : EntityId) (itemID : Int) :
    (dropItem defs w c itemID).world = w ∨
      (dropItem defs w c itemID).world = ((⟨w, []⟩ : Exec).kill c).world ∨
      ∃ st x, (dropItem defs w c itemID).world = (discard w c st x).world := by
  unfold dropItem
  split
  · exact .inl rfl
  · split_ifs
    · exact .inr (.inl rfl)
    · split
      · split_ifs
        · exact .inr (.inr ⟨_, _, rfl⟩)
        · exact .inl rfl
      · exact .inl rfl

/-- A drop at most empties the slot its item records. -/
theorem shrinks_dropItem (defs : ItemDefinitions) (w : World) (c : EntityId) (itemID : Int) :
    Shrinks w (dropItem defs w c itemID).world := by
  have hinv := (keeps_dropItem defs w c itemID).inventories
  rcases dropItem_world_cases defs w c itemID with h | h | ⟨st, x, h⟩ <;> rw [h] at hinv ⊢
  · exact ⟨rfl, hinv, fun _ _ _ => id⟩
  · exact ⟨rfl, hinv, fun _ _ _ => id⟩
  · refine ⟨rfl, hinv, fun box i y hy => ?_⟩
    rw [slot_discard] at hy
    split_ifs at hy
    exact hy

/-- **WHAT A FINISH WRITES.**  Every path of `TradeFinish` but the commit is
    `Untouched`; the commit writes the stores of `tradeWorld` over the marked
    world, and is reached only with a counterpart, both phantom checks passed
    and both capacity checks passed. -/
theorem tradeFinish_objects {db : ChangeSet → Bool} {w : World} {a : EntityId} {e : Exec}
    (h : tradeFinish db w a = .ok e) :
    Untouched w e ∨ ∃ b, counterpart w a = some b ∧ PhantomFree w a ∧ PhantomFree w b ∧
      (stagedItems w a).length ≤ (loopFreeSlots w (w.inventoryOf b) (stagedItems w b)).card ∧
      (stagedItems w b).length ≤ (loopFreeSlots w (w.inventoryOf a) (stagedItems w a)).card ∧
      ∃ W, W = tradeWorld (setFinished w a) a b (stagedItems w a) (stagedItems w b)
          (loopFreeSlots w (w.inventoryOf a) (stagedItems w a))
          (loopFreeSlots w (w.inventoryOf b) (stagedItems w b)) ∧
        e.world.boxes = W.boxes ∧ e.world.items = W.items := by
  cases hc : counterpart w a with
  | none =>
    rw [tradeFinish_of_counterpart_none hc, Except.ok.injEq] at h
    subst h
    exact .inl ((Untouched.nil (w := w)).endExchange a 0)
  | some b =>
    cases hsb : w.session b with
    | none => rw [tradeFinish_of_session_none hc hsb] at h; cases h
    | some t =>
      have hm := markFinished_world_of_finished w a hsb
      have hu := Untouched.markFinished (w := w) a b
      by_cases hfin : t.finished = true ∨ b = a
      swap
      · rw [not_or, Bool.not_eq_true] at hfin
        rw [tradeFinish_of_waiting hc hsb hfin.2 hfin.1, Except.ok.injEq] at h
        subst h
        exact .inl hu
      rw [tradeFinish_of_finished hc hsb hfin, Except.ok.injEq] at h
      subst h
      by_cases hpa : PhantomFree w a
      swap
      · rw [settleTrade_of_phantom_a _ (by rwa [hm, phantomFree_setFinished])]
        exact .inl (((hu.endExchange a 1).endExchange b 1).kill a)
      by_cases hpb : PhantomFree w b
      swap
      · rw [settleTrade_of_phantom_b _ (by rwa [hm, phantomFree_setFinished])
          (by rwa [hm, phantomFree_setFinished])]
        exact .inl (((hu.endExchange a 1).endExchange b 1).kill b)
      have hpa' : PhantomFree (markFinished ⟨w, []⟩ a b).world a := by
        rwa [hm, phantomFree_setFinished]
      have hpb' : PhantomFree (markFinished ⟨w, []⟩ a b).world b := by
        rwa [hm, phantomFree_setFinished]
      by_cases hcapA : (stagedItems w a).length ≤
          (loopFreeSlots w (w.inventoryOf b) (stagedItems w b)).card
      swap
      · rw [settleTrade_of_capacity_a _ hpa' hpb' (by simpa [hm] using Nat.lt_of_not_le hcapA)]
        exact .inl ((hu.endExchange a 3).endExchange b 2)
      by_cases hcapB : (stagedItems w b).length ≤
          (loopFreeSlots w (w.inventoryOf a) (stagedItems w a)).card
      swap
      · rw [settleTrade_of_capacity_b _ hpa' hpb' (by simpa [hm] using hcapA)
          (by simpa [hm] using Nat.lt_of_not_le hcapB)]
        exact .inl ((hu.endExchange a 2).endExchange b 3)
      rw [settleTrade_of_capacity_ok _ hpa' hpb' (by simpa [hm] using hcapA)
        (by simpa [hm] using hcapB)]
      refine .inr ⟨b, rfl, hpa, hpb, hcapA, hcapB, _, ?_, commitTrade_boxes _ _ _ _ _,
        commitTrade_items _ _ _ _ _⟩
      simp only [hm, stagedItems_setFinished, inventoryOf_setFinished, loopFreeSlots_setFinished]

/-- **ONE STEP, OVER THE STORES**: an exchange step or the worker writes no
    box, no item record and no inventory; a drop only empties a slot; a
    finish is `TradeFinish`. -/
theorem step_cases {defs : ItemDefinitions} {db : ChangeSet → Bool} {w w' : World} {act : Action}
    (h : step defs db w act = some w') :
    SameObjects w w' ∨ (∃ c itemID, act = .drop c itemID ∧ Shrinks w w') ∨
      ∃ c e, tradeFinish db w c = .ok e ∧ w' = e.world := by
  cases act with
  | drop c itemID =>
    simp only [step] at h
    split_ifs at h
    cases h
    exact .inr (.inl ⟨c, itemID, rfl, shrinks_dropItem defs w c itemID⟩)
  | finish c =>
    simp only [step] at h
    split_ifs at h
    split at h
    · next e he =>
      cases h
      exact .inr (.inr ⟨c, e, he, rfl⟩)
    · cases h
  | openExchange a b =>
    simp only [step, openExchange] at h
    split_ifs at h
    cases h
    exact .inl ((sameObjects_modifyClient w a (by intro; rfl)).trans
      (sameObjects_modifyClient _ b (by intro; rfl)))
  | stage c L =>
    simp only [step, stage] at h
    split at h
    · split_ifs at h
      cases h
      exact .inl (sameObjects_modifyClient w c (by intro; rfl))
    · cases h
  | cancel c =>
    simp only [step, cancel] at h
    split at h
    · cases h
      split
      · exact .inl ((sameObjects_endExchange ⟨w, []⟩ c 0).trans (sameObjects_endExchange _ _ 0))
      · exact .inl (sameObjects_endExchange ⟨w, []⟩ c 0)
    · cases h
  | persist =>
    cases h
    unfold persist
    split
    · exact .inl ⟨rfl, rfl, fun _ => rfl⟩
    · exact .inl ⟨rfl, rfl, fun _ => rfl⟩

/-! ## The commit over the stores -/

section Commit

variable {W : World} {a b : EntityId} {L L' : List UUID} {F F' : Finset Nat}

theorem inventories_tradeWorld (W : World) (a b : EntityId) (L L' : List UUID) (F F' : Finset Nat)
    (c : EntityId) :
    ((tradeWorld W a b L L' F F').clients c).map (·.inventory) = (W.clients c).map (·.inventory) := by
  simp only [tradeWorld, placeAll_clients]
  rw [map_clients_vacate (g := ClientState.inventory) (fun _ _ => rfl),
    map_clients_vacate (g := ClientState.inventory) (fun _ _ => rfl)]

/-- An occupied slot after the commit holds a staged item or what it held
    before. -/
theorem slot_tradeWorld_eq_some {box : UUID} {i : Nat} {x : UUID}
    (h : (tradeWorld W a b L L' F F').slot box i = some x) : x ∈ L ∨ x ∈ L' ∨ W.slot box i = some x := by
  simp only [tradeWorld] at h
  rcases slot_placeAll_eq_some h with ⟨-, hp⟩ | h
  · exact .inl (mem_placeItems hp).1
  rcases slot_placeAll_eq_some h with ⟨-, hp⟩ | h
  · exact .inr (.inl (mem_placeItems hp).1)
  simp only [slot_vacate, vacate_items] at h
  split_ifs at h
  exact .inr (.inr h)

/-- An item the commit does not place keeps its record. -/
theorem items_tradeWorld_of_not_mem {x : UUID} (hx : x ∉ L) (hx' : x ∉ L') :
    (tradeWorld W a b L L' F F').items x = W.items x := by
  simp only [tradeWorld]
  rw [items_placeAll_of_not_mem (not_mem_placeItems hx),
    items_placeAll_of_not_mem (not_mem_placeItems hx'), vacate_items, vacate_items]

end Commit

/-! ## Nothing is minted -/

/-- What a run from `w₀` keeps: every item held in a client's inventory, or
    recorded in one, was held in some client's inventory at the start. -/
structure FromStart (w₀ w : World) : Prop where
  held : ∀ x, Holds w x → Holds w₀ x
  recorded : ∀ c x, (w.clients c).isSome → (w.items x).itemBox = w.inventoryOf c → Holds w₀ x

namespace FromStart

variable {w₀ w w' : World}

theorem start (hx : Exact w₀) : FromStart w₀ w₀ :=
  ⟨fun _ h => h, fun c x hc hr => ⟨c, hc, hx c x hc hr⟩⟩

theorem of_shrinks (hf : FromStart w₀ w) (h : Shrinks w w') : FromStart w₀ w' where
  held x := by
    rintro ⟨c, hc, hx⟩
    obtain ⟨i, hi⟩ := World.mem_held.mp hx
    rw [inventoryOf_of_inventories h.inventories] at hi
    exact hf.held x ⟨c, isSome_clients_of_inventories h.inventories c ▸ hc,
      World.mem_held.mpr ⟨i, h.slots _ _ _ hi⟩⟩
  recorded c x hc hr := by
    rw [h.items, inventoryOf_of_inventories h.inventories] at hr
    exact hf.recorded c x (isSome_clients_of_inventories h.inventories c ▸ hc) hr

/-- The commit places only items recorded in the two inventories, and
    otherwise only clears slots. -/
theorem tradeWorld {a b : EntityId} {L L' : List UUID} {F F' : Finset Nat} (hf : FromStart w₀ w)
    (ha : (w.clients a).isSome) (hb : (w.clients b).isSome)
    (hL : ∀ x ∈ L, (w.items x).itemBox = w.inventoryOf a)
    (hL' : ∀ x ∈ L', (w.items x).itemBox = w.inventoryOf b) :
    FromStart w₀ (ChannelTrade.tradeWorld w a b L L' F F') := by
  have hinv := inventories_tradeWorld w a b L L' F F'
  have hstaged : ∀ x, x ∈ L ∨ x ∈ L' → Holds w₀ x := fun x hx =>
    hx.elim (fun h => hf.recorded a x ha (hL x h)) fun h => hf.recorded b x hb (hL' x h)
  constructor
  · rintro x ⟨c, hc, hx⟩
    obtain ⟨i, hi⟩ := World.mem_held.mp hx
    rw [inventoryOf_of_inventories hinv] at hi
    rcases slot_tradeWorld_eq_some hi with h | h | h
    · exact hstaged x (.inl h)
    · exact hstaged x (.inr h)
    · exact hf.held x ⟨c, isSome_clients_of_inventories hinv c ▸ hc, World.mem_held.mpr ⟨i, h⟩⟩
  · intro c x hc hr
    by_cases hx : x ∈ L ∨ x ∈ L'
    · exact hstaged x hx
    rw [not_or] at hx
    rw [items_tradeWorld_of_not_mem hx.1 hx.2, inventoryOf_of_inventories hinv] at hr
    exact hf.recorded c x (isSome_clients_of_inventories hinv c ▸ hc) hr

end FromStart

variable {defs : ItemDefinitions} {db : ChangeSet → Bool}

theorem fromStart_tradeFinish {w₀ w : World} {a : EntityId} {e : Exec} (hs : Safe w)
    (hf : FromStart w₀ w) (h : tradeFinish db w a = .ok e) : FromStart w₀ e.world := by
  have hk := (keeps_tradeFinish db hs h).inventories
  rcases tradeFinish_objects h with hu | ⟨b, hc, hpa, hpb, -, -, _, rfl, hb, hi⟩
  · exact hf.of_shrinks (SameObjects.shrinks ⟨hu.boxes, hu.items, hk⟩)
  obtain ⟨s, hsa, -, hcb⟩ := counterpart_eq_some hc
  have hso₁ : SameObjects w (setFinished w a) := ⟨rfl, rfl, (keeps_setFinished w a).inventories⟩
  refine ((hf.of_shrinks hso₁.shrinks).tradeWorld ?_ ?_ ?_ ?_).of_shrinks
    (SameObjects.shrinks ⟨hb, hi, fun c =>
      (hk c).trans ((inventories_tradeWorld _ _ _ _ _ _ _ c).trans (hso₁.inventories c)).symm⟩)
  · exact isSome_clients_of_inventories hso₁.inventories a ▸ isSome_clients_of_session hsa
  · exact isSome_clients_of_inventories hso₁.inventories b ▸ hcb
  · simpa using hpa
  · simpa using hpb

theorem step_fromStart {w₀ w w' : World} (hs : Safe w) (hf : FromStart w₀ w) {act : Action}
    (h : step defs db w act = some w') : FromStart w₀ w' := by
  rcases step_cases h with hso | ⟨-, -, -, hsh⟩ | ⟨c, e, he, rfl⟩
  · exact hf.of_shrinks hso.shrinks
  · exact hf.of_shrinks hsh
  · exact fromStart_tradeFinish hs hf he

theorem run_fromStart {w₀ w : World} (hs : Safe w) (hf : FromStart w₀ w) (as : List Action)
    {w' : World} (h : run defs db w as = some w') : FromStart w₀ w' := by
  induction as generalizing w with
  | nil => cases h; exact hf
  | cons act as ih =>
    cases hst : step defs db w act with
    | none => simp [run, hst] at h
    | some w₁ =>
      rw [run, hst, Option.some_bind] at h
      exact ih (step_safe defs db hs hst) (step_fromStart hs hf hst) h

/-- **NO ITEM IS MINTED.**  Along every run of drops, trade finishes,
    exchange steps and persistence, in any order and for any clients, from a
    `Safe` world where every item recorded in a client's inventory sits in
    it: every item some client's inventory holds at the end was held by some
    client's inventory at the start.  Stale drops can lose an item
    (`ItemRuns.staleDropRun`) or move a dropped one (`ItemRuns.resurrectRun`),
    but never create one. -/
theorem run_mints_no_item (defs : ItemDefinitions) (db : ChangeSet → Bool) {w : World}
    (hs : Safe w) (hx : Exact w) (as : List Action) {w' : World} (h : run defs db w as = some w') :
    ∀ x, Holds w' x → Holds w x :=
  (run_fromStart hs (FromStart.start hx) as h).held

/-- In `dropWorld` only item 300 records inventory 10 and only item 200
    records inventory 20, and each sits there. -/
theorem exact_dropWorld : Exact dropWorld := by
  intro c x hc hr
  have h10 : (dropWorld.items x).itemBox = 10 → x = 300 := by
    dsimp only [dropWorld]; split_ifs <;> simp_all
  have h20 : (dropWorld.items x).itemBox = 20 → x = 200 := by
    dsimp only [dropWorld]; split_ifs <;> simp_all
  rcases dropWorld_clients_isSome hc with rfl | rfl
  · rw [h10 hr]; decide
  · rw [h20 hr]; decide

theorem run_mints_no_item_resurrect :
    ∃ w', run discardAll (fun _ => true) dropWorld resurrectRun = some w' ∧
      ∀ x, Holds w' x → Holds dropWorld x :=
  ⟨_, rfl, run_mints_no_item discardAll (fun _ => true) safe_dropWorld exact_dropWorld
    resurrectRun rfl⟩

/-! ## Without drops, nothing is lost either -/

/-- A step that rewrites the slots of two clients' inventories only, keeping
    the items they hold together, keeps every other holder. -/
theorem holds_of_pair {w w' : World} {a b : EntityId} (ha : (w.clients a).isSome)
    (hb : (w.clients b).isSome)
    (hinv : ∀ c, (w'.clients c).map (·.inventory) = (w.clients c).map (·.inventory))
    (hother : ∀ box, box ≠ w.inventoryOf a → box ≠ w.inventoryOf b → w'.held box = w.held box)
    (hsub : ∀ x ∈ w'.held (w.inventoryOf a) ++ w'.held (w.inventoryOf b),
      x ∈ w.held (w.inventoryOf a) ++ w.held (w.inventoryOf b))
    {x : UUID} (hx : Holds w' x) : Holds w x := by
  obtain ⟨c, hc, hx⟩ := hx
  rw [inventoryOf_of_inventories hinv] at hx
  have pair : x ∈ w.held (w.inventoryOf a) ++ w.held (w.inventoryOf b) → Holds w x := fun h =>
    (List.mem_append.mp h).elim (⟨a, ha, ·⟩) (⟨b, hb, ·⟩)
  by_cases hca : w.inventoryOf c = w.inventoryOf a
  · exact pair (hsub x (List.mem_append_left _ (hca ▸ hx)))
  by_cases hcb : w.inventoryOf c = w.inventoryOf b
  · exact pair (hsub x (List.mem_append_right _ (hcb ▸ hx)))
  exact ⟨c, isSome_clients_of_inventories hinv c ▸ hc, hother _ hca hcb ▸ hx⟩

section Moved

variable {W : World} {a b : EntityId}

theorem inventories_moved (W : World) (a b c : EntityId) :
    ((movedWorld W a b).clients c).map (·.inventory) = (W.clients c).map (·.inventory) :=
  inventories_tradeWorld _ _ _ _ _ _ _ c

/-- The commit writes no box but the two inventories. -/
theorem held_moved_of_ne {box : UUID} (ha : box ≠ W.inventoryOf a) (hb : box ≠ W.inventoryOf b) :
    (movedWorld W a b).held box = W.held box := by
  have hslot : (movedWorld W a b).slot box = W.slot box := by
    funext i
    rw [movedWorld_eq, slot_placeAll_of_not_mem (.inl hb), slot_placeAll_of_not_mem (.inl ha)]
    simp [slot_vacate, ha, hb]
  simp only [World.held, hslot]

variable (h : SidesHeld W a b)
  (hcap : (stagedItems W a).length ≤ (openSlots W (W.inventoryOf b) (stagedItems W b)).card)
  (hcap' : (stagedItems W b).length ≤ (openSlots W (W.inventoryOf a) (stagedItems W a)).card)
include h hcap hcap'

/-- With both sides held, the commit keeps every back-reference into an
    inventory exact: a moved item records where it now sits, and every other
    item stays where its record says. -/
theorem exact_moved (hx : Exact W) : Exact (movedWorld W a b) := by
  have hinv := inventories_moved W a b
  intro c x hc hr
  rw [isSome_clients_of_inventories hinv] at hc
  rw [inventoryOf_of_inventories hinv] at hr ⊢
  by_cases hxa : x ∈ stagedItems W a
  · obtain ⟨p, hp, rfl⟩ := List.mem_map.mp ((transfers_items_eq hcap).symm ▸ hxa)
    rw [items_moved_of_transfer h hp] at hr
    have hbc : W.inventoryOf b = W.inventoryOf c := hr
    exact hbc ▸ held_moved_of_staged hcap hxa
  by_cases hxb : x ∈ stagedItems W b
  · obtain ⟨p, hp, rfl⟩ := List.mem_map.mp ((transfers_items_eq hcap').symm ▸ hxb)
    rw [items_moved_of_transfer' h hp] at hr
    have hac : W.inventoryOf a = W.inventoryOf c := hr
    exact hac ▸ held_moved_of_staged' h hcap' hxb
  rw [items_moved_of_not_mem hxa hxb] at hr
  have hxc := hx c x hc hr
  by_cases hca : W.inventoryOf c = W.inventoryOf a
  · rw [hca] at hxc ⊢
    exact held_moved_of_not_staged' h hxc hxa
  by_cases hcb : W.inventoryOf c = W.inventoryOf b
  · rw [hcb] at hxc ⊢
    exact held_moved_of_not_staged h hxc hxb
  rwa [held_moved_of_ne hca hcb]

/-- With both sides held and both capacity checks passed, the commit
    neither loses nor creates a held item. -/
theorem holds_moved_iff (ha : (W.clients a).isSome) (hb : (W.clients b).isSome) (x : UUID) :
    Holds (movedWorld W a b) x ↔ Holds W x := by
  have hinv := inventories_moved W a b
  have hperm := (tradeEffects_moved h hcap hcap').conserved
  have hinvA := inventoryOf_of_inventories hinv a
  have hinvB := inventoryOf_of_inventories hinv b
  refine ⟨holds_of_pair ha hb hinv (fun _ => held_moved_of_ne) fun _ hy => hperm.subset hy,
    holds_of_pair (isSome_clients_of_inventories hinv a ▸ ha)
      (isSome_clients_of_inventories hinv b ▸ hb) (fun c => (hinv c).symm) ?_ ?_⟩
  · intro box hA hB
    rw [hinvA] at hA
    rw [hinvB] at hB
    exact (held_moved_of_ne hA hB).symm
  · rw [hinvA, hinvB]
    exact fun _ hy => hperm.symm.subset hy

end Moved

theorem conserves_tradeFinish {w : World} {a : EntityId} {e : Exec} (hs : Safe w) (hx : Exact w)
    (h : tradeFinish db w a = .ok e) : Exact e.world ∧ ∀ x, Holds e.world x ↔ Holds w x := by
  have hk := (keeps_tradeFinish db hs h).inventories
  rcases tradeFinish_objects h with hu | ⟨b, hc, hpa, hpb, hcapA, hcapB, _, rfl, hb, hi⟩
  · have hso : SameObjects w e.world := ⟨hu.boxes, hu.items, hk⟩
    exact ⟨hso.exact hx, hso.holds_iff⟩
  obtain ⟨s, hsa, hob, hcb⟩ := counterpart_eq_some hc
  have hba : b ≠ a := fun hba => hs.not_self a s hsa (hba ▸ hob)
  have hca := isSome_clients_of_session hsa
  have hheld : SidesHeld w a b := ⟨hs.distinct a b hba.symm hca hcb, hs.consistent a hca,
    hs.consistent b hcb, hs.nodup a, hs.nodup b, fun x hxs => hx a x hca (hpa x hxs),
    fun x hxs => hx b x hcb (hpb x hxs)⟩
  have hso₁ : SameObjects w (setFinished w a) := ⟨rfl, rfl, (keeps_setFinished w a).inventories⟩
  simp only [hheld.loopFreeSlots_eq, hheld.symm.loopFreeSlots_eq] at hb hi hcapA hcapB
  have hmoved : movedWorld (setFinished w a) a b = tradeWorld (setFinished w a) a b
      (stagedItems w a) (stagedItems w b) (openSlots w (w.inventoryOf a) (stagedItems w a))
      (openSlots w (w.inventoryOf b) (stagedItems w b)) := by
    simp only [movedWorld, stagedItems_setFinished, inventoryOf_setFinished, openSlots_setFinished]
  rw [← hmoved] at hb hi
  have hso : SameObjects (movedWorld (setFinished w a) a b) e.world := ⟨hb, hi, fun c =>
    (hk c).trans ((inventories_moved _ a b c).trans (hso₁.inventories c)).symm⟩
  have hheld₁ := hheld.of_setFinished a
  have hcapA₁ : (stagedItems (setFinished w a) a).length ≤ (openSlots (setFinished w a)
      ((setFinished w a).inventoryOf b) (stagedItems (setFinished w a) b)).card := by simpa using hcapA
  have hcapB₁ : (stagedItems (setFinished w a) b).length ≤ (openSlots (setFinished w a)
      ((setFinished w a).inventoryOf a) (stagedItems (setFinished w a) a)).card := by simpa using hcapB
  exact ⟨hso.exact (exact_moved hheld₁ hcapA₁ hcapB₁ (hso₁.exact hx)), fun x =>
    (hso.holds_iff x).trans ((holds_moved_iff hheld₁ hcapA₁ hcapB₁
      (isSome_clients_of_inventories hso₁.inventories a ▸ hca)
      (isSome_clients_of_inventories hso₁.inventories b ▸ hcb) x).trans (hso₁.holds_iff x))⟩

/-- Whether an action is a drop. -/
def isDrop : Action → Bool
  | .drop _ _ => true
  | _ => false

theorem step_conserves {w w' : World} (hs : Safe w) (hx : Exact w) {act : Action}
    (hd : isDrop act = false) (h : step defs db w act = some w') :
    Exact w' ∧ ∀ x, Holds w' x ↔ Holds w x := by
  rcases step_cases h with hso | ⟨c, itemID, rfl, -⟩ | ⟨c, e, he, rfl⟩
  · exact ⟨hso.exact hx, hso.holds_iff⟩
  · cases hd
  · exact conserves_tradeFinish hs hx he

/-- **TRADES LOSE NOTHING.**  Along every run of trade finishes, exchange
    steps and persistence, in any order and for any clients, from a `Safe`
    world where every item recorded in a client's inventory sits in it: that
    stays so in every state reached, and the items held across the clients'
    inventories are exactly those held at the start, none twice in one
    inventory nor in two (`Safe`).  The loss of `ItemRuns.staleDropRun` needs
    a drop. -/
theorem run_conserves_items (defs : ItemDefinitions) (db : ChangeSet → Bool) {w : World}
    (hs : Safe w) (hx : Exact w) (as : List Action) (hd : ∀ act ∈ as, isDrop act = false)
    {w' : World} (h : run defs db w as = some w') :
    Safe w' ∧ Exact w' ∧ ∀ x, Holds w' x ↔ Holds w x := by
  induction as generalizing w with
  | nil => cases h; exact ⟨hs, hx, fun _ => Iff.rfl⟩
  | cons act as ih =>
    cases hst : step defs db w act with
    | none => simp [run, hst] at h
    | some w₁ =>
      rw [run, hst, Option.some_bind] at h
      obtain ⟨hx₁, hh₁⟩ := step_conserves hs hx (hd act (List.mem_cons_self _ _)) hst
      obtain ⟨hs', hx', hh'⟩ := ih (step_safe defs db hs hst) hx₁
        (fun act' h' => hd act' (List.mem_cons_of_mem _ h')) h
      exact ⟨hs', hx', fun x => (hh' x).trans (hh₁ x)⟩

/-- Clients 1 and 2 of `dropWorld` open an exchange, stage their items 300
    and 200, and both finish. -/
def tradeRun : List Action :=
  [.openExchange 1 2, .stage 1 [300], .stage 2 [200], .finish 1, .finish 2]

theorem run_conserves_items_tradeRun :
    ∃ w', run discardAll (fun _ => true) dropWorld tradeRun = some w' ∧
      Safe w' ∧ Exact w' ∧ ∀ x, Holds w' x ↔ Holds dropWorld x :=
  ⟨_, rfl, run_conserves_items discardAll (fun _ => true) safe_dropWorld exact_dropWorld tradeRun
    (by decide) rfl⟩

end ItemConservation
