import ChannelServer.Manager

/-! # `ItemDrop` — discarding an item from the inventory

    `DropItem` (lines 52–115), queued by `Parsers::ItemDrop::Parse` once the
    payload has its 8 bytes:

    * a client in an exchange is killed and nothing else happens;
    * the handle resolves, through the client's table, to a registered item
      whose recorded box is the inventory and whose definition carries the
      discard flag: the item is unequipped, the slot its back-reference names
      is cleared and reported, and an update of the inventory and a delete of
      the item are queued;
    * otherwise the client gets `PACKET_ERROR_ITEM` with status `-1`.

    The item stays registered, back-reference and all, until the queued
    delete is persisted: the check reads the recorded box, never the slot. -/

namespace ItemDrop

open ChannelObjects ChannelWorld

/-- What the definition manager and `ITEM_FLAG_DISCARD` supply, neither in the
    repository: the basic flags of each item type that has a definition, and
    the discard bit. -/
structure ItemDefinitions where
  flags : Nat → Option Nat
  discardFlag : Nat

/-- The type has a definition whose flags carry the discard bit. -/
def ItemDefinitions.discardable (defs : ItemDefinitions) (type : Nat) : Bool :=
  match defs.flags type with
  | some f => f &&& defs.discardFlag != 0
  | none => false

/-- Lines 72–75: the handle's UUID, when it names a registered item. -/
def resolveItem (w : World) (st : ClientState) (itemID : Int) : Option UUID :=
  (st.objectUUIDs itemID).filter w.itemLive

/-- Lines 103–113: the failure reply. -/
def dropError (w : World) (c : EntityId) : Exec :=
  (⟨w, []⟩ : Exec).send c (.errorItem .itemDrop (-1) 0 0)

/-- Lines 87–101: unequip item `x`, clear the slot it records, report that
    slot, and queue the update of the inventory and the delete of the item. -/
def discard (w : World) (c : EntityId) (st : ClientState) (x : UUID) : Exec :=
  let slot := (w.items x).boxSlot
  ((⟨(w.unequipItem c x).setItems st.inventory (sizeT slot) none, []⟩ : Exec).sendItemBoxData c
    st.inventory [u16 slot]).queueChangeSet
    ⟨some st.accountUID, [.update (.itemBox st.inventory), .delete (.item x)]⟩

/-- `DropItem` for the client whose character has entity id `c`. -/
def dropItem (defs : ItemDefinitions) (w : World) (c : EntityId) (itemID : Int) : Exec :=
  match w.clients c with
  | none => ⟨w, []⟩
  | some st =>
    if st.exchangeSession.isSome then (⟨w, []⟩ : Exec).kill c
    else
      match resolveItem w st itemID with
      | some x =>
        if (w.items x).itemBox = st.inventory ∧ defs.discardable (w.items x).type then
          discard w c st x
        else dropError w c
      | none => dropError w c

/-! ## The three paths -/

section Paths

variable {defs : ItemDefinitions} {w : World} {c : EntityId} {st : ClientState} {itemID : Int}

/-- The drop is accepted: the handle names a registered item recorded in the
    inventory, of a discardable type. -/
def Accepts (defs : ItemDefinitions) (w : World) (st : ClientState) (itemID : Int) (x : UUID) :
    Prop :=
  resolveItem w st itemID = some x ∧ (w.items x).itemBox = st.inventory ∧
    defs.discardable (w.items x).type = true

theorem dropItem_of_session (hc : w.clients c = some st) (hs : st.exchangeSession.isSome) :
    dropItem defs w c itemID = (⟨w, []⟩ : Exec).kill c := by
  simp [dropItem, hc, hs]

theorem dropItem_of_accepts (hc : w.clients c = some st) (hs : st.exchangeSession = none)
    {x : UUID} (ha : Accepts defs w st itemID x) : dropItem defs w c itemID = discard w c st x := by
  simp [dropItem, hc, hs, ha.1, ha.2.1, ha.2.2]

theorem dropItem_of_rejects (hc : w.clients c = some st) (hs : st.exchangeSession = none)
    (hr : ∀ x, ¬Accepts defs w st itemID x) : dropItem defs w c itemID = dropError w c := by
  simp only [dropItem, hc, hs, Option.isSome_none, Bool.false_eq_true, if_false]
  cases hx : resolveItem w st itemID with
  | none => rfl
  | some x => exact if_neg fun h => hr x ⟨hx, h⟩

end Paths

/-! ## What an accepted drop writes -/

section Discard

variable {w : World} {c : EntityId} {st : ClientState} {x : UUID}

@[simp] theorem discard_events :
    (discard w c st x).events = [.send c (.itemBoxData st.inventory [u16 (w.items x).boxSlot])] :=
  rfl
@[simp] theorem discard_items : (discard w c st x).world.items = w.items := rfl
@[simp] theorem discard_itemLive : (discard w c st x).world.itemLive = w.itemLive := rfl
@[simp] theorem discard_queue :
    (discard w c st x).world.queue = w.queue ++
      [⟨some st.accountUID, [.update (.itemBox st.inventory), .delete (.item x)]⟩] := rfl

@[simp] theorem session_discard (c' : EntityId) :
    (discard w c st x).world.session c' = w.session c' := by
  simp [discard]

@[simp] theorem connection_discard (c' : EntityId) :
    (discard w c st x).world.connection c' = w.connection c' := by
  simp only [discard, Exec.queueChangeSet_connection, Exec.sendItemBoxData_world,
    World.connection_setItems]
  exact World.connection_modifyClient _ _ _ fun _ => rfl

/-- Exactly the slot the item records is cleared. -/
theorem slot_discard (box : UUID) (i : Nat) :
    (discard w c st x).world.slot box i =
      if box = st.inventory ∧ sizeT (w.items x).boxSlot = i ∧ sizeT (w.items x).boxSlot < ItemsCount
      then none else w.slot box i := by
  simp only [discard, Exec.queueChangeSet_slot, Exec.sendItemBoxData_world, World.slot_setItems,
    World.slot_unequipItem]

end Discard

/-! ## The contract -/

/-- **ITEM DROP CONTRACT.**  For every state and handle, a connected client's
    drop takes one of three paths.  In an exchange, its connection is killed
    and nothing else changes.  When the handle names a registered item
    recorded in the inventory, of a discardable type, the one slot the item
    records is cleared and every other slot is left as it was; no item's
    fields change and the item stays registered; that slot is reported to the
    client, and an update of the inventory and a delete of the item are
    queued under the account.  Otherwise the client gets the error reply and
    the world is unchanged. -/
theorem dropItem_contract (defs : ItemDefinitions) (w : World) (c : EntityId) (itemID : Int)
    {st : ClientState} (hc : w.clients c = some st) :
    (st.exchangeSession.isSome →
      (dropItem defs w c itemID).events = [] ∧ (dropItem defs w c itemID).world.boxes = w.boxes ∧
        (dropItem defs w c itemID).world.items = w.items ∧
        (dropItem defs w c itemID).world.queue = w.queue ∧
        ∀ c', (dropItem defs w c itemID).world.connection c' =
          if c' = c then some .killed else w.connection c') ∧
    (st.exchangeSession = none → ∀ x, Accepts defs w st itemID x →
      (∀ box i, (dropItem defs w c itemID).world.slot box i =
        if box = st.inventory ∧ sizeT (w.items x).boxSlot = i ∧
          sizeT (w.items x).boxSlot < ItemsCount then none else w.slot box i) ∧
      (dropItem defs w c itemID).world.items = w.items ∧
      (dropItem defs w c itemID).world.itemLive = w.itemLive ∧
      (dropItem defs w c itemID).events =
        [.send c (.itemBoxData st.inventory [u16 (w.items x).boxSlot])] ∧
      (dropItem defs w c itemID).world.queue = w.queue ++
        [⟨some st.accountUID, [.update (.itemBox st.inventory), .delete (.item x)]⟩]) ∧
    (st.exchangeSession = none → (∀ x, ¬Accepts defs w st itemID x) →
      (dropItem defs w c itemID).world = w ∧
        (dropItem defs w c itemID).events = [.send c (.errorItem .itemDrop (-1) 0 0)]) := by
  refine ⟨fun hs => ?_, fun hs x ha => ?_, fun hs hr => ?_⟩
  · rw [dropItem_of_session hc hs]
    refine ⟨rfl, rfl, rfl, rfl, fun c' => ?_⟩
    rw [Exec.connection_kill]
    split_ifs <;> simp [World.connection, hc]
  · rw [dropItem_of_accepts hc hs ha]
    exact ⟨slot_discard, rfl, rfl, rfl, rfl⟩
  · rw [dropItem_of_rejects hc hs hr]
    exact ⟨rfl, rfl⟩

/-- **A HELD ITEM IS DROPPED ALONE.**  When the item the handle names sits
    in its recorded slot of a consistent inventory, an accepted drop removes
    that item from the inventory and no other, keeps the inventory consistent,
    and leaves every other box as it was. -/
theorem dropItem_removes_held (defs : ItemDefinitions) {w : World} {c : EntityId}
    {st : ClientState} {itemID : Int} {x : UUID} (hc : w.clients c = some st)
    (hs : st.exchangeSession = none) (ha : Accepts defs w st itemID x)
    (hcons : w.BoxConsistent st.inventory) (hx : x ∈ w.held st.inventory) :
    (∀ y, y ∈ (dropItem defs w c itemID).world.held st.inventory ↔
        y ∈ w.held st.inventory ∧ y ≠ x) ∧
      (dropItem defs w c itemID).world.BoxConsistent st.inventory ∧
      ∀ box, box ≠ st.inventory → (dropItem defs w c itemID).world.held box = w.held box := by
  rw [dropItem_of_accepts hc hs ha]
  obtain ⟨i, hi⟩ := World.mem_held.mp hx
  have hrec := (hcons.of_slot hi).2
  have hlt := World.lt_of_slot_eq_some hi
  have hslot : ∀ box j, (discard w c st x).world.slot box j =
      if box = st.inventory ∧ i = j then none else w.slot box j := by
    intro box j
    rw [slot_discard, hrec, sizeT_natCast (by unfold ItemsCount at hlt; omega)]
    simp [hlt]
  refine ⟨fun y => ?_, hcons.setItems_none _ _, fun box hb => ?_⟩
  · simp only [World.mem_held, hslot]
    constructor
    · rintro ⟨j, hj⟩
      split_ifs at hj with h
      refine ⟨⟨j, hj⟩, fun hyx => h ?_⟩
      have := (hcons.of_slot (hyx ▸ hj)).2
      constructor <;> first | trivial | omega
    · rintro ⟨⟨j, hj⟩, hyx⟩
      refine ⟨j, ?_⟩
      rw [if_neg]
      · exact hj
      · rintro ⟨-, rfl⟩
        exact hyx (Option.some.inj (hj.symm.trans hi))
  · have : (discard w c st x).world.slot box = w.slot box :=
      funext fun j => by rw [hslot, if_neg fun h => hb h.1]
    simp only [World.held, this]

/-- Client 1: account 1, inventory 10, handle 5 naming item 300. -/
def dropper : ClientState where
  accountUID := 1
  inventory := 10
  objectUUIDs h := if h = 5 then some 300 else none

/-- Client 1 (`dropper`) holds item 300 in slot 0 of inventory 10; client 2
    holds item 200 in slot 0 of inventory 20.  Neither trades. -/
def dropWorld : World where
  clients
    | 1 => some dropper
    | 2 => some { accountUID := 2, inventory := 20 }
    | _ => none
  items x := if x = 300 then ⟨7, 10, 0⟩ else if x = 200 then ⟨8, 20, 0⟩ else ⟨0, 0, 0⟩
  itemLive x := x == 300 || x == 200
  boxes u := if u = 10 then ItemBox.empty.setItems 0 (some 300)
    else if u = 20 then ItemBox.empty.setItems 0 (some 200) else ItemBox.empty

/-- Definitions under which every item type is discardable. -/
def discardAll : ItemDefinitions := ⟨fun _ => some 1, 1⟩

theorem dropItem_removes_held_dropWorld :
    (∀ y, y ∈ (dropItem discardAll dropWorld 1 5).world.held dropper.inventory ↔
        y ∈ dropWorld.held dropper.inventory ∧ y ≠ 300) ∧
      (dropItem discardAll dropWorld 1 5).world.BoxConsistent dropper.inventory ∧
      ∀ box, box ≠ dropper.inventory →
        (dropItem discardAll dropWorld 1 5).world.held box = dropWorld.held box :=
  dropItem_removes_held discardAll rfl rfl ⟨rfl, rfl, rfl⟩ (by decide) (by decide)

end ItemDrop
