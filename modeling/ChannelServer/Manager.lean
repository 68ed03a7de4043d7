import ChannelServer.World

/-! # Character manager calls — the helpers the handlers lean on

    `CharacterManager` and `TcpConnection` are not in the repository; the
    handlers call `GetFreeSlots`, `EndExchange`, `UnequipItem`,
    `DeleteDemon`, `SendItemBoxData`, `SendDemonBoxData`, `Kill` and `Close`.  Each is modelled here from the
    spec's words, as an update of the running `Exec`, together with the frame
    lemmas saying what it leaves alone.  Later modules reason through these
    lemmas only. -/

namespace ChannelWorld

open ChannelObjects

/-- Modelled from the spec: `CharacterManager::GetFreeSlots` is not in the
    repository.  The free slots of a box are the indices below `ItemsCount`
    whose entry is empty. -/
def getFreeSlots (b : ItemBox) : Finset Nat :=
  (Finset.range ItemsCount).filter (fun i => b.getItems i = none)

theorem mem_getFreeSlots {b : ItemBox} {i : Nat} :
    i ∈ getFreeSlots b ↔ i < ItemsCount ∧ b.getItems i = none := by
  simp [getFreeSlots]

namespace World

/-- Modelled from the spec: `CharacterManager::UnequipItem` is not in the
    repository.  An equipped item is taken off the character, so no
    equipment slot of client `c` refers to it afterwards. -/
def unequipItem (w : World) (c : EntityId) (x : UUID) : World :=
  w.modifyClient c fun st =>
    { st with equipment := st.equipment.map fun e => if e = some x then none else e }

@[simp] theorem unequipItem_boxes (w : World) (c : EntityId) (x : UUID) :
    (w.unequipItem c x).boxes = w.boxes := rfl
@[simp] theorem unequipItem_items (w : World) (c : EntityId) (x : UUID) :
    (w.unequipItem c x).items = w.items := rfl
@[simp] theorem unequipItem_itemLive (w : World) (c : EntityId) (x : UUID) :
    (w.unequipItem c x).itemLive = w.itemLive := rfl
@[simp] theorem unequipItem_queue (w : World) (c : EntityId) (x : UUID) :
    (w.unequipItem c x).queue = w.queue := rfl
@[simp] theorem slot_unequipItem (w : World) (c : EntityId) (x : UUID) :
    (w.unequipItem c x).slot = w.slot := rfl
@[simp] theorem session_unequipItem (w : World) (c c' : EntityId) (x : UUID) :
    (w.unequipItem c x).session c' = w.session c' := by
  by_cases h : c' = c
  · subst h; cases hc : w.clients c' <;> simp [unequipItem, session, hc]
  · simp [unequipItem, h]

/-- Modelled from the spec: `CharacterManager::DeleteDemon` is not in the
    repository.  A deleted object leaves its container's slot and the
    registry, and the change set gets the update of the box and the delete of
    the demon. -/
def deleteDemon (w : World) (m : UUID) : World × List DbChange :=
  let d := w.demons m
  let box := w.demonBoxes d.demonBox
  ({ w with
      demonBoxes := fun u =>
        if u = d.demonBox then { box with demons := box.demons.set (sizeT d.boxSlot) none }
        else w.demonBoxes u,
      demonLive := fun u => u ≠ m && w.demonLive u },
    [.update (.demonBox d.demonBox), .delete (.demon m)])

@[simp] theorem deleteDemon_demonLive (w : World) (m u : UUID) :
    (w.deleteDemon m).1.demonLive u = (u ≠ m && w.demonLive u) := rfl
@[simp] theorem deleteDemon_queue (w : World) (m : UUID) :
    (w.deleteDemon m).1.queue = w.queue := rfl

end World

namespace Exec

/-- Modelled from the spec: `CharacterManager::EndExchange` is not in the
    repository.  It tears down the client's exchange session and delivers the
    outcome code to that client; a client with no session is left as it is. -/
def endExchange (e : Exec) (c : EntityId) (outcome : Int) : Exec :=
  match e.world.session c with
  | some _ => (e.map (·.modifyClient c ({ · with exchangeSession := none }))).send c
      (.tradeEnded outcome)
  | none => e

/-- `TcpConnection::Kill`: the connection is dropped. -/
def kill (e : Exec) (c : EntityId) : Exec :=
  e.map (·.modifyClient c ({ · with connection := .killed }))

/-- `TcpConnection::Close`: the connection is closed. -/
def close (e : Exec) (c : EntityId) : Exec :=
  e.map (·.modifyClient c ({ · with connection := .closed }))

/-- Modelled from the spec: `CharacterManager::SendItemBoxData` is not in the
    repository.  It pushes the listed slots of a box to the client. -/
def sendItemBoxData (e : Exec) (c : EntityId) (box : UUID) (slots : List Nat) : Exec :=
  e.send c (.itemBoxData box slots)

/-- Modelled from the spec: `CharacterManager::SendDemonBoxData` is not in the
    repository.  It pushes the listed slots of a demon box, named by its
    client-facing id, to the client. -/
def sendDemonBoxData (e : Exec) (c : EntityId) (boxID : Int) (slots : List Int) : Exec :=
  e.send c (.demonBoxData boxID slots)

/-- Modelled from the spec: `WorldDatabase::QueueChangeSet` is not in the
    repository.  The change set goes to the back of the background worker's
    queue and the handler goes on at once. -/
def queueChangeSet (e : Exec) (cs : ChangeSet) : Exec :=
  e.map fun w => { w with queue := w.queue ++ [cs] }

@[simp] theorem queueChangeSet_events (e : Exec) (cs : ChangeSet) :
    (e.queueChangeSet cs).events = e.events := rfl
@[simp] theorem queueChangeSet_clients (e : Exec) (cs : ChangeSet) :
    (e.queueChangeSet cs).world.clients = e.world.clients := rfl
@[simp] theorem queueChangeSet_boxes (e : Exec) (cs : ChangeSet) :
    (e.queueChangeSet cs).world.boxes = e.world.boxes := rfl
@[simp] theorem queueChangeSet_items (e : Exec) (cs : ChangeSet) :
    (e.queueChangeSet cs).world.items = e.world.items := rfl
@[simp] theorem queueChangeSet_itemLive (e : Exec) (cs : ChangeSet) :
    (e.queueChangeSet cs).world.itemLive = e.world.itemLive := rfl
@[simp] theorem queueChangeSet_demons (e : Exec) (cs : ChangeSet) :
    (e.queueChangeSet cs).world.demons = e.world.demons := rfl
@[simp] theorem queueChangeSet_demonLive (e : Exec) (cs : ChangeSet) :
    (e.queueChangeSet cs).world.demonLive = e.world.demonLive := rfl
@[simp] theorem queueChangeSet_demonBoxes (e : Exec) (cs : ChangeSet) :
    (e.queueChangeSet cs).world.demonBoxes = e.world.demonBoxes := rfl
@[simp] theorem queueChangeSet_queue (e : Exec) (cs : ChangeSet) :
    (e.queueChangeSet cs).world.queue = e.world.queue ++ [cs] := rfl
@[simp] theorem queueChangeSet_slot (e : Exec) (cs : ChangeSet) :
    (e.queueChangeSet cs).world.slot = e.world.slot := rfl
@[simp] theorem queueChangeSet_held (e : Exec) (cs : ChangeSet) :
    (e.queueChangeSet cs).world.held = e.world.held := rfl
@[simp] theorem queueChangeSet_session (e : Exec) (cs : ChangeSet) :
    (e.queueChangeSet cs).world.session = e.world.session := rfl
@[simp] theorem queueChangeSet_connection (e : Exec) (cs : ChangeSet) :
    (e.queueChangeSet cs).world.connection = e.world.connection := rfl
@[simp] theorem queueChangeSet_inventoryOf (e : Exec) (cs : ChangeSet) :
    (e.queueChangeSet cs).world.inventoryOf = e.world.inventoryOf := rfl

@[simp] theorem endExchange_boxes (e : Exec) (c : EntityId) (o : Int) :
    (e.endExchange c o).world.boxes = e.world.boxes := by
  unfold endExchange; split <;> rfl
@[simp] theorem endExchange_items (e : Exec) (c : EntityId) (o : Int) :
    (e.endExchange c o).world.items = e.world.items := by
  unfold endExchange; split <;> rfl
@[simp] theorem endExchange_itemLive (e : Exec) (c : EntityId) (o : Int) :
    (e.endExchange c o).world.itemLive = e.world.itemLive := by
  unfold endExchange; split <;> rfl
@[simp] theorem endExchange_queue (e : Exec) (c : EntityId) (o : Int) :
    (e.endExchange c o).world.queue = e.world.queue := by
  unfold endExchange; split <;> rfl

@[simp] theorem processed_endExchange (e : Exec) (c : EntityId) (o : Int) :
    (e.endExchange c o).processed = e.processed := by
  unfold endExchange; split <;> simp

@[simp] theorem session_endExchange_self (e : Exec) (c : EntityId) (o : Int) :
    (e.endExchange c o).world.session c = none := by
  unfold endExchange; split
  · cases h : e.world.clients c <;> simp [World.session, h]
  · assumption

/-- Ending an open exchange delivers the outcome to its client. -/
theorem events_endExchange_of_session (e : Exec) {c : EntityId} {s : ExchangeSession}
    (h : e.world.session c = some s) (o : Int) :
    (e.endExchange c o).events = e.events ++ [.send c (.tradeEnded o)] := by
  simp [endExchange, h]

theorem session_endExchange_ne (e : Exec) {c c' : EntityId} (h : c' ≠ c) (o : Int) :
    (e.endExchange c o).world.session c' = e.world.session c' := by
  unfold endExchange; split <;> simp [h]

theorem clients_endExchange_ne (e : Exec) {c c' : EntityId} (h : c' ≠ c) (o : Int) :
    (e.endExchange c o).world.clients c' = e.world.clients c' := by
  unfold endExchange; split <;> simp [h]

theorem clients_kill_ne (e : Exec) {c c' : EntityId} (h : c' ≠ c) :
    (e.kill c).world.clients c' = e.world.clients c' := by
  simp [kill, h]

theorem clients_close_ne (e : Exec) {c c' : EntityId} (h : c' ≠ c) :
    (e.close c).world.clients c' = e.world.clients c' := by
  simp [close, h]

@[simp] theorem connection_endExchange (e : Exec) (c c' : EntityId) (o : Int) :
    (e.endExchange c o).world.connection c' = e.world.connection c' := by
  unfold endExchange; split
  · exact World.connection_modifyClient _ _ _ fun _ => rfl
  · rfl

@[simp] theorem equipmentOf_endExchange (e : Exec) (c c' : EntityId) (o : Int) :
    (e.endExchange c o).world.equipmentOf c' = e.world.equipmentOf c' := by
  unfold endExchange; split
  · exact World.equipmentOf_modifyClient _ _ _ fun _ => rfl
  · rfl

@[simp] theorem session_kill (e : Exec) (c c' : EntityId) :
    (e.kill c).world.session c' = e.world.session c' :=
  World.session_modifyClient _ _ _ fun _ => rfl
@[simp] theorem equipmentOf_kill (e : Exec) (c c' : EntityId) :
    (e.kill c).world.equipmentOf c' = e.world.equipmentOf c' :=
  World.equipmentOf_modifyClient _ _ _ fun _ => rfl

/-- `Kill` ends the connection it is called on, and no other. -/
theorem connection_kill (e : Exec) (c c' : EntityId) :
    (e.kill c).world.connection c' =
      if c' = c then (e.world.connection c).map fun _ => .killed else e.world.connection c' := by
  by_cases h : c' = c
  · subst h; cases hc : e.world.clients c' <;> simp [kill, World.connection, hc]
  · simp [kill, World.connection, h]

/-- `Close` ends the connection it is called on, and no other. -/
theorem connection_close (e : Exec) (c c' : EntityId) :
    (e.close c).world.connection c' =
      if c' = c then (e.world.connection c).map fun _ => .closed else e.world.connection c' := by
  by_cases h : c' = c
  · subst h; cases hc : e.world.clients c' <;> simp [close, World.connection, hc]
  · simp [close, World.connection, h]

@[simp] theorem kill_boxes (e : Exec) (c : EntityId) : (e.kill c).world.boxes = e.world.boxes := rfl
@[simp] theorem kill_items (e : Exec) (c : EntityId) : (e.kill c).world.items = e.world.items := rfl
@[simp] theorem kill_itemLive (e : Exec) (c : EntityId) :
    (e.kill c).world.itemLive = e.world.itemLive := rfl
@[simp] theorem kill_queue (e : Exec) (c : EntityId) : (e.kill c).world.queue = e.world.queue := rfl
@[simp] theorem kill_events (e : Exec) (c : EntityId) : (e.kill c).events = e.events := rfl
@[simp] theorem close_boxes (e : Exec) (c : EntityId) :
    (e.close c).world.boxes = e.world.boxes := rfl
@[simp] theorem close_items (e : Exec) (c : EntityId) :
    (e.close c).world.items = e.world.items := rfl
@[simp] theorem close_itemLive (e : Exec) (c : EntityId) :
    (e.close c).world.itemLive = e.world.itemLive := rfl
@[simp] theorem close_queue (e : Exec) (c : EntityId) : (e.close c).world.queue = e.world.queue := rfl
@[simp] theorem close_events (e : Exec) (c : EntityId) : (e.close c).events = e.events := rfl
@[simp] theorem processed_kill (e : Exec) (c : EntityId) : (e.kill c).processed = e.processed := rfl
@[simp] theorem processed_close (e : Exec) (c : EntityId) :
    (e.close c).processed = e.processed := rfl
@[simp] theorem processed_sendItemBoxData (e : Exec) (c : EntityId) (box : UUID) (s : List Nat) :
    (e.sendItemBoxData c box s).processed = e.processed := by
  simp [sendItemBoxData]
@[simp] theorem sendItemBoxData_world (e : Exec) (c : EntityId) (box : UUID) (s : List Nat) :
    (e.sendItemBoxData c box s).world = e.world := rfl
@[simp] theorem sendItemBoxData_events (e : Exec) (c : EntityId) (box : UUID) (s : List Nat) :
    (e.sendItemBoxData c box s).events = e.events ++ [.send c (.itemBoxData box s)] := rfl

end Exec

end ChannelWorld
