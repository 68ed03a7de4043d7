import ChannelServer.Objects

/-! # The world — object stores, clients, and one handler's execution

    `World` is the state every packet handler reads and writes: the connected
    clients keyed by their character's entity id, the item and demon stores
    (a total map of object fields plus a liveness flag for
    `PersistentObject::GetObjectByUUID`), the item and demon box stores (the
    demon boxes with a liveness flag of their own), and the change sets
    queued for the background persistence worker.

    A handler run is an `Exec`: the world it has reached and the events it has
    produced so far (packets sent, change sets applied synchronously).  Every
    write the handlers make goes through one of the few updates below, each
    with its frame lemmas, so that later proofs never unfold a handler's
    writes. -/

namespace ChannelWorld

open ChannelObjects

/-! ## Persistence -/

/-- An object a change set can name. -/
inductive DbObject
  | item (u : UUID)
  | itemBox (u : UUID)
  | demon (u : UUID)
  | demonBox (u : UUID)
  deriving DecidableEq, Repr

/-- One entry of a `DatabaseChangeSet`. -/
inductive DbChange
  | insert (o : DbObject)
  | update (o : DbObject)
  | delete (o : DbObject)
  deriving DecidableEq, Repr

/-- A `DatabaseChangeSet`: its entries in the order they were added, and the
    account it is attributed to (`Create(accountUID)`, or `Create()`). -/
structure ChangeSet where
  account : Option UUID
  changes : List DbChange
  deriving DecidableEq, Repr

/-! ## Packets and events -/

/-- Client-to-channel packet codes the handlers echo. -/
inductive ClientCode
  | itemDrop
  | mitamaReunion
  | plasmaStart
  | objectInteraction
  | tradeFinish
  deriving DecidableEq, Repr

/-- Channel-to-client packets, with the fields each handler writes. -/
inductive Packet
  | tradeFinished
  | tradeFinish (status : Int)
  | tradeEnded (outcome : Int)
  | itemBoxData (box : UUID) (slots : List Nat)
  | errorItem (request : ClientCode) (status : Int) (a b : Int)
  | mitamaReunion (status reunionIdx newIdx : Int) (bonusID : Nat)
  | demonBoxData (boxID : Int) (slots : List Int)
  | plasmaStart (plasmaID pointID status : Int)
  deriving DecidableEq, Repr

/-- What a handler does besides writing the world: send a packet to a client,
    hand a change set to `ProcessChangeSet`, or call the event, zone and
    action managers, with the answers they give. -/
inductive Event
  | send (client : EntityId) (p : Packet)
  | processChangeSet (cs : ChangeSet) (ok : Bool)
  | startSystemEvent (client : EntityId) (plasmaID : Int) (ok : Bool)
  | pickPoint (client : EntityId) (plasmaID : Int) (point : Option Nat) (ok : Bool)
  | endEvent (client : EntityId)
  | performActions (client : EntityId) (actions : List Nat) (source : Int)
  deriving DecidableEq, Repr

/-! ## The world -/

/-- The channel's shared state. -/
structure World where
  clients : EntityId → Option ClientState
  items : UUID → Item
  itemLive : UUID → Bool
  boxes : UUID → ItemBox
  demons : UUID → Demon := fun _ => ⟨0, 0, 0⟩
  demonLive : UUID → Bool := fun _ => false
  demonBoxes : UUID → DemonBox := fun _ => ⟨0, []⟩
  demonBoxLive : UUID → Bool := fun _ => false
  queue : List ChangeSet := []

namespace World

/-- The exchange session of a client, if the client and its session exist. -/
def session (w : World) (c : EntityId) : Option ExchangeSession :=
  (w.clients c).bind (·.exchangeSession)

/-- The forward reference in slot `i` of box `box`. -/
def slot (w : World) (box : UUID) (i : Nat) : Option UUID :=
  (w.boxes box).getItems i

/-- The inventory UUID of client `c` (`GetItemBoxes(0)`). -/
def inventoryOf (w : World) (c : EntityId) : UUID := ((w.clients c).map (·.inventory)).getD 0

/-- The connection status of client `c`. -/
def connection (w : World) (c : EntityId) : Option Connection := (w.clients c).map (·.connection)

/-- The equipment slots of client `c`. -/
def equipmentOf (w : World) (c : EntityId) : Option (List (Option UUID)) :=
  (w.clients c).map (·.equipment)

/-- Apply `f` to the state of client `c`, if it is connected. -/
def modifyClient (w : World) (c : EntityId) (f : ClientState → ClientState) : World :=
  { w with clients := fun c' => if c' = c then (w.clients c).map f else w.clients c' }

/-- `SetItems(i, v)` on box `box`. -/
def setItems (w : World) (box : UUID) (i : Nat) (v : Option UUID) : World :=
  { w with boxes := fun u => if u = box then (w.boxes box).setItems i v else w.boxes u }

/-- Replace the fields of item `x`. -/
def setItem (w : World) (x : UUID) (it : Item) : World :=
  { w with items := fun y => if y = x then it else w.items y }

@[simp] theorem modifyClient_items (w : World) (c : EntityId) (f) :
    (w.modifyClient c f).items = w.items := rfl
@[simp] theorem modifyClient_boxes (w : World) (c : EntityId) (f) :
    (w.modifyClient c f).boxes = w.boxes := rfl
@[simp] theorem modifyClient_itemLive (w : World) (c : EntityId) (f) :
    (w.modifyClient c f).itemLive = w.itemLive := rfl
@[simp] theorem modifyClient_queue (w : World) (c : EntityId) (f) :
    (w.modifyClient c f).queue = w.queue := rfl
@[simp] theorem modifyClient_demons (w : World) (c : EntityId) (f) :
    (w.modifyClient c f).demons = w.demons := rfl
@[simp] theorem modifyClient_demonBoxes (w : World) (c : EntityId) (f) :
    (w.modifyClient c f).demonBoxes = w.demonBoxes := rfl

theorem modifyClient_clients (w : World) (c c' : EntityId) (f) :
    (w.modifyClient c f).clients c' = if c' = c then (w.clients c).map f else w.clients c' :=
  rfl

@[simp] theorem modifyClient_clients_self (w : World) (c : EntityId) (f) :
    (w.modifyClient c f).clients c = (w.clients c).map f := by
  simp [modifyClient_clients]

@[simp] theorem modifyClient_clients_ne (w : World) {c c' : EntityId} (h : c' ≠ c) (f) :
    (w.modifyClient c f).clients c' = w.clients c' := by
  simp [modifyClient_clients, h]

@[simp] theorem setItems_clients (w : World) (box : UUID) (i : Nat) (v) :
    (w.setItems box i v).clients = w.clients := rfl
@[simp] theorem setItems_items (w : World) (box : UUID) (i : Nat) (v) :
    (w.setItems box i v).items = w.items := rfl
@[simp] theorem setItems_itemLive (w : World) (box : UUID) (i : Nat) (v) :
    (w.setItems box i v).itemLive = w.itemLive := rfl
@[simp] theorem setItems_queue (w : World) (box : UUID) (i : Nat) (v) :
    (w.setItems box i v).queue = w.queue := rfl

theorem slot_setItems (w : World) (box box' : UUID) (i j : Nat) (v) :
    (w.setItems box i v).slot box' j =
      if box' = box ∧ i = j ∧ i < ItemsCount then v else w.slot box' j := by
  by_cases hb : box' = box
  · subst hb; simp [slot, setItems, ItemBox.getItems_setItems]
  · simp [slot, setItems, hb]

@[simp] theorem setItem_clients (w : World) (x : UUID) (it) :
    (w.setItem x it).clients = w.clients := rfl
@[simp] theorem setItem_boxes (w : World) (x : UUID) (it) :
    (w.setItem x it).boxes = w.boxes := rfl
@[simp] theorem setItem_itemLive (w : World) (x : UUID) (it) :
    (w.setItem x it).itemLive = w.itemLive := rfl
@[simp] theorem setItem_queue (w : World) (x : UUID) (it) :
    (w.setItem x it).queue = w.queue := rfl

theorem setItem_items (w : World) (x y : UUID) (it) :
    (w.setItem x it).items y = if y = x then it else w.items y := rfl

@[simp] theorem slot_setItem (w : World) (x : UUID) (it) :
    (w.setItem x it).slot = w.slot := rfl

@[simp] theorem session_setItems (w : World) (box : UUID) (i : Nat) (v) (c : EntityId) :
    (w.setItems box i v).session c = w.session c := rfl
@[simp] theorem inventoryOf_setItems (w : World) (box : UUID) (i : Nat) (v) (c : EntityId) :
    (w.setItems box i v).inventoryOf c = w.inventoryOf c := rfl
@[simp] theorem connection_setItems (w : World) (box : UUID) (i : Nat) (v) (c : EntityId) :
    (w.setItems box i v).connection c = w.connection c := rfl
@[simp] theorem session_setItem (w : World) (x : UUID) (it) (c : EntityId) :
    (w.setItem x it).session c = w.session c := rfl
@[simp] theorem inventoryOf_setItem (w : World) (x : UUID) (it) (c : EntityId) :
    (w.setItem x it).inventoryOf c = w.inventoryOf c := rfl
@[simp] theorem connection_setItem (w : World) (x : UUID) (it) (c : EntityId) :
    (w.setItem x it).connection c = w.connection c := rfl
@[simp] theorem equipmentOf_setItems (w : World) (box : UUID) (i : Nat) (v) (c : EntityId) :
    (w.setItems box i v).equipmentOf c = w.equipmentOf c := rfl
@[simp] theorem equipmentOf_setItem (w : World) (x : UUID) (it) (c : EntityId) :
    (w.setItem x it).equipmentOf c = w.equipmentOf c := rfl

@[simp] theorem session_modifyClient_ne (w : World) {c c' : EntityId} (h : c' ≠ c) (f) :
    (w.modifyClient c f).session c' = w.session c' := by
  simp [session, h]

/-- An update that keeps a client's field `g` keeps it for every client. -/
theorem map_clients_modifyClient {α : Type} (w : World) (c c' : EntityId) {f : ClientState → ClientState}
    {g : ClientState → α} (hf : ∀ st, g (f st) = g st) :
    ((w.modifyClient c f).clients c').map g = (w.clients c').map g := by
  by_cases h : c' = c
  · subst h; cases h : w.clients c' <;> simp [h, hf]
  · simp [h]

theorem inventoryOf_modifyClient (w : World) (c c' : EntityId) {f : ClientState → ClientState}
    (hf : ∀ st, (f st).inventory = st.inventory) :
    (w.modifyClient c f).inventoryOf c' = w.inventoryOf c' := by
  simp only [inventoryOf, map_clients_modifyClient w c c' hf]

theorem connection_modifyClient (w : World) (c c' : EntityId) {f : ClientState → ClientState}
    (hf : ∀ st, (f st).connection = st.connection) :
    (w.modifyClient c f).connection c' = w.connection c' :=
  map_clients_modifyClient w c c' hf

theorem equipmentOf_modifyClient (w : World) (c c' : EntityId) {f : ClientState → ClientState}
    (hf : ∀ st, (f st).equipment = st.equipment) :
    (w.modifyClient c f).equipmentOf c' = w.equipmentOf c' :=
  map_clients_modifyClient w c c' hf

theorem session_modifyClient (w : World) (c c' : EntityId) {f : ClientState → ClientState}
    (hf : ∀ st, (f st).exchangeSession = st.exchangeSession) :
    (w.modifyClient c f).session c' = w.session c' := by
  have := map_clients_modifyClient w c c' hf
  simp only [session, Option.bind_eq_bind]
  cases h1 : (w.modifyClient c f).clients c' <;> cases h2 : w.clients c' <;> simp_all

/-! ### Who holds what -/

/-- The items box `box` holds, in slot order. -/
def held (w : World) (box : UUID) : List UUID := (List.range ItemsCount).filterMap (w.slot box)

/-- The forward and back references of `box` agree: every occupied slot's
    item records that box and that slot. -/
def BoxConsistent (w : World) (box : UUID) : Prop :=
  ∀ i < ItemsCount, ∀ x ∈ w.slot box i, (w.items x).itemBox = box ∧ (w.items x).boxSlot = i

instance (w : World) (box : UUID) : Decidable (w.BoxConsistent box) :=
  inferInstanceAs (Decidable (∀ i < ItemsCount, ∀ x ∈ w.slot box i,
    (w.items x).itemBox = box ∧ (w.items x).boxSlot = i))

theorem lt_of_slot_eq_some {w : World} {box : UUID} {i : Nat} {x : UUID}
    (h : w.slot box i = some x) : i < ItemsCount := by
  by_contra hi
  rw [slot, ItemBox.getItems_of_le _ (Nat.le_of_not_lt hi)] at h
  cases h

theorem mem_held {w : World} {box x : UUID} : x ∈ w.held box ↔ ∃ i, w.slot box i = some x := by
  simp only [held, List.mem_filterMap, List.mem_range]
  exact ⟨fun ⟨i, _, h⟩ => ⟨i, h⟩, fun ⟨i, h⟩ => ⟨i, lt_of_slot_eq_some h, h⟩⟩

theorem BoxConsistent.of_slot {w : World} {box : UUID} (h : w.BoxConsistent box) {i : Nat}
    {x : UUID} (hi : w.slot box i = some x) :
    (w.items x).itemBox = box ∧ (w.items x).boxSlot = i :=
  h i (lt_of_slot_eq_some hi) x hi

/-- In a consistent box no item sits in two slots. -/
theorem BoxConsistent.nodup_held {w : World} {box : UUID} (h : w.BoxConsistent box) :
    (w.held box).Nodup :=
  (List.nodup_range _).filterMap fun i j x hi hj => by
    have := (h.of_slot hi).2
    have := (h.of_slot hj).2
    omega

/-- Clearing a slot keeps every box consistent. -/
theorem BoxConsistent.setItems_none {w : World} {box : UUID} (h : w.BoxConsistent box)
    (box' : UUID) (i : Nat) : (w.setItems box' i none).BoxConsistent box := by
  intro j hj x hx
  rw [Option.mem_def, slot_setItems] at hx
  split_ifs at hx
  exact h j hj x hx

/-- Two consistent boxes hold no item twice between them. -/
theorem nodup_held_append {w : World} {box box' : UUID} (h : w.BoxConsistent box)
    (h' : w.BoxConsistent box') (hne : box ≠ box') : (w.held box ++ w.held box').Nodup := by
  refine List.nodup_append.mpr ⟨h.nodup_held, h'.nodup_held, fun x hx hx' => hne ?_⟩
  obtain ⟨i, hi⟩ := mem_held.mp hx
  obtain ⟨j, hj⟩ := mem_held.mp hx'
  exact (h.of_slot hi).1.symm.trans (h'.of_slot hj).1

end World

/-! ## One handler's execution -/

/-- A handler run so far: the world it reached and the events it produced. -/
structure Exec where
  world : World
  events : List Event := []

namespace Exec

/-- Send packet `p` to client `c`. -/
def send (e : Exec) (c : EntityId) (p : Packet) : Exec :=
  { e with events := e.events ++ [.send c p] }

/-- Write the world, keeping the events. -/
def map (e : Exec) (f : World → World) : Exec := { e with world := f e.world }

/-- Whether the run has handed a change set to `ProcessChangeSet`. -/
def processed (e : Exec) : Bool :=
  e.events.any fun
    | .processChangeSet _ _ => true
    | _ => false

@[simp] theorem processed_send (e : Exec) (c : EntityId) (p : Packet) :
    (e.send c p).processed = e.processed := by
  simp [processed, send]

@[simp] theorem processed_map (e : Exec) (f : World → World) :
    (e.map f).processed = e.processed := rfl

/-- A handler starts from a run with no events. -/
@[simp] theorem processed_nil (w : World) : (⟨w, []⟩ : Exec).processed = false := rfl

@[simp] theorem send_world (e : Exec) (c : EntityId) (p : Packet) :
    (e.send c p).world = e.world := rfl
@[simp] theorem send_events (e : Exec) (c : EntityId) (p : Packet) :
    (e.send c p).events = e.events ++ [.send c p] := rfl
@[simp] theorem map_world (e : Exec) (f : World → World) : (e.map f).world = f e.world := rfl
@[simp] theorem map_events (e : Exec) (f : World → World) : (e.map f).events = e.events := rfl

end Exec

end ChannelWorld
