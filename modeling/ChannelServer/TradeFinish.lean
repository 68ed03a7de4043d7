import ChannelServer.Manager
import ChannelServer.Placement

/-! # `TradeFinish` — the two-party finish protocol, as the handler runs it

    `Parsers::TradeFinish::Parse` after its size check, stage by stage:

    * lines 60–80, `counterpart`: the other party's client, through the
      requester's exchange session; without one the requester's exchange ends;
    * lines 82–101, `markFinished`: if the counterpart has a session, the
      requester's side is marked finished and both are told; the requester
      gets the status;
    * line 104: the counterpart's `Finished` flag is read through
      `otherSession`, which may be null — a `Fault`;
    * lines 108–175, `settleTrade`: the two staging loops (`collectTradeItems`,
      whose phantom check compares the recorded box only) and the capacity
      checks;
    * lines 179–246, `commitTrade`: in memory (`tradeWorld`), unequip and
      clear (`vacate`) and the two placement loops (`placeAll` over
      `placeItems`); then one change set for `ProcessChangeSet`, and the
      replies or the two `Close` calls. -/

namespace ChannelTrade

open ChannelObjects ChannelWorld TradePlacement

/-- A null dereference; the server process does not survive it. -/
inductive Fault
  | nullOtherSession
  deriving DecidableEq, Repr

/-! ## Reading the two sides -/

/-- The staged item references of client `c`'s exchange session. -/
def stagedOf (w : World) (c : EntityId) : List (Option UUID) :=
  ((w.session c).map (·.items)).getD []

/-- Lines 67–76: the entity id of the other character of `a`'s exchange
    session, when it belongs to a connected client (`GetEntityClient`). -/
def counterpart (w : World) (a : EntityId) : Option EntityId :=
  ((w.session a).bind (·.otherCharacter)).filter fun b => (w.clients b).isSome

/-- `exchangeSession->SetFinished(true)` on client `c`'s session. -/
def setFinished (w : World) (c : EntityId) : World :=
  w.modifyClient c fun st =>
    { st with exchangeSession := st.exchangeSession.map ({ · with finished := true }) }

/-- Lines 82–101: with a counterpart session, mark the requester finished and
    notify the counterpart; reply the status to the requester. -/
def markFinished (e : Exec) (a b : EntityId) : Exec :=
  match e.world.session b with
  | some _ => ((e.map (setFinished · a)).send b .tradeFinished).send a (.tradeFinish 0)
  | none => e.send a (.tradeFinish (-1))

/-! ## The staging loops -/

/-- The staging loop (lines 116–138, 143–165): walk the staged references in
    order, skipping null ones.  An item whose recorded box is not `box` is a
    phantom and stops the loop (`none`); otherwise it is collected and its
    recorded slot joins the free slots. -/
def collectTradeItems (items : UUID → Item) (box : UUID) :
    List (Option UUID) → List UUID → Finset Nat → Option (List UUID × Finset Nat)
  | [], l, F => some (l, F)
  | none :: rest, l, F => collectTradeItems items box rest l F
  | some x :: rest, l, F =>
      if (items x).itemBox ≠ box then none
      else collectTradeItems items box rest (l ++ [x]) (insert (sizeT (items x).boxSlot) F)

/-! ## The commit -/

/-- Step 1 for one side (lines 181–186, 189–194): unequip each traded item
    from client `c` and clear its recorded slot of `box`. -/
def vacate (w : World) (c : EntityId) (box : UUID) : List UUID → World
  | [] => w
  | x :: xs => vacate ((w.unequipItem c x).setItems box (sizeT (w.items x).boxSlot) none) c box xs

/-- One placement (lines 205–212, 222–229): item `p.2` goes into slot `p.1` of
    `box`, and its back-reference follows it. -/
def placeItem (w : World) (box : UUID) (p : Nat × UUID) : World :=
  (w.setItems box p.1 (some p.2)).setItem p.2
    { w.items p.2 with boxSlot := int8 p.1, itemBox := box }

/-- A placement loop's writes, in order. -/
def placeAll (w : World) (box : UUID) (ps : List (Nat × UUID)) : World :=
  ps.foldl (placeItem · box) w

/-- The change set of the commit (lines 197–231): an update of each inventory,
    each followed by an update of every item placed into it. -/
def tradeChanges (inventory otherInventory : UUID) (placed otherPlaced : List (Nat × UUID)) :
    ChangeSet :=
  ⟨none, .update (.itemBox inventory) :: placed.map (fun p => .update (.item p.2)) ++
    .update (.itemBox otherInventory) :: otherPlaced.map (fun p => .update (.item p.2))⟩

/-- Steps 1 and 2 in memory (lines 179–231): each side's traded items are
    unequipped and their slots cleared, then each side's items are placed into
    the other's free slots. -/
def tradeWorld (w : World) (a b : EntityId) (tradeItems otherTradeItems : List UUID)
    (freeSlots otherFreeSlots : Finset Nat) : World :=
  let w₂ := vacate (vacate w a (w.inventoryOf a) tradeItems) b (w.inventoryOf b) otherTradeItems
  placeAll (placeAll w₂ (w.inventoryOf a) (placeItems freeSlots (List.range ItemsCount) otherTradeItems))
    (w.inventoryOf b) (placeItems otherFreeSlots (List.range ItemsCount) tradeItems)

/-- Lines 179–246: move the items (`tradeWorld`), apply the change set
    synchronously, and on success send both item boxes and end both exchanges;
    on failure close both connections. -/
def commitTrade (db : ChangeSet → Bool) (e : Exec) (a b : EntityId)
    (tradeItems otherTradeItems : List UUID) (freeSlots otherFreeSlots : Finset Nat) : Exec :=
  let w := e.world
  let inventory := w.inventoryOf a
  let otherInventory := w.inventoryOf b
  let updatedSlots := tradeItems.map fun x => u16 (w.items x).boxSlot
  let otherUpdatedSlots := otherTradeItems.map fun x => u16 (w.items x).boxSlot
  let placed := placeItems freeSlots (List.range ItemsCount) otherTradeItems
  let otherPlaced := placeItems otherFreeSlots (List.range ItemsCount) tradeItems
  let changes := tradeChanges inventory otherInventory placed otherPlaced
  let e' : Exec := ⟨tradeWorld w a b tradeItems otherTradeItems freeSlots otherFreeSlots,
    e.events ++ [.processChangeSet changes (db changes)]⟩
  if db changes then
    (((e'.sendItemBoxData a inventory (updatedSlots ++ placed.map Prod.fst)).sendItemBoxData b
      otherInventory (otherUpdatedSlots ++ otherPlaced.map Prod.fst)).endExchange a 0).endExchange b 0
  else (e'.close a).close b

/-- Lines 108–246, once both sides are finished: the phantom checks, the
    capacity checks, then the commit. -/
def settleTrade (db : ChangeSet → Bool) (e : Exec) (a b : EntityId) : Exec :=
  let w := e.world
  match collectTradeItems w.items (w.inventoryOf a) (stagedOf w a) []
      (getFreeSlots (w.boxes (w.inventoryOf a))) with
  | none => ((e.endExchange a 1).endExchange b 1).kill a
  | some (tradeItems, freeSlots) =>
    match collectTradeItems w.items (w.inventoryOf b) (stagedOf w b) []
        (getFreeSlots (w.boxes (w.inventoryOf b))) with
    | none => ((e.endExchange a 1).endExchange b 1).kill b
    | some (otherTradeItems, otherFreeSlots) =>
      if otherFreeSlots.card < tradeItems.length then (e.endExchange a 3).endExchange b 2
      else if freeSlots.card < otherTradeItems.length then (e.endExchange a 2).endExchange b 3
      else commitTrade db e a b tradeItems otherTradeItems freeSlots otherFreeSlots

/-- `Parsers::TradeFinish::Parse` after its size check, for the client whose
    character has entity id `a`; `db` answers `ProcessChangeSet`. -/
def tradeFinish (db : ChangeSet → Bool) (w : World) (a : EntityId) : Except Fault Exec :=
  match counterpart w a with
  | none => .ok ((⟨w, []⟩ : Exec).endExchange a 0)
  | some b =>
    let e := markFinished ⟨w, []⟩ a b
    match e.world.session b with
    | none => .error .nullOtherSession
    | some os => if os.finished then .ok (settleTrade db e a b) else .ok e

end ChannelTrade
