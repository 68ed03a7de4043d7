import ChannelServer.ItemDrop
import ChannelServer.TradeFinish

/-! # Drops and trades interleaved — the stale back-reference

    The channel runs `DropItem` and `TradeFinish` for two clients in any
    order, between the exchange steps that open an exchange, stage items and
    cancel it, and the background worker persists the queued change sets
    whenever it gets to them.  `run` plays such a sequence of `Action`s.

    A drop clears the slot and queues the delete, but leaves the item
    registered and its back-reference pointing at the slot it left.  Until
    the delete is persisted the handle still resolves, and a second drop of
    the same item passes the check of line 86 — recorded box is the
    inventory — and clears the slot again, whatever sits there now
    (`staleDrop_clears_traded_item`). -/

namespace ItemRuns

open ChannelObjects ChannelWorld ChannelTrade ItemDrop

/-! ## The exchange steps and the worker -/

/-- Modelled from the spec: the exchange-open handlers are not in the
    repository.  Two distinct connected clients outside any exchange each get
    a session naming the other, with nothing staged. -/
def openExchange (w : World) (a b : EntityId) : Option World :=
  if (w.clients a).isSome ∧ (w.clients b).isSome ∧ a ≠ b ∧ w.session a = none ∧
      w.session b = none then
    some ((w.modifyClient a fun st => { st with exchangeSession := some ⟨some b, [], false⟩ }).modifyClient
      b fun st => { st with exchangeSession := some ⟨some a, [], false⟩ })
  else none

/-- Modelled from the spec: the staging handlers are not in the repository.
    A side that has not finished stages a duplicate-free list of items whose
    recorded box is its inventory. -/
def stage (w : World) (c : EntityId) (L : List UUID) : Option World :=
  match w.session c with
  | some s =>
    if s.finished = false ∧ L.Nodup ∧ ∀ x ∈ L, (w.items x).itemBox = w.inventoryOf c then
      some (w.modifyClient c fun st => { st with exchangeSession := some { s with items := L.map some } })
    else none
  | none => none

/-- Modelled from the spec: an explicit cancel ends the exchange for the
    client and for the party its session names. -/
def cancel (w : World) (c : EntityId) : Option World :=
  match w.session c with
  | some s =>
    let e := (⟨w, []⟩ : Exec).endExchange c 0
    some (match s.otherCharacter with
      | some b => (e.endExchange b 0).world
      | none => e.world)
  | none => none

/-- Modelled from the spec: the background worker commits the oldest queued
    change set, and an item it deletes leaves the registry. -/
def persist (w : World) : World :=
  match w.queue with
  | [] => w
  | cs :: rest =>
    { w with queue := rest,
             itemLive := fun x => w.itemLive x && !cs.changes.contains (.delete (.item x)) }

/-! ## Runs -/

/-- One step of a run. -/
inductive Action
  | drop (c : EntityId) (itemID : Int)
  | finish (c : EntityId)
  | openExchange (a b : EntityId)
  | stage (c : EntityId) (items : List UUID)
  | cancel (c : EntityId)
  | persist
  deriving Repr

/-- One step: a request from a live connection, an exchange step, or the
    worker; `none` when the step cannot happen there or the handler faults. -/
def step (defs : ItemDefinitions) (db : ChangeSet → Bool) (w : World) : Action → Option World
  | .drop c h => if w.connection c = some .alive then some (dropItem defs w c h).world else none
  | .finish c =>
    if w.connection c = some .alive then
      match tradeFinish db w c with
      | .ok e => some e.world
      | .error _ => none
    else none
  | .openExchange a b => openExchange w a b
  | .stage c L => stage w c L
  | .cancel c => cancel w c
  | .persist => some (persist w)

/-- The steps in order, each on the world the last one left. -/
def run (defs : ItemDefinitions) (db : ChangeSet → Bool) (w : World) : List Action → Option World
  | [] => some w
  | a :: as => (step defs db w a).bind fun w' => run defs db w' as

/-! ## The failing run -/

/-- Client 1 drops item 300; the two clients open an exchange, client 2
    stages item 200, both finish, and item 200 lands in slot 0 of inventory
    10, the slot item 300 left; client 1 drops item 300 again before the
    worker persists its delete. -/
def staleDropRun : List Action :=
  [.drop 1 5, .openExchange 1 2, .stage 2 [200], .finish 1, .finish 2, .drop 1 5]

/-- Client 1 drops item 300, opens an exchange with client 2 and stages the
    dropped item, whose back-reference still names inventory 10; both
    finish. -/
def resurrectRun : List Action :=
  [.drop 1 5, .openExchange 1 2, .stage 1 [300], .finish 2, .finish 1]

/-- From `dropWorld`, whose two inventories are consistent and whose only
    handle names item 300: `staleDropRun` ends with item 200 — never
    dropped, still registered — in neither inventory, the second drop of
    item 300 having cleared the slot item 200 was traded into; and
    `resurrectRun` moves the dropped item 300 into inventory 20. -/
theorem staleDrop_clears_traded_item :
    dropWorld.BoxConsistent 10 ∧ dropWorld.BoxConsistent 20 ∧ dropper.objectUUIDs 5 = some 300 ∧
      200 ∈ dropWorld.held 20 ∧
      (∃ w', run discardAll (fun _ => true) dropWorld staleDropRun = some w' ∧
        200 ∉ w'.held 10 ∧ 200 ∉ w'.held 20 ∧ w'.itemLive 200 = true) ∧
      ∃ w', run discardAll (fun _ => true) dropWorld resurrectRun = some w' ∧
        300 ∈ w'.held 20 :=
  ⟨by decide, by decide, rfl, by decide, ⟨_, rfl, by decide⟩, _, rfl, by decide⟩

end ItemRuns
