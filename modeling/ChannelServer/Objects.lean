import Mathlib.Data.Finset.Sort
import Mathlib.Data.List.ReduceOption

/-! # Channel objects — the entity store the packet handlers share

    The channel server keeps its persistent objects (items, item boxes, demons,
    demon boxes) as shared pointers cross-referenced by UUID.  Following the
    design notes of the spec, the model keeps one UUID-indexed store per object
    category, and the ownership edges are explicit slot arrays:

    * an `ItemBox` holds forward references, one per slot (`GetItems`/`SetItems`);
    * an `Item` records its back-reference, the box UUID and an `int8_t` slot
      (`GetItemBox`/`GetBoxSlot`);
    * a `ClientState` is the per-connection context: inventory, equipment,
      exchange session, handle table and connection status;
    * a `World` is every client plus the object stores and the queue of change
      sets handed to `QueueChangeSet` and not yet persisted.

    Machine integers appear only where the code converts them: the slot is an
    `int8_t` that the handlers cast to `size_t`, to `uint16_t`, and back. -/

namespace ChannelObjects

/-- Persistent object identifiers; `NULLUUID` is modelled by `none` in a slot. -/
abbrev UUID := Nat

/-- Zone-scoped runtime entity ids (`int32_t`); a connected client is found by
    the entity id of its character (`ManagerConnection::GetEntityClient`). -/
abbrev EntityId := Int

/-! ## Slot casts -/

/-- `(size_t)` applied to an `int8_t` slot: sign extension to 64 bits. -/
def sizeT (s : Int) : Nat := (s % 2 ^ 64).toNat

/-- `(uint16_t)` applied to an `int8_t` slot. -/
def u16 (s : Int) : Nat := (s % 2 ^ 16).toNat

/-- `(int8_t)` applied to a `size_t` slot index. -/
def int8 (i : Nat) : Int := ((i : Int) + 128) % 256 - 128

theorem int8_of_lt {i : Nat} (h : i < 128) : int8 i = i := by
  unfold int8; omega

theorem sizeT_natCast {i : Nat} (h : i < 2 ^ 64) : sizeT i = i := by
  unfold sizeT; omega

theorem u16_natCast {i : Nat} (h : i < 2 ^ 16) : u16 i = i := by
  unfold u16; omega

/-! ## Items and item boxes -/

/-- An item object: its definition type and its back-reference, the UUID of the
    box holding it (`ItemBox`) and the slot there (`BoxSlot`, an `int8_t`). -/
structure Item where
  type : Nat
  itemBox : UUID
  boxSlot : Int
  deriving DecidableEq, Repr

/-- The size of the `Items` array of an item box. -/
def ItemsCount : Nat := 50

/-- An item box: one forward reference per slot, `ItemsCount` of them. -/
structure ItemBox where
  items : List (Option UUID)
  length_items : items.length = ItemsCount
  deriving DecidableEq

namespace ItemBox

/-- `ItemBox::GetItems(i)`; an index past the array reads as empty. -/
def getItems (b : ItemBox) (i : Nat) : Option UUID := b.items.getD i none

/-- `ItemBox::SetItems(i, v)`; an index past the array writes nothing. -/
def setItems (b : ItemBox) (i : Nat) (v : Option UUID) : ItemBox :=
  ⟨b.items.set i v, by rw [List.length_set, b.length_items]⟩

/-- A box with every slot empty. -/
def empty : ItemBox := ⟨List.replicate ItemsCount none, List.length_replicate _ _⟩

theorem getItems_setItems (b : ItemBox) (i j : Nat) (v : Option UUID) :
    (b.setItems i v).getItems j = if i = j ∧ i < ItemsCount then v else b.getItems j := by
  simp only [getItems, setItems, List.getD_eq_getElem?_getD, List.getElem?_set,
    b.length_items]
  by_cases h : i = j
  · subst h
    by_cases hi : i < ItemsCount
    · simp [hi]
    · simp [hi, List.getElem?_eq_none (b.length_items ▸ Nat.le_of_not_lt hi)]
  · simp [h]

@[simp] theorem getItems_setItems_self (b : ItemBox) {i : Nat} (hi : i < ItemsCount)
    (v : Option UUID) : (b.setItems i v).getItems i = v := by
  simp [getItems_setItems, hi]

@[simp] theorem getItems_setItems_ne (b : ItemBox) {i j : Nat} (h : i ≠ j)
    (v : Option UUID) : (b.setItems i v).getItems j = b.getItems j := by
  simp [getItems_setItems, h]

theorem getItems_of_le (b : ItemBox) {i : Nat} (hi : ItemsCount ≤ i) : b.getItems i = none := by
  rw [getItems, List.getD_eq_getElem?_getD, List.getElem?_eq_none (b.length_items ▸ hi)]
  rfl

theorem ext_getItems {b c : ItemBox} (h : ∀ i, b.getItems i = c.getItems i) : b = c := by
  obtain ⟨l, hl⟩ := b
  obtain ⟨m, hm⟩ := c
  congr
  apply List.ext_getElem?
  intro i
  have := h i
  simp only [getItems, List.getD_eq_getElem?_getD] at this
  by_cases hi : i < ItemsCount
  · rw [List.getElem?_eq_getElem (hl ▸ hi), List.getElem?_eq_getElem (hm ▸ hi)] at *
    simpa using this
  · rw [List.getElem?_eq_none (by omega), List.getElem?_eq_none (by omega)]

end ItemBox

/-! ## Demons and demon boxes -/

/-- A demon object: its devil type and its back-reference (`DemonBox`, `BoxSlot`). -/
structure Demon where
  type : Nat
  demonBox : UUID
  boxSlot : Int
  deriving DecidableEq, Repr

/-- A demon box: its client-facing `BoxID` and one forward reference per slot. -/
structure DemonBox where
  boxID : Int
  demons : List (Option UUID)
  deriving DecidableEq, Repr

/-! ## Sessions and clients -/

/-- A player exchange session, one per side: the other party's character
    (`GetOtherCharacterState`, `none` when it is not a character), the staged
    item references (`GetItems`) and the side's `Finished` flag. -/
structure ExchangeSession where
  otherCharacter : Option EntityId
  items : List (Option UUID)
  finished : Bool
  deriving DecidableEq, Repr

/-- The state of a client connection: `Kill` and `Close` both end it. -/
inductive Connection
  | alive
  | killed
  | closed
  deriving DecidableEq, Repr

/-- The per-connection context (`ClientState` with its `CharacterState`):
    account, the character's inventory (`GetItemBoxes(0)`), equipped items,
    demon boxes and summoned demon, the exchange session, the table from
    client-local handles to UUIDs (`GetObjectUUID`), the user level and the
    connection status. -/
structure ClientState where
  accountUID : UUID := 0
  inventory : UUID
  equipment : List (Option UUID) := []
  demonBoxes : List UUID := []
  demon : Option UUID := none
  exchangeSession : Option ExchangeSession := none
  objectUUIDs : Int → Option UUID := fun _ => none
  userLevel : Int := 0
  connection : Connection := .alive

end ChannelObjects
