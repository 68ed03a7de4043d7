import ChannelServer.Manager

/-! # `MitamaReunion` — consuming a demon for a reunion bonus

    `HandleMitamaReunion` (lines 56–118), queued by `Parsers::MitamaReunion::Parse`
    once the payload has its 9 bytes.

    * The request goes through when the client has a summoned demon of a
      mitama type, the handle resolves to another registered demon with devil
      data, the reunion index is in `[0, 12)`, the fusion manager has a mitama
      index for the demon's base, and the character manager applies the
      reunion.  The handled demon is then deleted, its box slot reported, and
      the change set queued.
    * Any other request gets one `MITAMA_REUNION` reply with status `-1` and
      changes nothing.
    * `handleMitamaReunion_cases` splits the handler into these two outcomes
      once, for the serving layer; `handleMitamaReunion_contract` restates the
      split with the checks spelled out.
    * Nothing asks where the handled demon lives: a handle to a demon in some
      other character's box deletes that demon
      (`mitamaReunion_deletes_foreign_demon`). -/

namespace MitamaReunion

open ChannelObjects ChannelWorld

/-- What the definition, fusion and character managers supply, none of them
    in the repository: the union base demon of each devil type that has devil
    data (`GetDevilData`), whether a type is a mitama (`IsMitamaDemon`), the
    mitama index of a base demon (`GetMitamaIndex`, `none` when it clears
    `success`), and the reunion on the client's character (`DoMitamaReunion`:
    the world it leaves, the change set entries it adds and the packets it
    sends, `none` when it fails having changed nothing).  The reunion is given
    the mitama index, not the handled demon. -/
structure Managers where
  devilData : Nat → Option Nat
  isMitamaDemon : Nat → Bool
  mitamaIndex : Nat → Option Nat
  doMitamaReunion : World → EntityId → Nat → Int → Option (World × List DbChange × List Event)

/-- Lines 69–72: the handled demon, when the handle is not 0 and names a
    registered demon. -/
def resolveMitama (w : World) (st : ClientState) (mitamaID : Int) : Option UUID :=
  if mitamaID = 0 then none else (st.objectUUIDs mitamaID).filter w.demonLive

theorem resolveMitama_eq_some {w : World} {st : ClientState} {mitamaID : Int} {m : UUID} :
    resolveMitama w st mitamaID = some m ↔
      mitamaID ≠ 0 ∧ st.objectUUIDs mitamaID = some m ∧ w.demonLive m = true := by
  unfold resolveMitama
  split_ifs with h0 <;> simp [h0, Option.filter_eq_some]

/-- The checks of lines 78–79 on the summoned demon `d` and the handled
    demon `m`. -/
def Admits (mgr : Managers) (w : World) (d m : UUID) (reunionIdx : Int) : Prop :=
  d ≠ m ∧ mgr.isMitamaDemon (w.demons d).type = true ∧ (mgr.devilData (w.demons m).type).isSome ∧
    0 ≤ reunionIdx ∧ reunionIdx < 12

instance (mgr : Managers) (w : World) (d m : UUID) (reunionIdx : Int) :
    Decidable (Admits mgr w d m reunionIdx) :=
  inferInstanceAs (Decidable (_ ∧ _))

/-- Lines 106–117: the failure reply, echoing the reunion index. -/
def reunionFailure (w : World) (c : EntityId) (reunionIdx : Int) : Exec :=
  (⟨w, []⟩ : Exec).send c (.mitamaReunion (-1) reunionIdx 0 0)

@[simp] theorem reunionFailure_world (w : World) (c : EntityId) (reunionIdx : Int) :
    (reunionFailure w c reunionIdx).world = w := rfl
@[simp] theorem reunionFailure_events (w : World) (c : EntityId) (reunionIdx : Int) :
    (reunionFailure w c reunionIdx).events = [.send c (.mitamaReunion (-1) reunionIdx 0 0)] := rfl

/-- Lines 92–102, on the world `w₁` the reunion left: read the handled
    demon's slot and box, delete it, report the slot if the box is
    registered, and queue the change set. -/
def consume (w₁ : World) (c : EntityId) (st : ClientState) (m : UUID) (changes : List DbChange)
    (events : List Event) : Exec :=
  let slot := (w₁.demons m).boxSlot
  let box := (w₁.demons m).demonBox
  let deleted := w₁.deleteDemon m
  let e : Exec := ⟨deleted.1, events⟩
  let e := if w₁.demonBoxLive box then e.sendDemonBoxData c (deleted.1.demonBoxes box).boxID [slot] else e
  e.queueChangeSet ⟨some st.accountUID, changes ++ deleted.2⟩

theorem consume_world (w₁ : World) (c : EntityId) (st : ClientState) (m : UUID) (changes events) :
    (consume w₁ c st m changes events).world =
      { (w₁.deleteDemon m).1 with
        queue := w₁.queue ++ [⟨some st.accountUID, changes ++ (w₁.deleteDemon m).2⟩] } := by
  dsimp only [consume]
  split <;> rfl

/-- `HandleMitamaReunion` for the client whose character has entity id `c`. -/
def handleMitamaReunion (mgr : Managers) (w : World) (c : EntityId) (mitamaID reunionIdx : Int) :
    Exec :=
  match w.clients c with
  | none => ⟨w, []⟩
  | some st =>
    match st.demon, resolveMitama w st mitamaID with
    | some d, some m =>
      if Admits mgr w d m reunionIdx then
        match (mgr.devilData (w.demons m).type).bind mgr.mitamaIndex with
        | some idx =>
          match mgr.doMitamaReunion w c (idx % 256) reunionIdx with
          | some (w₁, changes, events) => consume w₁ c st m changes events
          | none => reunionFailure w c reunionIdx
        | none => reunionFailure w c reunionIdx
      else reunionFailure w c reunionIdx
    | _, _ => reunionFailure w c reunionIdx

/-! ## The two outcomes -/

/-- A request from a connected client either fails, or passes every check
    and consumes the handled demon after the reunion. -/
theorem handleMitamaReunion_cases (mgr : Managers) (w : World) {c : EntityId} {st : ClientState}
    (hc : w.clients c = some st) (mitamaID reunionIdx : Int) :
    handleMitamaReunion mgr w c mitamaID reunionIdx = reunionFailure w c reunionIdx ∨
      ∃ d m idx w₁ changes events, st.demon = some d ∧ resolveMitama w st mitamaID = some m ∧
        Admits mgr w d m reunionIdx ∧
        (mgr.devilData (w.demons m).type).bind mgr.mitamaIndex = some idx ∧
        mgr.doMitamaReunion w c (idx % 256) reunionIdx = some (w₁, changes, events) ∧
        handleMitamaReunion mgr w c mitamaID reunionIdx = consume w₁ c st m changes events := by
  unfold handleMitamaReunion
  simp only [hc]
  rcases hd : st.demon with _ | d
  · exact .inl rfl
  rcases hm : resolveMitama w st mitamaID with _ | m
  · exact .inl rfl
  by_cases hA : Admits mgr w d m reunionIdx
  swap
  · exact .inl (if_neg hA)
  simp only [if_pos hA]
  rcases hi : (mgr.devilData (w.demons m).type).bind mgr.mitamaIndex with _ | idx
  · exact .inl rfl
  dsimp only
  rcases hr : mgr.doMitamaReunion w c (idx % 256) reunionIdx with _ | ⟨w₁, changes, events⟩
  · exact .inl rfl
  exact .inr ⟨d, m, idx, w₁, changes, events, rfl, rfl, hA, hi, hr, rfl⟩

/-- A request from a connected client is REJECTED — the world unchanged and
    one reply with status `-1` echoing the index — or CONSUMES the demon `m`
    its handle names: `m` is registered and passes the checks against the
    summoned demon `d`, and afterwards `m` is unregistered and the last change
    set queued, on the requester's account, ends with its delete. -/
theorem handleMitamaReunion_contract (mgr : Managers) (w : World) {c : EntityId}
    {st : ClientState} (hc : w.clients c = some st) (mitamaID reunionIdx : Int) :
    ((handleMitamaReunion mgr w c mitamaID reunionIdx).world = w ∧
      (handleMitamaReunion mgr w c mitamaID reunionIdx).events =
        [.send c (.mitamaReunion (-1) reunionIdx 0 0)]) ∨
    ∃ d m, st.demon = some d ∧ mitamaID ≠ 0 ∧ st.objectUUIDs mitamaID = some m ∧
      w.demonLive m = true ∧ Admits mgr w d m reunionIdx ∧
      (handleMitamaReunion mgr w c mitamaID reunionIdx).world.demonLive m = false ∧
      ∃ cs, (handleMitamaReunion mgr w c mitamaID reunionIdx).world.queue.getLast? = some cs ∧
        cs.account = some st.accountUID ∧ cs.changes.getLast? = some (.delete (.demon m)) := by
  rcases handleMitamaReunion_cases mgr w hc mitamaID reunionIdx with
    h | ⟨d, m, _, w₁, changes, _, hd, hm, hA, -, -, h⟩ <;> rw [h]
  · exact .inl ⟨rfl, rfl⟩
  · obtain ⟨h0, hu, hlive⟩ := resolveMitama_eq_some.1 hm
    refine .inr ⟨d, m, hd, h0, hu, hlive, hA, by simp [consume_world],
      ⟨some st.accountUID, changes ++ (w₁.deleteDemon m).2⟩, ?_, rfl, ?_⟩ <;>
      simp [consume_world, World.deleteDemon]

/-! ## A demon in another character's box -/

/-- Client 1: summoned demon 800 from its box 50, and handle 7 to demon 900. -/
def summoner : ClientState :=
  { accountUID := 1, inventory := 10, demonBoxes := [50], demon := some 800,
    objectUUIDs := fun h => if h = 7 then some 900 else none }

/-- Demon 800 (type 1) in slot 0 of client 1's box 50; demon 900 (type 2)
    in slot 3 of client 2's box 60. -/
def reunionWorld : World where
  clients
    | 1 => some summoner
    | 2 => some { accountUID := 2, inventory := 20, demonBoxes := [60] }
    | _ => none
  items _ := ⟨0, 0, 0⟩
  itemLive _ := false
  boxes _ := ItemBox.empty
  demons u := if u = 800 then ⟨1, 50, 0⟩ else if u = 900 then ⟨2, 60, 3⟩ else ⟨0, 0, 0⟩
  demonLive u := u == 800 || u == 900
  demonBoxes u := if u = 50 then ⟨1, [some 800]⟩
    else if u = 60 then ⟨1, [none, none, none, some 900]⟩ else ⟨0, []⟩
  demonBoxLive u := u == 50 || u == 60

/-- Managers under which type 1 is a mitama, every type is its own base with
    mitama index 0, and the reunion succeeds, sending its own reply. -/
def reunionManagers : Managers where
  devilData := some
  isMitamaDemon t := t == 1
  mitamaIndex _ := some 0
  doMitamaReunion w c _ reunionIdx := some (w, [], [.send c (.mitamaReunion 0 reunionIdx 0 0)])

/-- Demon 900 sits in client 2's box 60 and in none of client 1's boxes, yet
    client 1's handle 7 to it passes: demon 900 is unregistered, its slot in
    box 60 is cleared, client 1 is sent that slot, and the queued change set,
    on client 1's account, deletes it. -/
theorem mitamaReunion_deletes_foreign_demon :
    (∀ u ∈ summoner.demonBoxes, some 900 ∉ (reunionWorld.demonBoxes u).demons) ∧
      (reunionWorld.clients 2).map (·.demonBoxes) = some [60] ∧
      (reunionWorld.demonBoxes 60).demons = [none, none, none, some 900] ∧
      (handleMitamaReunion reunionManagers reunionWorld 1 7 0).world.demonLive 900 = false ∧
      ((handleMitamaReunion reunionManagers reunionWorld 1 7 0).world.demonBoxes 60).demons =
        [none, none, none, none] ∧
      .send 1 (.demonBoxData 1 [3]) ∈ (handleMitamaReunion reunionManagers reunionWorld 1 7 0).events ∧
      (handleMitamaReunion reunionManagers reunionWorld 1 7 0).world.queue =
        [⟨some 1, [.update (.demonBox 60), .delete (.demon 900)]⟩] := by
  decide

end MitamaReunion
