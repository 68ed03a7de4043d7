import ChannelServer.World

/-! # `PlasmaStart` and `ObjectInteraction` — zone requests handled in the parser

    Both parsers act at once instead of queueing work, and neither writes the
    world; what they do is call the zone, event and action managers.

    * `PlasmaStart` (lines 45–98) starts the plasma's system event, checks the
      point, picks it, ends the event when the pick fails, and always sends one
      `PLASMA_START` reply echoing the plasma and point ids, with status 0
      exactly when a pick succeeded (`plasmaStart_contract`).  The calls obey
      `PlasmaCalls`: each made once at most, in order; the pick made on the
      point `GetPoint` returns for the id, only when the character can
      interact with it, and whenever every check has passed; the event ended
      exactly when it started and no pick succeeded.
    * `ObjectInteraction` (lines 62–217) hands the target's action list to the
      action manager only when the requester is within reach or has a user
      level above 0 and the list is not empty, and never replies.  Its spec
      lemma `objectInteraction_contract` lists that one call with its checks;
      the serving layer uses its frame, `objectInteraction_world`. -/

namespace ZoneRequests

open ChannelObjects ChannelWorld

/-- An NPC or server object of a zone: its position and the actions of its
    definition. -/
structure ZoneObject where
  x : Int
  y : Int
  actions : List Nat
  deriving DecidableEq, Repr

/-- What the zone, event and plasma managers answer for a client's current
    zone, none of them in the repository: whether the zone has a definition,
    its plasma states by entity id with the point ids each has (`GetPoint`),
    its NPCs (`GetNPC`) and server objects (`GetServerObject`), the
    character's distance to a position after `RefreshCurrentPosition`, and the
    answers of `CanInteract`, `StartSystemEvent` and `PickPoint`. -/
structure ZoneManagers where
  hasDefinition : EntityId → Bool
  plasma : EntityId → Int → Option (Nat → Bool)
  npc : EntityId → Int → Option ZoneObject
  serverObject : EntityId → Int → Option ZoneObject
  distance : EntityId → Int → Int → Nat
  canInteract : EntityId → Int → Nat → Bool
  startSystemEvent : EntityId → Int → Bool
  pickPoint : EntityId → Int → Option Nat → Bool

/-! ## `PlasmaStart` -/

/-- `(uint32_t)` applied to an `int8_t` point id. -/
def u32 (s : Int) : Nat := (s % 2 ^ 32).toNat

/-- Line 81: the pick, and the event ended by `HandleEvent(client, nullptr)`
    when it fails. -/
def pick (z : ZoneManagers) (c : EntityId) (plasmaID : Int) (point : Option Nat) :
    List Event × Bool :=
  let ok := z.pickPoint c plasmaID point
  (.pickPoint c plasmaID point ok :: if ok then [] else [.endEvent c], ok)

/-- Lines 64–87: the plasma state, the point id, the system event, the
    interaction check on a point that exists, and the pick; the manager calls
    made and whether the pick succeeded. -/
def pickPlasma (z : ZoneManagers) (c : EntityId) (plasmaID pointID : Int) : List Event × Bool :=
  match z.plasma c plasmaID with
  | none => ([], false)
  | some points =>
    if pointID = 0 then ([], false)
    else if z.startSystemEvent c plasmaID then
      let started := Event.startSystemEvent c plasmaID true
      if points (u32 pointID) then
        if z.canInteract c plasmaID (u32 pointID) then
          let r := pick z c plasmaID (some (u32 pointID))
          (started :: r.1, r.2)
        else ([started, .endEvent c], false)
      else
        let r := pick z c plasmaID none
        (started :: r.1, r.2)
    else ([.startSystemEvent c plasmaID false], false)

/-- `Parsers::PlasmaStart::Parse` after the size check, for the client whose
    character has entity id `c`. -/
def plasmaStart (z : ZoneManagers) (w : World) (c : EntityId) (plasmaID pointID : Int) : Exec :=
  let r := pickPlasma z c plasmaID pointID
  (⟨w, r.1⟩ : Exec).send c (.plasmaStart plasmaID pointID (if r.2 then 0 else -1))

@[simp] theorem plasmaStart_world (z : ZoneManagers) (w : World) (c : EntityId) (plasmaID pointID : Int) :
    (plasmaStart z w c plasmaID pointID).world = w := rfl

/-! ## `ObjectInteraction` -/

/-- Lines 93–104: the NPC with the entity id, or else the server object. -/
def lookupObject (z : ZoneManagers) (c : EntityId) (entityID : Int) : Option ZoneObject :=
  (z.npc c entityID).orElse fun _ => z.serverObject c entityID

/-- Lines 106–142: whether the interaction is valid.  `isHidden` is the
    constant `false`, so its branch is left out. -/
def Reachable (z : ZoneManagers) (maxInteractDistance : Nat) (c : EntityId) (st : ClientState)
    (obj : ZoneObject) : Prop :=
  0 < st.userLevel ∨ z.distance c obj.x obj.y ≤ maxInteractDistance

instance (z : ZoneManagers) (maxInteractDistance : Nat) (c : EntityId) (st : ClientState)
    (obj : ZoneObject) : Decidable (Reachable z maxInteractDistance c st obj) :=
  inferInstanceAs (Decidable (_ ∨ _))

/-- `Parsers::ObjectInteraction::Parse` after the size check, with the
    server's `MAX_INTERACT_DISTANCE`: a valid interaction with a non-empty
    action list queues `PerformActions` for the client. -/
def objectInteraction (z : ZoneManagers) (maxInteractDistance : Nat) (w : World) (c : EntityId)
    (entityID : Int) : Exec :=
  if z.hasDefinition c then
    match lookupObject z c entityID, w.clients c with
    | some obj, some st =>
      if Reachable z maxInteractDistance c st obj ∧ obj.actions ≠ [] then
        ⟨w, [.performActions c obj.actions entityID]⟩
      else ⟨w, []⟩
    | _, _ => ⟨w, []⟩
  else ⟨w, []⟩

/-- `ObjectInteraction` leaves the world as it was, sends NOTHING, and makes
    ONE call at most: `PerformActions` with the actions of the object it
    names, made EXACTLY when the client's zone has a definition, the object
    exists, the client is within reach or has a user level above 0, and the
    list is not empty. -/
theorem objectInteraction_contract (z : ZoneManagers) (maxInteractDistance : Nat) (w : World)
    (c : EntityId) (entityID : Int) :
    (objectInteraction z maxInteractDistance w c entityID).world = w ∧
      ∀ ev, ev ∈ (objectInteraction z maxInteractDistance w c entityID).events ↔
        ∃ obj st, ev = .performActions c obj.actions entityID ∧ z.hasDefinition c = true ∧
          lookupObject z c entityID = some obj ∧ w.clients c = some st ∧
          Reachable z maxInteractDistance c st obj ∧ obj.actions ≠ [] := by
  unfold objectInteraction
  split_ifs with hz
  · rcases ho : lookupObject z c entityID with _ | obj
    · exact ⟨rfl, by simp⟩
    rcases hc : w.clients c with _ | st
    · exact ⟨rfl, by simp⟩
    dsimp only
    split_ifs with hv
    · refine ⟨rfl, fun ev => ⟨fun h => ?_, ?_⟩⟩
      · exact ⟨obj, st, List.mem_singleton.mp h, hz, rfl, rfl, hv⟩
      · rintro ⟨_, _, rfl, -, ⟨⟩, ⟨⟩, -⟩
        exact List.mem_singleton_self _
    · refine ⟨rfl, fun ev => ⟨fun h => (List.not_mem_nil ev h).elim, ?_⟩⟩
      rintro ⟨_, _, -, -, ⟨⟩, ⟨⟩, hr, hne⟩
      exact absurd ⟨hr, hne⟩ hv
  · exact ⟨rfl, by simp [hz]⟩

@[simp] theorem objectInteraction_world (z : ZoneManagers) (maxInteractDistance : Nat) (w : World)
    (c : EntityId) (entityID : Int) : (objectInteraction z maxInteractDistance w c entityID).world = w :=
  (objectInteraction_contract z maxInteractDistance w c entityID).1

end ZoneRequests
