import ChannelServer.Packets
import ChannelServer.ItemSafety

/-! # The channel serving frames — no item in two slots, whatever the bytes

    `serve` plays what reaches the channel in any order: frames of raw bytes
    from clients, read by `receive` while the client's connection is alive,
    the exchange steps, and the persistence worker.

    * `receive` kills the connection of a malformed frame, which keeps the
      frame of `ItemSafety.Keeps`, and each of the five handlers keeps it too
      (`keeps_receive`), given that the character manager's reunion writes no
      box, no item, no inventory and no session (`ReunionKeeps`).
    * So `ItemSafety.Safe` holds along every sequence of inputs, and no item
      ever sits in two slots of two inventories, whatever bytes the clients
      send (`serve_keeps_items_apart`). -/

namespace ChannelServe

open ChannelObjects ChannelWorld ChannelTrade ChannelPackets ItemSafety

/-- What reaches the channel: a frame from a client, an exchange step, or
    the persistence worker taking the oldest change set. -/
inductive Input
  | frame (client : EntityId) (code : ClientCode) (payload : List UInt8)
  | openExchange (a b : EntityId)
  | stage (c : EntityId) (items : List UUID)
  | cancel (c : EntityId)
  | persist

/-- One input; `none` when it cannot happen there or the handler faults.  A
    frame is read only from a live connection. -/
def serveStep (ch : Channel) (w : World) : Input → Option World
  | .frame c code p =>
    if w.connection c = some .alive then
      match receive ch w c code p with
      | .ok e => some e.world
      | .error _ => none
    else none
  | .openExchange a b => ItemRuns.openExchange w a b
  | .stage c L => ItemRuns.stage w c L
  | .cancel c => ItemRuns.cancel w c
  | .persist => some (ItemRuns.persist w)

/-- The inputs in order, each on the world the last one left. -/
def serve (ch : Channel) (w : World) : List Input → Option World
  | [] => some w
  | i :: is => (serveStep ch w i).bind fun w' => serve ch w' is

/-! ## Every handler keeps the frame -/

/-- The character manager's `DoMitamaReunion` changes the reunion data of the
    character and its demons only: no box, no item, no inventory, no
    session. -/
def ReunionKeeps (mgr : MitamaReunion.Managers) : Prop :=
  ∀ w c idx reunionIdx w₁ changes events,
    mgr.doMitamaReunion w c idx reunionIdx = some (w₁, changes, events) → Keeps w w₁

theorem keeps_handleMitamaReunion {mgr : MitamaReunion.Managers} (hmgr : ReunionKeeps mgr)
    (w : World) (c : EntityId) (mitamaID reunionIdx : Int) :
    Keeps w (MitamaReunion.handleMitamaReunion mgr w c mitamaID reunionIdx).world := by
  cases hc : w.clients c with
  | none => simp only [MitamaReunion.handleMitamaReunion, hc]; exact Keeps.refl w
  | some st =>
    rcases MitamaReunion.handleMitamaReunion_cases mgr w hc mitamaID reunionIdx with
      h | ⟨-, m, _, w₁, changes, events, -, -, -, -, hr, h⟩ <;> rw [h]
    · exact Keeps.refl w
    · rw [MitamaReunion.consume_world]
      exact (hmgr _ _ _ _ _ _ _ hr).trans
        (Keeps.of_clients rfl rfl (fun _ => rfl) fun _ s' h => ⟨s', h, rfl, rfl⟩)

theorem keeps_handle (ch : Channel) (hmgr : ReunionKeeps ch.mgr) {w : World} (hs : Safe w)
    {c : EntityId} {r : Request} {e : Exec} (h : handle ch w c r = .ok e) : Keeps w e.world := by
  cases r with
  | itemDrop itemID =>
    cases h
    exact keeps_dropItem _ w c itemID
  | mitamaReunion mitamaID reunionIdx =>
    cases h
    exact keeps_handleMitamaReunion hmgr w c mitamaID reunionIdx
  | plasmaStart plasmaID pointID =>
    cases h
    exact Keeps.refl w
  | objectInteraction entityID =>
    cases h
    rw [ZoneRequests.objectInteraction_world]
    exact Keeps.refl w
  | tradeFinish => exact keeps_tradeFinish ch.db hs h

/-- Whatever the bytes, a frame keeps the frame of `Keeps`: a malformed one
    is a kill, a well-sized one runs its handler. -/
theorem keeps_receive (ch : Channel) (hmgr : ReunionKeeps ch.mgr) {w : World} (hs : Safe w)
    {c : EntityId} {code : ClientCode} {p : List UInt8} {e : Exec}
    (h : receive ch w c code p = .ok e) : Keeps w e.world := by
  unfold receive at h
  split at h
  · cases h
    exact keeps_kill ⟨w, []⟩ c
  · exact keeps_handle ch hmgr hs h

/-! ## Every sequence of inputs -/

theorem serveStep_safe (ch : Channel) (hmgr : ReunionKeeps ch.mgr) {w w' : World} (hs : Safe w)
    {i : Input} (h : serveStep ch w i = some w') : Safe w' := by
  cases i with
  | frame c code p =>
    simp only [serveStep] at h
    split_ifs at h
    split at h
    · next e he =>
      cases h
      exact hs.of_keeps (keeps_receive ch hmgr hs he)
    · cases h
  | openExchange a b => exact safe_openExchange hs h
  | stage c L => exact safe_stage hs h
  | cancel c => exact hs.of_keeps (keeps_cancel h)
  | persist =>
    cases h
    exact hs.of_keeps (keeps_persist w)

theorem serve_safe (ch : Channel) (hmgr : ReunionKeeps ch.mgr) {w : World} (hs : Safe w)
    (ins : List Input) {w' : World} (h : serve ch w ins = some w') : Safe w' := by
  induction ins generalizing w with
  | nil => cases h; exact hs
  | cons i is ih =>
    cases hst : serveStep ch w i with
    | none => simp [serve, hst] at h
    | some w₁ =>
      rw [serve, hst, Option.some_bind] at h
      exact ih (serveStep_safe ch hmgr hs hst) h

/-- **WHATEVER THE BYTES**: from a `Safe` world, along every sequence of
    frames of any opcode and any payload, exchange steps and persistence,
    every connected client's inventory stays consistent, and the
    inventories of two distinct clients hold no item twice between them. -/
theorem serve_keeps_items_apart (ch : Channel) (hmgr : ReunionKeeps ch.mgr) {w : World}
    (hs : Safe w) (ins : List Input) {w' : World} (h : serve ch w ins = some w')
    {c c' : EntityId} (hne : c ≠ c') (hc : (w'.clients c).isSome) (hc' : (w'.clients c').isSome) :
    w'.BoxConsistent (w'.inventoryOf c) ∧
      (w'.held (w'.inventoryOf c) ++ w'.held (w'.inventoryOf c')).Nodup := by
  have hs' := serve_safe ch hmgr hs ins h
  exact ⟨hs'.consistent c hc, World.nodup_held_append (hs'.consistent c hc) (hs'.consistent c' hc')
    (hs'.distinct c c' hne hc hc')⟩

/-! ## The runs of `ItemRuns` are the server on encoded frames -/

/-- The input an action of `ItemRuns` arrives as: a drop or a finish as the
    client's encoded frame, the other steps as they are. -/
def toInput : ItemRuns.Action → Input
  | .drop c itemID => .frame c .itemDrop (encode (.itemDrop itemID))
  | .finish c => .frame c .tradeFinish (encode .tradeFinish)
  | .openExchange a b => .openExchange a b
  | .stage c L => .stage c L
  | .cancel c => .cancel c
  | .persist => .persist

/-- A drop's handle fits its `int64_t` field. -/
def ActionFits : ItemRuns.Action → Prop
  | .drop _ itemID => Fits 8 itemID
  | _ => True

instance : DecidablePred ActionFits := fun act => by
  cases act <;> unfold ActionFits <;> infer_instance

theorem serveStep_toInput (ch : Channel) (w : World) {act : ItemRuns.Action}
    (h : ActionFits act) :
    serveStep ch w (toInput act) = ItemRuns.step ch.defs ch.db w act := by
  cases act with
  | drop c itemID =>
    simp only [toInput, serveStep, ItemRuns.step]
    rw [show ClientCode.itemDrop = (Request.itemDrop itemID).code from rfl,
      receive_encode ch w c (r := .itemDrop itemID) h]
    rfl
  | finish c => rfl
  | openExchange a b => rfl
  | stage c L => rfl
  | cancel c => rfl
  | persist => rfl

/-- **REFINEMENT**: a run of `ItemRuns` whose handles fit their field is
    exactly the channel serving the clients' encoded frames, so every
    run of `ItemRuns` is a run of the server on real bytes. -/
theorem serve_toInput (ch : Channel) (w : World) (as : List ItemRuns.Action)
    (h : ∀ act ∈ as, ActionFits act) :
    serve ch w (as.map toInput) = ItemRuns.run ch.defs ch.db w as := by
  induction as generalizing w with
  | nil => rfl
  | cons act as ih =>
    rw [List.map_cons, serve, ItemRuns.run, serveStep_toInput ch w (h act (List.mem_cons_self _ _))]
    cases ItemRuns.step ch.defs ch.db w act with
    | none => rfl
    | some w' => exact ih w' fun act' hact' => h act' (List.mem_cons_of_mem _ hact')

/-! ## A channel on `dropWorld` -/

/-- A zone with no definition, no plasma and no object. -/
def emptyZone : ZoneRequests.ZoneManagers where
  hasDefinition _ := false
  plasma _ _ := none
  npc _ _ := none
  serverObject _ _ := none
  distance _ _ _ := 0
  canInteract _ _ _ := false
  startSystemEvent _ _ := false
  pickPoint _ _ _ := false

/-- Every item discardable, the reunion managers of `reunionWorld`, an empty
    zone, and a database that accepts every change set. -/
def testChannel : Channel :=
  ⟨ItemDrop.discardAll, MitamaReunion.reunionManagers, emptyZone, 0, fun _ => true⟩

theorem reunionKeeps_reunionManagers : ReunionKeeps MitamaReunion.reunionManagers := by
  intro w _ _ _ w₁ _ _ h
  cases h
  exact Keeps.refl w

/-- Client 1 drops handle 5 by its 8-byte frame, then sends a 3-byte
    `ITEM_DROP` frame, which drops its connection. -/
def dropFrames : List Input :=
  [.frame 1 .itemDrop (encode (.itemDrop 5)), .frame 1 .itemDrop [1, 2, 3],
    .frame 2 .tradeFinish []]

/-- The stale drop run of `ItemRuns`, sent as frames, is served exactly as
    the run. -/
theorem serve_toInput_staleDropRun :
    (∀ act ∈ ItemRuns.staleDropRun, ActionFits act) ∧
      serve testChannel ItemDrop.dropWorld (ItemRuns.staleDropRun.map toInput) =
        ItemRuns.run testChannel.defs testChannel.db ItemDrop.dropWorld ItemRuns.staleDropRun :=
  ⟨by decide, serve_toInput testChannel ItemDrop.dropWorld ItemRuns.staleDropRun (by decide)⟩

theorem serve_keeps_items_apart_dropFrames :
    ∃ w', serve testChannel ItemDrop.dropWorld dropFrames = some w' ∧
      w'.BoxConsistent (w'.inventoryOf 1) ∧
        (w'.held (w'.inventoryOf 1) ++ w'.held (w'.inventoryOf 2)).Nodup :=
  ⟨_, rfl, serve_keeps_items_apart testChannel reunionKeeps_reunionManagers safe_dropWorld
    dropFrames rfl (by decide) rfl rfl⟩

end ChannelServe
