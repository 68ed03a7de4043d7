import ChannelServer.ItemConservation
import ChannelServer.ExchangePairing

/-! # Client isolation — what the other clients' requests cannot reach

    A connected client outside every exchange keeps what it owns while the
    others play: along every run of drops, trade finishes, exchange steps and
    persistence in which no action is its own or names it, its client state,
    every slot of its inventory and the record of every item in it stay as
    they were (`run_isolates_client`).

    The route:
    * Each operation of `TradeFinish` writes the client records of the clients
      it names only, so the whole handler writes those of the requester and
      its counterpart (`clients_tradeFinish_ne`).
    * A drop clears a slot of the dropping client's inventory only, and
      inventories are distinct (`isolated_dropItem`).
    * A finish by another client cannot have the bystander as counterpart: in
      a PAIRED world no session names a client that has none.  Its commit
      writes the two parties' inventories and the records of the items that
      passed the phantom check there, and an item of a consistent inventory
      records that inventory and no other (`isolated_tradeFinish`).
    * The exchange steps and the worker write no box and no item, nor the
      bystander's record (`step_isolated`); `Safe` and `Paired` hold at every
      step, so the frames compose along the run. -/

namespace ClientIsolation

open ChannelObjects ChannelWorld ChannelTrade TradeSteps TradeAborts ItemDrop ItemRuns ItemSafety
  ItemConservation ExchangePairing

/-- The action is client `c`'s own request or names it. -/
def involves (c : EntityId) : Action → Bool
  | .drop d _ => d == c
  | .finish d => d == c
  | .openExchange a b => a == c || b == c
  | .stage d _ => d == c
  | .cancel d => d == c
  | .persist => false

/-- What client `c` owns in `w` is as it was in `w'`: its client state, every
    slot of its inventory, and the record of every item in it. -/
structure Isolated (w w' : World) (c : EntityId) : Prop where
  client : w'.clients c = w.clients c
  slots : ∀ i, w'.slot (w.inventoryOf c) i = w.slot (w.inventoryOf c) i
  records : ∀ x ∈ w.held (w.inventoryOf c), w'.items x = w.items x

namespace Isolated

variable {w₁ w₂ w₃ : World} {c : EntityId}

theorem refl (w : World) (c : EntityId) : Isolated w w c := ⟨rfl, fun _ => rfl, fun _ _ => rfl⟩

/-- A step that writes no box, no item and not `c`'s record. -/
theorem of_objects (hc : w₂.clients c = w₁.clients c) (hb : w₂.boxes = w₁.boxes)
    (hi : w₂.items = w₁.items) : Isolated w₁ w₂ c :=
  ⟨hc, fun _ => by simp only [World.slot, hb], fun _ _ => by rw [hi]⟩

theorem inventoryOf_eq (h : Isolated w₁ w₂ c) : w₂.inventoryOf c = w₁.inventoryOf c := by
  simp only [World.inventoryOf, h.client]

theorem held_eq (h : Isolated w₁ w₂ c) :
    w₂.held (w₁.inventoryOf c) = w₁.held (w₁.inventoryOf c) := by
  simp only [World.held, funext h.slots]

theorem trans (h₁ : Isolated w₁ w₂ c) (h₂ : Isolated w₂ w₃ c) : Isolated w₁ w₃ c where
  client := h₂.client.trans h₁.client
  slots i := calc
    w₃.slot (w₁.inventoryOf c) i = w₂.slot (w₁.inventoryOf c) i := by
      rw [← h₁.inventoryOf_eq]; exact h₂.slots i
    _ = w₁.slot (w₁.inventoryOf c) i := h₁.slots i
  records x hx := by
    rw [h₂.records x (by rwa [h₁.inventoryOf_eq, h₁.held_eq]), h₁.records x hx]

end Isolated

/-! ## Which client records a finish writes -/

theorem clients_vacate_ne (w : World) {d c : EntityId} (h : c ≠ d) (box : UUID) (xs : List UUID) :
    (vacate w d box xs).clients c = w.clients c := by
  induction xs generalizing w with
  | nil => rfl
  | cons x xs ih => rw [vacate, ih]; simp [World.unequipItem, h]

theorem clients_tradeWorld_ne (W : World) {a b c : EntityId} (ha : c ≠ a) (hb : c ≠ b)
    (L L' : List UUID) (F F' : Finset Nat) : (tradeWorld W a b L L' F F').clients c = W.clients c := by
  simp only [tradeWorld, placeAll_clients, clients_vacate_ne _ hb, clients_vacate_ne _ ha]

theorem clients_commitTrade_ne (db : ChangeSet → Bool) (e : Exec) {a b c : EntityId} (ha : c ≠ a)
    (hb : c ≠ b) (L L' : List UUID) (F F' : Finset Nat) :
    (commitTrade db e a b L L' F F').world.clients c = e.world.clients c := by
  unfold commitTrade
  dsimp only
  split <;> simp only [Exec.clients_endExchange_ne _ ha, Exec.clients_endExchange_ne _ hb,
    Exec.clients_close_ne _ ha, Exec.clients_close_ne _ hb, Exec.sendItemBoxData_world,
    clients_tradeWorld_ne _ ha hb]

theorem clients_settleTrade_ne (db : ChangeSet → Bool) (e : Exec) {a b c : EntityId} (ha : c ≠ a)
    (hb : c ≠ b) : (settleTrade db e a b).world.clients c = e.world.clients c := by
  unfold settleTrade
  dsimp only
  split
  · rw [Exec.clients_kill_ne _ ha, Exec.clients_endExchange_ne _ hb, Exec.clients_endExchange_ne _ ha]
  split
  · rw [Exec.clients_kill_ne _ hb, Exec.clients_endExchange_ne _ hb, Exec.clients_endExchange_ne _ ha]
  split_ifs
  · rw [Exec.clients_endExchange_ne _ hb, Exec.clients_endExchange_ne _ ha]
  · rw [Exec.clients_endExchange_ne _ hb, Exec.clients_endExchange_ne _ ha]
  · exact clients_commitTrade_ne db e ha hb _ _ _ _

theorem clients_markFinished_ne (e : Exec) {a c : EntityId} (b : EntityId) (ha : c ≠ a) :
    (markFinished e a b).world.clients c = e.world.clients c := by
  rw [markFinished_world]
  split_ifs
  · exact World.modifyClient_clients_ne _ ha _
  · rfl

/-- `TradeFinish` writes the client records of the requester and of its
    counterpart only. -/
theorem clients_tradeFinish_ne {db : ChangeSet → Bool} {w : World} {a : EntityId} {e : Exec}
    (h : tradeFinish db w a = .ok e) {c : EntityId} (ha : c ≠ a) (hb : counterpart w a ≠ some c) :
    e.world.clients c = w.clients c := by
  unfold tradeFinish at h
  split at h
  · cases h
    exact Exec.clients_endExchange_ne _ ha _
  · next b hcb =>
    have hbc : c ≠ b := fun h' => hb (h' ▸ hcb)
    dsimp only at h
    split at h
    · cases h
    · split_ifs at h <;> cases h
      · rw [clients_settleTrade_ne _ _ ha hbc, clients_markFinished_ne _ _ ha]
      · exact clients_markFinished_ne _ _ ha

/-! ## A bystander is never a counterpart -/

/-- In a paired world no session names a client that has none. -/
theorem partner_ne_of_session_none {w : World} (hp : Paired w) {c : EntityId}
    (hc : w.session c = none) (a : EntityId) : partner w a ≠ some c := fun h => by
  have := hp a c h
  simp [partner, hc] at this

theorem counterpart_ne_of_session_none {w : World} (hp : Paired w) {c : EntityId}
    (hc : w.session c = none) (a : EntityId) : counterpart w a ≠ some c := fun h => by
  obtain ⟨s, hsa, hob, -⟩ := counterpart_eq_some h
  exact partner_ne_of_session_none hp hc a (by simp [partner, hsa, hob])

/-! ## One request of another client -/

section Requests

variable {w : World} {c : EntityId}

/-- A drop by another client clears a slot of that client's inventory only. -/
theorem isolated_dropItem (defs : ItemDefinitions) (hs : Safe w) (hc : (w.clients c).isSome)
    {d : EntityId} (hd : d ≠ c) (itemID : Int) : Isolated w (dropItem defs w d itemID).world c := by
  cases hst : w.clients d with
  | none =>
    simp only [dropItem, hst]
    exact Isolated.refl w c
  | some st =>
    have hinv : st.inventory ≠ w.inventoryOf c := by
      simpa [World.inventoryOf, hst] using hs.distinct d c hd (by simp [hst]) hc
    by_cases hsess : st.exchangeSession.isSome
    · rw [dropItem_of_session hst hsess]
      exact Isolated.of_objects (Exec.clients_kill_ne _ (Ne.symm hd)) rfl rfl
    rw [Option.not_isSome_iff_eq_none] at hsess
    by_cases ha : ∃ x, Accepts defs w st itemID x
    · obtain ⟨x, ha⟩ := ha
      rw [dropItem_of_accepts hst hsess ha]
      refine ⟨by simp [ItemDrop.discard, World.unequipItem, Ne.symm hd], fun i => ?_, fun _ _ => rfl⟩
      rw [slot_discard, if_neg fun h => hinv h.1.symm]
    · rw [dropItem_of_rejects hst hsess (not_exists.mp ha)]
      exact Isolated.refl w c

/-- The commit writes no slot outside the two parties' inventories. -/
theorem slot_tradeWorld_ne {W : World} {a b : EntityId} {box : UUID} (ha : box ≠ W.inventoryOf a)
    (hb : box ≠ W.inventoryOf b) (L L' : List UUID) (F F' : Finset Nat) (i : Nat) :
    (tradeWorld W a b L L' F F').slot box i = W.slot box i := by
  simp only [tradeWorld]
  rw [slot_placeAll_of_not_mem (.inl hb), slot_placeAll_of_not_mem (.inl ha), slot_vacate,
    if_neg fun h => hb h.1, slot_vacate, if_neg fun h => ha h.1]

/-- **A FINISH BY ANOTHER CLIENT** leaves the bystander's record, slots and
    items alone: on the abort paths nothing is written, and the commit's
    writes all lie in the two parties' inventories and in the records of the
    items staged there. -/
theorem isolated_tradeFinish (db : ChangeSet → Bool) (hs : Safe w) (hp : Paired w)
    (hc : (w.clients c).isSome) (hsc : w.session c = none) {a : EntityId} (ha : a ≠ c) {e : Exec}
    (h : tradeFinish db w a = .ok e) : Isolated w e.world c := by
  have hcp := counterpart_ne_of_session_none hp hsc a
  have hcl := clients_tradeFinish_ne h (Ne.symm ha) hcp
  rcases tradeFinish_objects h with hu | ⟨b, hb, hpa, hpb, -, -, _, rfl, hbox, hitems⟩
  · exact Isolated.of_objects hcl hu.boxes hu.items
  obtain ⟨s, hsa, -, hbs⟩ := counterpart_eq_some hb
  have hia := hs.distinct c a (Ne.symm ha) hc (isSome_clients_of_session hsa)
  have hib := hs.distinct c b (fun h' => hcp (h' ▸ hb)) hc hbs
  refine ⟨hcl, fun i => ?_, fun x hx => ?_⟩
  · simp only [World.slot, hbox]
    rw [← World.slot, slot_tradeWorld_ne (by rwa [inventoryOf_setFinished])
      (by rwa [inventoryOf_setFinished]), slot_setFinished]
    rfl
  · -- an item of the bystander's inventory records it, so passed neither phantom check
    have hbox_x := (TradeCommit.slot_recorded (hs.consistent c hc) hx).2.2
    have hxa : x ∉ stagedItems w a := fun hx' => hia (hbox_x.symm.trans (hpa x hx'))
    have hxb : x ∉ stagedItems w b := fun hx' => hib (hbox_x.symm.trans (hpb x hx'))
    rw [hitems, items_tradeWorld_of_not_mem hxa hxb, setFinished_items]

end Requests

/-! ## Runs -/

/-- One step that is not the bystander's and does not name it leaves it
    isolated. -/
theorem step_isolated (defs : ItemDefinitions) (db : ChangeSet → Bool) {w w' : World} (hs : Safe w)
    (hp : Paired w) {c : EntityId} (hc : (w.clients c).isSome) (hsc : w.session c = none)
    {act : Action} (hact : involves c act = false) (h : step defs db w act = some w') :
    Isolated w w' c := by
  cases act with
  | drop d itemID =>
    simp only [step] at h
    split_ifs at h
    cases h
    exact isolated_dropItem defs hs hc (by simpa [involves] using hact) itemID
  | finish a =>
    simp only [step] at h
    split_ifs at h
    split at h
    · next e he =>
      cases h
      exact isolated_tradeFinish db hs hp hc hsc (by simpa [involves] using hact) he
    · cases h
  | openExchange a b =>
    simp only [step, openExchange] at h
    split_ifs at h
    cases h
    simp only [involves, Bool.or_eq_false_iff, beq_eq_false_iff_ne] at hact
    exact Isolated.of_objects (by simp [Ne.symm hact.1, Ne.symm hact.2]) rfl rfl
  | stage d L =>
    simp only [step, stage] at h
    split at h
    · split_ifs at h
      cases h
      exact Isolated.of_objects (by simp [Ne.symm (by simpa [involves] using hact : d ≠ c)]) rfl rfl
    · cases h
  | cancel d =>
    have hd : c ≠ d := Ne.symm (by simpa [involves] using hact)
    simp only [step, cancel] at h
    split at h
    · next s hs' =>
      cases h
      split
      · next b hb =>
        have hbc : c ≠ b := fun h' =>
          partner_ne_of_session_none hp hsc d (by simp [partner, hs', hb, h'])
        exact Isolated.of_objects (by rw [Exec.clients_endExchange_ne _ hbc,
          Exec.clients_endExchange_ne _ hd]) (by simp) (by simp)
      · exact Isolated.of_objects (Exec.clients_endExchange_ne _ hd _) (by simp) (by simp)
    · cases h
  | persist =>
    cases h
    unfold persist
    split
    · exact Isolated.refl w c
    · exact Isolated.of_objects rfl rfl rfl

/-- **NO CLIENT REACHES ANOTHER'S INVENTORY.**  From a world where the
    invariant of `ItemSafety.Safe` holds and every exchange session is paired,
    take a connected client with no exchange session.  Along every run of
    drops, trade finishes, exchange steps and persistence in which no action
    is that client's or names it, its client state, every slot of its
    inventory and the record of every item in it stay as they were. -/
theorem run_isolates_client (defs : ItemDefinitions) (db : ChangeSet → Bool) {w : World}
    (hs : Safe w) (hp : Paired w) {c : EntityId} (hc : (w.clients c).isSome)
    (hsc : w.session c = none) (as : List Action) (hact : ∀ act ∈ as, involves c act = false)
    {w' : World} (h : run defs db w as = some w') : Isolated w w' c := by
  induction as generalizing w with
  | nil =>
    cases h
    exact Isolated.refl _ c
  | cons act as ih =>
    cases hst : step defs db w act with
    | none => simp [run, hst] at h
    | some w₁ =>
      rw [run, hst, Option.some_bind] at h
      have h₁ := step_isolated defs db hs hp hc hsc (hact act (List.mem_cons_self _ _)) hst
      have hc₁ : (w₁.clients c).isSome := by rw [h₁.client]; exact hc
      have hsc₁ : w₁.session c = none := by simp only [World.session, h₁.client]; exact hsc
      exact h₁.trans (ih (step_safe defs db hs hst) (step_paired hp hst) hc₁ hsc₁
        (fun a ha => hact a (List.mem_cons_of_mem _ ha)) h)

/-- Client 1 of `dropWorld` drops item 300 and the worker persists the
    delete, while client 2 looks on. -/
theorem run_isolates_client_drop :
    ∃ w', run discardAll (fun _ => true) dropWorld [.drop 1 5, .persist] = some w' ∧
      Isolated dropWorld w' 2 :=
  ⟨_, rfl, run_isolates_client discardAll (fun _ => true) safe_dropWorld paired_dropWorld (c := 2)
    rfl rfl [.drop 1 5, .persist] (by decide) rfl⟩

end ClientIsolation
