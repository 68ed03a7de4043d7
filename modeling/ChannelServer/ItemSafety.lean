import ChannelServer.ItemRuns
import ChannelServer.TradeSteps

/-! # What every run keeps — no item in two slots

    `ItemRuns.staleDropRun` shows that an item can leave the inventories
    without being dropped.  What the channel does keep, over every run of
    drops, trade finishes, exchange steps and persistence from a `Safe`
    world, is that every inventory's forward and back references agree, so no
    item sits in two slots of any two inventories (`run_keeps_items_apart`).

    * `Keeps w w'` is the frame of a request: no inventory changes, a session
      only ends or gets marked, and a consistent box stays consistent.
    * The commit keeps every consistent box consistent once the code's phantom
      check has passed and no item is staged twice
      (`TradeSteps.consistent_tradeWorld`);
      a stale item only clears a slot, it never duplicates one.
    * `Safe` holds after every step (`step_safe`), hence along every run
      (`run_safe`). -/

namespace ItemSafety

open ChannelObjects ChannelWorld ChannelTrade TradePlacement TradeSteps ItemDrop ItemRuns

/-! ## The frame of a request -/

/-- A step that changes no client's inventory, only ends sessions or changes
    their finished flag, and keeps every consistent box consistent. -/
structure Keeps (w w' : World) : Prop where
  inventories : ∀ c, (w'.clients c).map (·.inventory) = (w.clients c).map (·.inventory)
  sessions : ∀ c s', w'.session c = some s' →
    ∃ s, w.session c = some s ∧ s'.otherCharacter = s.otherCharacter ∧ s'.items = s.items
  consistent : ∀ box, w.BoxConsistent box → w'.BoxConsistent box

namespace Keeps

theorem refl (w : World) : Keeps w w :=
  ⟨fun _ => rfl, fun _ s' h => ⟨s', h, rfl, rfl⟩, fun _ h => h⟩

theorem trans {w₁ w₂ w₃ : World} (h₁ : Keeps w₁ w₂) (h₂ : Keeps w₂ w₃) : Keeps w₁ w₃ where
  inventories c := (h₂.inventories c).trans (h₁.inventories c)
  sessions c s₃ h := by
    obtain ⟨s₂, h2, ho, hi⟩ := h₂.sessions c s₃ h
    obtain ⟨s₁, h1, ho', hi'⟩ := h₁.sessions c s₂ h2
    exact ⟨s₁, h1, ho.trans ho', hi.trans hi'⟩
  consistent box h := h₂.consistent box (h₁.consistent box h)

/-- A step that writes no box and no item keeps every box's consistency. -/
theorem of_clients {w w' : World} (hb : w'.boxes = w.boxes) (hi : w'.items = w.items)
    (hinv : ∀ c, (w'.clients c).map (·.inventory) = (w.clients c).map (·.inventory))
    (hs : ∀ c s', w'.session c = some s' →
      ∃ s, w.session c = some s ∧ s'.otherCharacter = s.otherCharacter ∧ s'.items = s.items) :
    Keeps w w' :=
  ⟨hinv, hs, fun _ h => by simpa only [World.BoxConsistent, World.slot, hb, hi] using h⟩

end Keeps

/-- An update of one client that keeps its inventory and at most ends or
    marks its session. -/
theorem keeps_modifyClient (w : World) (c : EntityId) {f : ClientState → ClientState}
    (hinv : ∀ st, (f st).inventory = st.inventory)
    (hs : ∀ st s', (f st).exchangeSession = some s' →
      ∃ s, st.exchangeSession = some s ∧ s'.otherCharacter = s.otherCharacter ∧ s'.items = s.items) :
    Keeps w (w.modifyClient c f) := by
  refine Keeps.of_clients rfl rfl (fun c' => World.map_clients_modifyClient w c c' hinv)
    fun c' s' h => ?_
  by_cases hc : c' = c
  · subst hc
    cases hcl : w.clients c' with
    | none => simp [World.session, hcl] at h
    | some st =>
      simp only [World.session, World.modifyClient_clients_self, hcl, Option.map_some',
        Option.bind_some] at h
      obtain ⟨s, hs1, rest⟩ := hs st s' h
      exact ⟨s, by simp [World.session, hcl, hs1], rest⟩
  · exact ⟨s', by rwa [World.session_modifyClient_ne _ hc] at h, rfl, rfl⟩

/-- An update that leaves the session alone. -/
theorem keeps_modifyClient_of_session (w : World) (c : EntityId) {f : ClientState → ClientState}
    (hinv : ∀ st, (f st).inventory = st.inventory)
    (hs : ∀ st, (f st).exchangeSession = st.exchangeSession) : Keeps w (w.modifyClient c f) :=
  keeps_modifyClient w c hinv fun st s' h => ⟨s', by rw [← hs st, h], rfl, rfl⟩

theorem keeps_endExchange (e : Exec) (c : EntityId) (o : Int) :
    Keeps e.world (e.endExchange c o).world := by
  unfold Exec.endExchange
  split
  · exact keeps_modifyClient _ _ (fun _ => rfl) fun _ _ h => by cases h
  · exact Keeps.refl _

theorem keeps_kill (e : Exec) (c : EntityId) : Keeps e.world (e.kill c).world :=
  keeps_modifyClient_of_session _ _ (fun _ => rfl) fun _ => rfl

theorem keeps_close (e : Exec) (c : EntityId) : Keeps e.world (e.close c).world :=
  keeps_modifyClient_of_session _ _ (fun _ => rfl) fun _ => rfl

theorem keeps_setFinished (w : World) (c : EntityId) : Keeps w (setFinished w c) :=
  keeps_modifyClient _ _ (fun _ => rfl) fun st s' h => by
    cases hs : st.exchangeSession with
    | none => simp [hs] at h
    | some s =>
      simp only [hs, Option.map_some', Option.some.injEq] at h
      exact ⟨s, rfl, by rw [← h], by rw [← h]⟩

/-! ## `DropItem` -/

theorem keeps_dropItem (defs : ItemDefinitions) (w : World) (c : EntityId) (itemID : Int) :
    Keeps w (dropItem defs w c itemID).world := by
  cases hc : w.clients c with
  | none => simp only [dropItem, hc]; exact Keeps.refl w
  | some st =>
    by_cases hs : st.exchangeSession.isSome
    · rw [dropItem_of_session hc hs]
      exact keeps_kill ⟨w, []⟩ c
    · rw [Option.not_isSome_iff_eq_none] at hs
      by_cases ha : ∃ x, Accepts defs w st itemID x
      · obtain ⟨x, hx⟩ := ha
        rw [dropItem_of_accepts hc hs hx]
        have hu : Keeps w (w.unequipItem c x) :=
          keeps_modifyClient_of_session _ _ (fun _ => rfl) fun _ => rfl
        have hclear : Keeps (w.unequipItem c x)
            ((w.unequipItem c x).setItems st.inventory (sizeT (w.items x).boxSlot) none) :=
          ⟨fun _ => rfl, fun _ s' h => ⟨s', h, rfl, rfl⟩, fun _ h => h.setItems_none _ _⟩
        exact hu.trans (hclear.trans
          (Keeps.of_clients rfl rfl (fun _ => rfl) fun _ s' h => ⟨s', h, rfl, rfl⟩))
      · rw [dropItem_of_rejects hc hs (fun x hx => ha ⟨x, hx⟩)]
        exact Keeps.refl w

/-! ## The commit -/

section Commit

variable {w : World} {a b : EntityId} {L L' : List UUID} {F F' : Finset Nat}

theorem keeps_tradeWorld (h : CommitReady w a b L L') : Keeps w (tradeWorld w a b L L' F F') where
  inventories c := by
    simp only [tradeWorld, placeAll_clients]
    rw [map_clients_vacate (g := ClientState.inventory) (fun _ _ => rfl),
      map_clients_vacate (g := ClientState.inventory) (fun _ _ => rfl)]
  sessions c s' hs := ⟨s', by rwa [session_tradeWorld] at hs, rfl, rfl⟩
  consistent _ hc := consistent_tradeWorld h hc

theorem keeps_commitTrade (db : ChangeSet → Bool) (e : Exec) (h : CommitReady e.world a b L L') :
    Keeps e.world (commitTrade db e a b L L' F F').world := by
  have ht : ∀ E : Exec, E.world = tradeWorld e.world a b L L' F F' → Keeps e.world E.world :=
    fun E hE => hE ▸ keeps_tradeWorld h
  unfold commitTrade
  dsimp only
  split
  · exact (ht _ rfl).trans ((keeps_endExchange _ a 0).trans (keeps_endExchange _ b 0))
  · exact (ht _ rfl).trans ((keeps_close _ a).trans (keeps_close _ b))

end Commit

/-- Every path of `settleTrade` keeps the frame, when the two inventories
    differ and no item is staged twice. -/
theorem keeps_settleTrade (db : ChangeSet → Bool) (e : Exec) {a b : EntityId}
    (hne : e.world.inventoryOf a ≠ e.world.inventoryOf b) (hna : (stagedItems e.world a).Nodup)
    (hnb : (stagedItems e.world b).Nodup) : Keeps e.world (settleTrade db e a b).world := by
  have hend : ∀ o o', Keeps e.world ((e.endExchange a o).endExchange b o').world :=
    fun o o' => (keeps_endExchange e a o).trans (keeps_endExchange _ b o')
  by_cases ha : PhantomFree e.world a
  swap
  · rw [settleTrade_of_phantom_a e ha]
    exact (hend 1 1).trans (keeps_kill _ a)
  by_cases hb : PhantomFree e.world b
  swap
  · rw [settleTrade_of_phantom_b e ha hb]
    exact (hend 1 1).trans (keeps_kill _ b)
  by_cases hcapA : (loopFreeSlots e.world (e.world.inventoryOf b) (stagedItems e.world b)).card <
      (stagedItems e.world a).length
  · rw [settleTrade_of_capacity_a e ha hb hcapA]
    exact hend 3 2
  by_cases hcapB : (loopFreeSlots e.world (e.world.inventoryOf a) (stagedItems e.world a)).card <
      (stagedItems e.world b).length
  · rw [settleTrade_of_capacity_b e ha hb (not_lt.mp hcapA) hcapB]
    exact hend 2 3
  rw [settleTrade_of_capacity_ok e ha hb (not_lt.mp hcapA) (not_lt.mp hcapB)]
  exact keeps_commitTrade db e ⟨hne, ha, hb, hna, hnb⟩

/-! ## The invariant -/

/-- The invariant of the runs: distinct clients have distinct inventories,
    every client's inventory is consistent, and no session stages an item
    twice or names its own client. -/
structure Safe (w : World) : Prop where
  distinct : ∀ c c', c ≠ c' → (w.clients c).isSome → (w.clients c').isSome →
    w.inventoryOf c ≠ w.inventoryOf c'
  consistent : ∀ c, (w.clients c).isSome → w.BoxConsistent (w.inventoryOf c)
  nodup : ∀ c, (stagedItems w c).Nodup
  not_self : ∀ c s, w.session c = some s → s.otherCharacter ≠ some c

theorem stagedItems_of_session {w : World} {c : EntityId} {s : ExchangeSession}
    (h : w.session c = some s) : stagedItems w c = s.items.reduceOption := by
  simp [stagedItems, stagedOf, h]

theorem stagedItems_of_session_eq {w w' : World} {c : EntityId} (h : w'.session c = w.session c) :
    stagedItems w' c = stagedItems w c := by
  simp [stagedItems, stagedOf, h]

theorem stagedItems_of_session_none {w : World} {c : EntityId} (h : w.session c = none) :
    stagedItems w c = [] := by
  simp [stagedItems, stagedOf, h]

theorem isSome_clients_of_session {w : World} {c : EntityId} {s : ExchangeSession}
    (h : w.session c = some s) : (w.clients c).isSome := by
  cases hc : w.clients c <;> simp_all [World.session]

section Frame

variable {w w' : World}
  (hinv : ∀ c, (w'.clients c).map (·.inventory) = (w.clients c).map (·.inventory))
include hinv

theorem isSome_clients_of_inventories (c : EntityId) :
    (w'.clients c).isSome = (w.clients c).isSome := by
  simpa using congrArg Option.isSome (hinv c)

theorem inventoryOf_of_inventories (c : EntityId) : w'.inventoryOf c = w.inventoryOf c := by
  unfold World.inventoryOf
  rw [hinv c]

/-- A step that changes no inventory and keeps consistent boxes consistent
    keeps the invariant, when its sessions stage no item twice and name
    other clients. -/
theorem Safe.of_frame (hs : Safe w) (hcons : ∀ box, w.BoxConsistent box → w'.BoxConsistent box)
    (hnd : ∀ c, (stagedItems w' c).Nodup)
    (hself : ∀ c s, w'.session c = some s → s.otherCharacter ≠ some c) : Safe w' where
  distinct c c' hne hc hc' := by
    rw [inventoryOf_of_inventories hinv, inventoryOf_of_inventories hinv]
    exact hs.distinct c c' hne (isSome_clients_of_inventories hinv c ▸ hc)
      (isSome_clients_of_inventories hinv c' ▸ hc')
  consistent c hc := by
    rw [inventoryOf_of_inventories hinv]
    exact hcons _ (hs.consistent c (isSome_clients_of_inventories hinv c ▸ hc))
  nodup := hnd
  not_self := hself

end Frame

/-- A step that keeps the frame keeps the invariant. -/
theorem Safe.of_keeps {w w' : World} (hs : Safe w) (hk : Keeps w w') : Safe w' := by
  refine hs.of_frame hk.inventories hk.consistent (fun c => ?_) fun c s' h => ?_
  · cases hs' : w'.session c with
    | none => rw [stagedItems_of_session_none hs']; exact List.nodup_nil
    | some s' =>
      obtain ⟨s, hs1, -, hi⟩ := hk.sessions c s' hs'
      rw [stagedItems_of_session hs', hi, ← stagedItems_of_session hs1]
      exact hs.nodup c
  · obtain ⟨s, hs1, ho, -⟩ := hk.sessions c s' h
    rw [ho]
    exact hs.not_self c s hs1

/-! ## Every step -/

/-- Who a session names: the other character, when its client is
    connected. -/
theorem counterpart_eq_some {w : World} {a b : EntityId} (h : counterpart w a = some b) :
    ∃ s, w.session a = some s ∧ s.otherCharacter = some b ∧ (w.clients b).isSome := by
  cases hs : w.session a with
  | none => simp [counterpart, hs] at h
  | some s =>
    simp only [counterpart, hs, Option.bind_some, Option.filter_eq_some, Option.mem_def] at h
    exact ⟨s, rfl, h⟩

theorem keeps_tradeFinish (db : ChangeSet → Bool) {w : World} (hs : Safe w) {a : EntityId}
    {e : Exec} (h : tradeFinish db w a = .ok e) : Keeps w e.world := by
  cases hc : counterpart w a with
  | none =>
    rw [tradeFinish_of_counterpart_none hc, Except.ok.injEq] at h
    subst h
    exact keeps_endExchange ⟨w, []⟩ a 0
  | some b =>
    obtain ⟨s, hsa, hob, hb⟩ := counterpart_eq_some hc
    have hba : b ≠ a := fun hba => hs.not_self a s hsa (hba ▸ hob)
    cases hsb : w.session b with
    | none => rw [tradeFinish_of_session_none hc hsb] at h; cases h
    | some t =>
      have hm := markFinished_world_of_finished w a hsb
      have hk : Keeps w (markFinished ⟨w, []⟩ a b).world := hm ▸ keeps_setFinished w a
      cases hf : t.finished
      · rw [tradeFinish_of_waiting hc hsb hba hf, Except.ok.injEq] at h
        subst h
        exact hk
      · rw [tradeFinish_of_finished hc hsb (.inl hf), Except.ok.injEq] at h
        subst h
        refine hk.trans (keeps_settleTrade db _ ?_ ?_ ?_) <;>
          simp only [hm, inventoryOf_setFinished, stagedItems_setFinished]
        · exact hs.distinct a b hba.symm (isSome_clients_of_session hsa) hb
        · exact hs.nodup a
        · exact hs.nodup b

theorem reduceOption_map_some (L : List UUID) : (L.map some).reduceOption = L := by
  induction L with
  | nil => rfl
  | cons x L ih => rw [List.map_cons, List.reduceOption_cons_of_some, ih]

theorem session_modifyClient_self {w : World} {c : EntityId} (s : ExchangeSession) :
    (w.modifyClient c fun st => { st with exchangeSession := some s }).session c =
      (w.clients c).map fun _ => s := by
  cases hc : w.clients c <;> simp [World.session, hc]

/-- Giving client `c` a session that stages no item twice and names another
    client keeps the invariant. -/
theorem safe_setSession {w : World} (hs : Safe w) (c : EntityId) (s : ExchangeSession)
    (hnd : s.items.reduceOption.Nodup) (hne : s.otherCharacter ≠ some c) :
    Safe (w.modifyClient c fun st => { st with exchangeSession := some s }) := by
  refine hs.of_frame (fun c' => World.map_clients_modifyClient w c c' fun _ => rfl)
    (fun _ h => h) (fun c₁ => ?_) fun c₁ s₁ h₁ => ?_
  · by_cases h : c₁ = c
    · subst h
      cases hc : w.clients c₁ with
      | none =>
        rw [stagedItems_of_session_none (by rw [session_modifyClient_self, hc]; rfl)]
        exact List.nodup_nil
      | some _ =>
        rw [stagedItems_of_session (by rw [session_modifyClient_self, hc]; rfl)]
        exact hnd
    · rw [stagedItems_of_session_eq (World.session_modifyClient_ne _ h _)]
      exact hs.nodup c₁
  · by_cases h : c₁ = c
    · subst h
      rw [session_modifyClient_self] at h₁
      obtain ⟨_, -, rfl⟩ := Option.map_eq_some'.mp h₁
      exact hne
    · rw [World.session_modifyClient_ne _ h] at h₁
      exact hs.not_self c₁ s₁ h₁

theorem safe_openExchange {w w' : World} (hs : Safe w) {a b : EntityId}
    (h : openExchange w a b = some w') : Safe w' := by
  unfold openExchange at h
  split_ifs at h with hc
  cases h
  have hab := hc.2.2.1
  exact safe_setSession (safe_setSession hs a ⟨some b, [], false⟩ List.nodup_nil
    (by simpa using Ne.symm hab)) b ⟨some a, [], false⟩ List.nodup_nil (by simpa using hab)

theorem safe_stage {w w' : World} (hs : Safe w) {c : EntityId} {L : List UUID}
    (h : stage w c L = some w') : Safe w' := by
  unfold stage at h
  split at h
  · next s hsc =>
    split_ifs at h with hcond
    cases h
    exact safe_setSession hs c { s with items := L.map some }
      (by rw [reduceOption_map_some]; exact hcond.2.1) (hs.not_self c s hsc)
  · cases h

theorem keeps_cancel {w w' : World} {c : EntityId} (h : cancel w c = some w') : Keeps w w' := by
  unfold cancel at h
  split at h
  · cases h
    split
    · exact (keeps_endExchange ⟨w, []⟩ c 0).trans (keeps_endExchange _ _ 0)
    · exact keeps_endExchange ⟨w, []⟩ c 0
  · cases h

theorem keeps_persist (w : World) : Keeps w (persist w) := by
  unfold persist
  split
  · exact Keeps.refl w
  · exact Keeps.of_clients rfl rfl (fun _ => rfl) fun _ s' h => ⟨s', h, rfl, rfl⟩

/-- **ONE STEP**: every action a run can take keeps the invariant. -/
theorem step_safe (defs : ItemDefinitions) (db : ChangeSet → Bool) {w w' : World} (hs : Safe w)
    {act : Action} (h : step defs db w act = some w') : Safe w' := by
  cases act with
  | drop c itemID =>
    simp only [step] at h
    split_ifs at h
    cases h
    exact hs.of_keeps (keeps_dropItem defs w c itemID)
  | finish c =>
    simp only [step] at h
    split_ifs at h
    split at h
    · next e he =>
      cases h
      exact hs.of_keeps (keeps_tradeFinish db hs he)
    · cases h
  | openExchange a b => exact safe_openExchange hs h
  | stage c L => exact safe_stage hs h
  | cancel c => exact hs.of_keeps (keeps_cancel h)
  | persist =>
    cases h
    exact hs.of_keeps (keeps_persist w)

/-- **EVERY RUN**: the invariant holds in every state a run reaches. -/
theorem run_safe (defs : ItemDefinitions) (db : ChangeSet → Bool) {w : World} (hs : Safe w)
    (as : List Action) {w' : World} (h : run defs db w as = some w') : Safe w' := by
  induction as generalizing w with
  | nil => cases h; exact hs
  | cons act as ih =>
    cases hst : step defs db w act with
    | none => simp [run, hst] at h
    | some w₁ =>
      rw [run, hst, Option.some_bind] at h
      exact ih (step_safe defs db hs hst) h

/-! ## No item in two slots -/

/-- **NO ITEM IN TWO SLOTS**: along every run of drops, trade finishes,
    exchange steps and persistence from a `Safe` world, every connected
    client's inventory stays consistent, and the inventories of two distinct
    clients hold no item twice between them. -/
theorem run_keeps_items_apart (defs : ItemDefinitions) (db : ChangeSet → Bool) {w : World}
    (hs : Safe w) (as : List Action) {w' : World} (h : run defs db w as = some w')
    {c c' : EntityId} (hne : c ≠ c') (hc : (w'.clients c).isSome) (hc' : (w'.clients c').isSome) :
    w'.BoxConsistent (w'.inventoryOf c) ∧
      (w'.held (w'.inventoryOf c) ++ w'.held (w'.inventoryOf c')).Nodup := by
  have hs' := run_safe defs db hs as h
  exact ⟨hs'.consistent c hc, World.nodup_held_append (hs'.consistent c hc) (hs'.consistent c' hc')
    (hs'.distinct c c' hne hc hc')⟩

theorem dropWorld_clients_isSome {c : EntityId} (h : (dropWorld.clients c).isSome) :
    c = 1 ∨ c = 2 := by
  dsimp only [dropWorld] at h
  split at h
  · exact .inl rfl
  · exact .inr rfl
  · cases h

theorem dropWorld_session (c : EntityId) : dropWorld.session c = none := by
  dsimp only [World.session, dropWorld]
  split <;> rfl

/-- `dropWorld` satisfies the invariant: two clients with inventories 10 and
    20, both consistent, and no session. -/
theorem safe_dropWorld : Safe dropWorld where
  distinct c c' hne hc hc' := by
    rcases dropWorld_clients_isSome hc with rfl | rfl <;>
      rcases dropWorld_clients_isSome hc' with rfl | rfl <;> first | exact absurd rfl hne | decide
  consistent c hc := by
    rcases dropWorld_clients_isSome hc with rfl | rfl <;> decide
  nodup c := by rw [stagedItems_of_session_none (dropWorld_session c)]; exact List.nodup_nil
  not_self c s h := by rw [dropWorld_session] at h; cases h

theorem run_keeps_items_apart_staleDrop :
    ∃ w', run discardAll (fun _ => true) dropWorld staleDropRun = some w' ∧
      w'.BoxConsistent (w'.inventoryOf 1) ∧
        (w'.held (w'.inventoryOf 1) ++ w'.held (w'.inventoryOf 2)).Nodup :=
  ⟨_, rfl, run_keeps_items_apart discardAll (fun _ => true) safe_dropWorld staleDropRun rfl
    (by decide) rfl rfl⟩

end ItemSafety
