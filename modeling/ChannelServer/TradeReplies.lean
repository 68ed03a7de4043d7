import ChannelServer.TradeCommit

/-! # What the commit of `TradeFinish` tells the database and the clients

    Lines 179–246 build three things beside the moved items: the change set
    handed to `ProcessChangeSet`, the slot lists of the two `SendItemBoxData`
    calls, and the replies.  With both sides held:

    * the change set updates the two inventories and exactly the staged items,
      and inserts or deletes nothing (`commitChanges_eq`);
    * the whole event trace of the handler is `commitEvents`: the item boxes
      and the traded outcome go out only when `ProcessChangeSet` answers
      true, and both connections are closed otherwise;
    * each client's slot list is, as a set, the slots of its inventory whose
      entry the commit changed (`mem_replySlots_iff`).

    The slot list is built from the staged items' recorded slots
    (`updatedSlots`), so a staged item that no longer sits in its slot puts an
    unchanged slot into the list. -/

namespace TradeReplies

open ChannelObjects ChannelWorld ChannelTrade TradePlacement TradeSteps TradeCommit

/-- The slots `SendItemBoxData` lists for `a`'s inventory: the recorded slots
    of `a`'s items (`updatedSlots`), then the slots `b`'s items fill. -/
def replySlots (w : World) (a b : EntityId) : List Nat :=
  (stagedItems w a).map (fun x => u16 (w.items x).boxSlot) ++ (transfers w b a).map Prod.fst

/-- The change set of a commit whose free sets are the open slots. -/
def commitChanges (w : World) (a b : EntityId) : ChangeSet :=
  tradeChanges (w.inventoryOf a) (w.inventoryOf b) (transfers w b a) (transfers w a b)

/-- The events of a `TradeFinish` from `a` that commits, when `ProcessChangeSet`
    answers `ok`. -/
def commitEvents (w : World) (a b : EntityId) (ok : Bool) : List Event :=
  [.send b .tradeFinished, .send a (.tradeFinish 0), .processChangeSet (commitChanges w a b) ok] ++
    if ok then [.send a (.itemBoxData (w.inventoryOf a) (replySlots w a b)),
      .send b (.itemBoxData (w.inventoryOf b) (replySlots w b a)),
      .send a (.tradeEnded 0), .send b (.tradeEnded 0)] else []

variable {w : World} {a b : EntityId}

@[simp] theorem replySlots_setFinished (c : EntityId) :
    replySlots (setFinished w c) a b = replySlots w a b := by
  simp [replySlots]

@[simp] theorem commitChanges_setFinished (c : EntityId) :
    commitChanges (setFinished w c) a b = commitChanges w a b := by
  simp [commitChanges]

/-! ## The change set -/

/-- **THE CHANGE SET** updates `a`'s inventory and the items `b` gives, then
    `b`'s inventory and the items `a` gives: no insert, no delete. -/
theorem commitChanges_eq
    (hA : (stagedItems w a).length ≤ (openSlots w (w.inventoryOf b) (stagedItems w b)).card)
    (hB : (stagedItems w b).length ≤ (openSlots w (w.inventoryOf a) (stagedItems w a)).card) :
    (commitChanges w a b).changes =
      .update (.itemBox (w.inventoryOf a)) :: (stagedItems w b).map (.update ∘ .item) ++
        .update (.itemBox (w.inventoryOf b)) :: (stagedItems w a).map (.update ∘ .item) := by
  rw [commitChanges, tradeChanges, ← transfers_items_eq hA, ← transfers_items_eq hB]
  simp [Function.comp_def]

/-! ## The slot lists -/

/-- A held item's recorded slot reads the same as `uint16_t` and as `size_t`. -/
theorem u16_boxSlot_of_held {box x : UUID} (hc : w.BoxConsistent box) (hx : x ∈ w.held box) :
    u16 (w.items x).boxSlot = sizeT (w.items x).boxSlot := by
  obtain ⟨i, hi⟩ := World.mem_held.mp hx
  have hlt := World.lt_of_slot_eq_some hi
  unfold ItemsCount at hlt
  rw [(hc.of_slot hi).2, u16_natCast (by omega), sizeT_natCast (by omega)]

section Sides

variable (h : SidesHeld w a b) {i : Nat}
include h

/-- Every slot listed for `a` changed. -/
theorem slot_moved_ne_of_mem_replySlots (hi : i ∈ replySlots w a b) :
    (movedWorld w a b).slot (w.inventoryOf a) i ≠ w.slot (w.inventoryOf a) i := by
  rcases List.mem_append.mp hi with hm | ht
  · obtain ⟨x, hx, rfl⟩ := List.mem_map.mp hm
    obtain ⟨hs, hlt, -⟩ := slot_recorded h.consistent_a (h.held_a x hx)
    rw [u16_boxSlot_of_held h.consistent_a (h.held_a x hx), hs]
    by_cases ht : sizeT (w.items x).boxSlot ∈ (transfers w b a).map Prod.fst
    · obtain ⟨p, hp, hpi⟩ := List.mem_map.mp ht
      rw [← hpi, slot_moved_of_transfer' h hp]
      exact fun heq => h.not_mem_of_mem hx (Option.some.inj heq ▸ (mem_transfers hp).1)
    · rw [slot_moved_of_not_transfer' h ht, if_pos ⟨⟨x, hx, rfl⟩, hlt⟩]
      exact Option.noConfusion
  · obtain ⟨p, hp, rfl⟩ := List.mem_map.mp ht
    rw [slot_moved_of_transfer' h hp]
    exact fun heq => h.distinct
      ((h.consistent_a.of_slot heq.symm).1.symm.trans (h.symm.box_of_mem (mem_transfers hp).1))

/-- Every slot listed for `b` changed. -/
theorem slot_moved_ne_of_mem_replySlots' (hi : i ∈ replySlots w b a) :
    (movedWorld w a b).slot (w.inventoryOf b) i ≠ w.slot (w.inventoryOf b) i := by
  rcases List.mem_append.mp hi with hm | ht
  · obtain ⟨x, hx, rfl⟩ := List.mem_map.mp hm
    obtain ⟨hs, hlt, -⟩ := slot_recorded h.consistent_b (h.held_b x hx)
    rw [u16_boxSlot_of_held h.consistent_b (h.held_b x hx), hs]
    by_cases ht : sizeT (w.items x).boxSlot ∈ (transfers w a b).map Prod.fst
    · obtain ⟨p, hp, hpi⟩ := List.mem_map.mp ht
      rw [← hpi, slot_moved_of_transfer hp]
      exact fun heq => h.symm.not_mem_of_mem hx (Option.some.inj heq ▸ (mem_transfers hp).1)
    · rw [slot_moved_of_not_transfer h ht, if_pos ⟨⟨x, hx, rfl⟩, hlt⟩]
      exact Option.noConfusion
  · obtain ⟨p, hp, rfl⟩ := List.mem_map.mp ht
    rw [slot_moved_of_transfer hp]
    exact fun heq => h.distinct
      ((h.box_of_mem (mem_transfers hp).1).symm.trans (h.consistent_b.of_slot heq.symm).1)

/-- Every slot of `a`'s inventory that changed is listed for `a`. -/
theorem mem_replySlots_of_slot_moved_ne
    (hne : (movedWorld w a b).slot (w.inventoryOf a) i ≠ w.slot (w.inventoryOf a) i) :
    i ∈ replySlots w a b := by
  by_cases ht : i ∈ (transfers w b a).map Prod.fst
  · exact List.mem_append_right _ ht
  · rw [slot_moved_of_not_transfer' h ht] at hne
    split_ifs at hne with hc
    · obtain ⟨⟨y, hy, rfl⟩, -⟩ := hc
      exact List.mem_append_left _
        (List.mem_map.mpr ⟨y, hy, u16_boxSlot_of_held h.consistent_a (h.held_a y hy)⟩)
    · exact absurd rfl hne

/-- Every slot of `b`'s inventory that changed is listed for `b`. -/
theorem mem_replySlots_of_slot_moved_ne'
    (hne : (movedWorld w a b).slot (w.inventoryOf b) i ≠ w.slot (w.inventoryOf b) i) :
    i ∈ replySlots w b a := by
  by_cases ht : i ∈ (transfers w a b).map Prod.fst
  · exact List.mem_append_right _ ht
  · rw [slot_moved_of_not_transfer h ht] at hne
    split_ifs at hne with hc
    · obtain ⟨⟨y, hy, rfl⟩, -⟩ := hc
      exact List.mem_append_left _
        (List.mem_map.mpr ⟨y, hy, u16_boxSlot_of_held h.consistent_b (h.held_b y hy)⟩)
    · exact absurd rfl hne

end Sides

/-! ## The trace -/

variable {db : ChangeSet → Bool}

/-- The commit's events, from the two open sessions. -/
theorem commitTrade_marked_events {sA sB : ExchangeSession} (hsA : w.session a = some sA)
    (hsB : w.session b = some sB) (hne : b ≠ a) :
    (commitTrade db (markFinished ⟨w, []⟩ a b) a b (stagedItems w a) (stagedItems w b)
        (openSlots w (w.inventoryOf a) (stagedItems w a))
        (openSlots w (w.inventoryOf b) (stagedItems w b))).events =
      commitEvents w a b (db (commitChanges w a b)) := by
  have hw := markFinished_world_of_finished w a hsB
  unfold commitTrade
  simp only [hw, setFinished_items, inventoryOf_setFinished, placeItems_range]
  split
  · rw [Exec.events_endExchange_of_session (s := sB) _
      (by simp [Exec.session_endExchange_ne _ hne, session_setFinished, hne, hsB]),
      Exec.events_endExchange_of_session (s := { sA with finished := true }) _
        (by simp [session_setFinished, hsA])]
    simp [commitEvents, markFinished, hsB, *, commitChanges, replySlots, transfers]
  · simp [commitEvents, markFinished, hsB, *, commitChanges, replySlots, transfers]

/-- The connections after the commit: both closed when `ProcessChangeSet`
    fails, both left as they were when it succeeds. -/
theorem commitTrade_marked_connection {sB : ExchangeSession} (hsB : w.session b = some sB)
    (c : EntityId) :
    (commitTrade db (markFinished ⟨w, []⟩ a b) a b (stagedItems w a) (stagedItems w b)
        (openSlots w (w.inventoryOf a) (stagedItems w a))
        (openSlots w (w.inventoryOf b) (stagedItems w b))).world.connection c =
      if db (commitChanges w a b) then w.connection c
      else if c = b then (w.connection b).map fun _ => .closed
      else if c = a then (w.connection a).map fun _ => .closed else w.connection c := by
  have hw := markFinished_world_of_finished w a hsB
  unfold commitTrade
  simp only [hw, setFinished_items, inventoryOf_setFinished, placeItems_range]
  split
  · simp_all [commitChanges, transfers]
  · simp_all [Exec.connection_close, commitChanges, transfers]
    split_ifs <;> simp_all [Option.map_map, Function.comp_def]

/-! ## The commit, as the database and the clients see it -/

/-- **COMMIT REPLIES.**  With the hypotheses of the commit law and room on both
    sides, `TradeFinish` from `a` hands `ProcessChangeSet` the updates of the
    two inventories and of exactly the staged items; the item boxes and the
    traded outcome reach the clients only when it answers true, and both
    connections are closed otherwise; and each client's slot list holds
    exactly the slots of its inventory that changed. -/
theorem tradeFinish_commit_replies (db : ChangeSet → Bool) {sA sB : ExchangeSession}
    (hsA : w.session a = some sA) (hother : sA.otherCharacter = some b)
    (hconn : (w.clients b).isSome) (hsB : w.session b = some sB) (hfin : sB.finished = true)
    (h : SidesHeld w a b)
    (hcapA : (stagedItems w a).length ≤
      (getFreeSlots (w.boxes (w.inventoryOf b))).card + (stagedItems w b).length)
    (hcapB : (stagedItems w b).length ≤
      (getFreeSlots (w.boxes (w.inventoryOf a))).card + (stagedItems w a).length) :
    ∃ e, tradeFinish db w a = .ok e ∧
      e.events = commitEvents w a b (db (commitChanges w a b)) ∧
      (commitChanges w a b).changes =
        .update (.itemBox (w.inventoryOf a)) :: (stagedItems w b).map (.update ∘ .item) ++
          .update (.itemBox (w.inventoryOf b)) :: (stagedItems w a).map (.update ∘ .item) ∧
      (∀ i, i ∈ replySlots w a b ↔ e.world.slot (w.inventoryOf a) i ≠ w.slot (w.inventoryOf a) i) ∧
      (∀ i, i ∈ replySlots w b a ↔ e.world.slot (w.inventoryOf b) i ≠ w.slot (w.inventoryOf b) i) ∧
      ∀ c, e.world.connection c =
        if db (commitChanges w a b) ∨ (c ≠ a ∧ c ≠ b) then w.connection c else some .closed := by
  have hc : counterpart w a = some b := by simp [counterpart, hsA, hother, hconn]
  have hA : (stagedItems w a).length ≤ (openSlots w (w.inventoryOf b) (stagedItems w b)).card := by
    rwa [card_openSlots h.symm]
  have hB : (stagedItems w b).length ≤ (openSlots w (w.inventoryOf a) (stagedItems w a)).card := by
    rwa [card_openSlots h]
  have h₁ := h.of_setFinished a
  refine ⟨_, tradeFinish_of_finished hc hsB (.inl hfin), ?_⟩
  rw [settleTrade_of_held hsB h, if_neg (not_lt.mpr hA), if_neg (not_lt.mpr hB)]
  obtain ⟨hb, -⟩ := commitTrade_marked_objects db (a := a) hsB
  have hslot : ∀ box i, (commitTrade db (markFinished ⟨w, []⟩ a b) a b (stagedItems w a)
      (stagedItems w b) (openSlots w (w.inventoryOf a) (stagedItems w a))
      (openSlots w (w.inventoryOf b) (stagedItems w b))).world.slot box i =
        (movedWorld (setFinished w a) a b).slot box i := fun _ _ => by simp only [World.slot, hb]
  refine ⟨commitTrade_marked_events hsA hsB fun hba => h.distinct (hba ▸ rfl),
    commitChanges_eq hA hB, fun i => ?_, fun i => ?_, fun c => ?_⟩
  · rw [hslot]
    exact ⟨fun hi => by simpa using slot_moved_ne_of_mem_replySlots h₁ (by simpa using hi),
      fun hne => by simpa using mem_replySlots_of_slot_moved_ne h₁ (by simpa using hne)⟩
  · rw [hslot]
    exact ⟨fun hi => by simpa using slot_moved_ne_of_mem_replySlots' h₁ (by simpa using hi),
      fun hne => by simpa using mem_replySlots_of_slot_moved_ne' h₁ (by simpa using hne)⟩
  · have hclosed : ∀ c', (w.clients c').isSome →
        (w.connection c').map (fun _ => Connection.closed) = some .closed := fun c' hc' => by
      cases hcl : w.clients c' <;> simp_all [World.connection]
    have hca : (w.clients a).isSome := by
      cases hcl : w.clients a <;> simp_all [World.session]
    rw [commitTrade_marked_connection hsB]
    cases hok : db (commitChanges w a b)
    · by_cases hcb : c = b
      · subst hcb
        simp [hclosed c hconn]
      · by_cases hca' : c = a
        · subst hca'
          simp [hcb, hclosed c hca]
        · simp [hcb, hca']
    · simp

/-- `swapWorld` commits: the replies of the one-for-one swap. -/
theorem tradeFinish_commit_replies_swap :
    ∃ e, tradeFinish (fun _ => true) swapWorld 1 = .ok e ∧
      e.events = commitEvents swapWorld 1 2 true ∧
      (commitChanges swapWorld 1 2).changes =
        .update (.itemBox (swapWorld.inventoryOf 1)) ::
            (stagedItems swapWorld 2).map (.update ∘ .item) ++
          .update (.itemBox (swapWorld.inventoryOf 2)) ::
            (stagedItems swapWorld 1).map (.update ∘ .item) ∧
      (∀ i, i ∈ replySlots swapWorld 1 2 ↔
        e.world.slot (swapWorld.inventoryOf 1) i ≠ swapWorld.slot (swapWorld.inventoryOf 1) i) ∧
      (∀ i, i ∈ replySlots swapWorld 2 1 ↔
        e.world.slot (swapWorld.inventoryOf 2) i ≠ swapWorld.slot (swapWorld.inventoryOf 2) i) ∧
      ∀ c, e.world.connection c =
        if (fun _ => true) (commitChanges swapWorld 1 2) ∨ (c ≠ 1 ∧ c ≠ 2) then
          swapWorld.connection c else some .closed :=
  tradeFinish_commit_replies (fun _ => true) rfl rfl rfl rfl rfl
    ⟨by decide, by decide, by decide, by decide, by decide, by decide, by decide⟩
    (by decide) (by decide)

/-- From `staleWorld` the trade lists slot 5 of inventory 10 to client 1, the
    recorded slot of the dropped item 400: a slot the commit leaves empty, as
    it was. -/
theorem tradeFinish_reports_unchanged_slot :
    ∃ e, tradeFinish (fun _ => true) staleWorld 1 = .ok e ∧
      .send 1 (.itemBoxData 10 [0, 5]) ∈ e.events ∧ e.world.slot 10 5 = staleWorld.slot 10 5 :=
  ⟨_, rfl, by decide⟩

end TradeReplies
