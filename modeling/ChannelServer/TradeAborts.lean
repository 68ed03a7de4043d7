import ChannelServer.TradeCommit

/-! # The paths of `TradeFinish` that stop short of the commit

    Every path of the handler other than the commit writes no inventory slot,
    no item and no equipment, and applies no change set (`Untouched`).  Each
    path is taken from its condition on the world the request finds:

    * no counterpart client: only the requester's exchange ends;
    * a counterpart still deciding: the requester is marked finished and the
      counterpart's session is left as it was;
    * a phantom item on either side: both exchanges end, and the connection of
      the side whose item failed the check is killed, every other left as it
      was;
    * too few slots on either side: both exchanges end, every connection open.

    One path is missing from that list: a counterpart client whose session is
    gone makes the read at line 104 go through a null pointer, a `Fault` and
    not a reply. -/

namespace TradeAborts

open ChannelObjects ChannelWorld ChannelTrade TradeSteps

/-- What a path that stops short of the commit leaves alone: every box, the
    fields of every item and the equipment of every client; and it hands no
    change set to `ProcessChangeSet`. -/
structure Untouched (w : World) (e : Exec) : Prop where
  boxes : e.world.boxes = w.boxes
  items : e.world.items = w.items
  equipment : ∀ c, e.world.equipmentOf c = w.equipmentOf c
  unprocessed : e.processed = false

/-- Both parties' exchanges have ended. -/
def Ended (e : Exec) (a b : EntityId) : Prop :=
  e.world.session a = none ∧ e.world.session b = none

namespace Untouched

variable {w : World} {e : Exec}

theorem nil : Untouched w ⟨w, []⟩ := ⟨rfl, rfl, fun _ => rfl, rfl⟩

theorem endExchange (h : Untouched w e) (c : EntityId) (o : Int) :
    Untouched w (e.endExchange c o) :=
  ⟨by simp [h.boxes], by simp [h.items], fun c' => by simp [h.equipment],
    by simp [h.unprocessed]⟩

theorem kill (h : Untouched w e) (c : EntityId) : Untouched w (e.kill c) :=
  ⟨by simp [h.boxes], by simp [h.items], fun c' => by simp [h.equipment], by simp [h.unprocessed]⟩

theorem markFinished (a b : EntityId) : Untouched w (markFinished ⟨w, []⟩ a b) := by
  refine ⟨?_, ?_, fun c => ?_, by simp⟩ <;> rw [markFinished_world] <;> split_ifs <;> simp

end Untouched

/-- Both exchanges end on a phantom or capacity abort. -/
theorem ended_endExchange (e : Exec) (a b : EntityId) (o o' : Int) :
    Ended ((e.endExchange a o).endExchange b o') a b := by
  refine ⟨?_, Exec.session_endExchange_self _ _ _⟩
  by_cases h : a = b
  · subst h; exact Exec.session_endExchange_self _ _ _
  · rw [Exec.session_endExchange_ne _ h, Exec.session_endExchange_self]

theorem Ended.kill {e : Exec} {a b : EntityId} (h : Ended e a b) (c : EntityId) :
    Ended (e.kill c) a b := by
  simpa [Ended] using h

section Paths

variable (db : ChangeSet → Bool) (w : World) (a : EntityId)

/-- **ABORT PATHS.**  On every path that does not reach the commit, from every
    state: no inventory slot, no item, no equipment is written and no change
    set applied.  A counterpart still deciding keeps its session as it was;
    the phantom and capacity paths end both exchanges; a phantom path kills
    exactly the connection of the side whose staged item failed the check and
    leaves every other connection as it was. -/
theorem tradeFinish_abort_paths :
    (counterpart w a = none → ∃ e, tradeFinish db w a = .ok e ∧ Untouched w e) ∧
    ∀ b s, counterpart w a = some b → w.session b = some s →
      (b ≠ a → s.finished = false →
        ∃ e, tradeFinish db w a = .ok e ∧ Untouched w e ∧ e.world.session b = w.session b) ∧
      (s.finished = true ∨ b = a → ¬PhantomFree w a →
        ∃ e, tradeFinish db w a = .ok e ∧ Untouched w e ∧ Ended e a b ∧
          e.world.connection a = (w.connection a).map (fun _ => .killed) ∧
          ∀ c, c ≠ a → e.world.connection c = w.connection c) ∧
      (s.finished = true ∨ b = a → PhantomFree w a → ¬PhantomFree w b →
        ∃ e, tradeFinish db w a = .ok e ∧ Untouched w e ∧ Ended e a b ∧
          e.world.connection b = (w.connection b).map (fun _ => .killed) ∧
          ∀ c, c ≠ b → e.world.connection c = w.connection c) ∧
      (s.finished = true ∨ b = a → PhantomFree w a → PhantomFree w b →
        (loopFreeSlots w (w.inventoryOf b) (stagedItems w b)).card < (stagedItems w a).length ∨
          (loopFreeSlots w (w.inventoryOf a) (stagedItems w a)).card <
            (stagedItems w b).length →
        ∃ e, tradeFinish db w a = .ok e ∧ Untouched w e ∧ Ended e a b ∧
          ∀ c, e.world.connection c = w.connection c) := by
  refine ⟨fun h => ⟨_, tradeFinish_of_counterpart_none h, Untouched.nil.endExchange _ _⟩,
    fun b s hc hb => ⟨fun hne hs => ⟨_, tradeFinish_of_waiting hc hb hne hs,
      Untouched.markFinished a b, ?_⟩, fun hs hpa => ?_, fun hs hpa hpb => ?_,
      fun hs hpa hpb hcap => ?_⟩⟩
  · simp [markFinished_world, hb, session_setFinished, hne]
  all_goals
    have hw := markFinished_world_of_finished w a hb
    refine ⟨_, tradeFinish_of_finished hc hb hs, ?_⟩
  · rw [settleTrade_of_phantom_a _ (by rwa [hw, phantomFree_setFinished])]
    refine ⟨((Untouched.markFinished a b).endExchange _ _ |>.endExchange _ _).kill _,
      (ended_endExchange _ _ _ _ _).kill _, by simp [Exec.connection_kill, hw], fun c hne => ?_⟩
    simp [Exec.connection_kill, hw, hne]
  · rw [settleTrade_of_phantom_b _ (by rwa [hw, phantomFree_setFinished])
      (by rwa [hw, phantomFree_setFinished])]
    refine ⟨((Untouched.markFinished a b).endExchange _ _ |>.endExchange _ _).kill _,
      (ended_endExchange _ _ _ _ _).kill _, by simp [Exec.connection_kill, hw], fun c hne => ?_⟩
    simp [Exec.connection_kill, hw, hne]
  · have hpa' : PhantomFree (markFinished ⟨w, []⟩ a b).world a := by rwa [hw, phantomFree_setFinished]
    have hpb' : PhantomFree (markFinished ⟨w, []⟩ a b).world b := by rwa [hw, phantomFree_setFinished]
    have hend : ∀ o o' : Int, Untouched w (((markFinished ⟨w, []⟩ a b).endExchange a o).endExchange b o') ∧
        Ended (((markFinished ⟨w, []⟩ a b).endExchange a o).endExchange b o') a b ∧
        ∀ c, (((markFinished ⟨w, []⟩ a b).endExchange a o).endExchange b o').world.connection c =
          w.connection c := fun o o' =>
      ⟨(Untouched.markFinished a b).endExchange _ _ |>.endExchange _ _,
        ended_endExchange _ _ _ _ _, fun c => by simp [hw]⟩
    by_cases hcapA : (stagedItems w a).length ≤
        (loopFreeSlots w (w.inventoryOf b) (stagedItems w b)).card
    · rw [settleTrade_of_capacity_b _ hpa' hpb' (by simpa [hw] using hcapA)
        (by simpa [hw] using hcap.resolve_left (not_lt.mpr hcapA))]
      exact hend 2 3
    · rw [settleTrade_of_capacity_a _ hpa' hpb' (by simpa [hw] using Nat.lt_of_not_le hcapA)]
      exact hend 3 2

/-- `swapWorld` with both sides finished, and item 100's back-reference
    naming box 30: the item client 1 stages is not in its inventory. -/
def phantomWorld : World where
  clients
    | 1 => some { inventory := 10, exchangeSession := some ⟨some 2, [some 100], true⟩ }
    | 2 => some { inventory := 20, exchangeSession := some ⟨some 1, [some 200], true⟩ }
    | _ => none
  items x := if x = 100 then ⟨7, 30, 0⟩ else TradeCommit.swapWorld.items x
  itemLive _ := true
  boxes := TradeCommit.swapWorld.boxes

/-- Client 1 stages item 100 for client 2, who has finished, stages nothing
    and has every slot of inventory 20 taken. -/
def fullWorld : World where
  clients
    | 1 => some { inventory := 10, exchangeSession := some ⟨some 2, [some 100], false⟩ }
    | 2 => some { inventory := 20, exchangeSession := some ⟨some 1, [], true⟩ }
    | _ => none
  items := TradeCommit.swapWorld.items
  itemLive _ := true
  boxes u := if u = 20 then ⟨List.replicate ItemsCount (some 200), List.length_replicate _ _⟩
    else TradeCommit.swapWorld.boxes u

/-- Each path taken: client 3 of `swapWorld` has no exchange; client 2 of
    `swapWorld` finishes while client 1 is still deciding; in `phantomWorld`
    client 1's finish meets its own phantom item and client 2's finish meets
    its counterpart's; in `fullWorld` client 1's item finds no free slot. -/
theorem tradeFinish_abort_paths_each :
    (∃ e, tradeFinish (fun _ => true) TradeCommit.swapWorld 3 = .ok e ∧
      Untouched TradeCommit.swapWorld e) ∧
    (∃ e, tradeFinish (fun _ => true) TradeCommit.swapWorld 2 = .ok e ∧
      Untouched TradeCommit.swapWorld e ∧
      e.world.session 1 = TradeCommit.swapWorld.session 1) ∧
    (∃ e, tradeFinish (fun _ => true) phantomWorld 1 = .ok e ∧ Untouched phantomWorld e ∧
      Ended e 1 2 ∧ e.world.connection 1 = (phantomWorld.connection 1).map (fun _ => .killed) ∧
      ∀ c, c ≠ 1 → e.world.connection c = phantomWorld.connection c) ∧
    (∃ e, tradeFinish (fun _ => true) phantomWorld 2 = .ok e ∧ Untouched phantomWorld e ∧
      Ended e 2 1 ∧ e.world.connection 1 = (phantomWorld.connection 1).map (fun _ => .killed) ∧
      ∀ c, c ≠ 1 → e.world.connection c = phantomWorld.connection c) ∧
    (∃ e, tradeFinish (fun _ => true) fullWorld 1 = .ok e ∧ Untouched fullWorld e ∧
      Ended e 1 2 ∧ ∀ c, e.world.connection c = fullWorld.connection c) :=
  ⟨(tradeFinish_abort_paths _ TradeCommit.swapWorld 3).1 rfl,
    ((tradeFinish_abort_paths _ TradeCommit.swapWorld 2).2 1 _ rfl rfl).1 (by decide) rfl,
    ((tradeFinish_abort_paths _ phantomWorld 1).2 2 _ rfl rfl).2.1 (.inl rfl) (by decide),
    ((tradeFinish_abort_paths _ phantomWorld 2).2 1 _ rfl rfl).2.2.1 (.inl rfl) (by decide)
      (by decide),
    ((tradeFinish_abort_paths _ fullWorld 1).2 2 _ rfl rfl).2.2.2 (.inl rfl) (by decide)
      (by decide) (.inl (by decide))⟩

end Paths

/-! ## The torn-down counterpart -/

/-- **NULL COUNTERPART SESSION.**  When `a`'s session names a connected client
    `b` that has no exchange session, the handler replies `-1` to `a` and then
    reads `b`'s `Finished` flag through the null `otherSession` (line 104): a
    fault, from every such state. -/
theorem tradeFinish_null_other_session (db : ChangeSet → Bool) {w : World} {a b : EntityId}
    {sA : ExchangeSession} (hsA : w.session a = some sA) (hother : sA.otherCharacter = some b)
    (hconn : (w.clients b).isSome) (hsB : w.session b = none) :
    tradeFinish db w a = .error .nullOtherSession :=
  tradeFinish_of_session_none (by simp [counterpart, hsA, hother, hconn]) hsB

/-- `swapWorld` once client 2's exchange has ended on its own side. -/
def tornWorld : World := ((⟨TradeCommit.swapWorld, []⟩ : Exec).endExchange 2 0).world

theorem tradeFinish_null_other_session_torn :
    tradeFinish (fun _ => true) tornWorld 1 = .error .nullOtherSession :=
  tradeFinish_null_other_session _ rfl rfl rfl rfl

end TradeAborts
