import ChannelServer.TradeAborts

/-! # Two clients finishing one exchange — every interleaving

    The channel handles a connection's packets one at a time, each handler
    to its end, and a killed or closed connection sends nothing more.  A run
    is a list of `TradeFinish` requests from the two parties of one exchange,
    handled in that order (`finishRun`).  Along every run from an open
    exchange:

    * no request faults;
    * at most one request `settles` the trade, the one that finds the
      counterpart already finished, and it alone may write an inventory;
    * every other request is `Untouched`, and a finish repeated by a side that
      has already finished leaves the world exactly as it was;
    * the exchange stands open, ended for both, or closed for both: the
      settling request ends both sessions with a matching pair of outcomes,
      or closes both connections. -/

namespace TradeRuns

open ChannelObjects ChannelWorld ChannelTrade TradeSteps TradeAborts

/-! ## Runs -/

/-- One request of a run: the world it found, who sent it, what it did. -/
structure Step where
  before : World
  requester : EntityId
  exec : Exec

/-- A request from client `c`, handled when its connection is alive. -/
def finishStep (db : ChangeSet → Bool) (w : World) (c : EntityId) : Except Fault Exec :=
  if w.connection c = some .alive then tradeFinish db w c else .ok ⟨w, []⟩

/-- The requests `cs` in order, each handled on the world the last one left. -/
def finishRun (db : ChangeSet → Bool) : World → List EntityId → Except Fault (List Step)
  | _, [] => .ok []
  | w, c :: cs =>
    match finishStep db w c with
    | .error f => .error f
    | .ok e =>
      match finishRun db e.world cs with
      | .error f => .error f
      | .ok tr => .ok (⟨w, c, e⟩ :: tr)

/-- The request is handled and finds its counterpart already finished. -/
def settles (s : Step) : Bool :=
  s.before.connection s.requester = some .alive &&
    match counterpart s.before s.requester with
    | some c => ((s.before.session c).map (·.finished)).getD false
    | none => false

/-! ## Where an exchange stands -/

/-- An open exchange: each session names the other party, both connections
    alive. -/
structure Opened (w : World) (a b : EntityId) : Prop where
  session_a : ∃ s, w.session a = some s ∧ s.otherCharacter = some b
  session_b : ∃ s, w.session b = some s ∧ s.otherCharacter = some a
  alive_a : w.connection a = some .alive
  alive_b : w.connection b = some .alive

/-- Both connections closed. -/
def ClosedBoth (w : World) (a b : EntityId) : Prop :=
  w.connection a = some .closed ∧ w.connection b = some .closed

/-- Ended for both, or closed for both: no request changes it any more. -/
def Settled (w : World) (a b : EntityId) : Prop :=
  (w.session a = none ∧ w.session b = none) ∨ ClosedBoth w a b

/-- Open, ended for both, or closed for both. -/
def Phase (w : World) (a b : EntityId) : Prop := Opened w a b ∨ Settled w a b

/-- The outcomes `EndExchange` delivers to the two parties of a settled
    trade: traded, phantom, and the two capacity failures. -/
def outcomePairs : List (Int × Int) := [(0, 0), (1, 1), (3, 2), (2, 3)]

/-- How a settling request leaves the exchange: both sessions ended with a
    matching pair of outcomes, or both connections closed. -/
def SettledWell (e : Exec) (a b : EntityId) : Prop :=
  (Ended e a b ∧ ∃ o ∈ outcomePairs, .send a (.tradeEnded o.1) ∈ e.events ∧
      .send b (.tradeEnded o.2) ∈ e.events) ∨
    ClosedBoth e.world a b

variable {w : World} {a b : EntityId}

theorem Opened.symm (h : Opened w a b) : Opened w b a :=
  ⟨h.session_b, h.session_a, h.alive_b, h.alive_a⟩

theorem isSome_clients_of_connection {c : EntityId} {x : Connection}
    (h : w.connection c = some x) : (w.clients c).isSome := by
  cases hc : w.clients c <;> simp_all [World.connection]

theorem Opened.counterpart (h : Opened w a b) : counterpart w a = some b := by
  obtain ⟨s, hs, ho⟩ := h.session_a
  simp [ChannelTrade.counterpart, hs, ho, isSome_clients_of_connection h.alive_b]

theorem SettledWell.symm {e : Exec} (h : SettledWell e a b) : SettledWell e b a := by
  have hswap : ∀ o ∈ outcomePairs, o.swap ∈ outcomePairs := by decide
  rcases h with ⟨⟨ha, hb⟩, o, ho, h1, h2⟩ | ⟨h1, h2⟩
  · exact .inl ⟨⟨hb, ha⟩, o.swap, hswap o ho, h2, h1⟩
  · exact .inr ⟨h2, h1⟩

theorem SettledWell.settled {e : Exec} (h : SettledWell e a b) : Settled e.world a b :=
  h.elim (fun h => .inl h.1) .inr

/-! ## The settling request -/

/-- Ending two open sessions delivers both outcomes. -/
theorem endExchange_pair {e : Exec} {sa sb : ExchangeSession} (hab : a ≠ b)
    (ha : e.world.session a = some sa) (hb : e.world.session b = some sb) (o o' : Int) :
    Ended ((e.endExchange a o).endExchange b o') a b ∧
      .send a (.tradeEnded o) ∈ ((e.endExchange a o).endExchange b o').events ∧
      .send b (.tradeEnded o') ∈ ((e.endExchange a o).endExchange b o').events := by
  rw [Exec.events_endExchange_of_session _ (s := sb)
    (by rw [Exec.session_endExchange_ne _ (Ne.symm hab)]; exact hb),
    Exec.events_endExchange_of_session _ ha]
  exact ⟨ended_endExchange _ _ _ _ _, by simp, by simp⟩

section Settle

variable {e : Exec} {s t : ExchangeSession} (hab : a ≠ b) (ha : e.world.session a = some s)
  (hb : e.world.session b = some t)
include hab ha hb

theorem settledWell_endExchange {o : Int × Int} (ho : o ∈ outcomePairs) :
    SettledWell ((e.endExchange a o.1).endExchange b o.2) a b :=
  have h := endExchange_pair hab ha hb o.1 o.2
  .inl ⟨h.1, o, ho, h.2⟩

theorem settledWell_kill_endExchange {o : Int × Int} (ho : o ∈ outcomePairs) (c : EntityId) :
    SettledWell (((e.endExchange a o.1).endExchange b o.2).kill c) a b :=
  have h := endExchange_pair hab ha hb o.1 o.2
  .inl ⟨h.1.kill c, o, ho, by simpa using h.2.1, by simpa using h.2.2⟩

variable (hca : e.world.connection a = some .alive) (hcb : e.world.connection b = some .alive)
include hca hcb

/-- A commit ends both sessions with the traded outcome, or closes both
    connections. -/
theorem commitTrade_settledWell (db : ChangeSet → Bool) (L L' : List UUID) (F F' : Finset Nat) :
    SettledWell (commitTrade db e a b L L' F F') a b := by
  unfold commitTrade; dsimp only; split
  · exact settledWell_endExchange (o := (0, 0)) hab (by simpa using ha) (by simpa using hb)
      (by decide)
  · exact .inr ⟨by simp [Exec.connection_close, hca, hab], by simp [Exec.connection_close, hcb, Ne.symm hab]⟩

/-- Every way `settleTrade` ends settles the exchange. -/
theorem settleTrade_settledWell (db : ChangeSet → Bool) : SettledWell (settleTrade db e a b) a b := by
  unfold settleTrade; dsimp only
  split
  · exact settledWell_kill_endExchange (o := (1, 1)) hab ha hb (by decide) a
  · split
    · exact settledWell_kill_endExchange (o := (1, 1)) hab ha hb (by decide) b
    · split_ifs
      · exact settledWell_endExchange (o := (3, 2)) hab ha hb (by decide)
      · exact settledWell_endExchange (o := (2, 3)) hab ha hb (by decide)
      · exact commitTrade_settledWell hab ha hb hca hcb db _ _ _ _

end Settle

/-! ## One request -/

/-- Marking a side that has already finished changes nothing. -/
theorem setFinished_of_finished {c : EntityId} (h : (w.session c).any (·.finished)) :
    setFinished w c = w := by
  obtain ⟨st, hst, s, hs, hf⟩ : ∃ st, w.clients c = some st ∧
      ∃ s, st.exchangeSession = some s ∧ s.finished = true := by
    cases hc : w.clients c with
    | none => simp [World.session, hc] at h
    | some st => cases hs : st.exchangeSession <;> simp_all [World.session]
  obtain ⟨clients, items, itemLive, boxes, demons, demonLive, demonBoxes, demonBoxLive, queue⟩ := w
  simp only [setFinished, World.modifyClient, World.mk.injEq, and_true]
  funext c'
  split_ifs with hc'
  · subst hc'
    obtain ⟨o, l, f⟩ := s
    cases st
    simp_all
  · rfl

/-- Marking the requester keeps the exchange open. -/
theorem Opened.setFinished (h : Opened w a b) (hab : a ≠ b) : Opened (setFinished w a) a b := by
  obtain ⟨sA, hsA, hoA⟩ := h.session_a
  obtain ⟨sB, hsB, hoB⟩ := h.session_b
  refine ⟨⟨{ sA with finished := true }, ?_, hoA⟩, ⟨sB, ?_, hoB⟩, by simpa using h.alive_a,
    by simpa using h.alive_b⟩
  · rw [session_setFinished, if_pos rfl, hsA]; rfl
  · rw [session_setFinished, if_neg (Ne.symm hab), hsB]

/-- What one request does to an open exchange. -/
def OpenStep (s : Step) (a b : EntityId) : Prop :=
  (settles s = false ∧ Untouched s.before s.exec ∧ Opened s.exec.world a b ∧
      ((s.before.session s.requester).any (·.finished) → s.exec.world = s.before)) ∨
    (settles s = true ∧ SettledWell s.exec a b)

theorem OpenStep.symm {s : Step} (h : OpenStep s a b) : OpenStep s b a :=
  h.imp (fun h => ⟨h.1, h.2.1, h.2.2.1.symm, h.2.2.2⟩) fun h => ⟨h.1, h.2.symm⟩

/-- A request of `a` in an open exchange waits, leaving the exchange open and
    every object untouched, or it settles the trade. -/
theorem finishStep_opened (db : ChangeSet → Bool) (hab : a ≠ b) (h : Opened w a b) :
    ∃ e, finishStep db w a = .ok e ∧ OpenStep ⟨w, a, e⟩ a b := by
  obtain ⟨sA, hsA, -⟩ := h.session_a
  obtain ⟨sB, hsB, -⟩ := h.session_b
  have hc := h.counterpart
  have hw := markFinished_world_of_finished w a hsB
  simp only [finishStep, if_pos h.alive_a]
  cases hfin : sB.finished
  · refine ⟨_, tradeFinish_of_waiting hc hsB (Ne.symm hab) hfin, .inl ⟨?_,
      Untouched.markFinished a b, hw ▸ h.setFinished hab, fun hf => by
        rw [hw, setFinished_of_finished hf]⟩⟩
    simp [settles, h.alive_a, hc, hsB, hfin]
  · refine ⟨_, tradeFinish_of_finished hc hsB (.inl hfin), .inr ⟨?_,
      settleTrade_settledWell hab (s := { sA with finished := true }) (t := sB) ?_ ?_ ?_ ?_ db⟩⟩
    · simp [settles, h.alive_a, hc, hsB, hfin]
    · rw [hw, session_setFinished, if_pos rfl, hsA]; rfl
    · rw [hw, session_setFinished, if_neg (Ne.symm hab), hsB]
    · simpa [hw] using h.alive_a
    · simpa [hw] using h.alive_b

/-- Once settled, a request of either party is not handled, or finds no
    exchange: the world stays as it is. -/
theorem finishStep_settled (db : ChangeSet → Bool) (h : Settled w a b) {c : EntityId}
    (hc : c = a ∨ c = b) : finishStep db w c = .ok ⟨w, []⟩ ∧ settles ⟨w, c, ⟨w, []⟩⟩ = false := by
  rcases h with ⟨ha, hb⟩ | ⟨ha, hb⟩
  · have hs : w.session c = none := by rcases hc with rfl | rfl <;> assumption
    have hcp : counterpart w c = none := by simp [counterpart, hs]
    refine ⟨?_, by simp [settles, hcp]⟩
    unfold finishStep
    split_ifs
    · rw [tradeFinish_of_counterpart_none hcp]
      simp [Exec.endExchange, hs]
    · rfl
  · have hcl : w.connection c = some .closed := by rcases hc with rfl | rfl <;> assumption
    simp [finishStep, settles, hcl]

/-! ## Whole runs -/

/-- A settled exchange stays as it is for the rest of the run. -/
theorem finishRun_settled (db : ChangeSet → Bool) (h : Settled w a b) (cs : List EntityId)
    (hcs : ∀ c ∈ cs, c = a ∨ c = b) :
    finishRun db w cs = .ok (cs.map fun c => ⟨w, c, ⟨w, []⟩⟩) := by
  induction cs with
  | nil => rfl
  | cons c cs ih =>
    simp only [finishRun, (finishStep_settled db h (hcs c (List.mem_cons_self _ _))).1,
      ih fun c' hc' => hcs c' (List.mem_cons_of_mem _ hc'), List.map_cons]

/-- **TWO-PARTY FINISH.**  From an open exchange between two clients, every
    run of `TradeFinish` requests from the two, in any order and number, ends
    without a fault.  At most one request settles the trade, the one that
    finds the counterpart already finished; every other request writes no
    inventory, no item and no equipment and applies no change set, and a
    finish repeated by a side that has already finished changes nothing.  The
    settling request ends both sessions with a matching pair of outcomes or
    closes both connections, and after every request the exchange is open for
    both, ended for both, or closed for both. -/
theorem finishRun_exchange (db : ChangeSet → Bool) (hab : a ≠ b) (h : Opened w a b)
    (rs : List EntityId) (hrs : ∀ c ∈ rs, c = a ∨ c = b) :
    ∃ tr, finishRun db w rs = .ok tr ∧ tr.countP settles ≤ 1 ∧
      (∀ s ∈ tr, settles s = false → Untouched s.before s.exec) ∧
      (∀ s ∈ tr, settles s = false → (s.before.session s.requester).any (·.finished) →
        s.exec.world = s.before) ∧
      (∀ s ∈ tr, settles s = true → SettledWell s.exec a b) ∧
      ∀ s ∈ tr, Phase s.exec.world a b := by
  induction rs generalizing w with
  | nil => exact ⟨[], rfl, by simp, by simp, by simp, by simp, by simp⟩
  | cons c cs ih =>
    have hcs : ∀ c ∈ cs, c = a ∨ c = b := fun c' hc' => hrs c' (List.mem_cons_of_mem _ hc')
    obtain ⟨e, he, hstep⟩ : ∃ e, finishStep db w c = .ok e ∧ OpenStep ⟨w, c, e⟩ a b := by
      rcases hrs c (List.mem_cons_self _ _) with rfl | rfl
      · exact finishStep_opened db hab h
      · obtain ⟨e, he, hs⟩ := finishStep_opened db hab.symm h.symm
        exact ⟨e, he, hs.symm⟩
    rcases hstep with ⟨hset, hu, hop, hid⟩ | ⟨hset, hsw⟩
    · obtain ⟨tr, htr, h1, h2, h3, h4, h5⟩ := ih hop hcs
      refine ⟨⟨w, c, e⟩ :: tr, by simp [finishRun, he, htr], by simpa [hset] using h1,
        List.forall_mem_cons.mpr ⟨fun _ => hu, h2⟩, List.forall_mem_cons.mpr ⟨fun _ => hid, h3⟩,
        List.forall_mem_cons.mpr ⟨by simp [hset], h4⟩, List.forall_mem_cons.mpr ⟨.inl hop, h5⟩⟩
    · have hst := hsw.settled
      have hsf : ∀ c ∈ cs, settles ⟨e.world, c, ⟨e.world, []⟩⟩ = false := fun c' hc' =>
        (finishStep_settled db hst (hcs c' hc')).2
      refine ⟨⟨w, c, e⟩ :: cs.map fun c => ⟨e.world, c, ⟨e.world, []⟩⟩,
        by simp [finishRun, he, finishRun_settled db hst cs hcs], ?_,
        List.forall_mem_cons.mpr ⟨by simp [hset], by simpa using fun _ _ _ => Untouched.nil⟩,
        List.forall_mem_cons.mpr ⟨by simp [hset], by simp⟩,
        List.forall_mem_cons.mpr ⟨fun _ => hsw, by simpa using fun c' hc' => by simp [hsf c' hc']⟩,
        List.forall_mem_cons.mpr ⟨.inr hst, by simpa using fun _ _ => .inr hst⟩⟩
      rw [List.countP_cons_of_pos _ _ hset, List.countP_eq_zero.mpr (by simpa using hsf)]

/-- `swapWorld` before either side has finished. -/
def openWorld : World where
  clients
    | 1 => some { inventory := 10, exchangeSession := some ⟨some 2, [some 100], false⟩ }
    | 2 => some { inventory := 20, exchangeSession := some ⟨some 1, [some 200], false⟩ }
    | _ => none
  items := TradeCommit.swapWorld.items
  itemLive _ := true
  boxes := TradeCommit.swapWorld.boxes

/-- From `openWorld`, client 1 finishes and waits, finishes again to no
    effect, and client 2 then settles the swap. -/
theorem finishRun_exchange_open :
    ∃ tr, finishRun (fun _ => true) openWorld [1, 1, 2] = .ok tr ∧
      tr.countP settles ≤ 1 ∧
      (∀ s ∈ tr, settles s = false → Untouched s.before s.exec) ∧
      (∀ s ∈ tr, settles s = false → (s.before.session s.requester).any (·.finished) →
        s.exec.world = s.before) ∧
      (∀ s ∈ tr, settles s = true → SettledWell s.exec 1 2) ∧
      ∀ s ∈ tr, Phase s.exec.world 1 2 :=
  finishRun_exchange (w := openWorld) (a := 1) (b := 2) (fun _ => true) (by decide)
    ⟨⟨_, rfl, rfl⟩, ⟨_, rfl, rfl⟩, rfl, rfl⟩ [1, 1, 2] (by decide)

end TradeRuns
