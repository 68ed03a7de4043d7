import ChannelServer.Serve

/-! # Exchange pairing — when the null session of `TradeFinish` is reachable

    `TradeFinish` reads the counterpart's session through a pointer it never
    checks (line 104), so a counterpart client without a session faults
    (`TradeAborts.tradeFinish_null_other_session`).  This file shows which
    states that needs.

    * `Paired w`: every exchange session names a party whose own session
      names it back.
    * Every step of a run keeps it: opening pairs two clients outside any
      exchange, staging and marking keep every session's party, and every
      path that ends a session ends its party's too, or ends a session that
      names nobody (`step_paired`).
    * So from a paired world, one with no session at all for instance, no
      run of drops, trade finishes, exchange steps and persistence reaches a
      state where `TradeFinish` faults (`run_never_faults`): the fault needs
      a session torn down alone, by code outside these handlers.
    * The same holds for the channel reading raw frames (`serve_never_faults`):
      whatever bytes the clients send, no frame makes the server fault, given
      that the character manager's reunion leaves every session's party
      alone (`ReunionPairs`). -/

namespace ExchangePairing

open ChannelObjects ChannelWorld ChannelTrade TradeSteps ItemDrop ItemRuns

/-- The party client `c`'s exchange session names, if it has one. -/
def partner (w : World) (c : EntityId) : Option EntityId :=
  (w.session c).bind (·.otherCharacter)

/-- Every exchange session names a party whose own session names it back. -/
def Paired (w : World) : Prop :=
  ∀ a b, partner w a = some b → partner w b = some a

/-! ## How the updates move the parties -/

theorem partner_eq_of_session {w w' : World} (h : ∀ c, w'.session c = w.session c) :
    partner w' = partner w := by
  funext c
  simp only [partner, h]

/-- Giving a connected client a session sets its party to the one the session names. -/
theorem partner_setSession {w : World} {c : EntityId} (s : ExchangeSession) (c' : EntityId)
    (hc : (w.clients c).isSome) :
    partner (w.modifyClient c fun st => { st with exchangeSession := some s }) c' =
      if c' = c then s.otherCharacter else partner w c' := by
  split_ifs with h
  · obtain ⟨st, hst⟩ := Option.isSome_iff_exists.mp hc
    simp [h, partner, ItemSafety.session_modifyClient_self, hst]
  · simp only [partner, World.session_modifyClient_ne _ h]

theorem partner_setFinished (w : World) (c : EntityId) : partner (setFinished w c) = partner w := by
  funext c'
  simp only [partner, session_setFinished]
  split_ifs with h
  · subst h
    cases w.session c' <;> rfl
  · rfl

theorem partner_markFinished (e : Exec) (a b : EntityId) :
    partner (markFinished e a b).world = partner e.world := by
  rw [markFinished_world]
  split_ifs
  · exact partner_setFinished _ _
  · rfl

theorem partner_endExchange (e : Exec) (c : EntityId) (o : Int) (c' : EntityId) :
    partner (e.endExchange c o).world c' = if c' = c then none else partner e.world c' := by
  split_ifs with h
  · rw [h, partner, Exec.session_endExchange_self]; rfl
  · rw [partner, Exec.session_endExchange_ne _ h]; rfl

/-- Ending the exchanges of `a` and then `b`. -/
theorem partner_endBoth (e : Exec) (a b : EntityId) (o o' : Int) (c : EntityId) :
    partner ((e.endExchange a o).endExchange b o').world c =
      if c ∈ [a, b] then none else partner e.world c := by
  rw [partner_endExchange, partner_endExchange]
  by_cases hb : c = b <;> by_cases ha : c = a <;> simp [ha, hb]

theorem partner_kill (e : Exec) (c : EntityId) : partner (e.kill c).world = partner e.world :=
  partner_eq_of_session (Exec.session_kill e c)

theorem partner_close (e : Exec) (c : EntityId) : partner (e.close c).world = partner e.world :=
  partner_eq_of_session fun _ => World.session_modifyClient _ _ _ fun _ => rfl

/-! ## The invariant over one step -/

/-- A step that ends the sessions of the clients `ended`, a set closed under
    `partner`, and leaves every other party alone, keeps the pairing. -/
theorem Paired.of_ended {w w' : World} (hp : Paired w) (ended : List EntityId)
    (hclosed : ∀ c d, c ∈ ended → partner w c = some d → d ∈ ended)
    (h : ∀ c, partner w' c = if c ∈ ended then none else partner w c) : Paired w' := by
  intro a b hab
  rw [h] at hab ⊢
  split_ifs at hab with ha
  rw [if_neg fun hb => ha (hclosed b a hb (hp a b hab))]
  exact hp a b hab

theorem Paired.of_partner {w w' : World} (hp : Paired w) (h : partner w' = partner w) :
    Paired w' :=
  hp.of_ended [] (fun _ _ hc => absurd hc (List.not_mem_nil _)) fun c => by simp [h]

/-- A pair ended together is closed under `partner`. -/
theorem closed_pair {w : World} (hp : Paired w) {a b : EntityId} (hab : partner w a = some b)
    (c d : EntityId) (hc : c ∈ [a, b]) (hcd : partner w c = some d) : d ∈ [a, b] := by
  rcases List.mem_pair.mp hc with rfl | rfl
  · rw [hab] at hcd
    cases hcd
    simp
  · rw [hp a c hab] at hcd
    cases hcd
    simp

/-- Every path of `settleTrade` ends both exchanges, but the failed commit,
    which only closes the two connections. -/
theorem settleTrade_partner (db : ChangeSet → Bool) (e : Exec) (a b : EntityId) :
    partner (settleTrade db e a b).world = partner e.world ∨
      ∀ c, partner (settleTrade db e a b).world c =
        if c ∈ [a, b] then none else partner e.world c := by
  unfold settleTrade
  dsimp only
  split
  · exact .inr fun c => by rw [partner_kill, partner_endBoth]
  split
  · exact .inr fun c => by rw [partner_kill, partner_endBoth]
  split_ifs
  · exact .inr (partner_endBoth e a b 3 2)
  · exact .inr (partner_endBoth e a b 2 3)
  unfold commitTrade
  dsimp only
  have hw : ∀ E : Exec, E.world.session = e.world.session → partner E.world = partner e.world :=
    fun E hE => partner_eq_of_session fun c => congrFun hE c
  split
  · exact .inr fun c => by
      rw [partner_endBoth, hw _ (funext fun c' => by simp)]
  · exact .inl (by rw [partner_close, partner_close, hw _ (funext fun c' => by simp)])

/-- Without a counterpart client, a paired requester's session names nobody. -/
theorem partner_of_counterpart_none {w : World} (hp : Paired w) {a : EntityId}
    (h : counterpart w a = none) : partner w a = none := by
  cases hab : partner w a with
  | none => rfl
  | some b =>
    have hba := hp a b hab
    simp only [partner, Option.bind_eq_some] at hba
    obtain ⟨t, ht, -⟩ := hba
    have hcb : (w.clients b).isSome := ItemSafety.isSome_clients_of_session ht
    have hc : counterpart w a = some b := by
      show (partner w a).filter _ = some b
      simp [hab, Option.filter, hcb]
    rw [h] at hc
    cases hc

/-- In a paired world `TradeFinish` takes one of the three paths that return:
    no counterpart, with a session naming nobody; the settlement; or the wait. -/
theorem tradeFinish_of_paired (db : ChangeSet → Bool) {w : World} (hp : Paired w) (a : EntityId) :
    (partner w a = none ∧ tradeFinish db w a = .ok ((⟨w, []⟩ : Exec).endExchange a 0)) ∨
      ∃ b, partner w a = some b ∧
        (tradeFinish db w a = .ok (settleTrade db (markFinished ⟨w, []⟩ a b) a b) ∨
          tradeFinish db w a = .ok (markFinished ⟨w, []⟩ a b)) := by
  cases hc : counterpart w a with
  | none => exact .inl ⟨partner_of_counterpart_none hp hc, tradeFinish_of_counterpart_none hc⟩
  | some b =>
    obtain ⟨s, hsa, hob, -⟩ := ItemSafety.counterpart_eq_some hc
    have hab : partner w a = some b := by simp [partner, hsa, hob]
    obtain ⟨t, ht, -⟩ := Option.bind_eq_some.mp (hp a b hab)
    refine .inr ⟨b, hab, ?_⟩
    by_cases hfin : t.finished = true ∨ b = a
    · exact .inl (tradeFinish_of_finished hc ht hfin)
    · rw [not_or, Bool.not_eq_true] at hfin
      exact .inr (tradeFinish_of_waiting hc ht hfin.2 hfin.1)

/-- **NO FAULT WHEN PAIRED**: in a paired world `TradeFinish` never reads a
    null session. -/
theorem tradeFinish_ne_error {db : ChangeSet → Bool} {w : World} (hp : Paired w) (a : EntityId)
    (f : Fault) : tradeFinish db w a ≠ .error f := by
  rcases tradeFinish_of_paired db hp a with ⟨-, h⟩ | ⟨b, -, h | h⟩ <;> rw [h] <;> exact nofun

theorem tradeFinish_paired {db : ChangeSet → Bool} {w : World} (hp : Paired w) {a : EntityId}
    {e : Exec} (h : tradeFinish db w a = .ok e) : Paired e.world := by
  have hm := partner_markFinished ⟨w, []⟩ a
  rcases tradeFinish_of_paired db hp a with ⟨ha, h'⟩ | ⟨b, hab, h' | h'⟩ <;>
    rw [h', Except.ok.injEq] at h <;> subst h
  · refine hp.of_ended [a] (fun c d hc hcd => ?_) fun c => ?_
    · rw [List.mem_singleton.mp hc, ha] at hcd
      cases hcd
    · rw [partner_endExchange]
      simp
  · rcases settleTrade_partner db (markFinished ⟨w, []⟩ a b) a b with h | h
    · exact hp.of_partner (h.trans (hm b))
    · exact hp.of_ended [a, b] (closed_pair hp hab) fun c => by rw [h, hm]
  · exact hp.of_partner (hm b)

theorem partner_dropItem (defs : ItemDefinitions) (w : World) (c : EntityId) (itemID : Int) :
    partner (dropItem defs w c itemID).world = partner w := by
  unfold dropItem
  split
  · rfl
  split_ifs
  · exact partner_kill _ c
  split
  · split_ifs
    · exact partner_eq_of_session (session_discard (w := w))
    · rfl
  · rfl

/-- Opening pairs two clients outside any exchange; a paired world names
    neither, so it stays paired. -/
theorem paired_openExchange {w w' : World} (hp : Paired w) {a b : EntityId}
    (h : openExchange w a b = some w') : Paired w' := by
  unfold openExchange at h
  split_ifs at h with hc
  cases h
  obtain ⟨hca, hcb, hne, hsa, hsb⟩ := hc
  have hfree : ∀ c x, partner w c = some x → x ≠ a ∧ x ≠ b := fun c x hcx => by
    have hxc := hp c x hcx
    constructor <;> rintro rfl <;> simp [partner, hsa, hsb] at hxc
  have hnew : ∀ c, partner ((w.modifyClient a fun st =>
      { st with exchangeSession := some ⟨some b, [], false⟩ }).modifyClient b fun st =>
        { st with exchangeSession := some ⟨some a, [], false⟩ }) c =
      if c = b then some a else if c = a then some b else partner w c := fun c => by
    rw [partner_setSession _ _ (by rwa [World.modifyClient_clients_ne _ (Ne.symm hne)]),
      partner_setSession _ _ hca]
  intro x y hxy
  rw [hnew] at hxy ⊢
  split_ifs at hxy with h1 h2
  · cases hxy
    simp [hne, h1]
  · cases hxy
    simp [h2]
  · obtain ⟨hya, hyb⟩ := hfree x y hxy
    rw [if_neg hyb, if_neg hya]
    exact hp x y hxy

/-- Staging keeps the party of every session. -/
theorem partner_stage {w w' : World} {c : EntityId} {L : List UUID} (h : stage w c L = some w') :
    partner w' = partner w := by
  unfold stage at h
  split at h
  · next s hs =>
    split_ifs at h
    cases h
    funext c'
    by_cases hc : c' = c
    · subst hc
      rw [partner, ItemSafety.session_modifyClient_self, partner, hs]
      obtain ⟨st, hst⟩ := Option.isSome_iff_exists.mp (ItemSafety.isSome_clients_of_session hs)
      simp [hst]
    · rw [partner, World.session_modifyClient_ne _ hc, partner]
  · cases h

theorem paired_cancel {w w' : World} (hp : Paired w) {c : EntityId} (h : cancel w c = some w') :
    Paired w' := by
  unfold cancel at h
  split at h
  · next s hs =>
    cases h
    split
    · next b hb =>
      have hcb : partner w c = some b := by simp [partner, hs, hb]
      exact hp.of_ended [c, b] (closed_pair hp hcb) (partner_endBoth _ c b 0 0)
    · next hb =>
      have hcn : partner w c = none := by simp [partner, hs, hb]
      refine hp.of_ended [c] (fun c' d hc' hcd => ?_) fun c' => ?_
      · rw [List.mem_singleton.mp hc', hcn] at hcd
        cases hcd
      · rw [partner_endExchange]
        simp
  · cases h

theorem partner_persist (w : World) : partner (persist w) = partner w := by
  unfold persist
  split <;> rfl

/-- **ONE STEP** keeps the pairing. -/
theorem step_paired {defs : ItemDefinitions} {db : ChangeSet → Bool} {w w' : World}
    (hp : Paired w) {act : Action} (h : step defs db w act = some w') : Paired w' := by
  cases act with
  | drop c itemID =>
    simp only [step] at h
    split_ifs at h
    cases h
    exact hp.of_partner (partner_dropItem defs w c itemID)
  | finish c =>
    simp only [step] at h
    split_ifs at h
    split at h
    · next e he =>
      cases h
      exact tradeFinish_paired hp he
    · cases h
  | openExchange a b => exact paired_openExchange hp h
  | stage c L => exact hp.of_partner (partner_stage h)
  | cancel c => exact paired_cancel hp h
  | persist =>
    cases h
    exact hp.of_partner (partner_persist w)

/-- **THE NULL SESSION IS UNREACHABLE.**  From a world where every exchange
    session names a party whose session names it back, along every run of
    drops, trade finishes, exchange steps and persistence, in any order and
    for any clients, every state reached is paired again, and in it
    `TradeFinish` from any client never dereferences a null session. -/
theorem run_never_faults (defs : ItemDefinitions) (db : ChangeSet → Bool) {w : World}
    (hp : Paired w) (as : List Action) {w' : World} (h : run defs db w as = some w') :
    Paired w' ∧ ∀ a f, tradeFinish db w' a ≠ .error f := by
  induction as generalizing w with
  | nil =>
    cases h
    exact ⟨hp, tradeFinish_ne_error hp⟩
  | cons act as ih =>
    cases hst : step defs db w act with
    | none => simp [run, hst] at h
    | some w₁ =>
      rw [run, hst, Option.some_bind] at h
      exact ih (step_paired hp hst) h

theorem paired_dropWorld : Paired dropWorld := fun a b h => by
  simp [partner, ItemSafety.dropWorld_session] at h

/-- Clients 1 and 2 of `dropWorld` open an exchange, client 1 stages item
    300 and finishes, and client 2 has not. -/
def halfRun : List Action := [.openExchange 1 2, .stage 1 [300], .finish 1]

theorem run_never_faults_halfRun :
    ∃ w', run discardAll (fun _ => true) dropWorld halfRun = some w' ∧
      Paired w' ∧ ∀ a f, tradeFinish (fun _ => true) w' a ≠ .error f :=
  ⟨_, rfl, run_never_faults discardAll (fun _ => true) paired_dropWorld halfRun rfl⟩

/-! ## Whatever the bytes -/

section Serve

open ChannelPackets ChannelServe MitamaReunion

/-- The character manager's `DoMitamaReunion` leaves the party of every
    exchange session alone. -/
def ReunionPairs (mgr : Managers) : Prop :=
  ∀ w c idx reunionIdx w₁ changes events,
    mgr.doMitamaReunion w c idx reunionIdx = some (w₁, changes, events) → partner w₁ = partner w

theorem partner_handleMitamaReunion {mgr : Managers} (hmgr : ReunionPairs mgr) (w : World)
    (c : EntityId) (mitamaID reunionIdx : Int) :
    partner (handleMitamaReunion mgr w c mitamaID reunionIdx).world = partner w := by
  cases hc : w.clients c with
  | none => simp only [handleMitamaReunion, hc]
  | some st =>
    rcases handleMitamaReunion_cases mgr w hc mitamaID reunionIdx with
      h | ⟨-, m, _, w₁, changes, events, -, -, -, -, hr, h⟩ <;> rw [h]
    · rfl
    · rw [consume_world, ← hmgr _ _ _ _ _ _ _ hr]
      rfl

variable {ch : Channel} {w : World} {c : EntityId}

theorem receive_paired (hmgr : ReunionPairs ch.mgr) (hp : Paired w) {code : ClientCode}
    {p : List UInt8} {e : Exec} (h : receive ch w c code p = .ok e) : Paired e.world := by
  unfold receive at h
  split at h
  · cases h
    exact hp.of_partner (partner_kill _ c)
  · next r _ =>
    cases r with
    | itemDrop itemID =>
      cases h
      exact hp.of_partner (partner_dropItem _ w c itemID)
    | mitamaReunion mitamaID reunionIdx =>
      cases h
      exact hp.of_partner (partner_handleMitamaReunion hmgr w c mitamaID reunionIdx)
    | plasmaStart plasmaID pointID =>
      cases h
      exact hp
    | objectInteraction entityID =>
      cases h
      rw [ZoneRequests.objectInteraction_world]
      exact hp
    | tradeFinish => exact tradeFinish_paired hp h

theorem receive_ne_error (hp : Paired w) (code : ClientCode) (p : List UInt8) (f : Fault) :
    receive ch w c code p ≠ .error f := by
  unfold receive
  split
  · exact fun h => nomatch h
  · next r _ =>
    cases r with
    | tradeFinish => exact tradeFinish_ne_error hp c f
    | _ => exact fun h => nomatch h

theorem serveStep_paired (hmgr : ReunionPairs ch.mgr) (hp : Paired w) {i : Input} {w' : World}
    (h : serveStep ch w i = some w') : Paired w' := by
  cases i with
  | frame c code p =>
    simp only [serveStep] at h
    split_ifs at h
    split at h
    · next e he =>
      cases h
      exact receive_paired hmgr hp he
    · cases h
  | openExchange a b => exact paired_openExchange hp h
  | stage c L => exact hp.of_partner (partner_stage h)
  | cancel c => exact paired_cancel hp h
  | persist =>
    cases h
    exact hp.of_partner (partner_persist w)

/-- **NO FAULT, WHATEVER THE BYTES.**  From a paired world, along every
    sequence of frames of any opcode and any payload, exchange steps and
    persistence, every state reached is paired, and in it no frame of any
    client, whatever its opcode and bytes, makes the channel fault. -/
theorem serve_never_faults (ch : Channel) (hmgr : ReunionPairs ch.mgr) {w : World} (hp : Paired w)
    (ins : List Input) {w' : World} (h : serve ch w ins = some w') :
    Paired w' ∧ ∀ c code p f, receive ch w' c code p ≠ .error f := by
  induction ins generalizing w with
  | nil =>
    cases h
    exact ⟨hp, fun _ code p f => receive_ne_error hp code p f⟩
  | cons i is ih =>
    cases hst : serveStep ch w i with
    | none => simp [serve, hst] at h
    | some w₁ =>
      rw [serve, hst, Option.some_bind] at h
      exact ih (serveStep_paired hmgr hp hst) h

theorem reunionPairs_reunionManagers : ReunionPairs reunionManagers := by
  intro w _ _ _ w₁ _ _ h
  cases h
  rfl

theorem serve_never_faults_dropFrames :
    ∃ w', serve testChannel dropWorld dropFrames = some w' ∧
      Paired w' ∧ ∀ c code p f, receive testChannel w' c code p ≠ .error f :=
  ⟨_, rfl, serve_never_faults testChannel reunionPairs_reunionManagers paired_dropWorld dropFrames rfl⟩

end Serve

end ExchangePairing
