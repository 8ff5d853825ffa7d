import LlmGateway.Effect.Response
import LlmGateway.System.Delivery
import LlmGateway.System.Scenario
import LlmGateway.System.Terminal

/-!
# Capacity of activities

A decision on a skill of limited capacity holds its reservation until it expires: while it is
unsent, and then while its call is running. An accepted decision on a skill has had its call from
the start, and a call that is closed is not opened again, so a released reservation stays
released. Only planning, which counts first, adds a reservation.
-/

namespace LlmGateway

open Relational

/-- The decision holds a reservation. -/
def Db.Reserves (db : Db) (now : ℕ) (d : DecisionRow) : Prop :=
  (∃ t ∈ d.activityCapacityExpiresAt, now < t) ∧ (d.status.isUnsent ∨ (d.status = .accepted ∧
    ∃ k ∈ db.calls, k.decisionRowId = d.id ∧ k.status.isRunning))

instance (db : Db) (now : ℕ) : DecidablePred (db.Reserves now) := fun _ ↦
  inferInstanceAs (Decidable (_ ∧ _))

/-- Reservations are held on skills, and an accepted decision on a skill has a call. -/
structure Db.Called (db : Db) : Prop where
  reserved : ∀ d ∈ db.decisions, d.activityCapacityExpiresAt.isSome = true → d.action.isSkill
  called : ∀ d ∈ db.decisions, d.status = .accepted → d.action.isSkill →
    ∃ k ∈ db.calls, k.decisionRowId = d.id

variable {now : ℕ} {db db' : Db} {d : DecisionRow}

/-! ## Counting -/

theorem countActiveReservations_eq (db : Db) (now : ℕ) (key : String) :
    db.countActiveReservations now key = (db.decisions.select fun d ↦
      d.activityCapacityKey = some key ∧ db.Reserves now d).length := rfl

/-- Where all reservations were held before, no more are counted. -/
theorem countActiveReservations_le {now' : ℕ} (h : ∀ d' ∈ db'.decisions, db'.Reserves now' d' →
    ∃ d ∈ db.decisions, d.toDecisionKey = d'.toDecisionKey ∧ db.Reserves now d) (key : String) :
    db'.countActiveReservations now' key ≤ db.countActiveReservations now key := by
  rw [countActiveReservations_eq, countActiveReservations_eq]
  apply Table.length_select_le
  intro d' hd' hactive
  obtain ⟨d, hd, hkey, hreserves⟩ := h d' hd' hactive.2
  refine ⟨d, hd, ⟨?_, hreserves⟩, hkey⟩
  rw [hkey]
  exact hactive.1

/-- A new decision counts once, for its own key. -/
theorem countActiveReservations_insert {row : DecisionRow}
    (h : db.decisions.insert? row = some db'.decisions) (hcalls : db'.calls = db.calls)
    (key : String) : db'.countActiveReservations now key ≤
      db.countActiveReservations now key + if row.activityCapacityKey = some key then 1 else 0 := by
  have hsame : db'.Reserves now = db.Reserves now := by
    funext d
    simp only [Db.Reserves, hcalls]
  simp only [countActiveReservations_eq, hsame]
  rw [Table.select_of_insert? h, List.length_append]
  by_cases hkey : row.activityCapacityKey = some key
  · rw [if_pos hkey]
    split
    · exact le_refl _
    · exact Nat.le_succ _
  · rw [if_neg hkey, if_neg fun hboth ↦ hkey hboth.1]
    exact le_refl _

/-- Only a skill is reserved. -/
theorem isSkill_of_reservation {config : OutboxConfig} {c : ClaimedEvent} {context : AgentContext}
    {action : AgentAction} (h : (reservationFor config c context action).key.isSome = true) :
    action.kind.action.isSkill := by
  unfold reservationFor at h
  split at h
  · rename_i hkind
    rw [hkind]
    exact Or.inl rfl
  · cases h

namespace World

variable {config : SystemConfig} {w : World} {a : Action}

/-! ## Calls of accepted decisions -/

/-- A decision on a skill that is accepted was accepted before, or has a call. -/
theorem exec_accepted (hw : w.Sound config) (hcalls : w.db.CallsSound) {d' : DecisionRow}
    (hd' : d' ∈ (w.exec config a).db.decisions) (haccepted : d'.status = .accepted)
    (hskill : d'.action.isSkill) :
    (∃ d ∈ w.db.decisions, d.toDecisionKey = d'.toDecisionKey ∧ d.status = .accepted) ∨
      ∃ k ∈ (w.exec config a).db.calls, k.decisionRowId = d'.id := by
  cases exec_adds config w a with
  | inr hadds =>
    obtain ⟨token, c, context, action, decisionId, hadds⟩ := hadds
    obtain ⟨body, -, hinsert⟩ := hadds.new.decisions
    cases (Table.mem_of_insert? hinsert).1 hd' with
    | inl hold => exact Or.inl ⟨d', hold, rfl, haccepted⟩
    | inr heq =>
      rw [heq] at haccepted
      cases haccepted
  | inl hdelivers =>
    obtain ⟨d, hd, hstep⟩ := hdelivers.decision_back id hd'
    have htaken : d'.status.isTaken = true := by
      rw [haccepted]
      rfl
    cases hstep.taken htaken with
    | inl hkeeps => exact Or.inl ⟨d, hd, hstep.key_eq.symm, hkeeps.1.symm.trans haccepted⟩
    | inr hstarts =>
      obtain ⟨token, response, rfl⟩ : ∃ token response, a = .recordResponse token response := by
        cases hstarts with
        | inl hclaim => cases haccepted.symm.trans hclaim.1
        | inr hresponse => exact hresponse.2
      cases hc : w.decisionClaim? token with
      | none =>
        simp only [exec, withDecisionClaim, hc, Option.elim_none] at hd'
        exact Or.inl ⟨d', hd', rfl, haccepted⟩
      | some c =>
        obtain ⟨d₀, hd₀, hdesc⟩ := hw.decisionClaims c (mem_decisionClaims hc)
        have hall : ∀ d ∈ w.db.decisions, d.id = c.rowId → c.Describes d.toDecisionKey := by
          intro d hd hid
          rwa [decisionRow_eq_of_id hd hd₀ (hid.trans hdesc.rowId)]
        rw [record_response hc] at hd' ⊢
        cases hresult : recordDecisionResponse w.now c response w.db with
        | error failure =>
          rw [hresult] at hd'
          exact Or.inl ⟨d', hd', rfl, haccepted⟩
        | ok recorded =>
          rw [hresult] at hd'
          apply (recordDecisionResponse_accepted hresult hcalls hall hd' haccepted hskill).imp_right
          intro hcalled
          obtain ⟨skillCallId, k, hk, hown, -⟩ := hcalled
          exact ⟨k, hk, hown⟩

theorem exec_called (hw : w.Sound config) (hcalls : w.db.CallsSound) (hcalled : w.db.Called)
    (a : Action) : (w.exec config a).db.Called where
  reserved d' hd' hsome := by
    cases exec_adds config w a with
    | inl hdelivers =>
      obtain ⟨d, hd, hstep⟩ := hdelivers.decision_back id hd'
      rw [hstep.key_eq] at hsome ⊢
      exact hcalled.reserved d hd hsome
    | inr hadds =>
      obtain ⟨token, c, context, action, decisionId, hadds⟩ := hadds
      obtain ⟨body, -, hinsert⟩ := hadds.new.decisions
      cases (Table.mem_of_insert? hinsert).1 hd' with
      | inl hold => exact hcalled.reserved d' hold hsome
      | inr heq =>
        rw [heq] at hsome ⊢
        have hreserved : (reservationFor config.outbox c context action).key.isSome = true := by
          simpa only [plannedRow, Option.isSome_map] using hsome
        exact isSkill_of_reservation hreserved
  called d' hd' haccepted hskill := by
    cases exec_accepted hw hcalls hd' haccepted hskill with
    | inr hnew => exact hnew
    | inl hbefore =>
      obtain ⟨d, hd, hkey, hstatus⟩ := hbefore
      rw [← hkey] at hskill
      obtain ⟨k, hk, hown⟩ := hcalled.called d hd hstatus hskill
      obtain ⟨k', hk', hstep⟩ := (exec_delivers config w a).calls.forward k hk
      refine ⟨k', hk', ?_⟩
      rw [hstep.key_eq, hown]
      exact congrArg DecisionKey.id hkey

theorem Reachable.called (hw : w.Reachable config) : w.db.Called := by
  obtain ⟨entropy, actions, rfl⟩ := hw
  have hstep (v : World) (a : Action) (hv : v.Sound config ∧ v.db.CallsSound ∧ v.db.Called) :
      (v.exec config a).Sound config ∧ (v.exec config a).db.CallsSound ∧
        (v.exec config a).db.Called :=
    ⟨exec_sound hv.1, exec_callsSound hv.1 hv.2.1 a, exec_called hv.1 hv.2.1 hv.2.2 a⟩
  have hempty : (initial entropy).Reachable config := ⟨entropy, [], rfl⟩
  refine (invariant_run hstep ⟨initial_sound entropy, hempty.callsSound, ?_, ?_⟩ actions).2.2
  all_goals exact fun d hd ↦ absurd hd (Table.not_mem_empty d)

/-! ## Reservations -/

/-- A reservation that is held after an action was held before. -/
theorem exec_reserves_back (hw : w.Sound config) (hcalls : w.db.CallsSound)
    (hcalled : w.db.Called) {d' : DecisionRow} (hd : d ∈ w.db.decisions)
    (hd' : d' ∈ (w.exec config a).db.decisions) (hid : d'.id = d.id)
    (h : (w.exec config a).db.Reserves (w.exec config a).now d') : w.db.Reserves w.now d := by
  have hdelivers := exec_delivers config w a
  obtain ⟨d'', hd'', hstep⟩ := hdelivers.decisions.forward d hd
  obtain rfl : d'' = d' := by
    apply decisionRow_eq_of_id hd'' hd'
    exact (congrArg DecisionKey.id hstep.key_eq).trans hid.symm
  obtain ⟨⟨t, ht, hlater⟩, hstatus⟩ := h
  rw [hstep.key_eq] at ht
  refine ⟨⟨t, ht, (exec_now config w a).trans_lt hlater⟩, ?_⟩
  by_cases hunsent : d.status.isUnsent = true
  · exact Or.inl hunsent
  have hsame : d''.status = d.status := by
    cases hstep.next with
    | inl hsame => exact hsame
    | inr hnext =>
      cases hnext.resolve_left hunsent with
      | inl hrejected =>
        rw [hrejected] at hstatus
        simp [DecisionStatus.isUnsent] at hstatus
      | inr hmanual =>
        rw [hmanual] at hstatus
        simp [DecisionStatus.isUnsent] at hstatus
  rw [hsame] at hstatus
  obtain ⟨haccepted, k', hk', hown', hrunning⟩ := hstatus.resolve_left hunsent
  have hskill : d.action.isSkill := by
    apply hcalled.reserved d hd
    rw [Option.mem_def.1 ht]
    rfl
  -- the running call is the one that the decision had before
  obtain ⟨k, hk, hown⟩ := hcalled.called d hd haccepted hskill
  obtain ⟨k'', hk'', hproceeds⟩ := hdelivers.calls.forward k hk
  have heq : k'' = k' := by
    apply (exec_callsSound hw hcalls a).unique k'' hk'' k' hk'
    calc k''.decisionRowId = k.decisionRowId := congrArg CallKey.decisionRowId hproceeds.key_eq
      _ = d.id := hown
      _ = k'.decisionRowId := by rw [hown', hid]
  rw [← heq] at hrunning
  exact Or.inr ⟨haccepted, k, hk, hown, hproceeds.running hrunning⟩

/-- A decision that is added has a free place, for the limit of its key. -/
theorem Adds.count_lt {token : Uuid} {c : ClaimedEvent} {context : AgentContext}
    {action : AgentAction} {decisionId : String} (h : w.Adds config a token c context action decisionId)
    {limitOf : String → ℕ} (hlimit : ∀ gatewayId skillName snapshot key limit,
      config.outbox.capacityKey gatewayId skillName snapshot = some key →
      config.outbox.capacityLimit skillName snapshot = some limit → limit = limitOf key)
    {key : String} (hkey : (reservationFor config.outbox c context action).key = some key) :
    w.db.countActiveReservations w.now key < limitOf key := by
  have hreserved := h.new.reserved
  rw [hkey] at hreserved
  obtain ⟨limit, hsome⟩ := Option.isSome_iff_exists.1 hreserved.symm
  have hroom : w.db.countActiveReservations w.now key < limit := by
    by_contra hfull
    exact h.new.room ⟨key, hkey, limit, hsome, Nat.le_of_not_lt hfull⟩
  unfold reservationFor at hkey hsome
  split at hkey
  · rename_i hkind
    simp only [hkind] at hsome
    rwa [← hlimit _ _ _ _ _ hkey hsome]
  · cases hkey

theorem exec_count_le {limitOf : String → ℕ} (hlimit : ∀ gatewayId skillName snapshot key limit,
      config.outbox.capacityKey gatewayId skillName snapshot = some key →
      config.outbox.capacityLimit skillName snapshot = some limit → limit = limitOf key)
    (hw : w.Sound config) (hcalls : w.db.CallsSound) (hcalled : w.db.Called)
    (hcount : ∀ key, w.db.countActiveReservations w.now key ≤ limitOf key) (a : Action)
    (key : String) :
    (w.exec config a).db.countActiveReservations (w.exec config a).now key ≤ limitOf key := by
  cases exec_adds config w a with
  | inl hdelivers =>
    apply (countActiveReservations_le ?_ key).trans (hcount key)
    intro d' hd' hreserves
    obtain ⟨d, hd, hstep⟩ := hdelivers.decision_back id hd'
    refine ⟨d, hd, hstep.key_eq.symm, ?_⟩
    exact exec_reserves_back hw hcalls hcalled hd hd' (congrArg DecisionKey.id hstep.key_eq) hreserves
  | inr hadds =>
    obtain ⟨token, c, context, action, decisionId, hadds⟩ := hadds
    have hnow : (w.exec config a).now = w.now := by
      rw [hadds.action_eq, plan_eq hadds.claim_eq hadds.context_eq]
    rw [hnow]
    obtain ⟨body, -, hinsert⟩ := hadds.new.decisions
    apply (countActiveReservations_insert hinsert hadds.new.calls_eq key).trans
    split
    · rename_i hkey
      exact hadds.count_lt hlimit hkey
    · exact hcount key

/-- A released reservation stays released. -/
theorem run_reserves_back (hw : w.Reachable config) (hd : d ∈ w.db.decisions)
    (hreleased : ¬w.db.Reserves w.now d) (later : List Action) :
    ∀ d' ∈ (run (exec config) w later).db.decisions, d'.id = d.id →
      ¬(run (exec config) w later).db.Reserves (run (exec config) w later).now d' := by
  induction later generalizing w d with
  | nil =>
    intro d' hd' hid
    rwa [decisionRow_eq_of_id hd' hd hid]
  | cons a later ih =>
    intro d' hd' hid
    obtain ⟨d₁, hd₁, hstep⟩ := (exec_delivers config w a).decisions.forward d hd
    have hsame : d₁.id = d.id := congrArg DecisionKey.id hstep.key_eq
    refine ih (hw.run [a]) hd₁ (fun hreserves ↦ hreleased ?_) d' hd' (hid.trans hsame.symm)
    exact exec_reserves_back hw.sound hw.callsSound hw.called hd hd₁ hsame hreserves

/-- No key has more active reservations than its limit, and a released reservation is never
active again. -/
theorem reservations_bounded {limitOf : String → ℕ}
    (hlimit : ∀ gatewayId skillName snapshot key limit,
      config.outbox.capacityKey gatewayId skillName snapshot = some key →
      config.outbox.capacityLimit skillName snapshot = some limit → limit = limitOf key)
    (hw : w.Reachable config) :
    (∀ key, w.db.countActiveReservations w.now key ≤ limitOf key) ∧
      ∀ d ∈ w.db.decisions, ¬w.db.Reserves w.now d → ∀ later,
        ∀ d' ∈ (run (exec config) w later).db.decisions, d'.id = d.id →
          ¬(run (exec config) w later).db.Reserves (run (exec config) w later).now d' := by
  refine ⟨?_, fun d hd hreleased ↦ run_reserves_back hw hd hreleased⟩
  obtain ⟨entropy, actions, rfl⟩ := hw
  have hstep (v : World) (a : Action) (hv : v.Reachable config ∧
      ∀ key, v.db.countActiveReservations v.now key ≤ limitOf key) :
      (v.exec config a).Reachable config ∧
        ∀ key, (v.exec config a).db.countActiveReservations (v.exec config a).now key ≤ limitOf key :=
    ⟨hv.1.run [a], exec_count_le hlimit hv.1.sound hv.1.callsSound hv.1.called hv.2 a⟩
  exact (invariant_run hstep ⟨⟨entropy, [], rfl⟩, fun key ↦ Nat.zero_le _⟩ actions).2

section Example

open Scenario

/-- The dance may be done once at a time. -/
def danceFloor : SystemConfig :=
  { Scenario.config with
    outbox := { outbox with
      capacityKey := fun _ skillName _ ↦ if skillName = "dance" then some "floor" else none
      capacityLimit := fun skillName _ ↦ if skillName = "dance" then some 1 else none } }

/-- A dance is planned, sent and accepted. -/
def acceptDance : List Action :=
  [submit [sessionStarted "e1" 1 "L1" 1], claim, .persist (Scenario.token 3),
    .plan (Scenario.token 3) ⟨"dance", 100, .callSkill "dance" "v1" [] none⟩ "d", finish 3,
    .claimDecision "worker",
    .recordResponse (Scenario.token 5) ⟨200, .accepted, "ok", some "call", none⟩]

/-- The call of the dance is finished. -/
def finishDance : List Action :=
  [submit [plain "e2" 1 2 0 (finished "d")], claim, .record (Scenario.token 8)]

theorem danceFloor_limit (gatewayId skillName : String) (snapshot : List (Text × Json))
    (key : String) (limit : ℕ)
    (_ : danceFloor.outbox.capacityKey gatewayId skillName snapshot = some key)
    (hlimit : danceFloor.outbox.capacityLimit skillName snapshot = some limit) :
    limit = (fun _ ↦ 1 : String → ℕ) key := by
  simp only [danceFloor] at hlimit
  split at hlimit
  · exact (Option.some.inj hlimit).symm
  · cases hlimit

/-- The place of the dance is taken, and after the dance it is free for good. -/
theorem reservations_bounded_dance :
    let w := run (exec danceFloor) (initial fun _ ↦ 0) acceptDance
    let v := run (exec danceFloor) w finishDance
    w.db.countActiveReservations w.now "floor" = 1 ∧
      (∀ key, w.db.countActiveReservations w.now key ≤ 1) ∧
      ∃ d ∈ v.db.decisions, ¬v.db.Reserves v.now d ∧ ∀ later,
        ∀ d' ∈ (run (exec danceFloor) v later).db.decisions, d'.id = d.id →
          ¬(run (exec danceFloor) v later).db.Reserves (run (exec danceFloor) v later).now d' := by
  intro w v
  have hw : w.Reachable danceFloor := ⟨fun _ ↦ 0, acceptDance, rfl⟩
  have hv : v.Reachable danceFloor := hw.run finishDance
  have htaken : w.db.countActiveReservations w.now "floor" = 1 := by decide
  have hfree : ∃ d ∈ v.db.decisions, ¬v.db.Reserves v.now d := by decide
  obtain ⟨d, hd, hreleased⟩ := hfree
  exact ⟨htaken, (reservations_bounded danceFloor_limit hw).1, d, hd, hreleased,
    (reservations_bounded danceFloor_limit hv).2 d hd hreleased⟩

end Example

end World

end LlmGateway
