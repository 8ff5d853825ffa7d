import LlmGateway.Recovery.Projection

/-!
# What the projection collects

As long as the stored names are not blank and the gateways have no colon in theirs, the keys of the
projection tell the rows apart, and explained calls pass every check: the projection collects all
rows.
-/

namespace LlmGateway

open Relational

/-! ## Collecting rows one after another -/

section Fold

universe u v

variable {ε : Type u} {σ ρ : Type v}

/-- A loop that accepts what is new accepts rows that are pairwise apart. -/
theorem foldlM_eq_foldl {step : σ → ρ → Except ε σ} (add : σ → ρ → σ) (Fresh : σ → ρ → Prop)
    {Apart : ρ → ρ → Prop} {rows : List ρ} {s : σ}
    (hstep : ∀ s, ∀ r ∈ rows, Fresh s r → step s r = .ok (add s r))
    (hfresh : ∀ s r r', Apart r r' → Fresh s r' → Fresh (add s r) r')
    (hrows : rows.Pairwise Apart) (hs : ∀ r ∈ rows, Fresh s r) :
    rows.foldlM step s = .ok (rows.foldl add s) := by
  induction rows generalizing s with
  | nil => rfl
  | cons r rows ih =>
    obtain ⟨hapart, hrest⟩ := List.pairwise_cons.1 hrows
    have hhead := hstep s r List.mem_cons_self (hs r List.mem_cons_self)
    rw [List.foldlM_cons, hhead, List.foldl_cons]
    apply ih
    · exact fun s' r' hr' ↦ hstep s' r' (List.mem_cons_of_mem r hr')
    · exact hrest
    · exact fun r' hr' ↦ hfresh s r r' (hapart r' hr') (hs r' (List.mem_cons_of_mem r hr'))

theorem foldl_snoc {α : Type*} (f : ρ → α) (rows : List ρ) (entries : List α) :
    rows.foldl (fun entries r ↦ entries ++ [f r]) entries = entries ++ rows.map f := by
  induction rows generalizing entries with
  | nil => exact (List.append_nil entries).symm
  | cons r rows ih =>
    rw [List.foldl_cons, ih, List.map_cons, List.append_assoc]
    rfl

theorem foldl_snoc_pair {α β : Type*} (f : ρ → α) (g : ρ → β) (rows : List ρ)
    (entries : List α × List β) :
    rows.foldl (fun entries r ↦ (entries.1 ++ [f r], entries.2 ++ [g r])) entries =
      (entries.1 ++ rows.map f, entries.2 ++ rows.map g) := by
  induction rows generalizing entries with
  | nil => rw [List.foldl_nil, List.map_nil, List.map_nil, List.append_nil, List.append_nil]
  | cons r rows ih =>
    rw [List.foldl_cons, ih, List.map_cons, List.map_cons, List.append_assoc, List.append_assoc]
    rfl

/-- Rows with keys of their own are found under them. -/
theorem lookup_map_of_mem {κ α : Type*} [DecidableEq κ] (key : ρ → κ) (value : ρ → α)
    {rows : List ρ} (hrows : rows.Pairwise fun r r' ↦ key r ≠ key r') {r : ρ} (hr : r ∈ rows) :
    (rows.map fun r ↦ (key r, value r)).lookup (key r) = some (value r) := by
  induction rows with
  | nil => exact absurd hr List.not_mem_nil
  | cons first rows ih =>
    obtain ⟨hfirst, hrest⟩ := List.pairwise_cons.1 hrows
    rw [List.map_cons]
    cases List.mem_cons.1 hr with
    | inl hsame => rw [hsame, List.lookup_cons_self]
    | inr hin =>
      have hmiss : (key r == key first) = false := beq_false_of_ne (hfirst r hin).symm
      rw [List.lookup_cons, hmiss]
      exact ih hrest hin

end Fold

/-- A separator that the first part does not contain tells the parts. -/
theorem append_cons_inj {α : Type*} {a : α} {l l' r r' : List α} (hl : a ∉ l) (hl' : a ∉ l')
    (h : l ++ a :: r = l' ++ a :: r') : l = l' ∧ r = r' := by
  induction l generalizing l' with
  | nil =>
    cases l' with
    | nil => exact ⟨rfl, (List.cons.inj h).2⟩
    | cons b l' => exact absurd (List.mem_cons.2 (Or.inl (List.cons.inj h).1)) hl'
  | cons b l ih =>
    cases l' with
    | nil => exact absurd (List.mem_cons.2 (Or.inl (List.cons.inj h).1.symm)) hl
    | cons b' l' =>
      obtain ⟨hhead, htail⟩ := List.cons.inj h
      have hrest := ih (fun hin ↦ hl (List.mem_cons_of_mem b hin))
        (fun hin ↦ hl' (List.mem_cons_of_mem b' hin)) htail
      exact ⟨by rw [hhead, hrest.1], hrest.2⟩

namespace RecoveryProjection

theorem keep_of_new {κ α : Type} [DecidableEq κ] [DecidableEq α] {entries : List (κ × α)} {key : κ}
    {value : α} {conflict : String} (hnew : ∀ entry ∈ entries, entry.1 ≠ key) :
    keep entries key value conflict = .ok (entries ++ [(key, value)]) := by
  have hnone : entries.lookup key = none := by
    apply List.lookup_eq_none_iff.2
    intro entry hentry
    exact bne_iff_ne.2 (hnew entry hentry).symm
  simp only [keep, hnone]

/-- A gateway without a colon in its name is told from the joined key. -/
theorem projectionKey_inj {gatewayId gatewayId' identifier identifier' : String}
    (hgateway : ':' ∉ gatewayId.toList) (hgateway' : ':' ∉ gatewayId'.toList)
    (h : projectionKey gatewayId identifier = projectionKey gatewayId' identifier') :
    gatewayId = gatewayId' ∧ identifier = identifier' := by
  have hlists := congrArg String.toList h
  simp only [projectionKey, String.toList_append, List.append_assoc] at hlists
  have hcolon : ":".toList = [':'] := rfl
  rw [hcolon, List.singleton_append, List.singleton_append] at hlists
  have hparts := append_cons_inj hgateway hgateway' hlists
  exact ⟨String.toList_inj.1 hparts.1, String.toList_inj.1 hparts.2⟩

theorem requiredString_of_filled {field value : String} (h : isBlankString value = false) :
    requiredString field value = .ok () := by
  rw [requiredString, h]
  rfl

theorem requiredGeneration_of_pos {value : ℕ} (h : 0 < value) :
    requiredGeneration value = .ok () :=
  if_neg h.ne'

end RecoveryProjection

/-! ## The stored names -/

/-- The names that a key of the projection is made of. -/
structure IsProjectionName (gatewayId identifier : String) : Prop where
  gateway : isBlankString gatewayId = false
  plain : ':' ∉ gatewayId.toList
  identifier : isBlankString identifier = false

/-- The names of the rows are not blank, and the gateways have no colon in theirs. -/
structure Db.Named (db : Db) : Prop where
  events : ∀ e ∈ db.events, IsProjectionName e.gatewayId e.eventId ∧
    isBlankString e.sessionId = false ∧ 0 < e.controlGeneration
  decisions : ∀ d ∈ db.decisions, IsProjectionName d.gatewayId d.decisionId ∧
    isBlankString d.sessionId = false ∧ 0 < d.controlGeneration
  calls : ∀ k ∈ db.calls, IsProjectionName k.gatewayId k.skillCallId

instance (gatewayId identifier : String) : Decidable (IsProjectionName gatewayId identifier) :=
  decidable_of_iff (isBlankString gatewayId = false ∧ ':' ∉ gatewayId.toList ∧
      isBlankString identifier = false)
    ⟨fun h ↦ ⟨h.1, h.2.1, h.2.2⟩, fun h ↦ ⟨h.gateway, h.plain, h.identifier⟩⟩

instance (db : Db) : Decidable db.Named :=
  decidable_of_iff ((∀ e ∈ db.events, IsProjectionName e.gatewayId e.eventId ∧
        isBlankString e.sessionId = false ∧ 0 < e.controlGeneration) ∧
      (∀ d ∈ db.decisions, IsProjectionName d.gatewayId d.decisionId ∧
        isBlankString d.sessionId = false ∧ 0 < d.controlGeneration) ∧
      ∀ k ∈ db.calls, IsProjectionName k.gatewayId k.skillCallId)
    ⟨fun h ↦ ⟨h.1, h.2.1, h.2.2⟩, fun h ↦ ⟨h.events, h.decisions, h.calls⟩⟩

/-- All rows, as the projection keeps them. -/
def Db.projection (db : Db) : RecoveryProjection :=
  let decisions := db.decisions.rows.map fun d ↦
    (RecoveryProjection.projectionKey d.gatewayId d.decisionId,
      (⟨d.gatewayId, d.decisionId, d.sessionId, d.controlGeneration, d.status⟩ :
        RecoveredDecision))
  { fingerprints := db.events.rows.map fun e ↦ ((e.gatewayId, e.eventId), e.contentHash)
    eventsById := db.events.rows.map fun e ↦
      (RecoveryProjection.projectionKey e.gatewayId e.eventId,
        ⟨e.gatewayId, e.eventId, e.contentHash, e.eventType, e.sessionId, e.controlGeneration,
          e.status⟩)
    decisionsById := decisions
    terminalBySkillCall := db.skillCallRows.map fun row ↦
      (RecoveryProjection.projectionKey row.call.gatewayId row.call.skillCallId,
        RecoveryProjection.recoveredTerminal row)
    decisionIds := (decisions.map (·.2.decisionId)).mergeSort fun a b ↦ a ≤ b }

namespace Db.Named

open RecoveryProjection

variable {db : Db}

theorem events_apart (h : db.Named) : db.events.rows.Pairwise fun e e' ↦
    projectionKey e.gatewayId e.eventId ≠ projectionKey e'.gatewayId e'.eventId := by
  refine db.events.distinct.imp_of_mem fun {e e'} he he' hclash hkey ↦ hclash ?_
  have hnames := projectionKey_inj (h.events e he).1.plain (h.events e' he').1.plain hkey
  exact Or.inr (Or.inl hnames)

theorem decisions_apart (h : db.Named) : db.decisions.rows.Pairwise fun d d' ↦
    projectionKey d.gatewayId d.decisionId ≠ projectionKey d'.gatewayId d'.decisionId := by
  refine db.decisions.distinct.imp_of_mem fun {d d'} hd hd' hclash hkey ↦ hclash ?_
  have hnames := projectionKey_inj (h.decisions d hd).1.plain (h.decisions d' hd').1.plain hkey
  exact Or.inr (Or.inl hnames)

theorem calls_apart (h : db.Named) : db.skillCallRows.Pairwise fun r r' ↦
    projectionKey r.call.gatewayId r.call.skillCallId ≠
      projectionKey r'.call.gatewayId r'.call.skillCallId := by
  unfold Db.skillCallRows
  apply List.pairwise_map.2
  refine db.calls.distinct.imp_of_mem fun {k k'} hk hk' hclash hkey ↦ hclash ?_
  exact Or.inr (projectionKey_inj (h.calls k hk).plain (h.calls k' hk').plain hkey)

theorem foldlM_keepEvent (h : db.Named) : db.events.rows.foldlM keepEvent ([], []) =
    .ok (db.projection.fingerprints, db.projection.eventsById) := by
  rw [foldlM_eq_foldl
    (fun s e ↦ (s.1 ++ [((e.gatewayId, e.eventId), e.contentHash)],
      s.2 ++ [(projectionKey e.gatewayId e.eventId, ⟨e.gatewayId, e.eventId, e.contentHash,
        e.eventType, e.sessionId, e.controlGeneration, e.status⟩)]))
    (fun s e ↦ (∀ entry ∈ s.1, entry.1 ≠ (e.gatewayId, e.eventId)) ∧
      ∀ entry ∈ s.2, entry.1 ≠ projectionKey e.gatewayId e.eventId) _ _ h.events_apart,
    foldl_snoc_pair]
  · rfl
  · exact fun e _ ↦ ⟨List.forall_mem_nil _, List.forall_mem_nil _⟩
  · intro s e he hfresh
    obtain ⟨hname, hsession, hgeneration⟩ := h.events e he
    simp only [keepEvent, requiredString_of_filled hname.gateway,
      requiredString_of_filled hname.identifier, requiredString_of_filled hsession,
      requiredGeneration_of_pos hgeneration, keep_of_new hfresh.1, keep_of_new hfresh.2, bind,
      Except.bind]
  · intro s e e' hapart hfresh
    constructor
    · intro entry hentry
      rw [List.mem_append, List.mem_singleton] at hentry
      cases hentry with
      | inl hold => exact hfresh.1 entry hold
      | inr hnew =>
        rw [hnew]
        intro heq
        obtain ⟨hg, hi⟩ := Prod.mk.inj heq
        exact hapart (by rw [hg, hi])
    · intro entry hentry
      rw [List.mem_append, List.mem_singleton] at hentry
      cases hentry with
      | inl hold => exact hfresh.2 entry hold
      | inr hnew =>
        rw [hnew]
        exact hapart

theorem foldlM_keepDecision (h : db.Named) :
    db.decisions.rows.foldlM keepDecision [] = .ok db.projection.decisionsById := by
  rw [foldlM_eq_foldl
    (fun entries d ↦ entries ++ [(projectionKey d.gatewayId d.decisionId,
      (⟨d.gatewayId, d.decisionId, d.sessionId, d.controlGeneration, d.status⟩ :
        RecoveredDecision))])
    (fun entries d ↦ ∀ entry ∈ entries, entry.1 ≠ projectionKey d.gatewayId d.decisionId) _ _
    h.decisions_apart, foldl_snoc]
  · rfl
  · exact fun d _ ↦ List.forall_mem_nil _
  · intro entries d hd hfresh
    obtain ⟨hname, hsession, hgeneration⟩ := h.decisions d hd
    simp only [keepDecision, requiredString_of_filled hname.gateway,
      requiredString_of_filled hname.identifier, requiredString_of_filled hsession,
      requiredGeneration_of_pos hgeneration, keep_of_new hfresh, bind, Except.bind]
  · intro entries d d' hapart hfresh entry hentry
    rw [List.mem_append, List.mem_singleton] at hentry
    cases hentry with
    | inl hold => exact hfresh entry hold
    | inr hnew =>
      rw [hnew]
      exact hapart

theorem lookup_event (h : db.Named) {e : EventRow} (he : e ∈ db.events) :
    db.projection.eventsById.lookup (projectionKey e.gatewayId e.eventId) =
      some ⟨e.gatewayId, e.eventId, e.contentHash, e.eventType, e.sessionId, e.controlGeneration,
        e.status⟩ :=
  lookup_map_of_mem _ _ h.events_apart he

theorem lookup_decision (h : db.Named) {d : DecisionRow} (hd : d ∈ db.decisions) :
    db.projection.decisionsById.lookup (projectionKey d.gatewayId d.decisionId) =
      some ⟨d.gatewayId, d.decisionId, d.sessionId, d.controlGeneration, d.status⟩ :=
  lookup_map_of_mem _ _ h.decisions_apart hd

/-- The terminal event that explains a call passes the check. -/
theorem checkTerminal_eq_ok (h : db.Named) {k : CallRow} (hk : db.Explains k) :
    checkTerminal db.projection.eventsById (recoveredTerminal
      ⟨k, (k.terminalEventId.bind db.eventById).map (·.eventId)⟩) = .ok () := by
  unfold checkTerminal recoveredTerminal
  split_ifs with hrunning
  · simp only [hk.running hrunning, Option.bind_none, Option.map_none]
  · obtain ⟨e, he, hterminal, htype, hgateway, hsession⟩ := hk.closed (eq_false_of_ne_true hrunning)
    have hfind : db.eventById e.id = some e := eventById_eq_some.2 ⟨he, rfl⟩
    have hlookup := h.lookup_event he
    rw [hgateway] at hlookup
    simp only [hterminal, Option.bind_some, hfind, Option.map_some, hlookup]
    rw [if_pos ⟨htype, hsession⟩]

theorem checkDecision_eq_ok (h : db.Named) (hcalls : db.CallsSound) {k : CallRow}
    (hk : k ∈ db.calls) (terminalEventId : Option String) :
    checkDecision db.projection.decisionsById (recoveredTerminal ⟨k, terminalEventId⟩) =
      .ok () := by
  obtain ⟨d, hd, hown⟩ := hcalls.decision k hk
  have hlookup := h.lookup_decision hd
  rw [hown.2.1, hown.2.2.1] at hlookup
  unfold checkDecision recoveredTerminal
  simp only [hlookup]
  rw [if_pos hown.2.2.2.1]

theorem foldlM_keepTerminal (h : db.Named) (hcalls : db.CallsSound)
    (hexplained : db.CallsExplained) :
    db.skillCallRows.foldlM (keepTerminal db.projection.eventsById db.projection.decisionsById) [] =
      .ok db.projection.terminalBySkillCall := by
  rw [foldlM_eq_foldl
    (fun entries row ↦ entries ++
      [(projectionKey row.call.gatewayId row.call.skillCallId, recoveredTerminal row)])
    (fun entries row ↦ ∀ entry ∈ entries,
      entry.1 ≠ projectionKey row.call.gatewayId row.call.skillCallId) _ _ h.calls_apart,
    foldl_snoc]
  · rfl
  · exact fun row _ ↦ List.forall_mem_nil _
  · intro entries row hrow hfresh
    obtain ⟨k, hk, rfl⟩ := List.mem_map.1 hrow
    have hname := h.calls k hk
    obtain ⟨d, hd, hown⟩ := hcalls.decision k hk
    obtain ⟨hdname, hdsession, -⟩ := h.decisions d hd
    have hdecision : isBlankString k.decisionId = false := hown.2.2.1 ▸ hdname.identifier
    have hsession : isBlankString k.sessionId = false := hown.2.2.2.1 ▸ hdsession
    have hterminal : ¬∃ eventId ∈ (k.terminalEventId.bind db.eventById).map (·.eventId),
        isBlankString eventId := by
      rintro ⟨eventId, hin, hblank⟩
      obtain ⟨e, he, rfl⟩ := Option.map_eq_some_iff.1 hin
      obtain ⟨id, -, hfind⟩ := Option.bind_eq_some_iff.1 he
      rw [(h.events e (eventById_eq_some.1 hfind).1).1.identifier] at hblank
      cases hblank
    simp only [keepTerminal, if_neg hterminal, requiredString_of_filled hname.gateway,
      requiredString_of_filled hname.identifier, requiredString_of_filled hdecision,
      requiredString_of_filled hsession, h.checkTerminal_eq_ok (hexplained k hk),
      h.checkDecision_eq_ok hcalls hk, keep_of_new hfresh, bind, Except.bind]
  · intro entries row row' hapart hfresh entry hentry
    rw [List.mem_append, List.mem_singleton] at hentry
    cases hentry with
    | inl hold => exact hfresh entry hold
    | inr hnew =>
      rw [hnew]
      exact hapart

/-- The projection of explained calls collects all rows. -/
theorem recover_eq (h : db.Named) (hcalls : db.CallsSound) (hexplained : db.CallsExplained) :
    db.recover = .ok db.projection := by
  unfold Db.recover fromRows
  simp only [h.foldlM_keepEvent, h.foldlM_keepDecision,
    h.foldlM_keepTerminal hcalls hexplained, bind, Except.bind]
  rfl

end Db.Named

end LlmGateway
