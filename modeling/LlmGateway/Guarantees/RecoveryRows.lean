import LlmGateway.Recovery.Collecting
import LlmGateway.Recovery.RowMappings
import Mathlib.Data.List.Sort
import Mathlib.Data.Set.Function

/-!
# Rows are recovered as a set

The projection depends on which rows there are, not on their order or number. As long as the joined
keys tell the names of the rows apart, the rows of a name are recovered by themselves, and recovery
fails only for a row without what it needs, for rows of a name that differ, and for a call that its
status, its terminal event or its decision contradicts.
-/

namespace LlmGateway.RowMappings

open Relational

/-! ## What the loops check -/

/-- An open call has no terminal event, and one that has ended is told by one that is found. -/
def Explained (found : Text × Text → RecoveredEvent → Prop) (call : RecoveredTerminal) : Prop :=
  if call.isOpen then call.terminalEventId = none
  else ∃ eventId ∈ call.terminalEventId, ∃ event, found (call.gatewayId, eventId) event ∧
    event.eventType = "skill_finished" ∧ event.sessionId = call.sessionId

/-- All rows have what they need, those of the same name agree, and the calls agree with their
status, their terminal events and their decisions. -/
structure Consistent (same : Text × Text → Text × Text → Prop)
    (eventRows decisionRows skillCallRows : List RowMapping) : Prop where
  eventsRead : ∀ row ∈ eventRows, ∃ event, recoveredEvent row = .ok event
  decisionsRead : ∀ row ∈ decisionRows, ∃ decision, recoveredDecision row = .ok decision
  callsRead : ∀ row ∈ skillCallRows, ∃ call, recoveredTerminal row = .ok call
  eventsAgree : ∀ event ∈ readings recoveredEvent eventRows,
    ∀ event' ∈ readings recoveredEvent eventRows, same event.name event'.name → event = event'
  decisionsAgree : ∀ decision ∈ readings recoveredDecision decisionRows,
    ∀ decision' ∈ readings recoveredDecision decisionRows,
      same decision.name decision'.name → decision = decision'
  callsAgree : ∀ call ∈ readings recoveredTerminal skillCallRows,
    ∀ call' ∈ readings recoveredTerminal skillCallRows, same call.name call'.name → call = call'
  explained : ∀ call ∈ readings recoveredTerminal skillCallRows, Explained (fun name event ↦
    event ∈ readings recoveredEvent eventRows ∧ same event.name name) call
  decided : ∀ call ∈ readings recoveredTerminal skillCallRows,
    ∃ decision ∈ readings recoveredDecision decisionRows,
      same decision.name (call.gatewayId, call.decisionId) ∧ decision.sessionId = call.sessionId

/-- The names have the same key. -/
def SameKey (name name' : Text × Text) : Prop := projectionKey name = projectionKey name'

section Loops

variable {events : List (Text × RecoveredEvent)} {decisions : List (Text × RecoveredDecision)}
  {E : Set (Text × RecoveredEvent)} {D : Set (Text × RecoveredDecision)}

theorem checkTerminal_eq_ok_iff (h : Collects events E) {call : RecoveredTerminal} {u : Unit} :
    checkTerminal events call = .ok u ↔
      Explained (fun name event ↦ (projectionKey name, event) ∈ E) call := by
  simp only [checkTerminal, Explained, ← h.lookup_eq_some_iff]
  split_ifs
  · cases call.terminalEventId with
    | none => exact iff_of_true rfl rfl
    | some eventId => simp only [reduceCtorEq]
  · cases call.terminalEventId with
    | none => simp only [reduceCtorEq, Option.mem_def, false_and, exists_false]
    | some eventId =>
      simp only [Option.mem_def, Option.some.injEq, exists_eq_left']
      cases events.lookup (projectionKey (call.gatewayId, eventId)) with
      | none => simp only [reduceCtorEq, false_and, exists_false]
      | some event =>
        simp only [Option.some.injEq, exists_eq_left']
        split_ifs with htold
        · exact iff_of_true rfl htold
        · simp only [htold]

theorem checkDecision_eq_ok_iff (h : Collects decisions D) {call : RecoveredTerminal} {u : Unit} :
    checkDecision decisions call = .ok u ↔ ∃ decision,
      (projectionKey (call.gatewayId, call.decisionId), decision) ∈ D ∧
        decision.sessionId = call.sessionId := by
  simp only [checkDecision, ← h.lookup_eq_some_iff]
  cases decisions.lookup (projectionKey (call.gatewayId, call.decisionId)) with
  | none => simp only [reduceCtorEq, false_and, exists_false]
  | some decision =>
    simp only [Option.some.injEq, exists_eq_left']
    split_ifs with hsession
    · exact iff_of_true rfl hsession
    · simp only [hsession]

theorem checkedTerminal_eq_ok_iff (hevents : Collects events E) (hdecisions : Collects decisions D)
    {row : RowMapping} {call : RecoveredTerminal} :
    checkedTerminal events decisions row = .ok call ↔ recoveredTerminal row = .ok call ∧
      Explained (fun name event ↦ (projectionKey name, event) ∈ E) call ∧
      ∃ decision, (projectionKey (call.gatewayId, call.decisionId), decision) ∈ D ∧
        decision.sessionId = call.sessionId := by
  simp only [checkedTerminal, bind_eq_ok_iff, checkTerminal_eq_ok_iff hevents,
    checkDecision_eq_ok_iff hdecisions, Except.ok.injEq, exists_const]
  constructor
  · rintro ⟨read, hread, hexplained, hdecided, rfl⟩
    exact ⟨hread, hexplained, hdecided⟩
  · exact fun ⟨hread, hexplained, hdecided⟩ ↦ ⟨call, hread, hexplained, hdecided, rfl⟩

end Loops

/-! ## What is collected -/

/-- A fingerprint, under the name of its event. -/
def fingerprintEntry (row : RowMapping) : Except Text ((Text × Text) × Text) := do
  let event ← recoveredEvent row
  .ok (event.name, event.contentHash)

def eventEntry : RowMapping → Except Text (Text × RecoveredEvent) :=
  keyed (fun event ↦ projectionKey event.name) recoveredEvent

def decisionEntry : RowMapping → Except Text (Text × RecoveredDecision) :=
  keyed (fun decision ↦ projectionKey decision.name) recoveredDecision

def terminalEntry : RowMapping → Except Text (Text × RecoveredTerminal) :=
  keyed (fun call ↦ projectionKey call.name) recoveredTerminal

theorem mem_readings_fingerprintEntry {rows : List RowMapping} {name : Text × Text} {hash : Text} :
    (name, hash) ∈ readings fingerprintEntry rows ↔
      ∃ event ∈ readings recoveredEvent rows, event.name = name ∧ event.contentHash = hash := by
  simp only [readings, fingerprintEntry, Set.mem_ofPred_eq, bind_eq_ok_iff, Except.ok.injEq,
    Prod.mk.injEq]
  constructor
  · rintro ⟨row, hrow, event, hread, hname, hhash⟩
    exact ⟨event, ⟨row, hrow, hread⟩, hname, hhash⟩
  · rintro ⟨event, ⟨row, hrow, hread⟩, hname, hhash⟩
    exact ⟨row, hrow, event, hread, hname, hhash⟩

/-- The entries of the projection are those of the rows. -/
structure Collected (eventRows decisionRows skillCallRows : List RowMapping)
    (projection : RecoveryProjection) : Prop where
  fingerprints : Collects projection.fingerprints (readings fingerprintEntry eventRows)
  events : Collects projection.eventsById (readings eventEntry eventRows)
  decisions : Collects projection.decisionsById (readings decisionEntry decisionRows)
  terminals : Collects projection.terminalBySkillCall (readings terminalEntry skillCallRows)
  decisionIds : projection.decisionIds = (projection.decisionsById.map (·.2.decisionId)).mergeSort
    fun a b ↦ a.codePoints ≤ b.codePoints

theorem isBlank_of_requiredString {row : RowMapping} {field : String} {value : Text}
    (h : requiredString row field = .ok value) : value.isBlank = false := by
  unfold requiredString at h
  split at h
  · split_ifs at h with hblank
    obtain rfl := Except.ok.inj h
    exact eq_false_of_ne_true hblank
  · cases h

/-- The registry takes the fingerprints of rows. -/
theorem eventFingerprintRegistry_eq_ok {rows : List RowMapping}
    {fingerprints : List ((Text × Text) × Text)}
    (h : Collects fingerprints (readings fingerprintEntry rows)) :
    eventFingerprintRegistry fingerprints = .ok fingerprints := by
  apply if_neg
  rw [Bool.not_eq_true, List.any_eq_false]
  intro entry hentry
  obtain ⟨event, ⟨row, -, hread⟩, hname, hhash⟩ :=
    mem_readings_fingerprintEntry.1 ((h.mem_iff entry).1 hentry)
  simp only [recoveredEvent, bind_eq_ok_iff, Except.ok.injEq] at hread
  obtain ⟨gatewayId, hgateway, eventId, hevent, contentHash, hcontent, _, _, _, _, _, _, _, _,
    rfl⟩ := hread
  rw [← hname, ← hhash]
  simp only [RecoveredEvent.name, isBlank_of_requiredString hgateway,
    isBlank_of_requiredString hevent, isBlank_of_requiredString hcontent, Bool.or_false,
    Bool.false_eq_true, not_false_eq_true]

theorem foldlM_keepEvent_eq_ok_iff {rows : List RowMapping}
    {s t : List ((Text × Text) × Text) × List (Text × RecoveredEvent)} :
    rows.foldlM keepEvent s = .ok t ↔
      rows.foldlM (collect fingerprintEntry fun entry ↦
        "conflicting event fingerprint " ++ entry.1.2) s.1 = .ok t.1 ∧
      rows.foldlM (collect eventEntry fun entry ↦ "conflicting event " ++ entry.2.eventId) s.2 =
        .ok t.2 := by
  apply foldlM_prod_eq_ok_iff
  intro s row t
  simp only [keepEvent, collect, fingerprintEntry, eventEntry, keyed, bind_eq_ok_iff,
    Except.ok.injEq]
  constructor
  · rintro ⟨event, hread, fingerprints, hfingerprints, events, hevents, rfl⟩
    exact ⟨⟨_, ⟨event, hread, rfl⟩, hfingerprints⟩, _, ⟨event, hread, rfl⟩, hevents⟩
  · rintro ⟨⟨_, ⟨event, hread, rfl⟩, hfingerprints⟩, _, ⟨other, hother, rfl⟩, hevents⟩
    obtain rfl := Except.ok.inj (hread.symm.trans hother)
    exact ⟨event, hread, t.1, hfingerprints, t.2, hevents, rfl⟩

section FromRows

variable {eventRows decisionRows skillCallRows : List RowMapping} {projection : RecoveryProjection}

theorem fromRows_eq_ok_iff : fromRows eventRows decisionRows skillCallRows = .ok projection ↔
    eventRows.foldlM keepEvent ([], []) =
        .ok (projection.fingerprints, projection.eventsById) ∧
      decisionRows.foldlM keepDecision [] = .ok projection.decisionsById ∧
      skillCallRows.foldlM (keepTerminal projection.eventsById projection.decisionsById) [] =
        .ok projection.terminalBySkillCall ∧
      projection.decisionIds = (projection.decisionsById.map (·.2.decisionId)).mergeSort
        fun a b ↦ a.codePoints ≤ b.codePoints := by
  simp only [fromRows, bind_eq_ok_iff, Except.ok.injEq]
  constructor
  · rintro ⟨⟨fingerprints, events⟩, hevents, decisions, hdecisions, terminals, hterminals, registry,
      hregistry, rfl⟩
    have hcollects := Collects.nil.foldlM (foldlM_keepEvent_eq_ok_iff.1 hevents).1
    rw [Set.empty_union] at hcollects
    obtain rfl := Except.ok.inj ((eventFingerprintRegistry_eq_ok hcollects).symm.trans hregistry)
    exact ⟨hevents, hdecisions, hterminals, rfl⟩
  · rintro ⟨hevents, hdecisions, hterminals, hids⟩
    have hcollects := Collects.nil.foldlM (foldlM_keepEvent_eq_ok_iff.1 hevents).1
    rw [Set.empty_union] at hcollects
    refine ⟨_, hevents, _, hdecisions, _, hterminals, _,
      eventFingerprintRegistry_eq_ok hcollects, ?_⟩
    rw [← hids]

/-- A call that passes its checks. -/
theorem checkedTerminal_of_collects {events : List (Text × RecoveredEvent)}
    {decisions : List (Text × RecoveredDecision)}
    (hevents : Collects events (readings eventEntry eventRows))
    (hdecisions : Collects decisions (readings decisionEntry decisionRows)) {row : RowMapping}
    {call : RecoveredTerminal} :
    checkedTerminal events decisions row = .ok call ↔ recoveredTerminal row = .ok call ∧
      Explained (fun name event ↦
        event ∈ readings recoveredEvent eventRows ∧ SameKey event.name name) call ∧
      ∃ decision ∈ readings recoveredDecision decisionRows,
        SameKey decision.name (call.gatewayId, call.decisionId) ∧
          decision.sessionId = call.sessionId := by
  rw [checkedTerminal_eq_ok_iff hevents hdecisions]
  simp only [eventEntry, decisionEntry, mem_readings_keyed, SameKey, and_assoc]

/-- The rows are recovered when, with names taken by their keys, they are consistent. -/
theorem exists_fromRows_iff :
    (∃ projection, fromRows eventRows decisionRows skillCallRows = .ok projection) ↔
      Consistent SameKey eventRows decisionRows skillCallRows := by
  constructor
  · rintro ⟨projection, hrows⟩
    obtain ⟨hevents, hdecisions, hterminals, -⟩ := fromRows_eq_ok_iff.1 hrows
    have heventEntries := (foldlM_keepEvent_eq_ok_iff.1 hevents).2
    obtain ⟨heventsRead, heventsAgree⟩ := exists_foldlM_keyed_iff.1 ⟨_, heventEntries⟩
    obtain ⟨hdecisionsRead, hdecisionsAgree⟩ := exists_foldlM_keyed_iff.1 ⟨_, hdecisions⟩
    obtain ⟨hchecked, hcallsAgree⟩ := exists_foldlM_keyed_iff.1 ⟨_, hterminals⟩
    simp only [checkedTerminal_of_collects (Collects.of_foldlM heventEntries)
      (Collects.of_foldlM hdecisions)] at hchecked
    have hread : ∀ row ∈ skillCallRows,
        checkedTerminal projection.eventsById projection.decisionsById row =
          recoveredTerminal row := by
      intro row hrow
      obtain ⟨call, hcall⟩ := hchecked row hrow
      exact ((checkedTerminal_of_collects (Collects.of_foldlM heventEntries)
        (Collects.of_foldlM hdecisions)).2 hcall).trans hcall.1.symm
    rw [readings_congr_read hread] at hcallsAgree
    refine ⟨heventsRead, hdecisionsRead, ?_, heventsAgree, hdecisionsAgree, hcallsAgree, ?_, ?_⟩
    · exact fun row hrow ↦ (hchecked row hrow).imp fun call hcall ↦ hcall.1
    · rintro call ⟨row, hrow, hcall⟩
      obtain ⟨call', hread', hexplained, -⟩ := hchecked row hrow
      obtain rfl := Except.ok.inj (hread'.symm.trans hcall)
      exact hexplained
    · rintro call ⟨row, hrow, hcall⟩
      obtain ⟨call', hread', -, hdecided⟩ := hchecked row hrow
      obtain rfl := Except.ok.inj (hread'.symm.trans hcall)
      exact hdecided
  · intro h
    have hfingerprints : ∃ fingerprints, eventRows.foldlM (collect fingerprintEntry fun entry ↦
        "conflicting event fingerprint " ++ entry.1.2) [] = .ok fingerprints := by
      rw [Collects.nil.exists_foldlM_iff, Set.empty_union]
      constructor
      · intro row hrow
        obtain ⟨event, hread⟩ := h.eventsRead row hrow
        exact ⟨_, bind_eq_ok_iff.2 ⟨event, hread, rfl⟩⟩
      · intro name hash hash' hentry hentry'
        obtain ⟨event, hevent, rfl, rfl⟩ := mem_readings_fingerprintEntry.1 hentry
        obtain ⟨event', hevent', hname, rfl⟩ := mem_readings_fingerprintEntry.1 hentry'
        rw [h.eventsAgree event hevent event' hevent' (congrArg projectionKey hname.symm)]
    have hevents : ∃ events, eventRows.foldlM (collect eventEntry fun entry ↦
        "conflicting event " ++ entry.2.eventId) [] = .ok events :=
      exists_foldlM_keyed_iff.2 ⟨h.eventsRead, h.eventsAgree⟩
    have hdecisions : ∃ decisions, decisionRows.foldlM keepDecision [] = .ok decisions :=
      exists_foldlM_keyed_iff.2 ⟨h.decisionsRead, h.decisionsAgree⟩
    obtain ⟨fingerprints, hfingerprints⟩ := hfingerprints
    obtain ⟨events, hevents⟩ := hevents
    obtain ⟨decisions, hdecisions⟩ := hdecisions
    have hread : ∀ row ∈ skillCallRows,
        checkedTerminal events decisions row = recoveredTerminal row := by
      intro row hrow
      obtain ⟨call, hcall⟩ := h.callsRead row hrow
      rw [hcall, checkedTerminal_of_collects (Collects.of_foldlM hevents)
        (Collects.of_foldlM hdecisions)]
      exact ⟨hcall, h.explained call ⟨row, hrow, hcall⟩, h.decided call ⟨row, hrow, hcall⟩⟩
    have hterminals : ∃ terminals,
        skillCallRows.foldlM (keepTerminal events decisions) [] = .ok terminals := by
      apply exists_foldlM_keyed_iff.2
      rw [readings_congr_read hread]
      refine ⟨fun row hrow ↦ ?_, h.callsAgree⟩
      rw [hread row hrow]
      exact h.callsRead row hrow
    obtain ⟨terminals, hterminals⟩ := hterminals
    let decisionIds := (decisions.map (·.2.decisionId)).mergeSort fun a b ↦
      a.codePoints ≤ b.codePoints
    exact ⟨⟨fingerprints, events, decisions, terminals, decisionIds⟩, fromRows_eq_ok_iff.2
      ⟨foldlM_keepEvent_eq_ok_iff.2 ⟨hfingerprints, hevents⟩, hdecisions, hterminals, rfl⟩⟩

/-- What is recovered is what the rows say. -/
theorem collected_of_fromRows
    (hrows : fromRows eventRows decisionRows skillCallRows = .ok projection) :
    Collected eventRows decisionRows skillCallRows projection := by
  have h := exists_fromRows_iff.1 ⟨_, hrows⟩
  obtain ⟨hevents, hdecisions, hterminals, hids⟩ := fromRows_eq_ok_iff.1 hrows
  obtain ⟨hfingerprints, heventEntries⟩ := foldlM_keepEvent_eq_ok_iff.1 hevents
  have hread : ∀ row ∈ skillCallRows,
      keyed (fun call ↦ projectionKey call.name)
        (checkedTerminal projection.eventsById projection.decisionsById) row =
        terminalEntry row := by
    intro row hrow
    obtain ⟨call, hcall⟩ := h.callsRead row hrow
    have hchecked := (checkedTerminal_of_collects (Collects.of_foldlM heventEntries)
      (Collects.of_foldlM hdecisions)).2
      ⟨hcall, h.explained call ⟨row, hrow, hcall⟩, h.decided call ⟨row, hrow, hcall⟩⟩
    simp only [terminalEntry, keyed, hchecked, hcall]
  refine ⟨Collects.of_foldlM hfingerprints, Collects.of_foldlM heventEntries,
    Collects.of_foldlM hdecisions, ?_, hids⟩
  rw [← readings_congr_read hread]
  exact Collects.of_foldlM hterminals

end FromRows

/-! ## Order and number do not matter -/

/-- The projections have the same under each key, and the same identifiers of decisions. -/
structure SameMaps (projection projection' : RecoveryProjection) : Prop where
  fingerprints : ∀ name, projection.fingerprints.lookup name = projection'.fingerprints.lookup name
  events : ∀ key, projection.eventsById.lookup key = projection'.eventsById.lookup key
  decisions : ∀ key, projection.decisionsById.lookup key = projection'.decisionsById.lookup key
  terminals : ∀ key,
    projection.terminalBySkillCall.lookup key = projection'.terminalBySkillCall.lookup key
  decisionIds : projection.decisionIds = projection'.decisionIds

section Congruence

variable {eventRows decisionRows skillCallRows : List RowMapping}
  {eventRows' decisionRows' skillCallRows' : List RowMapping}
  {projection projection' : RecoveryProjection}

theorem Consistent.congr {same : Text × Text → Text × Text → Prop}
    (hevents : ∀ row, row ∈ eventRows ↔ row ∈ eventRows')
    (hdecisions : ∀ row, row ∈ decisionRows ↔ row ∈ decisionRows')
    (hcalls : ∀ row, row ∈ skillCallRows ↔ row ∈ skillCallRows')
    (h : Consistent same eventRows decisionRows skillCallRows) :
    Consistent same eventRows' decisionRows' skillCallRows' := by
  obtain ⟨hread, hread', hread'', hagree, hagree', hagree'', hexplained, hdecided⟩ := h
  simp only [hevents, hdecisions, hcalls] at hread hread' hread''
  simp only [readings_congr hevents, readings_congr hdecisions, readings_congr hcalls]
    at hagree hagree' hagree'' hexplained hdecided
  exact ⟨hread, hread', hread'', hagree, hagree', hagree'', hexplained, hdecided⟩

theorem decisionIds_sorted_congr {ids ids' : List Text} (h : ids.Perm ids') :
    (ids.mergeSort fun a b ↦ a.codePoints ≤ b.codePoints) =
      ids'.mergeSort fun a b ↦ a.codePoints ≤ b.codePoints := by
  have hsorted (ids : List Text) : (ids.mergeSort fun a b ↦ a.codePoints ≤ b.codePoints).Pairwise
      fun a b ↦ decide (a.codePoints ≤ b.codePoints) = true := by
    apply List.pairwise_mergeSort
    · intro a b c hab hbc
      exact decide_eq_true (le_trans (of_decide_eq_true hab) (of_decide_eq_true hbc))
    · intro a b
      rw [Bool.or_eq_true, decide_eq_true_eq, decide_eq_true_eq]
      exact le_total _ _
  refine List.Perm.eq_of_pairwise ?_ (hsorted ids) (hsorted ids')
    ((List.mergeSort_perm _ _).trans (h.trans (List.mergeSort_perm _ _).symm))
  intro a b _ _ hab hba
  exact congrArg Text.mk (le_antisymm (of_decide_eq_true hab) (of_decide_eq_true hba))

theorem Collected.sameMaps (hevents : ∀ row, row ∈ eventRows ↔ row ∈ eventRows')
    (hdecisions : ∀ row, row ∈ decisionRows ↔ row ∈ decisionRows')
    (hcalls : ∀ row, row ∈ skillCallRows ↔ row ∈ skillCallRows')
    (h : Collected eventRows decisionRows skillCallRows projection)
    (h' : Collected eventRows' decisionRows' skillCallRows' projection') :
    SameMaps projection projection' := by
  obtain ⟨hfingerprints', hevents', hdecisions', hterminals', hids'⟩ := h'
  rw [← readings_congr hevents] at hfingerprints' hevents'
  rw [← readings_congr hdecisions] at hdecisions'
  rw [← readings_congr hcalls] at hterminals'
  refine ⟨h.fingerprints.lookup_congr hfingerprints', h.events.lookup_congr hevents',
    h.decisions.lookup_congr hdecisions', h.terminals.lookup_congr hterminals', ?_⟩
  rw [h.decisionIds, hids']
  exact decisionIds_sorted_congr ((h.decisions.perm hdecisions').map _)

end Congruence

/-! ## Names -/

/-- The names of the events that the rows tell or refer to. -/
def eventNames (eventRows skillCallRows : List RowMapping) : Set (Text × Text) :=
  {name | (∃ event ∈ readings recoveredEvent eventRows, event.name = name) ∨
    ∃ call ∈ readings recoveredTerminal skillCallRows, ∃ eventId ∈ call.terminalEventId,
      (call.gatewayId, eventId) = name}

def decisionNames (decisionRows skillCallRows : List RowMapping) : Set (Text × Text) :=
  {name | (∃ decision ∈ readings recoveredDecision decisionRows, decision.name = name) ∨
    ∃ call ∈ readings recoveredTerminal skillCallRows, (call.gatewayId, call.decisionId) = name}

def callNames (skillCallRows : List RowMapping) : Set (Text × Text) :=
  {name | ∃ call ∈ readings recoveredTerminal skillCallRows, call.name = name}

/-- Different names have different keys. -/
structure KeysApart (eventRows decisionRows skillCallRows : List RowMapping) : Prop where
  events : Set.InjOn projectionKey (eventNames eventRows skillCallRows)
  decisions : Set.InjOn projectionKey (decisionNames decisionRows skillCallRows)
  calls : Set.InjOn projectionKey (callNames skillCallRows)

/-- A gateway without a colon in its name is told from the key. -/
theorem projectionKey_inj {name name' : Text × Text} (h : 0x3A ∉ name.1.codePoints)
    (h' : 0x3A ∉ name'.1.codePoints) (hkey : projectionKey name = projectionKey name') :
    name = name' := by
  have hpoints := congrArg Text.codePoints hkey
  have hcolon (name : Text × Text) : (projectionKey name).codePoints =
      name.1.codePoints ++ 0x3A :: name.2.codePoints := by
    change (name.1.codePoints ++ [0x3A]) ++ name.2.codePoints = _
    rw [List.append_assoc, List.singleton_append]
  rw [hcolon, hcolon] at hpoints
  obtain ⟨hgateway, hidentifier⟩ := append_cons_inj h h' hpoints
  exact Prod.ext (congrArg Text.mk hgateway) (congrArg Text.mk hidentifier)

theorem eq_str_of_requiredString {row : RowMapping} {field : String} {value : Text}
    (h : requiredString row field = .ok value) : row field = .str value := by
  unfold requiredString at h
  split at h
  · rename_i text heq
    split_ifs at h
    rw [heq, Except.ok.inj h]
  · cases h

theorem gateway_of_recoveredEvent {row : RowMapping} {event : RecoveredEvent}
    (h : recoveredEvent row = .ok event) : row "gateway_id" = .str event.gatewayId := by
  simp only [recoveredEvent, bind_eq_ok_iff, Except.ok.injEq] at h
  obtain ⟨gatewayId, hgateway, _, _, _, _, _, _, _, _, _, _, _, _, rfl⟩ := h
  exact eq_str_of_requiredString hgateway

theorem gateway_of_recoveredDecision {row : RowMapping} {decision : RecoveredDecision}
    (h : recoveredDecision row = .ok decision) : row "gateway_id" = .str decision.gatewayId := by
  simp only [recoveredDecision, bind_eq_ok_iff, Except.ok.injEq] at h
  obtain ⟨gatewayId, hgateway, _, _, _, _, _, _, _, _, rfl⟩ := h
  exact eq_str_of_requiredString hgateway

theorem gateway_of_recoveredTerminal {row : RowMapping} {call : RecoveredTerminal}
    (h : recoveredTerminal row = .ok call) : row "gateway_id" = .str call.gatewayId := by
  simp only [recoveredTerminal, bind_eq_ok_iff, Except.ok.injEq] at h
  obtain ⟨_, _, gatewayId, hgateway, _, _, _, _, _, _, _, _, rfl⟩ := h
  exact eq_str_of_requiredString hgateway

/-- The gateway of the row has no colon in its name. -/
def IsPlain (row : RowMapping) : Prop :=
  ∀ gatewayId, row "gateway_id" = .str gatewayId → 0x3A ∉ gatewayId.codePoints

/-- Keys of gateways without a colon are apart. -/
theorem keysApart_of_plain {eventRows decisionRows skillCallRows : List RowMapping}
    (hevents : ∀ row ∈ eventRows, IsPlain row) (hdecisions : ∀ row ∈ decisionRows, IsPlain row)
    (hcalls : ∀ row ∈ skillCallRows, IsPlain row) :
    KeysApart eventRows decisionRows skillCallRows := by
  have hinj : ∀ names : Set (Text × Text), (∀ name ∈ names, 0x3A ∉ name.1.codePoints) →
      Set.InjOn projectionKey names :=
    fun names hplain name hname name' hname' hkey ↦
      projectionKey_inj (hplain name hname) (hplain name' hname') hkey
  constructor
  · apply hinj
    rintro name (⟨event, ⟨row, hrow, hread⟩, rfl⟩ | ⟨call, ⟨row, hrow, hread⟩, eventId, -, rfl⟩)
    · exact hevents row hrow _ (gateway_of_recoveredEvent hread)
    · exact hcalls row hrow _ (gateway_of_recoveredTerminal hread)
  · apply hinj
    rintro name (⟨decision, ⟨row, hrow, hread⟩, rfl⟩ | ⟨call, ⟨row, hrow, hread⟩, rfl⟩)
    · exact hdecisions row hrow _ (gateway_of_recoveredDecision hread)
    · exact hcalls row hrow _ (gateway_of_recoveredTerminal hread)
  · apply hinj
    rintro name ⟨call, ⟨row, hrow, hread⟩, rfl⟩
    exact hcalls row hrow _ (gateway_of_recoveredTerminal hread)

theorem Explained.imp {found found' : Text × Text → RecoveredEvent → Prop}
    {call : RecoveredTerminal} (h : Explained found call)
    (himp : ∀ eventId ∈ call.terminalEventId, ∀ event, found (call.gatewayId, eventId) event →
      found' (call.gatewayId, eventId) event) : Explained found' call := by
  unfold Explained at h ⊢
  split_ifs at h ⊢
  · exact h
  · obtain ⟨eventId, hterminal, event, hfound, htold⟩ := h
    exact ⟨eventId, hterminal, event, himp eventId hterminal event hfound, htold⟩

section KeysApart

variable {eventRows decisionRows skillCallRows : List RowMapping} {projection : RecoveryProjection}

/-- Names may be taken by their keys. -/
theorem KeysApart.consistent_iff (h : KeysApart eventRows decisionRows skillCallRows) :
    Consistent SameKey eventRows decisionRows skillCallRows ↔
      Consistent Eq eventRows decisionRows skillCallRows := by
  constructor
  · intro hkeys
    refine ⟨hkeys.eventsRead, hkeys.decisionsRead, hkeys.callsRead, ?_, ?_, ?_, ?_, ?_⟩
    · exact fun event hevent event' hevent' hname ↦
        hkeys.eventsAgree event hevent event' hevent' (congrArg projectionKey hname)
    · exact fun decision hdecision decision' hdecision' hname ↦
        hkeys.decisionsAgree decision hdecision decision' hdecision' (congrArg projectionKey hname)
    · exact fun call hcall call' hcall' hname ↦
        hkeys.callsAgree call hcall call' hcall' (congrArg projectionKey hname)
    · intro call hcall
      apply (hkeys.explained call hcall).imp
      rintro eventId heventId event ⟨hevent, hkey⟩
      exact ⟨hevent, h.events (Or.inl ⟨event, hevent, rfl⟩)
        (Or.inr ⟨call, hcall, eventId, heventId, rfl⟩) hkey⟩
    · intro call hcall
      obtain ⟨decision, hdecision, hkey, hsession⟩ := hkeys.decided call hcall
      exact ⟨decision, hdecision, h.decisions (Or.inl ⟨decision, hdecision, rfl⟩)
        (Or.inr ⟨call, hcall, rfl⟩) hkey, hsession⟩
  · intro hnames
    refine ⟨hnames.eventsRead, hnames.decisionsRead, hnames.callsRead, ?_, ?_, ?_, ?_, ?_⟩
    · intro event hevent event' hevent' hkey
      exact hnames.eventsAgree event hevent event' hevent' (h.events (Or.inl ⟨event, hevent, rfl⟩)
        (Or.inl ⟨event', hevent', rfl⟩) hkey)
    · intro decision hdecision decision' hdecision' hkey
      exact hnames.decisionsAgree decision hdecision decision' hdecision'
        (h.decisions (Or.inl ⟨decision, hdecision, rfl⟩) (Or.inl ⟨decision', hdecision', rfl⟩) hkey)
    · intro call hcall call' hcall' hkey
      exact hnames.callsAgree call hcall call' hcall'
        (h.calls ⟨call, hcall, rfl⟩ ⟨call', hcall', rfl⟩ hkey)
    · intro call hcall
      apply (hnames.explained call hcall).imp
      rintro eventId - event ⟨hevent, hname⟩
      exact ⟨hevent, congrArg projectionKey hname⟩
    · intro call hcall
      obtain ⟨decision, hdecision, hname, hsession⟩ := hnames.decided call hcall
      exact ⟨decision, hdecision, congrArg projectionKey hname, hsession⟩

/-- What is found under the key of a name is what the rows of the name say. -/
theorem KeysApart.lookup_event (h : KeysApart eventRows decisionRows skillCallRows)
    (hcollected : Collected eventRows decisionRows skillCallRows projection) {name : Text × Text}
    (hname : name ∈ eventNames eventRows skillCallRows) {event : RecoveredEvent} :
    projection.eventsById.lookup (projectionKey name) = some event ↔
      event ∈ readings recoveredEvent eventRows ∧ event.name = name := by
  rw [hcollected.events.lookup_eq_some_iff, eventEntry, mem_readings_keyed]
  exact and_congr_right fun hevent ↦ h.events.eq_iff (Or.inl ⟨event, hevent, rfl⟩) hname

theorem KeysApart.lookup_decision (h : KeysApart eventRows decisionRows skillCallRows)
    (hcollected : Collected eventRows decisionRows skillCallRows projection) {name : Text × Text}
    (hname : name ∈ decisionNames decisionRows skillCallRows) {decision : RecoveredDecision} :
    projection.decisionsById.lookup (projectionKey name) = some decision ↔
      decision ∈ readings recoveredDecision decisionRows ∧ decision.name = name := by
  rw [hcollected.decisions.lookup_eq_some_iff, decisionEntry, mem_readings_keyed]
  exact and_congr_right fun hdecision ↦
    h.decisions.eq_iff (Or.inl ⟨decision, hdecision, rfl⟩) hname

theorem KeysApart.lookup_terminal (h : KeysApart eventRows decisionRows skillCallRows)
    (hcollected : Collected eventRows decisionRows skillCallRows projection) {name : Text × Text}
    (hname : name ∈ callNames skillCallRows) {call : RecoveredTerminal} :
    projection.terminalBySkillCall.lookup (projectionKey name) = some call ↔
      call ∈ readings recoveredTerminal skillCallRows ∧ call.name = name := by
  rw [hcollected.terminals.lookup_eq_some_iff, terminalEntry, mem_readings_keyed]
  exact and_congr_right fun hcall ↦ h.calls.eq_iff ⟨call, hcall, rfl⟩ hname

end KeysApart

/-! ## Recovery -/

/-- Rows in another order or number are recovered as the rows are, or not at all like them. Rows
whose keys tell their names apart are recovered when they are consistent, and each name from its
own rows. -/
theorem rows_recovered {eventRows decisionRows skillCallRows : List RowMapping}
    {eventRows' decisionRows' skillCallRows' : List RowMapping}
    (hevents : ∀ row, row ∈ eventRows ↔ row ∈ eventRows')
    (hdecisions : ∀ row, row ∈ decisionRows ↔ row ∈ decisionRows')
    (hcalls : ∀ row, row ∈ skillCallRows ↔ row ∈ skillCallRows') :
    ((∃ projection, fromRows eventRows decisionRows skillCallRows = .ok projection) ↔
      ∃ projection, fromRows eventRows' decisionRows' skillCallRows' = .ok projection) ∧
    (∀ projection projection',
      fromRows eventRows decisionRows skillCallRows = .ok projection →
      fromRows eventRows' decisionRows' skillCallRows' = .ok projection' →
        SameMaps projection projection') ∧
    (KeysApart eventRows decisionRows skillCallRows →
      ((∃ projection, fromRows eventRows decisionRows skillCallRows = .ok projection) ↔
        Consistent Eq eventRows decisionRows skillCallRows) ∧
      ∀ projection, fromRows eventRows decisionRows skillCallRows = .ok projection →
        (∀ name hash, projection.fingerprints.lookup name = some hash ↔
          ∃ event ∈ readings recoveredEvent eventRows,
            event.name = name ∧ event.contentHash = hash) ∧
        (∀ name ∈ eventNames eventRows skillCallRows, ∀ event,
          projection.eventsById.lookup (projectionKey name) = some event ↔
            event ∈ readings recoveredEvent eventRows ∧ event.name = name) ∧
        (∀ name ∈ decisionNames decisionRows skillCallRows, ∀ decision,
          projection.decisionsById.lookup (projectionKey name) = some decision ↔
            decision ∈ readings recoveredDecision decisionRows ∧ decision.name = name) ∧
        (∀ name ∈ callNames skillCallRows, ∀ call,
          projection.terminalBySkillCall.lookup (projectionKey name) = some call ↔
            call ∈ readings recoveredTerminal skillCallRows ∧ call.name = name) ∧
        ∀ decisionId, decisionId ∈ projection.decisionIds ↔
          ∃ decision ∈ readings recoveredDecision decisionRows,
            decision.decisionId = decisionId) := by
  refine ⟨?_, ?_, fun hapart ↦ ⟨?_, fun projection hrows ↦ ?_⟩⟩
  · rw [exists_fromRows_iff, exists_fromRows_iff]
    constructor
    · exact Consistent.congr hevents hdecisions hcalls
    · exact Consistent.congr (fun row ↦ (hevents row).symm) (fun row ↦ (hdecisions row).symm)
        fun row ↦ (hcalls row).symm
  · intro projection projection' hrows hrows'
    exact (collected_of_fromRows hrows).sameMaps hevents hdecisions hcalls
      (collected_of_fromRows hrows')
  · rw [exists_fromRows_iff, hapart.consistent_iff]
  · have h := collected_of_fromRows hrows
    refine ⟨fun name hash ↦ ?_, fun name hname event ↦ hapart.lookup_event h hname,
      fun name hname decision ↦ hapart.lookup_decision h hname,
      fun name hname call ↦ hapart.lookup_terminal h hname, fun decisionId ↦ ?_⟩
    · rw [h.fingerprints.lookup_eq_some_iff, mem_readings_fingerprintEntry]
    · rw [h.decisionIds, List.mem_mergeSort, List.mem_map]
      constructor
      · rintro ⟨⟨key, decision⟩, hentry, rfl⟩
        have hdecision := (h.decisions.mem_iff _).1 hentry
        rw [decisionEntry, mem_readings_keyed] at hdecision
        exact ⟨decision, hdecision.1, rfl⟩
      · rintro ⟨decision, hdecision, rfl⟩
        exact ⟨(projectionKey decision.name, decision), (h.decisions.mem_iff _).2
          (mem_readings_keyed.2 ⟨hdecision, rfl⟩), rfl⟩

section Example

def rowOf (fields : List (String × Json)) : RowMapping := fun field ↦
  (fields.lookup field).getD .null

def finishedRow : RowMapping := rowOf [("gateway_id", .str "gateway-1"),
  ("event_id", .str "event-1"), ("content_hash", .str "a"), ("event_type", .str "skill_finished"),
  ("session_id", .str "session-1"), ("control_generation", .int 1), ("status", .str "succeeded")]

def startedRow : RowMapping := rowOf [("gateway_id", .str "gateway-1"),
  ("event_id", .str "event-0"), ("content_hash", .str "b"), ("event_type", .str "session_started"),
  ("session_id", .str "session-1"), ("control_generation", .int 1), ("status", .str "succeeded")]

def decisionRow (gatewayId decisionId : Text) : RowMapping := rowOf [("gateway_id", .str gatewayId),
  ("decision_id", .str decisionId), ("session_id", .str "session-1"),
  ("control_generation", .int 1), ("status", .str "accepted")]

def callRow (status : Text) (terminalEventId : Json) : RowMapping :=
  rowOf [("gateway_id", .str "gateway-1"), ("skill_call_id", .str "call-1"),
    ("decision_id", .str "decision-1"), ("session_id", .str "session-1"),
    ("terminal_event_id", terminalEventId), ("status", .str status)]

theorem rows_recovered_again :
    (∃ projection, fromRows [startedRow, finishedRow, startedRow]
      [decisionRow "gateway-1" "decision-1", decisionRow "gateway-1" "decision-1"]
      [callRow "succeeded" (.str "event-1")] = .ok projection) ∧
    (∀ projection projection',
      fromRows [finishedRow, startedRow] [decisionRow "gateway-1" "decision-1"]
        [callRow "succeeded" (.str "event-1")] = .ok projection →
      fromRows [startedRow, finishedRow, startedRow]
        [decisionRow "gateway-1" "decision-1", decisionRow "gateway-1" "decision-1"]
        [callRow "succeeded" (.str "event-1")] = .ok projection' →
      SameMaps projection projection') ∧
    Consistent Eq [finishedRow, startedRow] [decisionRow "gateway-1" "decision-1"]
      [callRow "succeeded" (.str "event-1")] := by
  obtain ⟨hexists, hsame, hapart⟩ := @rows_recovered [finishedRow, startedRow]
    [decisionRow "gateway-1" "decision-1"] [callRow "succeeded" (.str "event-1")]
    [startedRow, finishedRow, startedRow]
    [decisionRow "gateway-1" "decision-1", decisionRow "gateway-1" "decision-1"]
    [callRow "succeeded" (.str "event-1")] (by grind) (by grind) (fun _ ↦ Iff.rfl)
  have hplain : ∀ row : RowMapping, row "gateway_id" = .str "gateway-1" → IsPlain row := by
    intro row hrow gatewayId hgateway
    rw [hrow, Json.str.injEq] at hgateway
    rw [← hgateway]
    decide
  have hrecovered : ∃ projection, fromRows [finishedRow, startedRow]
      [decisionRow "gateway-1" "decision-1"] [callRow "succeeded" (.str "event-1")] =
        .ok projection := isOk_iff.1 (by decide)
  refine ⟨hexists.1 hrecovered, hsame, (hapart ?_).1.1 hrecovered⟩
  apply keysApart_of_plain
  · simp only [List.forall_mem_cons]
    exact ⟨hplain _ rfl, hplain _ rfl, List.forall_mem_nil _⟩
  · simp only [List.forall_mem_cons]
    exact ⟨hplain _ rfl, List.forall_mem_nil _⟩
  · simp only [List.forall_mem_cons]
    exact ⟨hplain _ rfl, List.forall_mem_nil _⟩

/-- Decisions of two gateways have the same key and stop the recovery of each other. A row without
an identifier is refused by itself, as is an open call without its decision. -/
theorem rows_interfere :
    ((fromRows [] [decisionRow "a:b" "c"] []).isOk = true ∧
      (fromRows [] [decisionRow "a" "b:c"] []).isOk = true ∧
      (fromRows [] [decisionRow "a:b" "c", decisionRow "a" "b:c"] []).isOk = false) ∧
    (fromRows [] [decisionRow "gateway-1" " "] []).isOk = false ∧
    (fromRows [] [] [callRow "pending" .null]).isOk = false := by
  decide

end Example

end LlmGateway.RowMappings
