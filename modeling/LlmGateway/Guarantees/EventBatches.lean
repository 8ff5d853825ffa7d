import LlmGateway.EventQueue.Enqueue
import LlmGateway.Relational.Transition
import Mathlib.Data.List.Nodup
import Mathlib.Data.List.TakeWhile

/-!
# Batches that are served

A batch is all enqueued or not at all, and its events are found again later, as long as the events
before a failing one are known, unknown ones have different ids, and an event that comes again
comes with the same trace and gateway.
-/

namespace LlmGateway.EventQueue

open Relational

variable {η : Type} [DecidableEq η] {sha256 : EventRecord → Option η} {batch : Batch} {s : Store η}

namespace Store

/-- The event id has a key. -/
def Known (s : Store η) (id : String) : Prop := (s.keys.lookup id).isSome = true

instance (s : Store η) : DecidablePred s.Known := fun id ↦
  inferInstanceAs (Decidable ((s.keys.lookup id).isSome = true))

/-- How often the event id is in the stream. -/
def count (s : Store η) (id : String) : ℕ := s.stream.countP fun record ↦ record.event.eventId = id

end Store

/-- The event ends the loop with an error. -/
def Fails (sha256 : EventRecord → Option η) (batch : Batch) (s : Store η)
    (attempt : Event × Bool) : Prop :=
  attempt.1.idsAreValid = false ∨ sha256 (batch.record attempt.1) = none ∨ attempt.2 = true ∨
    ∃ existing ∈ s.keys.lookup attempt.1.eventId,
      sha256 (batch.record attempt.1) ≠ some existing

instance (sha256 : EventRecord → Option η) (batch : Batch) (s : Store η) :
    DecidablePred (Fails sha256 batch s) := fun _ ↦
  inferInstanceAs (Decidable (_ ∨ _ ∨ _ ∨ ∃ _ ∈ _, _))

/-- The store with one event more. -/
def Store.add (s : Store η) (hash : η) (record : EventRecord) : Store η :=
  ⟨(record.event.eventId, hash) :: s.keys, record :: s.stream⟩

/-! ## One event -/

theorem handleEvent_of_fails {attempt : Event × Bool} (h : Fails sha256 batch s attempt) :
    ∃ code status, handleEvent sha256 batch s attempt.1 attempt.2 =
      (.error (.error code status), s) := by
  unfold handleEvent
  by_cases hvalid : attempt.1.idsAreValid = false
  · rw [if_pos hvalid]
    exact ⟨_, _, rfl⟩
  rw [if_neg hvalid]
  cases hhash : sha256 (batch.record attempt.1) with
  | none => exact ⟨_, _, rfl⟩
  | some hash =>
    by_cases hfails : attempt.2 = true
    · simp only [if_pos hfails]
      exact ⟨_, _, rfl⟩
    · obtain hinvalid | hnone | hscript | ⟨existing, hexisting, hne⟩ := h
      · exact absurd hinvalid hvalid
      · cases hhash.symm.trans hnone
      · exact absurd hscript hfails
      · have hdifferent : ¬existing = hash := fun heq ↦ hne (by rw [hhash, heq])
        have hlookup : s.keys.lookup (batch.record attempt.1).event.eventId = some existing :=
          hexisting
        simp only [if_neg hfails, Store.enqueue, hlookup, if_neg hdifferent]
        exact ⟨_, _, rfl⟩

theorem handleEvent_of_not_fails {attempt : Event × Bool} (h : ¬Fails sha256 batch s attempt) :
    ∃ hash, sha256 (batch.record attempt.1) = some hash ∧
      ((s.keys.lookup attempt.1.eventId = some hash ∧
        handleEvent sha256 batch s attempt.1 attempt.2 = (.ok .duplicate, s)) ∨
      (¬s.Known attempt.1.eventId ∧ handleEvent sha256 batch s attempt.1 attempt.2 =
        (.ok .accepted, s.add hash (batch.record attempt.1)))) := by
  unfold Fails at h
  push Not at h
  obtain ⟨hvalid, hsome, hfails, hsame⟩ := h
  obtain ⟨hash, hhash⟩ := Option.ne_none_iff_exists'.1 hsome
  refine ⟨hash, hhash, ?_⟩
  unfold handleEvent
  rw [if_neg hvalid, hhash]
  simp only [if_neg hfails]
  cases hlookup : s.keys.lookup attempt.1.eventId with
  | some existing =>
    have heq : hash = existing := Option.some.inj (hhash.symm.trans (hsame existing hlookup))
    have hlookup' : s.keys.lookup (batch.record attempt.1).event.eventId = some existing := hlookup
    refine Or.inl ⟨by rw [heq], ?_⟩
    simp only [Store.enqueue, hlookup', if_pos heq.symm]
  | none =>
    have hlookup' : s.keys.lookup (batch.record attempt.1).event.eventId = none := hlookup
    refine Or.inr ⟨?_, ?_⟩
    · rw [Store.Known, hlookup]
      exact Bool.false_ne_true
    · simp only [Store.enqueue, hlookup']
      rfl

omit [DecidableEq η] in
theorem lookup_add {hash : η} {record : EventRecord} {id : String} :
    (s.add hash record).keys.lookup id =
      if id = record.event.eventId then some hash else s.keys.lookup id := by
  rw [Store.add, List.lookup_cons]
  by_cases heq : id = record.event.eventId
  · rw [if_pos heq, beq_iff_eq.2 heq]
  · rw [if_neg heq, beq_eq_false_iff_ne.2 heq]

omit [DecidableEq η] in
theorem count_add {hash : η} {record : EventRecord} {id : String} :
    (s.add hash record).count id = s.count id + if record.event.eventId = id then 1 else 0 := by
  rw [Store.count, Store.add, List.countP_cons]
  simp only [decide_eq_true_eq]
  rfl

/-! ## The loop -/

/-- The ids of the attempts, those with a key and those without. -/
def knownIds (s : Store η) (attempts : List (Event × Bool)) : List String :=
  (attempts.map (·.1.eventId)).filter fun id ↦ s.Known id

def newIds (s : Store η) (attempts : List (Event × Bool)) : List String :=
  (attempts.map (·.1.eventId)).filter fun id ↦ ¬s.Known id

/-- The events before a failing one are found again, and the loop ends at it. -/
theorem handleEvents_of_fails {before after : List (Event × Bool)} {attempt : Event × Bool}
    {received duplicate : List String} (hbefore : ∀ x ∈ before, ¬Fails sha256 batch s x)
    (hknown : ∀ x ∈ before, s.Known x.1.eventId) (hfails : Fails sha256 batch s attempt) :
    ∃ code status, handleEvents sha256 batch s received duplicate (before ++ attempt :: after) =
      (.error code status, s) := by
  induction before generalizing duplicate with
  | nil =>
    obtain ⟨code, status, hevent⟩ := handleEvent_of_fails hfails
    refine ⟨code, status, ?_⟩
    obtain ⟨event, fails⟩ := attempt
    simp only [List.nil_append, handleEvents, hevent]
  | cons x before ih =>
    obtain ⟨hx, hrest⟩ := List.forall_mem_cons.1 hbefore
    obtain ⟨hxknown, hrestknown⟩ := List.forall_mem_cons.1 hknown
    obtain ⟨hash, -, ⟨-, hevent⟩ | ⟨hnot, -⟩⟩ := handleEvent_of_not_fails hx
    · obtain ⟨code, status, hloop⟩ := @ih (duplicate ++ [x.1.eventId]) hrest hrestknown
      refine ⟨code, status, ?_⟩
      obtain ⟨event, fails⟩ := x
      simp only [List.cons_append, handleEvents, hevent, hloop]
    · exact absurd hxknown hnot

/-- What is left of a loop without a failing event. -/
structure Enqueued (sha256 : EventRecord → Option η) (batch : Batch) (s s' : Store η)
    (attempts : List (Event × Bool)) : Prop where
  kept : ∀ id, s.Known id → s'.keys.lookup id = s.keys.lookup id
  stored : ∀ x ∈ attempts, ∃ hash, sha256 (batch.record x.1) = some hash ∧
    s'.keys.lookup x.1.eventId = some hash
  count : ∀ id, s'.count id = s.count id + if id ∈ newIds s attempts then 1 else 0

theorem handleEvents_of_not_fails {attempts : List (Event × Bool)}
    {received duplicate : List String} (hfine : ∀ x ∈ attempts, ¬Fails sha256 batch s x)
    (hnodup : (newIds s attempts).Nodup) :
    ∃ s', handleEvents sha256 batch s received duplicate attempts =
        (.received batch.traceId (received ++ newIds s attempts)
          (duplicate ++ knownIds s attempts), s') ∧
      Enqueued sha256 batch s s' attempts := by
  induction attempts generalizing s received duplicate with
  | nil =>
    refine ⟨s, by simp [handleEvents, newIds, knownIds], ?_⟩
    constructor
    case kept => exact fun _ _ ↦ rfl
    case stored => exact fun x hx ↦ absurd hx List.not_mem_nil
    case count => exact fun id ↦ rfl
  | cons x attempts ih =>
    obtain ⟨hx, hrest⟩ := List.forall_mem_cons.1 hfine
    obtain ⟨hash, hhash, ⟨hlookup, hevent⟩ | ⟨hnot, hevent⟩⟩ := handleEvent_of_not_fails hx
    · have hknown : s.Known x.1.eventId := by rw [Store.Known, hlookup]; rfl
      have hnew : newIds s (x :: attempts) = newIds s attempts := by
        rw [newIds, List.map_cons, List.filter_cons_of_neg (by simpa using hknown)]
        rfl
      have hknownIds : knownIds s (x :: attempts) = x.1.eventId :: knownIds s attempts := by
        rw [knownIds, List.map_cons, List.filter_cons_of_pos (by simpa using hknown)]
        rfl
      obtain ⟨s', hloop, henqueued⟩ :=
        @ih s received (duplicate ++ [x.1.eventId]) hrest (hnew ▸ hnodup)
      refine ⟨s', ?_, ?_⟩
      · obtain ⟨event, fails⟩ := x
        simp only [handleEvents, hevent, hloop, hnew, hknownIds, List.append_assoc,
          List.singleton_append]
      · constructor
        case kept => exact henqueued.kept
        case stored =>
          refine List.forall_mem_cons.2 ⟨⟨hash, hhash, ?_⟩, henqueued.stored⟩
          rw [henqueued.kept _ hknown, hlookup]
        case count => rw [hnew]; exact henqueued.count
    · have hnew : newIds s (x :: attempts) = x.1.eventId :: newIds s attempts := by
        rw [newIds, List.map_cons, List.filter_cons_of_pos (by simpa using hnot)]
        rfl
      have hknownIds : knownIds s (x :: attempts) = knownIds s attempts := by
        rw [knownIds, List.map_cons, List.filter_cons_of_neg (by simpa using hnot)]
        rfl
      rw [hnew, List.nodup_cons] at hnodup
      have hdifferent : ∀ y ∈ attempts, y.1.eventId ≠ x.1.eventId := by
        intro y hy heq
        refine hnodup.1 (List.mem_filter.2 ⟨List.mem_map.2 ⟨y, hy, heq⟩, ?_⟩)
        simpa using hnot
      have hlookup (id : String) : (s.add hash (batch.record x.1)).keys.lookup id =
          if id = x.1.eventId then some hash else s.keys.lookup id := lookup_add
      have hfine' : ∀ y ∈ attempts, ¬Fails sha256 batch (s.add hash (batch.record x.1)) y := by
        intro y hy hfails
        refine hrest y hy ?_
        unfold Fails at hfails ⊢
        rwa [hlookup, if_neg (hdifferent y hy)] at hfails
      have hids : ∀ id ∈ attempts.map (·.1.eventId),
          (s.add hash (batch.record x.1)).Known id ↔ s.Known id := by
        intro id hid
        obtain ⟨y, hy, rfl⟩ := List.mem_map.1 hid
        rw [Store.Known, Store.Known, hlookup, if_neg (hdifferent y hy)]
      have hnew' : newIds (s.add hash (batch.record x.1)) attempts = newIds s attempts := by
        apply List.filter_congr
        intro id hid
        exact decide_eq_decide.2 (not_congr (hids id hid))
      have hknown' : knownIds (s.add hash (batch.record x.1)) attempts = knownIds s attempts := by
        apply List.filter_congr
        intro id hid
        exact decide_eq_decide.2 (hids id hid)
      obtain ⟨s', hloop, henqueued⟩ := @ih (s.add hash (batch.record x.1))
        (received ++ [x.1.eventId]) duplicate hfine' (hnew'.symm ▸ hnodup.2)
      have hself : (s.add hash (batch.record x.1)).Known x.1.eventId := by
        rw [Store.Known, hlookup, if_pos rfl]
        rfl
      refine ⟨s', ?_, ?_⟩
      · obtain ⟨event, fails⟩ := x
        simp only [handleEvents, hevent, hloop, hnew, hknownIds, hnew', hknown', List.append_assoc,
          List.singleton_append]
      · constructor
        case kept =>
          intro id hid
          have hne : id ≠ x.1.eventId := fun heq ↦ hnot (heq ▸ hid)
          have hid' : (s.add hash (batch.record x.1)).Known id := by
            rw [Store.Known, hlookup, if_neg hne]
            exact hid
          rw [henqueued.kept id hid', hlookup, if_neg hne]
        case stored =>
          refine List.forall_mem_cons.2 ⟨⟨hash, hhash, ?_⟩, henqueued.stored⟩
          rw [henqueued.kept _ hself, hlookup, if_pos rfl]
        case count =>
          intro id
          have hcount : (s.add hash (batch.record x.1)).count id =
              s.count id + if x.1.eventId = id then 1 else 0 := count_add
          rw [henqueued.count, hcount, hnew', hnew]
          by_cases heq : x.1.eventId = id
          · have hnotMem : id ∉ newIds s attempts := heq ▸ hnodup.1
            rw [if_pos heq, if_neg hnotMem, if_pos (List.mem_cons.2 (Or.inl heq.symm))]
          · have hiff : id ∈ x.1.eventId :: newIds s attempts ↔ id ∈ newIds s attempts := by
              rw [List.mem_cons, or_iff_right (Ne.symm heq)]
            rw [if_neg heq, Nat.add_zero]
            simp only [hiff]

/-! ## One batch -/

/-- The batches that have been served, from a store: the ids that were listed as received and the
events of the batches that were not answered with an error. -/
structure Served (η : Type) where
  store : Store η
  received : List String
  reported : List (Batch × Event)

def Served.start (s : Store η) : Served η := ⟨s, [], []⟩

/-- One more batch. -/
def Served.serve (sha256 : EventRecord → Option η) (t : Served η) (delivery : Delivery) :
    Served η :=
  match handleGatewayEvent sha256 t.store delivery with
  | (.error _ _, s) => ⟨s, t.received, t.reported⟩
  | (.received _ received _, s) =>
    ⟨s, t.received ++ received, t.reported ++ delivery.batch.events.map (delivery.batch, ·)⟩

variable {t : Served η} {delivery : Delivery}

/-- Every event in the stream has a key. -/
def Store.Keyed (s : Store η) : Prop := ∀ id, s.count id ≠ 0 → s.Known id

/-- Nothing new precedes a failing event, without one the new events have different ids, and what
comes again comes with the same trace and gateway. -/
def Conforms (sha256 : EventRecord → Option η) (t : Served η) (delivery : Delivery) : Prop :=
  ((∃ x ∈ delivery.attempts, Fails sha256 delivery.batch t.store x) →
    ∀ x ∈ delivery.attempts.takeWhile fun x ↦ ¬Fails sha256 delivery.batch t.store x,
      t.store.Known x.1.eventId) ∧
  ((∀ x ∈ delivery.attempts, ¬Fails sha256 delivery.batch t.store x) →
    (newIds t.store delivery.attempts).Nodup) ∧
  ∀ earlier ∈ t.reported, earlier.2 ∈ delivery.batch.events →
    earlier.1.traceId = delivery.batch.traceId ∧ earlier.1.gatewayId = delivery.batch.gatewayId

instance (sha256 : EventRecord → Option η) (t : Served η) (delivery : Delivery) :
    Decidable (Conforms sha256 t delivery) :=
  inferInstanceAs (Decidable ((_ → _) ∧ (_ → _) ∧ ∀ _ ∈ _, _ → _))

/-- What the answer to a batch promises. -/
structure Right (sha256 : EventRecord → Option η) (t : Served η) (delivery : Delivery) : Prop where
  error : ∀ code status s', handleGatewayEvent sha256 t.store delivery = (.error code status, s') →
    s' = t.store
  listed : ∀ traceId received duplicate s',
    handleGatewayEvent sha256 t.store delivery = (.received traceId received duplicate, s') →
    ∀ event ∈ delivery.batch.events, event.eventId ∈ received ↔ event.eventId ∉ duplicate
  again : ∀ earlier ∈ t.reported, ∀ x ∈ delivery.attempts, x.1 = earlier.2 → x.2 = false →
    (handleEvent sha256 delivery.batch t.store x.1 x.2).1 = .ok .duplicate
  duplicate : ∀ traceId received duplicate s',
    handleGatewayEvent sha256 t.store delivery = (.received traceId received duplicate, s') →
    ∀ earlier ∈ t.reported, earlier.2 ∈ delivery.batch.events → earlier.2.eventId ∈ duplicate

/-- What the served batches have left in the store. -/
structure Consistent (sha256 : EventRecord → Option η) (t : Served η) : Prop where
  keyed : t.store.Keyed
  once : ∀ id ∈ t.received, t.store.count id = 1
  hashed : ∀ earlier ∈ t.reported, earlier.2.idsAreValid = true ∧
    ∃ hash, sha256 (earlier.1.record earlier.2) = some hash ∧
      t.store.keys.lookup earlier.2.eventId = some hash

theorem eq_takeWhile_append {attempts : List (Event × Bool)}
    (h : ∃ x ∈ attempts, Fails sha256 batch s x) :
    ∃ attempt after, Fails sha256 batch s attempt ∧
      attempts = attempts.takeWhile (fun x ↦ ¬Fails sha256 batch s x) ++ attempt :: after := by
  obtain ⟨x, hx, hfails⟩ := h
  cases hdrop : attempts.dropWhile (fun x ↦ ¬Fails sha256 batch s x) with
  | nil =>
    have hall := List.dropWhile_eq_nil_iff.1 hdrop x hx
    exact absurd hfails (of_decide_eq_true hall)
  | cons attempt after =>
    refine ⟨attempt, after, ?_, ?_⟩
    · have hhead := List.head?_dropWhile_not (fun x ↦ ¬Fails sha256 batch s x) attempts
      rw [hdrop] at hhead
      simpa using hhead
    · rw [← hdrop, List.takeWhile_append_dropWhile]

/-- A conforming batch fails and leaves the store as it is, or it is enqueued. -/
theorem Conforms.outcome (h : Conforms sha256 t delivery) :
    (∃ code status, handleGatewayEvent sha256 t.store delivery = (.error code status, t.store)) ∨
    ∃ s', (∀ x ∈ delivery.attempts, ¬Fails sha256 delivery.batch t.store x) ∧
      handleGatewayEvent sha256 t.store delivery = (.received delivery.batch.traceId
        (newIds t.store delivery.attempts) (knownIds t.store delivery.attempts), s') ∧
      Enqueued sha256 delivery.batch t.store s' delivery.attempts := by
  obtain ⟨hknown, hnew, -⟩ := h
  by_cases hexists : ∃ x ∈ delivery.attempts, Fails sha256 delivery.batch t.store x
  · left
    obtain ⟨attempt, after, hfails, heq⟩ := eq_takeWhile_append hexists
    unfold handleGatewayEvent
    rw [heq]
    refine handleEvents_of_fails (fun x hx ↦ ?_) (hknown hexists) hfails
    have hfine := List.mem_takeWhile_imp hx
    exact of_decide_eq_true hfine
  · right
    push Not at hexists
    obtain ⟨s', hloop, henqueued⟩ := handleEvents_of_not_fails hexists (hnew hexists)
    exact ⟨s', hexists, hloop, henqueued⟩

theorem mem_attempts {event : Event} (h : event ∈ delivery.batch.events) :
    ∃ x ∈ delivery.attempts, x.1 = event := by
  rw [← delivery.events_eq] at h
  exact List.mem_map.1 h

omit [DecidableEq η] in
theorem mem_newIds {attempts : List (Event × Bool)} {id : String} :
    id ∈ newIds s attempts ↔ id ∈ attempts.map (·.1.eventId) ∧ ¬s.Known id := by
  rw [newIds, List.mem_filter, decide_eq_true_eq]

omit [DecidableEq η] in
theorem mem_knownIds {attempts : List (Event × Bool)} {id : String} :
    id ∈ knownIds s attempts ↔ id ∈ attempts.map (·.1.eventId) ∧ s.Known id := by
  rw [knownIds, List.mem_filter, decide_eq_true_eq]

omit [DecidableEq η] in
theorem Consistent.known (ht : Consistent sha256 t) {earlier : Batch × Event}
    (h : earlier ∈ t.reported) : t.store.Known earlier.2.eventId := by
  obtain ⟨-, hash, -, hlookup⟩ := ht.hashed earlier h
  rw [Store.Known, hlookup]
  rfl

theorem Consistent.right (ht : Consistent sha256 t) (h : Conforms sha256 t delivery) :
    Right sha256 t delivery := by
  constructor
  case error =>
    intro code status s' hresponse
    obtain ⟨_, _, herror⟩ | ⟨_, -, hreceived, -⟩ := h.outcome
    · exact (Prod.mk.inj (herror.symm.trans hresponse)).2.symm
    · cases hreceived.symm.trans hresponse
  case listed =>
    intro traceId received duplicate s' hresponse event hevent
    obtain ⟨_, _, herror⟩ | ⟨_, -, hreceived, -⟩ := h.outcome
    · cases herror.symm.trans hresponse
    · cases hreceived.symm.trans hresponse
      obtain ⟨x, hx, rfl⟩ := mem_attempts hevent
      have hmem : x.1.eventId ∈ delivery.attempts.map (·.1.eventId) := List.mem_map.2 ⟨x, hx, rfl⟩
      rw [mem_newIds, mem_knownIds, and_iff_right hmem, and_iff_right hmem]
  case again =>
    intro earlier hearlier x hx heq hfails
    have hevent : earlier.2 ∈ delivery.batch.events := by
      rw [← delivery.events_eq, ← heq]
      exact List.mem_map_of_mem hx
    obtain ⟨htrace, hgateway⟩ := h.2.2 earlier hearlier hevent
    obtain ⟨hvalid, hash, hhash, hlookup⟩ := ht.hashed earlier hearlier
    have hrecord : delivery.batch.record x.1 = earlier.1.record earlier.2 := by
      rw [Batch.record, Batch.record, htrace, hgateway, heq]
    have hnot : ¬Fails sha256 delivery.batch t.store x := by
      unfold Fails
      rw [hrecord, heq, hvalid, hhash, hlookup, hfails]
      simp
    obtain ⟨_, -, ⟨-, hsame⟩ | ⟨hunknown, -⟩⟩ := handleEvent_of_not_fails hnot
    · rw [hsame]
    · exact absurd (heq ▸ ht.known hearlier) hunknown
  case duplicate =>
    intro traceId received duplicate s' hresponse earlier hearlier hevent
    obtain ⟨_, _, herror⟩ | ⟨_, -, hreceived, -⟩ := h.outcome
    · cases herror.symm.trans hresponse
    · cases hreceived.symm.trans hresponse
      obtain ⟨x, hx, heq⟩ := mem_attempts hevent
      exact mem_knownIds.2 ⟨List.mem_map.2 ⟨x, hx, by rw [heq]⟩, ht.known hearlier⟩

theorem Consistent.serve (ht : Consistent sha256 t) (h : Conforms sha256 t delivery) :
    Consistent sha256 (t.serve sha256 delivery) := by
  obtain ⟨_, _, herror⟩ | ⟨s', hfine, hreceived, henqueued⟩ := h.outcome
  · unfold Served.serve
    rw [herror]
    exact ⟨ht.keyed, ht.once, ht.hashed⟩
  · have hknown {id : String} (hid : t.store.Known id) : s'.Known id := by
      rw [Store.Known, henqueued.kept id hid]
      exact hid
    have hzero {id : String} (hid : ¬t.store.Known id) : t.store.count id = 0 :=
      of_not_not fun hne ↦ hid (ht.keyed id hne)
    unfold Served.serve
    rw [hreceived]
    constructor
    case keyed =>
      intro id hid
      by_cases hmem : id ∈ newIds t.store delivery.attempts
      · obtain ⟨x, hx, rfl⟩ := List.mem_map.1 (mem_newIds.1 hmem).1
        obtain ⟨_, -, hlookup⟩ := henqueued.stored x hx
        rw [Store.Known, hlookup]
        rfl
      · rw [henqueued.count, if_neg hmem] at hid
        exact hknown (ht.keyed id hid)
    case once =>
      intro id hid
      show s'.count id = 1
      rw [henqueued.count]
      obtain hold | hnew := List.mem_append.1 hid
      · have hone := ht.once id hold
        have hnot : id ∉ newIds t.store delivery.attempts := fun hmem ↦
          (mem_newIds.1 hmem).2 (ht.keyed id (hone ▸ one_ne_zero))
        rw [if_neg hnot, hone]
      · rw [if_pos hnew, hzero (mem_newIds.1 hnew).2]
    case hashed =>
      intro earlier hearlier
      obtain hold | hnow := List.mem_append.1 hearlier
      · obtain ⟨hvalid, hash, hhash, hlookup⟩ := ht.hashed earlier hold
        refine ⟨hvalid, hash, hhash, ?_⟩
        rw [← hlookup]
        exact henqueued.kept _ (ht.known hold)
      · obtain ⟨event, hevent, rfl⟩ := List.mem_map.1 hnow
        obtain ⟨x, hx, rfl⟩ := mem_attempts hevent
        refine ⟨?_, henqueued.stored x hx⟩
        exact Bool.eq_true_of_not_eq_false fun hinvalid ↦ hfine x hx (Or.inl hinvalid)

/-! ## Runs -/

/-- In a run of conforming batches each is answered as promised, and every id that was ever listed
as received is in the stream once. -/
theorem serve_right (sha256 : EventRecord → Option η) {s : Store η} (hkeyed : s.Keyed)
    {deliveries : List Delivery}
    (h : Guarded (Served.serve sha256) (Conforms sha256) (Served.start s) deliveries) :
    Guarded (Served.serve sha256) (Right sha256) (Served.start s) deliveries ∧
      ∀ id ∈ (run (Served.serve sha256) (Served.start s) deliveries).received,
        (run (Served.serve sha256) (Served.start s) deliveries).store.count id = 1 := by
  have hstart : Consistent sha256 (Served.start s) := by
    constructor
    case keyed => exact hkeyed
    case once => exact fun id hid ↦ absurd hid List.not_mem_nil
    case hashed => exact fun earlier h ↦ absurd h List.not_mem_nil
  have hstep (t : Served η) (delivery : Delivery) (ht : Consistent sha256 t)
      (hconforms : Conforms sha256 t delivery) : Consistent sha256 (t.serve sha256 delivery) :=
    ht.serve hconforms
  have hright (t : Served η) (delivery : Delivery) (ht : Consistent sha256 t)
      (hconforms : Conforms sha256 t delivery) : Right sha256 t delivery := ht.right hconforms
  exact ⟨guarded_of_guarded hstep hright hstart h, (invariant_guarded hstep hstart h).once⟩

end LlmGateway.EventQueue

namespace LlmGateway.Scenario

open EventQueue Relational

def queuedEvent (eventId : String) : Event :=
  ⟨eventId, "session", "lease", none, none, none, []⟩

def queuedBatch (traceId : String) (eventIds : List String) : Batch :=
  ⟨traceId, "gateway", none, eventIds.map queuedEvent⟩

/-- The batch is delivered, and the script fails at the events that are named. -/
def delivery (traceId : String) (eventIds failing : List String) : Delivery where
  batch := queuedBatch traceId eventIds
  attempts := eventIds.map fun id ↦ (queuedEvent id, failing.contains id)
  events_eq := List.map_map

def emptyStore : Store EventRecord := ⟨[], []⟩

theorem emptyStore_keyed : emptyStore.Keyed := fun _ h ↦ absurd rfl h

/-- A batch whose script fails at first and that is sent again, and one that overlaps with it. -/
def resent : List Delivery :=
  [delivery "trace" ["e", "f"] ["e"], delivery "trace" ["e", "f"] [], delivery "trace" ["f", "g"] []]

theorem resent_right :
    Guarded (Served.serve some) (Right some) (Served.start emptyStore) resent ∧
      ∀ id ∈ (run (Served.serve some) (Served.start emptyStore) resent).received,
        (run (Served.serve some) (Served.start emptyStore) resent).store.count id = 1 :=
  serve_right some emptyStore_keyed (by decide)

/-- A batch that is answered with an error has left an event in the stream, an event that comes
twice in a batch is received and a duplicate, and an event that comes again with another trace is a
conflict. -/
theorem batches_not_atomic :
    ((handleGatewayEvent some emptyStore (delivery "trace" ["e", "f"] ["f"])).1 =
        .error "internal_error" 500 ∧
      (handleGatewayEvent some emptyStore (delivery "trace" ["e", "f"] ["f"])).2.count "e" = 1) ∧
    (handleGatewayEvent some emptyStore (delivery "trace" ["e", "e"] [])).1 =
      .received "trace" ["e"] ["e"] ∧
    (handleGatewayEvent some emptyStore (delivery "trace" ["e"] [])).1 =
      .received "trace" ["e"] [] ∧
    (handleGatewayEvent some (handleGatewayEvent some emptyStore (delivery "trace" ["e"] [])).2
      (delivery "retry" ["e"] [])).1 = .error "bad_request" 400 := by
  decide

end LlmGateway.Scenario
