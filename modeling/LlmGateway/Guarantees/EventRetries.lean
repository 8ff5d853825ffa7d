import LlmGateway.EventQueue.Worker
import LlmGateway.Relational.Transition
import Mathlib.Data.List.Nodup

/-!
# Messages that are tried again

Every recovery pass claims from the first pending message on. So the failures of the earlier passes
take the places of the messages behind them, and the last ones are tried in time exactly if there
are not too many.
-/

namespace LlmGateway.EventQueue

open Relational

/-- The processor can be asked about the message. -/
def PendingMessage.HasRecord (processor : Processor) (message : PendingMessage) : Prop :=
  ∃ rawPayload ∈ message.payload, rawPayload.codePoints ≠ [] ∧
    (processor.record rawPayload).isSome = true

/-- The pending messages of a consumer group, in the order of their ids. -/
structure LeftPending (processor : Processor) (pending : List PendingMessage) : Prop where
  sorted : pending.Pairwise fun first second ↦ first.id < second.id
  hasRecord : ∀ message ∈ pending, message.HasRecord processor

namespace Worker

/-- A recovery pass is due, and every pending message has been idle. -/
def IsDue (retryIdle : ℕ) (s : Worker) (now : ℕ) : Prop :=
  s.lastPendingClaim + retryIdle ≤ now ∧
    ∀ message ∈ s.pending, message.deliveredAt + retryIdle ≤ now

instance (retryIdle : ℕ) (s : Worker) (now : ℕ) : Decidable (s.IsDue retryIdle now) :=
  inferInstanceAs (Decidable (_ ∧ ∀ _ ∈ _, _))

/-- How many deliveries have failed. -/
def failures (s : Worker) : ℕ := s.handed.countP fun delivery ↦ !delivery.2

variable {processor : Processor} {retryIdle now : ℕ} {s : Worker}

/-! ## One pass -/

theorem processMessage_eq {message : PendingMessage} (h : message.HasRecord processor) :
    processMessage processor now s message =
      { s with
        pending := s.pending.filter fun other ↦
          ¬(other.id = message.id ∧ processor.succeeds now message.id = true)
        handed := s.handed ++ [(message.id, processor.succeeds now message.id)] } := by
  obtain ⟨rawPayload, hpayload, hnonempty, hrecord⟩ := h
  obtain ⟨record, hrecord⟩ := Option.isSome_iff_exists.1 hrecord
  have hfilter : message.payload.filter (·.codePoints ≠ []) = some rawPayload := by
    rw [Option.mem_def.1 hpayload, Option.filter_some, if_pos (decide_eq_true hnonempty)]
  simp only [processMessage, hfilter, hrecord]
  cases processor.succeeds now message.id with
  | true => simp [xack]
  | false => simp

/-- The claimed messages are handed to the processor, and those that succeed are not pending any
longer. -/
theorem processMessages_eq {messages : List PendingMessage}
    (h : ∀ message ∈ messages, message.HasRecord processor) :
    processMessages processor now s messages =
      { s with
        pending := s.pending.filter fun other ↦
          ¬(other.id ∈ messages.map (·.id) ∧ processor.succeeds now other.id = true)
        handed := s.handed ++ messages.map fun message ↦
          (message.id, processor.succeeds now message.id) } := by
  induction messages generalizing s with
  | nil => simp [processMessages]
  | cons message messages ih =>
    obtain ⟨hmessage, hmessages⟩ := List.forall_mem_cons.1 h
    have hfilter (other : PendingMessage) :
        (¬(other.id ∈ (message :: messages).map (·.id) ∧
          processor.succeeds now other.id = true)) ↔
        ¬(other.id ∈ messages.map (·.id) ∧ processor.succeeds now other.id = true) ∧
          ¬(other.id = message.id ∧ processor.succeeds now message.id = true) := by
      rw [List.map_cons, List.mem_cons]
      constructor
      · refine fun hnot ↦
          ⟨fun hmem ↦ hnot ⟨Or.inr hmem.1, hmem.2⟩, fun heq ↦ hnot ⟨Or.inl heq.1, ?_⟩⟩
        rw [heq.1]
        exact heq.2
      · rintro ⟨hrest, hhead⟩ ⟨hid | hid, hsucceeds⟩
        · exact hhead ⟨hid, hid ▸ hsucceeds⟩
        · exact hrest ⟨hid, hsucceeds⟩
    have hcons : processMessages processor now s (message :: messages) =
        processMessages processor now (processMessage processor now s message) messages := rfl
    have hpending : (s.pending.filter fun other ↦ decide (¬(other.id = message.id ∧
          processor.succeeds now message.id = true))).filter (fun other ↦
            decide (¬(other.id ∈ messages.map (·.id) ∧ processor.succeeds now other.id = true))) =
        s.pending.filter fun other ↦ decide (¬(other.id ∈ (message :: messages).map (·.id) ∧
          processor.succeeds now other.id = true)) := by
      rw [List.filter_filter]
      apply List.filter_congr
      intro other _
      rw [← Bool.decide_and]
      exact decide_eq_decide.2 (hfilter other).symm
    rw [hcons, processMessage_eq hmessage, ih hmessages]
    simp only [hpending, List.map_cons, List.append_assoc, List.singleton_append]

/-- The ids of the pending messages. -/
def ids (s : Worker) : List ℕ := s.pending.map (·.id)

/-- Of the first ids those that succeed are removed. -/
theorem filter_taken {all : List ℕ} {count : ℕ} {succeeds : ℕ → Bool} (hnodup : all.Nodup) :
    all.filter (fun id ↦ decide (¬(id ∈ all.take count ∧ succeeds id = true))) =
      (all.take count).filter (fun id ↦ !succeeds id) ++ all.drop count := by
  calc
    _ = (all.take count ++ all.drop count).filter
        (fun id ↦ decide (¬(id ∈ all.take count ∧ succeeds id = true))) := by
      rw [List.take_append_drop]
    _ = _ := by
      rw [List.filter_append]
      congr 1
      · apply List.filter_congr
        intro id hid
        simp [hid]
      · apply List.filter_eq_self.2
        intro id hid
        have hnot : id ∉ all.take count := fun htake ↦
          List.disjoint_take_drop hnodup le_rfl htake hid
        simp [hnot]

/-- What one pass does with the ids. -/
theorem recover_spec (hrecords : ∀ message ∈ s.pending, message.HasRecord processor)
    (hnodup : s.ids.Nodup) (hdue : s.IsDue retryIdle now) :
    (s.recover processor retryIdle now).ids =
        (s.ids.take claimCount).filter (fun id ↦ !processor.succeeds now id) ++
          s.ids.drop claimCount ∧
      (s.recover processor retryIdle now).handed = s.handed ++ (s.ids.take claimCount).map
        (fun id ↦ (id, processor.succeeds now id)) ∧
      ∀ message ∈ (s.recover processor retryIdle now).pending, message.HasRecord processor := by
  have hclaimed : (xautoclaim s.pending now retryIdle 0 claimCount).2 =
      s.pending.take claimCount := by
    have hall : ∀ message ∈ s.pending,
        decide (0 ≤ message.id ∧ message.deliveredAt + retryIdle ≤ now) = true :=
      fun message hmem ↦ decide_eq_true ⟨Nat.zero_le _, hdue.2 message hmem⟩
    rw [xautoclaim, List.filter_eq_self.2 hall]
  have htaken : ∀ message ∈ s.pending.take claimCount, message.HasRecord processor :=
    fun message hmem ↦ hrecords message (List.mem_of_mem_take hmem)
  rw [recover, if_pos hdue.1, hclaimed, processMessages_eq htaken]
  have hids : (s.pending.take claimCount).map (·.id) = s.ids.take claimCount := List.map_take
  refine ⟨?_, ?_, ?_⟩
  · have hredelivered : (({ s with lastPendingClaim := now } : Worker).redeliver now
        (s.pending.take claimCount)).pending.map (·.id) = s.ids := by
      simp only [redeliver, List.map_map, ids]
      apply List.map_congr_left
      intro message _
      simp only [Function.comp_apply]
      split_ifs <;> rfl
    simp only [ids]
    rw [hids]
    have hpush (pending : List PendingMessage) : (pending.filter fun other ↦
        decide (¬(other.id ∈ s.ids.take claimCount ∧
          processor.succeeds now other.id = true))).map (·.id) =
        (pending.map (·.id)).filter fun id ↦
          decide (¬(id ∈ s.ids.take claimCount ∧ processor.succeeds now id = true)) := by
      rw [List.filter_map]
      rfl
    rw [hpush, hredelivered]
    exact filter_taken hnodup
  · simp only [redeliver, ids, ← List.map_take, List.map_map]
    rfl
  · intro message hmem
    obtain ⟨other, hother, rfl⟩ := List.mem_map.1 (List.mem_of_mem_filter hmem)
    obtain ⟨rawPayload, hpayload, hrecord⟩ := hrecords other hother
    refine ⟨rawPayload, ?_, hrecord⟩
    split_ifs <;> exact hpayload

/-- The claimed ids are handed over behind the earlier ones. -/
theorem handed_recover (hrecords : ∀ message ∈ s.pending, message.HasRecord processor)
    (hnodup : s.ids.Nodup) (hdue : s.IsDue retryIdle now) :
    (s.recover processor retryIdle now).handed.map (·.1) =
      s.handed.map (·.1) ++ s.ids.take claimCount := by
  obtain ⟨-, hhanded, -⟩ := recover_spec hrecords hnodup hdue
  have hmap (taken : List ℕ) : taken.map (Prod.fst ∘ fun id ↦
      (id, processor.succeeds now id)) = taken := List.map_id' taken
  rw [hhanded, List.map_append, List.map_map]
  rw [show (fun delivery : ℕ × Bool ↦ delivery.1) = Prod.fst from rfl, hmap]

/-! ## The passes -/

/-- The state after some passes, of the messages with the given ids. -/
structure Retried (processor : Processor) (all : List ℕ) (passes : ℕ) (s : Worker) : Prop where
  hasRecord : ∀ message ∈ s.pending, message.HasRecord processor
  /-- The failed messages are before those that have not been tried. -/
  exists_split : ∃ failed rest front, s.ids = failed ++ rest ∧ all = front ++ rest ∧
    (∀ id, id ∈ s.handed.map (·.1) ↔ id ∈ front) ∧ (∀ id ∈ failed, id ∈ front) ∧
      failed.Nodup ∧ (rest = [] → s.ids.length ≤ claimCount)
  pending : s.ids.length + s.handed.countP (·.2) = all.length
  handed_le : s.handed.length ≤ claimCount * passes
  handed_eq : claimCount * passes ≤ all.length → s.handed.length = claimCount * passes

section Passes

variable {all : List ℕ} {passes : ℕ}

theorem retried_start (hpending : LeftPending processor s.pending) (hhanded : s.handed = []) :
    Retried processor s.ids 0 s := by
  constructor
  case hasRecord => exact hpending.hasRecord
  case exists_split =>
    refine ⟨[], s.ids, [], rfl, rfl, fun id ↦ ?_, fun id hid ↦ absurd hid List.not_mem_nil,
      List.nodup_nil, fun hnil ↦ by rw [hnil]; exact Nat.zero_le _⟩
    rw [hhanded]
    rfl
  case pending => rw [hhanded]; rfl
  case handed_le => rw [hhanded]; rfl
  case handed_eq => rw [hhanded]; exact fun _ ↦ rfl

theorem length_filter_add (p : ℕ → Bool) (l : List ℕ) :
    (l.filter fun id ↦ !p id).length + (l.map fun id ↦ (id, p id)).countP (·.2) = l.length := by
  have hcount : l.length = l.countP p + l.countP fun id ↦ decide (¬p id = true) :=
    List.length_eq_countP_add_countP p
  rw [List.countP_map, ← List.countP_eq_length_filter, hcount, add_comm]
  congr 1
  apply List.countP_congr
  intro id _
  simp

theorem Retried.nodup_ids (h : Retried processor all passes s) (hnodup : all.Nodup) :
    s.ids.Nodup := by
  obtain ⟨failed, rest, front, hids, hall, -, hfront, hfailed, -⟩ := h.exists_split
  rw [hall] at hnodup
  rw [hids]
  refine hfailed.append (List.Nodup.of_append_right hnodup) fun id hid hid' ↦ ?_
  exact List.disjoint_of_nodup_append hnodup (hfront id hid) hid'

/-- In one more pass the claimed messages join those that have been tried. -/
theorem Retried.split_recover (h : Retried processor all passes s) (hnodup : all.Nodup)
    (hdue : s.IsDue retryIdle now) :
    ∃ failed rest front, (s.recover processor retryIdle now).ids = failed ++ rest ∧
      all = front ++ rest ∧
      (∀ id, id ∈ (s.recover processor retryIdle now).handed.map (·.1) ↔ id ∈ front) ∧
      (∀ id ∈ failed, id ∈ front) ∧ failed.Nodup ∧
      (rest = [] → (s.recover processor retryIdle now).ids.length ≤ claimCount) := by
  have hidsNodup := h.nodup_ids hnodup
  obtain ⟨failed, rest, front, hids, hall, hhanded, hfront, -, hfew⟩ := h.exists_split
  obtain ⟨hids', -, -⟩ := recover_spec h.hasRecord hidsNodup hdue
  have htake : s.ids.take claimCount =
      failed.take claimCount ++ rest.take (claimCount - failed.length) := by
    rw [hids, List.take_append]
  have hdrop : s.ids.drop claimCount =
      failed.drop claimCount ++ rest.drop (claimCount - failed.length) := by
    rw [hids, List.drop_append]
  have hsub : (s.recover processor retryIdle now).ids.Sublist s.ids := by
    have hfilter : ((s.ids.take claimCount).filter fun id ↦
        !processor.succeeds now id).Sublist (s.ids.take claimCount) := List.filter_sublist
    have happend := hfilter.append (List.Sublist.refl (s.ids.drop claimCount))
    rwa [List.take_append_drop, ← hids'] at happend
  have hnew : (s.recover processor retryIdle now).ids =
      ((failed.take claimCount ++ rest.take (claimCount - failed.length)).filter
        (fun id ↦ !processor.succeeds now id) ++ failed.drop claimCount) ++
          rest.drop (claimCount - failed.length) := by
    rw [hids', htake, hdrop, List.append_assoc]
  refine ⟨_, rest.drop (claimCount - failed.length),
    front ++ rest.take (claimCount - failed.length), hnew, ?_, fun id ↦ ?_, fun id hid ↦ ?_, ?_,
    fun hnil ↦ ?_⟩
  · rw [List.append_assoc, List.take_append_drop, hall]
  · rw [handed_recover h.hasRecord hidsNodup hdue, htake, List.mem_append, List.mem_append,
      hhanded id, List.mem_append]
    constructor
    · rintro (hid | hid | hid)
      · exact Or.inl hid
      · exact Or.inl (hfront id (List.mem_of_mem_take hid))
      · exact Or.inr hid
    · rintro (hid | hid)
      · exact Or.inl hid
      · exact Or.inr (Or.inr hid)
  · obtain hid | hid := List.mem_append.1 hid
    · obtain hid | hid := List.mem_append.1 (List.mem_of_mem_filter hid)
      · exact List.mem_append_left _ (hfront id (List.mem_of_mem_take hid))
      · exact List.mem_append_right _ hid
    · exact List.mem_append_left _ (hfront id (List.mem_of_mem_drop hid))
  · exact List.Nodup.of_append_left (hnew ▸ hsub.nodup hidsNodup)
  · by_cases hmany : failed.length ≤ claimCount
    · rw [hids', hdrop, hnil, List.drop_eq_nil_of_le hmany, List.append_nil, List.append_nil]
      exact (List.length_filter_le _ _).trans (List.length_take_le _ _)
    · have hzero : claimCount - failed.length = 0 := by omega
      rw [hzero, List.drop_zero] at hnil
      have hlength := hfew hnil
      rw [hids, List.length_append] at hlength
      omega

/-- One more pass. -/
theorem Retried.recover (h : Retried processor all passes s) (hnodup : all.Nodup)
    (hdue : s.IsDue retryIdle now) :
    Retried processor all (passes + 1) (s.recover processor retryIdle now) := by
  have hidsNodup := h.nodup_ids hnodup
  obtain ⟨hids', hhanded', hrecords'⟩ := recover_spec h.hasRecord hidsNodup hdue
  have hcount : (s.recover processor retryIdle now).ids.length +
      (s.recover processor retryIdle now).handed.countP (·.2) = all.length := by
    have hsplit := length_filter_add (processor.succeeds now) (s.ids.take claimCount)
    have hlength : (s.ids.take claimCount).length + (s.ids.drop claimCount).length =
        s.ids.length := by rw [← List.length_append, List.take_append_drop]
    rw [hids', hhanded', List.length_append, List.countP_append, ← h.pending]
    omega
  have htaken : (s.recover processor retryIdle now).handed.length =
      s.handed.length + min claimCount s.ids.length := by
    rw [hhanded', List.length_append, List.length_map, List.length_take]
  constructor
  case hasRecord => exact hrecords'
  case exists_split => exact h.split_recover hnodup hdue
  case pending => exact hcount
  case handed_le =>
    rw [htaken, Nat.mul_succ]
    exact Nat.add_le_add h.handed_le (min_le_left _ _)
  case handed_eq =>
    intro hle
    rw [Nat.mul_succ] at hle ⊢
    have heq := h.handed_eq (by omega)
    have hok : s.handed.countP (·.2) ≤ s.handed.length := List.countP_le_length
    have hpending := h.pending
    rw [htaken, heq, min_eq_left (by omega)]

theorem retried_run {times : List ℕ} (h : Retried processor all passes s) (hnodup : all.Nodup)
    (hdue : Guarded (recover processor retryIdle) (IsDue retryIdle) s times) :
    Retried processor all (passes + times.length)
      (run (recover processor retryIdle) s times) := by
  induction times generalizing s passes with
  | nil => exact h
  | cons time times ih =>
    have hrest := ih (h.recover hnodup hdue.1) hdue.2
    rwa [List.length_cons, ← Nat.add_assoc, Nat.add_right_comm]

/-- In one more pass every message has been tried exactly if it claims all that are pending. -/
theorem Retried.all_handed_iff (h : Retried processor all passes s) (hnodup : all.Nodup)
    (hdue : s.IsDue retryIdle now) :
    (∀ id ∈ all, id ∈ (s.recover processor retryIdle now).handed.map (·.1)) ↔
      s.ids.length ≤ claimCount := by
  have hidsNodup := h.nodup_ids hnodup
  obtain ⟨failed, rest, front, hids, hall, hhanded, -, -, hfew⟩ := h.exists_split
  have hdisjoint : front.Disjoint rest := List.disjoint_of_nodup_append (hall ▸ hnodup)
  have hmem (id : ℕ) : id ∈ (s.recover processor retryIdle now).handed.map (·.1) ↔
      id ∈ front ∨ id ∈ s.ids.take claimCount := by
    rw [handed_recover h.hasRecord hidsNodup hdue, List.mem_append, hhanded id]
  constructor
  · intro htried
    by_contra hmany
    obtain hnil | ⟨earlier, last, hlast⟩ := rest.eq_nil_or_concat'
    · exact hmany (hfew hnil)
    · have hrest : last ∈ rest := by
        rw [hlast]
        exact List.mem_append_right _ (List.mem_singleton_self last)
      have hsplit : s.ids = (failed ++ earlier) ++ [last] := by
        rw [hids, hlast, List.append_assoc]
      have hlength : claimCount ≤ (failed ++ earlier).length := by
        rw [hsplit, List.length_append, List.length_singleton] at hmany
        omega
      obtain hid | hid := (hmem last).1 (htried last (hall ▸ List.mem_append_right _ hrest))
      · exact hdisjoint hid hrest
      · rw [hsplit, List.take_append_of_le_length hlength] at hid
        rw [hsplit] at hidsNodup
        exact List.disjoint_of_nodup_append hidsNodup (List.mem_of_mem_take hid)
          (List.mem_singleton_self last)
  · intro hle id hid
    rw [hmem, List.take_of_length_le hle, hids]
    rw [hall] at hid
    obtain hid | hid := List.mem_append.1 hid
    · exact Or.inl hid
    · exact Or.inr (List.mem_append_right _ hid)

/-- Every message is tried in the passes exactly if not too many deliveries fail before the last
pass. -/
theorem retried_iff {times : List ℕ} (hpending : LeftPending processor s.pending)
    (hhanded : s.handed = []) (htimes : times.length = (s.pending.length + 9) / 10)
    (hdue : Guarded (recover processor retryIdle) (IsDue retryIdle) s times) :
    (∀ message ∈ s.pending,
      message.id ∈ (run (recover processor retryIdle) s times).handed.map (·.1)) ↔
    (run (recover processor retryIdle) s times.dropLast).failures + s.pending.length ≤
      10 * times.length := by
  have hnodup : s.ids.Nodup := by
    rw [ids, List.nodup_iff_pairwise_ne, List.pairwise_map]
    exact hpending.sorted.imp fun hlt ↦ hlt.ne
  have hlength : s.ids.length = s.pending.length := List.length_map _
  have hids : (∀ message ∈ s.pending,
      message.id ∈ (run (recover processor retryIdle) s times).handed.map (·.1)) ↔
      ∀ id ∈ s.ids, id ∈ (run (recover processor retryIdle) s times).handed.map (·.1) := by
    rw [ids, List.forall_mem_map]
  rw [hids]
  obtain rfl | ⟨earlier, last, rfl⟩ := times.eq_nil_or_concat'
  · have hzero : s.pending.length = 0 := by
      rw [List.length_nil] at htimes
      omega
    have hfailures : s.failures = 0 := by rw [failures, hhanded]; rfl
    have hnil : s.ids = [] := List.length_eq_zero_iff.1 (hlength.trans hzero)
    refine iff_of_true (fun id hid ↦ ?_) ?_
    · rw [hnil] at hid
      exact absurd hid List.not_mem_nil
    · rw [List.dropLast_nil, run_nil, hfailures, hzero]
      exact Nat.zero_le _
  · obtain ⟨hearlier, hlast⟩ := guarded_append.1 hdue
    rw [run_append, List.dropLast_concat, List.length_append, List.length_singleton]
    have h := retried_run (retried_start hpending hhanded) hnodup hearlier
    rw [Nat.zero_add] at h
    rw [List.length_append, List.length_singleton] at htimes
    have hpassed := h.handed_eq (by rw [hlength, claimCount]; omega)
    have hall := h.all_handed_iff hnodup hlast.1
    have hdeliveries : (run (recover processor retryIdle) s earlier).handed.length =
        (run (recover processor retryIdle) s earlier).handed.countP (·.2) +
          (run (recover processor retryIdle) s earlier).failures := by
      rw [failures, List.length_eq_countP_add_countP (·.2)]
      congr 1
      apply List.countP_congr
      intro delivery _
      simp
    have hleft := h.pending
    show (∀ id ∈ s.ids, id ∈ ((run (recover processor retryIdle) s earlier).recover processor
      retryIdle last).handed.map (·.1)) ↔ _
    rw [hall]
    rw [claimCount] at hpassed ⊢
    omega

end Passes

/-! ## Messages that fail for ever -/

/-- A processor that succeeds or fails always. -/
def steadyProcessor (succeeds : Bool) : Processor := ⟨fun _ ↦ some [], fun _ _ ↦ succeeds⟩

/-- A worker before its first recovery pass, with as many pending messages. -/
def leftBehind (count : ℕ) : Worker :=
  ⟨0, (List.range count).map fun index ↦ ⟨index + 1, some "{}", 0⟩, []⟩

theorem leftBehind_pending (succeeds : Bool) (count : ℕ) :
    LeftPending (steadyProcessor succeeds) (leftBehind count).pending := by
  constructor
  case sorted =>
    rw [leftBehind, List.pairwise_map]
    exact List.pairwise_lt_range.imp fun hlt ↦ Nat.succ_lt_succ hlt
  case hasRecord =>
    intro message hmem
    obtain ⟨index, -, rfl⟩ := List.mem_map.1 hmem
    have hnonempty : (Text.ofString "{}").codePoints ≠ [] := by decide
    exact ⟨"{}", rfl, hnonempty, rfl⟩

/-- Two messages are tried in one pass. -/
theorem retried_iff_two :
    (∀ message ∈ (leftBehind 2).pending, message.id ∈ (run (recover (steadyProcessor true) 30000)
      (leftBehind 2) [30000]).handed.map (·.1)) ↔
    (run (recover (steadyProcessor true) 30000) (leftBehind 2) [30000].dropLast).failures +
      (leftBehind 2).pending.length ≤ 10 * [30000].length :=
  retried_iff (leftBehind_pending true 2) rfl (by decide) (by decide)

/-- The eleventh message is not tried in the two passes while the others keep failing. -/
theorem eleventh_not_tried :
    LeftPending (steadyProcessor false) (leftBehind 11).pending ∧
    Guarded (recover (steadyProcessor false) 30000) (IsDue 30000) (leftBehind 11) [30000, 60000] ∧
    ¬∀ message ∈ (leftBehind 11).pending, message.id ∈ (run (recover (steadyProcessor false) 30000)
      (leftBehind 11) [30000, 60000]).handed.map (·.1) := by
  refine ⟨leftBehind_pending false 11, by decide, ?_⟩
  decide

end Worker

end LlmGateway.EventQueue
