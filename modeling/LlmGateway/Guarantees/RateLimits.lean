import LlmGateway.Api.RateLimit
import Mathlib.Data.Finset.Dedup
import Mathlib.Tactic.Linarith

/-!
# What the rate limit admits

The sorted set counts the different readings within the window. No request is rejected that the
limit allows, and no more are admitted than it allows as long as the window does not have requests
with equal readings that make the difference.
-/

namespace LlmGateway.RateLimit

open Relational

/-- The reading is within the window that ends at a time. -/
def Within (window : ℕ) (time now : ℚ) : Prop := time - window < now ∧ now ≤ time

instance (window : ℕ) (time now : ℚ) : Decidable (Within window time now) :=
  inferInstanceAs (Decidable (_ ∧ _))

/-- The readings of the limited requests, newest first. -/
def readings (requests : List Request) : List ℚ :=
  (requests.filter fun request ↦ request.IsLimited).map (·.now)

/-- The admitted requests among those that were handled. -/
def admitted (log : List (Request × Bool)) : List Request :=
  (log.filter fun entry ↦ entry.2).map (·.1)

variable (middleware : RateLimitMiddleware)

/-- No window has more admitted requests than the limit. -/
def KeepsLimit (log : List (Request × Bool)) : Prop :=
  ∀ time, (readings (admitted log)).countP (fun now ↦ Within middleware.window time now) ≤
    middleware.maxRequests

/-- The requests up to a rejected one are more than the limit within its window. -/
def RejectsForCause (log : List (Request × Bool)) : Prop :=
  ∀ request earlier, (request, false) :: earlier <:+ log → middleware.maxRequests <
    (readings (earlier.map (·.1))).countP
      (fun now ↦ Within middleware.window request.now now) + 1

/-- The clock follows the order of execution. -/
def FollowsClock (s : Handled) (request : Request) : Prop :=
  request.IsLimited → 0 ≤ request.now ∧ ∀ now ∈ readings (s.log.map (·.1)), now ≤ request.now

instance (s : Handled) (request : Request) : Decidable (FollowsClock s request) :=
  inferInstanceAs (Decidable (_ → _ ∧ ∀ _ ∈ _, _))

/-- If the window of the request has more requests than the limit, itself included, then it has
more different readings than the limit. -/
def CountsApart (s : Handled) (request : Request) : Prop :=
  request.IsLimited →
    middleware.maxRequests < (readings (s.log.map (·.1))).countP
      (fun now ↦ Within middleware.window request.now now) + 1 →
    middleware.maxRequests < (insert request.now ((readings (s.log.map (·.1))).toFinset.filter
      fun now ↦ Within middleware.window request.now now)).card

section Runs

variable {middleware} {s : Handled} {request : Request} {requests : List Request}

theorem readings_cons_of_limited (h : request.IsLimited) :
    readings (request :: requests) = request.now :: readings requests := by
  simp only [readings, List.filter_cons, h, decide_true, if_true, List.map_cons]

theorem readings_cons_of_not_limited (h : ¬request.IsLimited) :
    readings (request :: requests) = readings requests := by
  simp only [readings, List.filter_cons, h, decide_false, Bool.false_eq_true, if_false]

/-- The sorted set has the readings within the window. -/
structure Tracks (middleware : RateLimitMiddleware) (s : Handled) : Prop where
  nonneg : ∀ now ∈ readings (s.log.map (·.1)), 0 ≤ now
  remaining : ∀ time, (∀ now ∈ readings (s.log.map (·.1)), now ≤ time) →
    middleware.remaining s.key time =
      (readings (s.log.map (·.1))).toFinset.filter fun now ↦ time - middleware.window < now

theorem handle_of_not_limited (h : ¬request.IsLimited) :
    middleware.handle s request = ⟨s.key, (request, true) :: s.log⟩ := by
  have hpublic : isPublicPath request.path = true := Bool.not_eq_false _ ▸ h
  simp only [RateLimitMiddleware.handle, RateLimitMiddleware.dispatch, if_pos hpublic]

theorem handle_of_limited (h : request.IsLimited) :
    middleware.handle s request =
      ⟨⟨insert request.now (middleware.remaining s.key request.now),
        request.now + middleware.window⟩,
        (request, decide ((insert request.now
          (middleware.remaining s.key request.now)).card ≤ middleware.maxRequests)) :: s.log⟩ := by
  have hlimited : ¬isPublicPath request.path = true := by rw [h]; exact Bool.false_ne_true
  simp only [RateLimitMiddleware.handle, RateLimitMiddleware.dispatch, if_neg hlimited]

/-- With the request's own reading the sorted set has the window that ends at it. -/
theorem Tracks.insert_remaining (h : Tracks middleware s) (hclock : FollowsClock s request)
    (hlimited : request.IsLimited) :
    insert request.now (middleware.remaining s.key request.now) =
      insert request.now ((readings (s.log.map (·.1))).toFinset.filter
        fun now ↦ request.now - middleware.window < now) := by
  rw [h.remaining request.now (hclock hlimited).2]

theorem tracks_start : Tracks middleware Handled.start := by
  constructor
  case nonneg => exact fun now hnow ↦ by cases hnow
  case remaining =>
    intro time _
    have hlive : Handled.start.key.live time = ∅ := by
      unfold SortedSet.live
      split_ifs <;> rfl
    rw [RateLimitMiddleware.remaining, hlive]
    rfl

theorem Tracks.handle (h : Tracks middleware s) (hclock : FollowsClock s request) :
    Tracks middleware (middleware.handle s request) := by
  by_cases hlimited : request.IsLimited
  · obtain ⟨hpositive, hlast⟩ := hclock hlimited
    have hinsert := h.insert_remaining hclock hlimited
    rw [handle_of_limited hlimited, hinsert]
    constructor
    case nonneg =>
      intro now hnow
      rw [List.map_cons, readings_cons_of_limited hlimited, List.mem_cons] at hnow
      obtain rfl | hnow := hnow
      · exact hpositive
      · exact h.nonneg now hnow
    case remaining =>
      intro time htime
      rw [List.map_cons, readings_cons_of_limited hlimited] at htime ⊢
      obtain ⟨hnow, hearlier⟩ := List.forall_mem_cons.1 htime
      ext score
      have hscore : score ∈ readings (s.log.map (·.1)) → 0 ≤ score := h.nonneg score
      simp only [RateLimitMiddleware.remaining, SortedSet.live, Finset.mem_filter,
        List.toFinset_cons, Finset.mem_insert, List.mem_toFinset]
      split_ifs with hexpired
      · simp only [Finset.notMem_empty, false_and, false_iff, not_and, not_lt]
        rintro (rfl | hscore)
        · linarith
        · have := hlast score hscore
          linarith
      · simp only [Finset.mem_insert, Finset.mem_filter, List.mem_toFinset, not_and, not_le]
        constructor
        · rintro ⟨rfl | ⟨hmem, hwithin⟩, hkept⟩
          · exact ⟨Or.inl rfl, hkept hpositive⟩
          · exact ⟨Or.inr hmem, hkept (hscore hmem)⟩
        · rintro ⟨rfl | hmem, hwithin⟩
          · exact ⟨Or.inl rfl, fun _ ↦ hwithin⟩
          · exact ⟨Or.inr ⟨hmem, by linarith⟩, fun _ ↦ hwithin⟩
  · rw [handle_of_not_limited hlimited]
    constructor
    case nonneg =>
      rw [List.map_cons, readings_cons_of_not_limited hlimited]
      exact h.nonneg
    case remaining =>
      rw [List.map_cons, readings_cons_of_not_limited hlimited]
      exact h.remaining

/-- A limited request is admitted if its window has no more different readings than the limit. -/
theorem Tracks.card_insert (h : Tracks middleware s) (hclock : FollowsClock s request)
    (hlimited : request.IsLimited) :
    insert request.now (middleware.remaining s.key request.now) =
      insert request.now ((readings (s.log.map (·.1))).toFinset.filter
        fun now ↦ Within middleware.window request.now now) := by
  rw [h.insert_remaining hclock hlimited]
  congr 1
  apply Finset.filter_congr
  intro now hnow
  have hle := (hclock hlimited).2 now (List.mem_toFinset.1 hnow)
  exact (and_iff_left hle).symm

/-- There are no more different readings than readings. -/
theorem card_insert_le {time : ℚ} {all : List ℚ} {window : ℕ} :
    (insert time (all.toFinset.filter fun now ↦ Within window time now)).card ≤
      all.countP (fun now ↦ Within window time now) + 1 := by
  apply (Finset.card_insert_le _ _).trans
  apply Nat.succ_le_succ
  have heq : all.toFinset.filter (fun now ↦ Within window time now) =
      (all.filter fun now ↦ Within window time now).toFinset := by
    ext now
    simp
  rw [List.countP_eq_length_filter, heq]
  exact List.toFinset_card_le _

theorem rejectsForCause_handle (h : Tracks middleware s) (hclock : FollowsClock s request)
    (hlog : RejectsForCause middleware s.log) :
    RejectsForCause middleware (middleware.handle s request).log := by
  intro rejected earlier hsuffix
  by_cases hlimited : request.IsLimited
  · rw [handle_of_limited hlimited] at hsuffix
    obtain hhead | htail := List.suffix_cons_iff.1 hsuffix
    · obtain ⟨hentry, rfl⟩ := List.cons_eq_cons.1 hhead
      obtain ⟨rfl, hadmitted⟩ := Prod.mk.inj hentry
      have hmore := of_decide_eq_false hadmitted.symm
      rw [h.card_insert hclock hlimited, not_le] at hmore
      exact hmore.trans_le card_insert_le
    · exact hlog rejected earlier htail
  · rw [handle_of_not_limited hlimited] at hsuffix
    obtain hhead | htail := List.suffix_cons_iff.1 hsuffix
    · cases (Prod.mk.inj (List.cons_eq_cons.1 hhead).1).2
    · exact hlog rejected earlier htail

theorem admitted_sublist {log : List (Request × Bool)} :
    (admitted log).Sublist (log.map (·.1)) := List.filter_sublist.map _

theorem keepsLimit_handle (h : Tracks middleware s) (hclock : FollowsClock s request)
    (hapart : CountsApart middleware s request) (hlog : KeepsLimit middleware s.log) :
    KeepsLimit middleware (middleware.handle s request).log := by
  intro time
  by_cases hlimited : request.IsLimited
  · rw [handle_of_limited hlimited]
    by_cases hadmitted : (insert request.now
        (middleware.remaining s.key request.now)).card ≤ middleware.maxRequests
    · have hcons : admitted ((request, decide ((insert request.now (middleware.remaining s.key
          request.now)).card ≤ middleware.maxRequests)) :: s.log) = request :: admitted s.log := by
        simp only [admitted, List.filter_cons, decide_eq_true hadmitted, if_true, List.map_cons]
      rw [hcons, readings_cons_of_limited hlimited, List.countP_cons]
      by_cases hwithin : Within middleware.window time request.now
      · have hcount : (readings (s.log.map (·.1))).countP
            (fun now ↦ Within middleware.window request.now now) + 1 ≤ middleware.maxRequests := by
          by_contra hmore
          have hcard := hapart hlimited (not_le.1 hmore)
          rw [← h.card_insert hclock hlimited] at hcard
          exact absurd hadmitted (not_le.2 hcard)
        have hsub : (readings (admitted s.log)).Sublist (readings (s.log.map (·.1))) :=
          (admitted_sublist.filter _).map _
        have hwindow : (readings (admitted s.log)).countP
            (fun now ↦ Within middleware.window time now) ≤ (readings (s.log.map (·.1))).countP
              (fun now ↦ Within middleware.window request.now now) := by
          apply hsub.countP_le.trans
          apply List.countP_mono_left
          intro now hnow hin
          have hle := (hclock hlimited).2 now hnow
          have hlt := (of_decide_eq_true hin).1
          have hlast := hwithin.2
          exact decide_eq_true ⟨by linarith, hle⟩
        rw [if_pos (decide_eq_true hwithin)]
        omega
      · rw [if_neg (by rwa [decide_eq_true_iff])]
        exact hlog time
    · have hcons : admitted ((request, decide ((insert request.now (middleware.remaining s.key
          request.now)).card ≤ middleware.maxRequests)) :: s.log) = admitted s.log := by
        simp only [admitted, List.filter_cons, decide_eq_false hadmitted, Bool.false_eq_true,
          if_false]
      rw [hcons]
      exact hlog time
  · have hcons : admitted ((request, true) :: s.log) = request :: admitted s.log := rfl
    rw [handle_of_not_limited hlimited, hcons, readings_cons_of_not_limited hlimited]
    exact hlog time

/-- What the limit allows is not rejected, and no more is admitted as long as equal readings make
no difference. -/
theorem limits_kept (hclock : Guarded middleware.handle FollowsClock Handled.start requests) :
    RejectsForCause middleware (run middleware.handle Handled.start requests).log ∧
      (Guarded middleware.handle (CountsApart middleware) Handled.start requests →
        KeepsLimit middleware (run middleware.handle Handled.start requests).log) := by
  suffices hrun : ∀ s, Tracks middleware s → RejectsForCause middleware s.log →
      Guarded middleware.handle FollowsClock s requests →
      RejectsForCause middleware (run middleware.handle s requests).log ∧
        (KeepsLimit middleware s.log →
          Guarded middleware.handle (CountsApart middleware) s requests →
            KeepsLimit middleware (run middleware.handle s requests).log) by
    obtain ⟨hrejects, hkeeps⟩ := hrun Handled.start tracks_start
      (fun request earlier hsuffix ↦ by cases List.suffix_nil.1 hsuffix) hclock
    exact ⟨hrejects, hkeeps fun time ↦ Nat.zero_le _⟩
  clear hclock
  induction requests with
  | nil => exact fun s _ hrejects _ ↦ ⟨hrejects, fun hkeeps _ ↦ hkeeps⟩
  | cons request requests ih =>
    intro s htracks hrejects hclock
    obtain ⟨hrejects', hkeeps'⟩ := ih (middleware.handle s request) (htracks.handle hclock.1)
      (rejectsForCause_handle htracks hclock.1 hrejects) hclock.2
    exact ⟨hrejects', fun hkeeps hapart ↦
      hkeeps' (keepsLimit_handle htracks hclock.1 hapart.1 hkeeps) hapart.2⟩

end Runs

/-! ## Equal readings -/

/-- One request a minute. -/
def strict : RateLimitMiddleware := ⟨1, 60⟩

/-- Two requests with different readings, of which the second one is rejected. -/
def spacedRequests : List Request := [⟨"/api/player-event", 1⟩, ⟨"/api/player-event", 2⟩]

theorem spacedRequests_followClock :
    Guarded strict.handle FollowsClock Handled.start spacedRequests := by
  decide +kernel

theorem limits_kept_spaced :
    RejectsForCause strict (run strict.handle Handled.start spacedRequests).log ∧
      (Guarded strict.handle (CountsApart strict) Handled.start spacedRequests →
        KeepsLimit strict (run strict.handle Handled.start spacedRequests).log) :=
  limits_kept spacedRequests_followClock

/-- Two requests with the same reading. -/
def simultaneousRequests : List Request := [⟨"/api/player-event", 1⟩, ⟨"/api/player-event", 1⟩]

/-- Both are admitted. -/
theorem simultaneousRequests_admitted :
    Guarded strict.handle FollowsClock Handled.start simultaneousRequests ∧
      ¬KeepsLimit strict (run strict.handle Handled.start simultaneousRequests).log := by
  have hclock : Guarded strict.handle FollowsClock Handled.start simultaneousRequests := by
    decide +kernel
  refine ⟨hclock, fun hkeeps ↦ ?_⟩
  have htwo : (readings (admitted (run strict.handle Handled.start
      simultaneousRequests).log)).countP (fun now ↦ Within strict.window 1 now) = 2 := by
    decide +kernel
  have hle := hkeeps 1
  rw [htwo] at hle
  cases hle with
  | step h => cases h

end LlmGateway.RateLimit
