import Mathlib.Data.List.Basic

/-!
# Computations that may fail

Inversion of the success, and of the failure, of a computation in `Except`: of a sequence, of
a check of every element of a list, of a map and of a fold.
-/

namespace LlmGateway.Relational

universe u v

variable {ε : Type u} {α β σ : Type v}

theorem bind_eq_ok_iff {x : Except ε α} {f : α → Except ε β} {b : β} :
    x >>= f = .ok b ↔ ∃ a, x = .ok a ∧ f a = .ok b := by
  cases x with
  | error e => simp only [bind, Except.bind, reduceCtorEq, false_and, exists_false]
  | ok a => simp only [bind, Except.bind, Except.ok.injEq, exists_eq_left']

theorem map_eq_ok_iff {x : Except ε α} {f : α → β} {b : β} :
    x.map f = .ok b ↔ ∃ a, x = .ok a ∧ f a = b := by
  cases x with
  | error e => simp only [Except.map, reduceCtorEq, false_and, exists_false]
  | ok a => simp only [Except.map, Except.ok.injEq, exists_eq_left']

theorem mapError_eq_ok_iff {ε' : Type u} {x : Except ε α} {g : ε → ε'} {a : α} :
    x.mapError g = .ok a ↔ x = .ok a := by
  cases x with
  | error e => simp only [Except.mapError, reduceCtorEq]
  | ok b => simp only [Except.mapError, Except.ok.injEq]

/-- A check of a list succeeds when it succeeds for each element. -/
theorem forM_eq_ok_iff {ε α : Type} {f : α → Except ε Unit} {l : List α} :
    l.forM f = .ok () ↔ ∀ a ∈ l, f a = .ok () := by
  induction l with
  | nil => simp [pure, Except.pure]
  | cons a l ih =>
    rw [List.forall_mem_cons, ← ih]
    change (f a >>= fun _ ↦ l.forM f) = .ok () ↔ _
    rw [bind_eq_ok_iff]
    constructor
    · rintro ⟨⟨⟩, ha, hl⟩
      exact ⟨ha, hl⟩
    · exact fun ⟨ha, hl⟩ ↦ ⟨(), ha, hl⟩

theorem mapM_cons_eq_ok_iff {f : α → Except ε β} {a : α} {l : List α} {l' : List β} :
    (a :: l).mapM f = .ok l' ↔ ∃ b, f a = .ok b ∧ ∃ rest, l.mapM f = .ok rest ∧ b :: rest = l' := by
  rw [List.mapM_cons, bind_eq_ok_iff]
  simp only [bind_eq_ok_iff, pure, Except.pure, Except.ok.injEq]

/-- The results of a successful map are results of its elements. -/
theorem forall_mem_of_mapM_eq_ok {f : α → Except ε β} {l : List α} {l' : List β}
    (h : l.mapM f = .ok l') : ∀ b ∈ l', ∃ a ∈ l, f a = .ok b := by
  induction l generalizing l' with
  | nil =>
    cases h
    exact fun b hb ↦ absurd hb List.not_mem_nil
  | cons a l ih =>
    obtain ⟨b, hb, rest, hrest, rfl⟩ := mapM_cons_eq_ok_iff.1 h
    refine List.forall_mem_cons.2 ⟨⟨a, List.mem_cons_self, hb⟩, fun c hc ↦ ?_⟩
    obtain ⟨a', ha', hfa'⟩ := ih hrest c hc
    exact ⟨a', List.mem_cons_of_mem a ha', hfa'⟩

theorem exists_mem_of_mapM_eq_ok {f : α → Except ε β} {l : List α} {l' : List β}
    (h : l.mapM f = .ok l') : ∀ a ∈ l, ∃ b ∈ l', f a = .ok b := by
  induction l generalizing l' with
  | nil => exact fun a ha ↦ absurd ha List.not_mem_nil
  | cons a l ih =>
    obtain ⟨b, hb, rest, hrest, rfl⟩ := mapM_cons_eq_ok_iff.1 h
    refine List.forall_mem_cons.2 ⟨⟨b, List.mem_cons_self, hb⟩, fun c hc ↦ ?_⟩
    obtain ⟨d, hd, hcd⟩ := ih hrest c hc
    exact ⟨d, List.mem_cons_of_mem b hd, hcd⟩

theorem exists_of_mapM_eq_ok {f : α → Except ε β} {l : List α} {l' : List β}
    (h : l.mapM f = .ok l') : ∀ a ∈ l, ∃ b, f a = .ok b := by
  intro a ha
  obtain ⟨b, -, hb⟩ := exists_mem_of_mapM_eq_ok h a ha
  exact ⟨b, hb⟩

theorem exists_mapM_eq_ok {f : α → Except ε β} {l : List α} (h : ∀ a ∈ l, ∃ b, f a = .ok b) :
    ∃ l', l.mapM f = .ok l' := by
  induction l with
  | nil => exact ⟨[], rfl⟩
  | cons a l ih =>
    obtain ⟨ha, hl⟩ := List.forall_mem_cons.1 h
    obtain ⟨b, hb⟩ := ha
    obtain ⟨rest, hrest⟩ := ih hl
    exact ⟨b :: rest, mapM_cons_eq_ok_iff.2 ⟨b, hb, rest, hrest, rfl⟩⟩

/-- What can be read off each result can be read off all of them. -/
theorem map_of_mapM_eq_ok {f : α → Except ε β} {g : β → α} (hg : ∀ a b, f a = .ok b → g b = a)
    {l : List α} {l' : List β} (h : l.mapM f = .ok l') : l'.map g = l := by
  induction l generalizing l' with
  | nil =>
    cases h
    rfl
  | cons a l ih =>
    obtain ⟨b, hb, rest, hrest, rfl⟩ := mapM_cons_eq_ok_iff.1 h
    rw [List.map_cons, hg a b hb, ih hrest]

/-- A map leaves a list as it is when it leaves its elements. -/
theorem mapM_eq_ok_self_iff {f : α → Except ε α} {l : List α} :
    l.mapM f = .ok l ↔ ∀ a ∈ l, f a = .ok a := by
  induction l with
  | nil => exact ⟨fun _ a ha ↦ absurd ha List.not_mem_nil, fun _ ↦ rfl⟩
  | cons a l ih =>
    rw [List.forall_mem_cons, ← ih, mapM_cons_eq_ok_iff]
    constructor
    · intro h
      obtain ⟨b, hb, rest, hrest, heq⟩ := h
      obtain ⟨rfl, rfl⟩ := List.cons.inj heq
      exact ⟨hb, hrest⟩
    · exact fun h ↦ ⟨a, h.1, l, h.2, rfl⟩

theorem foldlM_cons_eq_ok_iff {f : σ → α → Except ε σ} {a : α} {l : List α} {s t : σ} :
    (a :: l).foldlM f s = .ok t ↔ ∃ s', f s a = .ok s' ∧ l.foldlM f s' = .ok t := by
  rw [List.foldlM_cons, bind_eq_ok_iff]

/-- What each step of a successful fold preserves, the fold preserves. -/
theorem foldlM_invariant {f : σ → α → Except ε σ} {I : σ → Prop} {l : List α}
    (hstep : ∀ s, ∀ a ∈ l, ∀ s', I s → f s a = .ok s' → I s') {s t : σ} (hs : I s)
    (h : l.foldlM f s = .ok t) : I t := by
  induction l generalizing s with
  | nil =>
    cases h
    exact hs
  | cons a l ih =>
    obtain ⟨s', hfirst, hrest⟩ := foldlM_cons_eq_ok_iff.1 h
    exact ih (fun s a ha ↦ hstep s a (List.mem_cons_of_mem _ ha))
      (hstep s a List.mem_cons_self s' hs hfirst) hrest

/-- What each step of a successful fold establishes for its element, and all steps preserve,
holds in the end for all elements. -/
theorem foldlM_forall {f : σ → α → Except ε σ} {I : σ → Prop} {Q : α → σ → Prop} {l : List α}
    (hstep : ∀ s, ∀ a ∈ l, ∀ s', I s → f s a = .ok s' → I s' ∧ Q a s')
    (hkeep : ∀ s, ∀ a ∈ l, ∀ s', f s a = .ok s' → ∀ b, Q b s → Q b s') {s t : σ} (hs : I s)
    (h : l.foldlM f s = .ok t) : I t ∧ ∀ a ∈ l, Q a t := by
  induction l generalizing s with
  | nil =>
    cases h
    exact ⟨hs, fun a ha ↦ absurd ha List.not_mem_nil⟩
  | cons a l ih =>
    obtain ⟨s', hfirst, hrest⟩ := foldlM_cons_eq_ok_iff.1 h
    obtain ⟨hI', hQ⟩ := hstep s a List.mem_cons_self s' hs hfirst
    have hkeep' : ∀ s, ∀ b ∈ l, ∀ s', f s b = .ok s' → ∀ c, Q c s → Q c s' :=
      fun s b hb ↦ hkeep s b (List.mem_cons_of_mem _ hb)
    obtain ⟨hI, hall⟩ := ih (fun s b hb ↦ hstep s b (List.mem_cons_of_mem _ hb)) hkeep' hI' hrest
    refine ⟨hI, List.forall_mem_cons.2 ⟨?_, hall⟩⟩
    exact foldlM_invariant (I := fun s ↦ Q a s) (fun s b hb s' hs hstep ↦
      hkeep' s b hb s' hstep a hs) hQ hrest

/-- A fold succeeds if all its steps would in the beginning and none of them matters to the
success of a later one. -/
theorem exists_foldlM_eq_ok_iff {f : σ → α → Except ε σ} {Q : σ → α → Prop} {l : List α}
    (hfirst : ∀ s, ∀ a ∈ l, (∃ t, f s a = .ok t) ↔ Q s a)
    (hkeep : l.Pairwise fun a b ↦ ∀ s t, f s a = .ok t → (Q t b ↔ Q s b)) {s : σ} :
    (∃ t, l.foldlM f s = .ok t) ↔ ∀ a ∈ l, Q s a := by
  induction l generalizing s with
  | nil => exact ⟨fun _ a ha ↦ absurd ha List.not_mem_nil, fun _ ↦ ⟨s, rfl⟩⟩
  | cons a l ih =>
    obtain ⟨ha, hl⟩ := List.pairwise_cons.1 hkeep
    have hrest {s : σ} := ih (s := s) (fun s b hb ↦ hfirst s b (List.mem_cons_of_mem a hb)) hl
    constructor
    · intro hfold
      obtain ⟨t, hfold⟩ := hfold
      obtain ⟨s', hstep, hfold⟩ := foldlM_cons_eq_ok_iff.1 hfold
      have hall := hrest.1 ⟨t, hfold⟩
      refine List.forall_mem_cons.2 ⟨(hfirst s a List.mem_cons_self).1 ⟨s', hstep⟩, ?_⟩
      exact fun b hb ↦ (ha b hb s s' hstep).1 (hall b hb)
    · intro hall
      obtain ⟨hfirst', hall⟩ := List.forall_mem_cons.1 hall
      obtain ⟨s', hstep⟩ := (hfirst s a List.mem_cons_self).2 hfirst'
      obtain ⟨t, hfold⟩ := hrest.2 fun b hb ↦ (ha b hb s s' hstep).2 (hall b hb)
      exact ⟨t, foldlM_cons_eq_ok_iff.2 ⟨s', hstep, hfold⟩⟩

/-- A fold that goes through goes through from a related state. -/
theorem exists_foldlM_of_rel {f : σ → α → Except ε σ} {R : σ → σ → Prop} {l : List α}
    (hstep : ∀ s s', ∀ a ∈ l, R s s' → ∀ t, f s a = .ok t → ∃ t', f s' a = .ok t' ∧ R t t')
    {s s' t : σ} (hR : R s s') (h : l.foldlM f s = .ok t) :
    ∃ t', l.foldlM f s' = .ok t' ∧ R t t' := by
  induction l generalizing s s' with
  | nil =>
    cases h
    exact ⟨s', rfl, hR⟩
  | cons a l ih =>
    obtain ⟨u, hfirst, hrest⟩ := foldlM_cons_eq_ok_iff.1 h
    obtain ⟨u', hfirst', hR'⟩ := hstep s s' a List.mem_cons_self hR u hfirst
    obtain ⟨t', hrest', hend⟩ :=
      ih (fun s s' b hb ↦ hstep s s' b (List.mem_cons_of_mem a hb)) hR' hrest
    exact ⟨t', foldlM_cons_eq_ok_iff.2 ⟨u', hfirst', hrest'⟩, hend⟩

theorem mem_toOption {x : Except ε α} {a : α} (h : a ∈ x.toOption) : x = .ok a := by
  cases x with
  | error e => cases h
  | ok b => exact congrArg Except.ok (Option.some.inj h)

theorem isOk_iff {ε α : Type*} {x : Except ε α} : x.isOk = true ↔ ∃ a, x = .ok a := by
  cases x with
  | error e => simp only [Except.isOk, Except.toBool, Bool.false_eq_true, reduceCtorEq, exists_false]
  | ok a => simp only [Except.isOk, Except.toBool, Except.ok.injEq, exists_eq']

theorem isOk_bind_ok (x : Except ε α) (f : α → β) : (x >>= fun a ↦ .ok (f a)).isOk = x.isOk := by
  cases x with
  | error e => rfl
  | ok a => rfl

/-! ## Failures -/

theorem bind_eq_error_iff {x : Except ε α} {f : α → Except ε β} {e : ε} :
    x >>= f = .error e ↔ x = .error e ∨ ∃ a, x = .ok a ∧ f a = .error e := by
  cases x with
  | error e => simp only [bind, Except.bind, Except.error.injEq, reduceCtorEq, false_and,
      exists_false, or_false]
  | ok a => simp only [bind, Except.bind, reduceCtorEq, false_or, Except.ok.injEq, exists_eq_left']

/-- A check of a list fails as one of its elements does. -/
theorem exists_of_forM_eq_error {ε α : Type} {f : α → Except ε Unit} {l : List α} {e : ε}
    (h : l.forM f = .error e) : ∃ a ∈ l, f a = .error e := by
  induction l with
  | nil => exact absurd h nofun
  | cons a l ih =>
    change f a >>= (fun _ ↦ l.forM f) = .error e at h
    rcases bind_eq_error_iff.1 h with hfirst | ⟨⟨⟩, -, hrest⟩
    · exact ⟨a, List.mem_cons_self, hfirst⟩
    · obtain ⟨b, hb, hfail⟩ := ih hrest
      exact ⟨b, List.mem_cons_of_mem a hb, hfail⟩

/-- A fold fails as one of its steps does. -/
theorem exists_of_foldlM_eq_error {f : σ → α → Except ε σ} {l : List α} {s : σ} {e : ε}
    (h : l.foldlM f s = .error e) : ∃ s', ∃ a ∈ l, f s' a = .error e := by
  induction l generalizing s with
  | nil => exact absurd h nofun
  | cons a l ih =>
    rw [List.foldlM_cons] at h
    rcases bind_eq_error_iff.1 h with hfirst | ⟨s', -, hrest⟩
    · exact ⟨s, a, List.mem_cons_self, hfirst⟩
    · obtain ⟨s'', b, hb, hfail⟩ := ih hrest
      exact ⟨s'', b, List.mem_cons_of_mem a hb, hfail⟩

end LlmGateway.Relational
