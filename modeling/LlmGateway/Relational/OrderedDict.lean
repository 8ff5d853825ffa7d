import Mathlib.Data.Finset.Card
import Mathlib.Data.Finset.Dedup
import Mathlib.Data.List.AList

/-!
# Dictionaries in the order of insertion

The association lists of Mathlib, in which an insertion moves its key to the front, so that the
newest entry comes first. `filter` keeps the entries that meet a condition, and `trim` drops the
oldest ones until a limit is met.
-/

namespace LlmGateway.Relational

abbrev OrderedDict (κ ν : Type*) := AList fun _ : κ ↦ ν

namespace OrderedDict

variable {κ ν : Type*}

/-- Equality is decided on the entries, so that it can be evaluated. -/
instance [DecidableEq κ] [DecidableEq ν] : DecidableEq (OrderedDict κ ν) := fun _ _ ↦
  decidable_of_iff _ AList.ext_iff.symm

/-- The entries that meet a condition. -/
def filter (p : κ → ν → Bool) (d : OrderedDict κ ν) : OrderedDict κ ν where
  entries := d.entries.filter fun e ↦ p e.1 e.2
  nodupKeys := List.Nodup.sublist (List.filter_sublist.map _) d.nodupKeys

/-- The newest entries, as many as the limit admits; every one if there is no limit. -/
def trim (limit : Option ℕ) (d : OrderedDict κ ν) : OrderedDict κ ν where
  entries := (limit.map d.entries.take).getD d.entries
  nodupKeys := by
    cases limit with
    | none => exact d.nodupKeys
    | some n => exact List.Nodup.sublist ((List.take_sublist n _).map _) d.nodupKeys

/-- The same keys with other values. -/
def mapValues (f : ν → ν) (d : OrderedDict κ ν) : OrderedDict κ ν where
  entries := d.entries.map fun e ↦ ⟨e.1, f e.2⟩
  nodupKeys := by
    have hnodup := d.nodupKeys
    simp only [List.NodupKeys, List.keys, List.map_map, Function.comp_def] at hnodup ⊢
    exact hnodup

@[simp] theorem trim_none (d : OrderedDict κ ν) : d.trim none = d := rfl

variable [DecidableEq κ] {d : OrderedDict κ ν} {k l : κ} {v : ν} {p q : κ → ν → Bool}

theorem kerase_eq_filter {entries : List (Sigma fun _ : κ ↦ ν)} (hnodup : entries.NodupKeys)
    (k : κ) : entries.kerase k = entries.filter fun e ↦ e.1 ≠ k := by
  induction entries with
  | nil => rfl
  | cons e entries ih =>
    rw [List.nodupKeys_cons] at hnodup
    by_cases heq : k = e.1
    · have hall : ∀ f ∈ entries, f.1 ≠ k := fun f hf hk ↦
        hnodup.1 (heq ▸ hk ▸ List.mem_map_of_mem hf)
      rw [List.kerase_cons_eq heq, List.filter_cons_of_neg (by simp [heq]),
        List.filter_eq_self.2 (by simpa using hall)]
    · rw [List.kerase_cons_ne heq, List.filter_cons_of_pos (by simpa using Ne.symm heq),
        ih hnodup.2]

theorem erase_insert_self (d : OrderedDict κ ν) (k : κ) (v : ν) :
    (d.insert k v).erase k = d.erase k := by
  apply AList.ext
  have hhead : k = (⟨k, v⟩ : Sigma fun _ : κ ↦ ν).1 := rfl
  exact List.kerase_cons_eq hhead

theorem erase_insert_of_ne (d : OrderedDict κ ν) (h : k ≠ l) (v : ν) :
    (d.insert k v).erase l = (d.erase l).insert k v := by
  apply AList.ext
  change List.kerase l (⟨k, v⟩ :: List.kerase k d.entries) =
    ⟨k, v⟩ :: List.kerase k (List.kerase l d.entries)
  rw [List.kerase_cons_ne h.symm, List.kerase_comm]

theorem erase_of_lookup_eq_none (h : d.lookup k = none) : d.erase k = d := by
  apply AList.ext
  exact List.kerase_of_notMem_keys (AList.lookup_eq_none.1 h)

@[simp] theorem erase_idem (d : OrderedDict κ ν) (k : κ) : (d.erase k).erase k = d.erase k :=
  erase_of_lookup_eq_none (AList.lookup_erase k d)

theorem erase_filter (p : κ → ν → Bool) (d : OrderedDict κ ν) (k : κ) :
    (d.filter p).erase k = filter p (d.erase k) := by
  apply AList.ext
  change (d.filter p).entries.kerase k = (d.entries.kerase k).filter _
  rw [kerase_eq_filter (d.filter p).nodupKeys, kerase_eq_filter d.nodupKeys]
  simp only [filter, List.filter_filter]
  exact List.filter_congr fun e _ ↦ Bool.and_comm _ _

theorem lookup_filter (p : κ → ν → Bool) (d : OrderedDict κ ν) (k : κ) :
    (d.filter p).lookup k = (d.lookup k).filter (p k) := by
  apply Option.ext
  intro v
  have hfilter : v ∈ (d.filter p).lookup k ↔ v ∈ d.lookup k ∧ p k v = true := by
    rw [AList.mem_lookup_iff, AList.mem_lookup_iff]
    exact List.mem_filter
  exact hfilter.trans Option.mem_filter_iff.symm

/-- What meets the condition is still there. -/
theorem lookup_filter_of_forall {o : Option ν} (h : d.lookup k = o)
    (hp : ∀ v ∈ o, p k v = true) : (d.filter p).lookup k = o := by
  rw [lookup_filter, h]
  cases o with
  | none => rfl
  | some v => rw [Option.filter_some, if_pos (hp v rfl)]

theorem mem_lookup_filter (h : v ∈ (d.filter p).lookup k) : v ∈ d.lookup k := by
  rw [lookup_filter] at h
  exact (Option.mem_filter_iff.1 h).1

omit [DecidableEq κ] in
theorem filter_filter (d : OrderedDict κ ν) :
    (d.filter p).filter q = d.filter fun k v ↦ p k v && q k v := by
  apply AList.ext
  simp only [filter, List.filter_filter]
  exact List.filter_congr fun e _ ↦ Bool.and_comm _ _

theorem filter_congr (h : ∀ k v, v ∈ d.lookup k → p k v = q k v) : d.filter p = d.filter q := by
  apply AList.ext
  exact List.filter_congr fun e he ↦ h e.1 e.2 (AList.mem_lookup_iff.2 he)

theorem mem_lookup_erase (h : v ∈ (d.erase l).lookup k) : v ∈ d.lookup k := by
  by_cases heq : k = l
  · subst heq
    rw [AList.lookup_erase] at h
    cases h
  · rwa [AList.lookup_erase_ne heq] at h

theorem mem_lookup_insert {w : ν} (h : v ∈ (d.insert l w).lookup k) :
    k = l ∧ v = w ∨ v ∈ d.lookup k := by
  by_cases heq : k = l
  · subst heq
    rw [AList.lookup_insert] at h
    exact Or.inl ⟨rfl, (Option.some.inj h).symm⟩
  · rw [AList.lookup_insert_ne heq] at h
    exact Or.inr h

theorem mem_lookup_trim {limit : Option ℕ} (h : v ∈ (d.trim limit).lookup k) : v ∈ d.lookup k := by
  rw [AList.mem_lookup_iff] at h ⊢
  cases limit with
  | none => exact h
  | some n => exact List.mem_of_mem_take h

/-! ## Agreement up to one key -/

/-- The dictionaries have the same entries in the same order, but for one key. -/
def AgreeExcept (k : κ) (d d' : OrderedDict κ ν) : Prop := d.erase k = d'.erase k

namespace AgreeExcept

variable {d' d'' : OrderedDict κ ν}

theorem trans (h : AgreeExcept k d d') (h' : AgreeExcept k d' d'') : AgreeExcept k d d'' :=
  Eq.trans h h'

theorem symm (h : AgreeExcept k d d') : AgreeExcept k d' d := Eq.symm h

theorem insert_self (d : OrderedDict κ ν) (k : κ) (v : ν) : AgreeExcept k (d.insert k v) d :=
  erase_insert_self d k v

theorem lookup (h : AgreeExcept k d d') (hne : l ≠ k) : d.lookup l = d'.lookup l := by
  rw [← AList.lookup_erase_ne hne, ← AList.lookup_erase_ne hne (s := d'), h]

theorem mem_iff (h : AgreeExcept k d d') (hne : l ≠ k) : l ∈ d ↔ l ∈ d' := by
  rw [← AList.lookup_isSome, ← AList.lookup_isSome, h.lookup hne]

theorem insert (h : AgreeExcept k d d') (hne : l ≠ k) (v : ν) :
    AgreeExcept k (d.insert l v) (d'.insert l v) := by
  rw [AgreeExcept, erase_insert_of_ne d hne, erase_insert_of_ne d' hne, h]

theorem erase (h : AgreeExcept k d d') (l : κ) : AgreeExcept k (d.erase l) (d'.erase l) := by
  rw [AgreeExcept, AList.erase_erase, AList.erase_erase l k d', h]

theorem filter (h : AgreeExcept k d d') (hpq : ∀ l, l ≠ k → ∀ v, p l v = q l v) :
    AgreeExcept k (d.filter p) (d'.filter q) := by
  rw [AgreeExcept, erase_filter, erase_filter, ← h]
  apply filter_congr
  intro l v hv
  apply hpq
  intro heq
  rw [heq, AList.lookup_erase] at hv
  cases hv

end AgreeExcept

/-- The entries that meet a condition are as many as the keys whose values do. -/
theorem countP_entries (d : OrderedDict κ ν) (p : ν → Bool) :
    d.entries.countP (fun e ↦ p e.2) =
      (d.keys.toFinset.filter fun k ↦ (d.lookup k).any p).card := by
  have hnodup : ((d.entries.filter fun e ↦ p e.2).map (·.1)).Nodup :=
    List.Nodup.sublist (List.filter_sublist.map _) d.nodupKeys
  rw [List.countP_eq_length_filter, ← List.length_map (f := (·.1)),
    ← List.toFinset_card_of_nodup hnodup]
  congr 1
  ext k
  simp only [List.mem_toFinset, List.mem_map, List.mem_filter, Finset.mem_filter, Option.any_eq_true,
    Sigma.exists, exists_and_right, exists_eq_right]
  constructor
  · rintro ⟨v, hv, hp⟩
    exact ⟨AList.mem_keys.1 (List.mem_keys_of_mem hv), v, AList.mem_lookup_iff.2 hv, hp⟩
  · rintro ⟨-, v, hv, hp⟩
    exact ⟨v, AList.mem_lookup_iff.1 hv, hp⟩

end OrderedDict

end LlmGateway.Relational
