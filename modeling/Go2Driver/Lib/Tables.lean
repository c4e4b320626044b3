import Mathlib.Data.List.AList
import Mathlib.Data.List.Perm.Basic

/-!
# Hash tables as association lists

`std::unordered_map` over Mathlib's `AList`: at most one entry a key, with the
operations `AList` does not have.  `emplace` leaves a table that already holds
the key as it is.  The order in which a hash table is walked is not the order of
its list: a walk takes an `IterationOrder`, any rearrangement of the entries.

* `lookup_eq_some_iff`, `entries_erase`, `perm_erase`: a key's entry and the rest.
* `entries_emplace`: a new key comes in front.
* `entries_eraseAll`: erasing a list of keys one after the other.
-/

namespace Tables

variable {α β : Type} [DecidableEq α]

abbrev Entry (α β : Type) := (_ : α) × β

abbrev Table (α β : Type) := AList fun _ : α => β

/-- An order to walk the entries in: any rearrangement. -/
structure IterationOrder (γ : Type) where
  arrange : List γ → List γ
  perm : ∀ l, (arrange l).Perm l

@[simp] theorem IterationOrder.mem_arrange {γ : Type} (o : IterationOrder γ) (l : List γ) (x : γ) :
    x ∈ o.arrange l ↔ x ∈ l := (o.perm l).mem_iff

theorem lookup_eq_some_iff {t : Table α β} {k : α} {v : β} :
    t.lookup k = some v ↔ (⟨k, v⟩ : Entry α β) ∈ t.entries :=
  AList.mem_lookup_iff

theorem mem_iff_lookup {t : Table α β} {k : α} : k ∈ t ↔ ∃ v, t.lookup k = some v := by
  rw [← AList.lookup_isSome, Option.isSome_iff_exists]

omit [DecidableEq α] in
/-- Entries of one table with the same key are the same entry. -/
theorem entry_eq {t : Table α β} {e e' : Entry α β} (h : e ∈ t.entries) (h' : e' ∈ t.entries)
    (hk : e.1 = e'.1) : e = e' :=
  t.nodupKeys.eq_of_fst_eq h h' hk

theorem kerase_eq_filter (k : α) (l : List (Entry α β)) (h : l.NodupKeys) :
    l.kerase k = l.filter (fun e => decide (e.1 ≠ k)) := by
  induction l with
  | nil => rfl
  | cons e l ih =>
    obtain ⟨he, hl⟩ := List.nodupKeys_cons.mp h
    by_cases hk : k = e.1
    · rw [List.kerase_cons_eq hk, List.filter_cons_of_neg (by simp [hk]), List.filter_eq_self.mpr]
      intro e' he'
      have hne : e'.1 ≠ k := by
        intro heq
        exact he (by rw [← hk, ← heq]; exact List.mem_keys_of_mem he')
      exact decide_eq_true hne
    · rw [List.kerase_cons_ne hk, ih hl, List.filter_cons_of_pos (by simp [Ne.symm hk])]

theorem entries_erase (k : α) (t : Table α β) :
    (t.erase k).entries = t.entries.filter (fun e => decide (e.1 ≠ k)) :=
  kerase_eq_filter k t.entries t.nodupKeys

theorem mem_entries_erase {k : α} {t : Table α β} {e : Entry α β} :
    e ∈ (t.erase k).entries ↔ e ∈ t.entries ∧ e.1 ≠ k := by
  rw [entries_erase, List.mem_filter, decide_eq_true_eq]

theorem perm_erase {k : α} {v : β} {t : Table α β} (h : t.lookup k = some v) :
    t.entries.Perm (⟨k, v⟩ :: (t.erase k).entries) := by
  have hm := lookup_eq_some_iff.mp h
  obtain ⟨v', l₁, l₂, -, hl, he⟩ := List.exists_of_kerase (List.mem_keys_of_mem hm)
  have hv : (⟨k, v'⟩ : Entry α β) = ⟨k, v⟩ := entry_eq (by rw [hl]; simp) hm rfl
  rw [show (t.erase k).entries = l₁ ++ l₂ from he, hl, hv]
  exact List.perm_middle

/-- `emplace`: inserts unless the key is there already. -/
def emplace (k : α) (v : β) (t : Table α β) : Table α β := if k ∈ t then t else t.insert k v

theorem entries_emplace {k : α} {v : β} {t : Table α β} (h : k ∉ t) :
    (emplace k v t).entries = ⟨k, v⟩ :: t.entries := by
  rw [emplace, if_neg h, AList.entries_insert_of_notMem h]

theorem lookup_emplace_self {k : α} {v : β} {t : Table α β} (h : k ∉ t) :
    (emplace k v t).lookup k = some v := by
  rw [emplace, if_neg h, AList.lookup_insert]

theorem lookup_emplace_ne {k k' : α} {v : β} {t : Table α β} (h : k' ≠ k) :
    (emplace k v t).lookup k' = t.lookup k' := by
  unfold emplace
  split
  · rfl
  · exact AList.lookup_insert_ne h

/-- Where keys are distinct, a key is the key of one element. -/
theorem filter_key_eq_singleton {γ : Type} {f : γ → α} {l : List γ} {x : γ} (h : (l.map f).Nodup)
    (hx : x ∈ l) : l.filter (fun y => decide (f y = f x)) = [x] := by
  induction l with
  | nil => cases hx
  | cons y l ih =>
    rw [List.map_cons, List.nodup_cons] at h
    rcases List.mem_cons.mp hx with rfl | hx
    · have hrest : l.filter (fun y => decide (f y = f x)) = [] := by
        rw [List.filter_eq_nil_iff]
        intro y hy hk
        exact h.1 (List.mem_map.mpr ⟨y, hy, of_decide_eq_true hk⟩)
      rw [List.filter_cons_of_pos (by simp), hrest]
    · have hne : f y ≠ f x := fun hk => h.1 (hk ▸ List.mem_map_of_mem hx)
      rw [List.filter_cons_of_neg (by simpa using hne), ih h.2 hx]

theorem perm_append_comm_middle {γ : Type} (l₁ l₂ l₃ l₄ : List γ) :
    (l₁ ++ l₂ ++ (l₃ ++ l₄)).Perm (l₁ ++ l₃ ++ (l₂ ++ l₄)) := by
  rw [List.append_assoc, List.append_assoc]
  exact (List.perm_append_comm_assoc l₂ l₃ l₄).append_left l₁

/-- What was asked for is done once or still to do, where each has a key of its own. -/
theorem filter_key_of_perm {γ : Type} {f : γ → α} {asked done left : List γ}
    (h : asked.Perm (done ++ left)) (hnd : (asked.map f).Nodup) {x : γ} (hx : x ∈ asked) :
    (done.filter (fun y => decide (f y = f x)) = [x] ∧ left.filter (fun y => decide (f y = f x)) = []) ∨
      (done.filter (fun y => decide (f y = f x)) = [] ∧ left.filter (fun y => decide (f y = f x)) = [x]) := by
  have hsplit := h.filter fun y => decide (f y = f x)
  rw [filter_key_eq_singleton hnd hx, List.filter_append] at hsplit
  rcases List.append_eq_singleton_iff.mp (List.singleton_perm.mp hsplit).symm with ⟨hd, hl⟩ | ⟨hd, hl⟩
  · exact .inr ⟨hd, hl⟩
  · exact .inl ⟨hd, hl⟩

/-- Erases the keys of `l`, first to last. -/
def eraseAll (l : List (Entry α β)) (t : Table α β) : Table α β :=
  l.foldl (fun t e => t.erase e.1) t

theorem entries_eraseAll (l : List (Entry α β)) (t : Table α β) :
    (eraseAll l t).entries = t.entries.filter (fun e => decide (∀ e' ∈ l, e.1 ≠ e'.1)) := by
  induction l generalizing t with
  | nil => simp [eraseAll]
  | cons x l ih =>
    rw [eraseAll, List.foldl_cons, ← eraseAll, ih, entries_erase, List.filter_filter]
    apply List.filter_congr
    intro e _
    rw [← Bool.decide_and, decide_eq_decide, List.forall_mem_cons, and_comm]

/-- Erasing every entry that satisfies `p`, in any order, leaves those that do not. -/
theorem entries_eraseAll_filter (p : Entry α β → Bool) (t : Table α β) {l : List (Entry α β)}
    (h : ∀ e, e ∈ l ↔ e ∈ t.entries ∧ p e = true) :
    (eraseAll l t).entries = t.entries.filter (fun e => !p e) := by
  rw [entries_eraseAll]
  apply List.filter_congr
  intro e he
  cases hp : p e with
  | true =>
    simp only [Bool.not_true, decide_eq_false_iff_not, not_forall]
    exact ⟨e, (h e).mpr ⟨he, hp⟩, fun hne => hne rfl⟩
  | false =>
    simp only [Bool.not_false, decide_eq_true_eq]
    intro e' he' hk
    obtain ⟨hm, hp'⟩ := (h e').mp he'
    rw [entry_eq he hm hk, hp'] at hp
    cases hp

end Tables
