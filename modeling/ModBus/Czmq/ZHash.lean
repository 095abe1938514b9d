import Mathlib.Data.List.AList

/-! A hash table with string keys, as CZMQ's `zhash` keeps it. The order of the
entries carries no meaning: a walk is given the order in which it visits keys. -/

namespace Czmq

abbrev ZHash (α : Type) := AList fun _ : String => α

namespace ZHash

variable {α σ ε : Type}

/-- Inserting on an existing key fails and keeps the old item. -/
def insertNew (hash : ZHash α) (key : String) (item : α) : Int × ZHash α :=
  if key ∈ hash then (-1, hash) else (0, hash.insert key item)

def update (hash : ZHash α) (key : String) (item : α) : ZHash α :=
  if key ∈ hash then hash.insert key item else hash

def foreach (callback : String → σ → Except ε (Int × σ)) : List String → σ → Except ε σ
  | [], state => .ok state
  | key :: keys, state =>
      match callback key state with
      | .error fault => .error fault
      | .ok (rc, next) => if rc = 0 then foreach callback keys next else .ok next

def count (holds : α → Bool) (hash : ZHash α) : Nat :=
  hash.entries.countP fun entry => holds entry.2

theorem mem_of_lookup {hash : ZHash α} {key : String} {item : α}
    (found : hash.lookup key = some item) : key ∈ hash := by
  rw [← AList.lookup_isSome, found]
  rfl

theorem lookup_of_mem {hash : ZHash α} {key : String} (member : key ∈ hash) :
    ∃ item, hash.lookup key = some item :=
  Option.isSome_iff_exists.mp (AList.lookup_isSome.mpr member)

theorem forall_lookup {hash : ZHash α} {Holds : α → Prop}
    (entries : ∀ entry ∈ hash.entries, Holds entry.2) (key : String) (item : α)
    (found : hash.lookup key = some item) : Holds item :=
  entries ⟨key, item⟩ (AList.mem_lookup_iff.mp found)

theorem lookup_insert (hash : ZHash α) (key other : String) (item : α) :
    (hash.insert key item).lookup other = if other = key then some item else hash.lookup other := by
  split
  · rename_i same
    rw [same, AList.lookup_insert]
  · rename_i different
    rw [AList.lookup_insert_ne different]

theorem lookup_erase (hash : ZHash α) (key other : String) :
    (hash.erase key).lookup other = if other = key then none else hash.lookup other := by
  split
  · rename_i same
    rw [same, AList.lookup_erase]
  · rename_i different
    rw [AList.lookup_erase_ne different]

theorem lookup_erase_some {hash : ZHash α} {key other : String} {item : α} :
    (hash.erase key).lookup other = some item ↔ other ≠ key ∧ hash.lookup other = some item := by
  rw [lookup_erase]
  split <;> simp_all

theorem lookup_insertNew (hash : ZHash α) (key other : String) (item : α) :
    (hash.insertNew key item).2.lookup other =
      if other = key ∧ key ∉ hash then some item else hash.lookup other := by
  unfold insertNew
  by_cases member : key ∈ hash
  · simp [member]
  · simp [member, lookup_insert]

theorem mem_insertNew (hash : ZHash α) (key other : String) (item : α) :
    other ∈ (hash.insertNew key item).2 ↔ other = key ∨ other ∈ hash := by
  unfold insertNew
  by_cases member : key ∈ hash
  · simp only [member, if_true]
    exact ⟨Or.inr, fun either => either.elim (fun same => same ▸ member) id⟩
  · simp only [member, if_false, AList.mem_insert]

theorem lookup_update {hash : ZHash α} {key : String} (member : key ∈ hash) (other : String)
    (item : α) :
    (hash.update key item).lookup other = if other = key then some item else hash.lookup other := by
  simp only [update, member, if_true, lookup_insert]

theorem lookup_update_ne (hash : ZHash α) {key other : String} (different : other ≠ key)
    (item : α) : (hash.update key item).lookup other = hash.lookup other := by
  unfold update
  split
  · rw [AList.lookup_insert_ne different]
  · rfl

@[simp] theorem mem_update (hash : ZHash α) (key other : String) (item : α) :
    other ∈ hash.update key item ↔ other ∈ hash := by
  unfold update
  split
  · rename_i member
    rw [AList.mem_insert]
    exact ⟨fun either => either.elim (fun same => same ▸ member) id, Or.inr⟩
  · rfl

/-- What the callback preserves at every key, the walk preserves. -/
theorem foreach_invariant (Holds : σ → Prop) {callback : String → σ → Except ε (Int × σ)}
    {keys : List String} {state last : σ}
    (preserved : ∀ key ∈ keys, ∀ state rc next, callback key state = .ok (rc, next) →
      Holds state → Holds next)
    (walk : foreach callback keys state = .ok last) (start : Holds state) : Holds last := by
  induction keys generalizing state with
  | nil =>
      simp only [foreach, Except.ok.injEq] at walk
      exact walk ▸ start
  | cons key keys ih =>
      simp only [foreach] at walk
      split at walk
      · simp at walk
      · rename_i rc next call
        have reached := preserved key (by simp) state rc next call start
        split at walk
        · exact ih (fun key member => preserved key (by simp [member])) walk reached
        · simp only [Except.ok.injEq] at walk
          exact walk ▸ reached

/-- A walk that no callback ends visits one part of the keys after the other. -/
theorem foreach_append (Holds : σ → Prop) {callback : String → σ → Except ε (Int × σ)}
    {before after : List String} {state last : σ}
    (goesOn : ∀ key ∈ before, ∀ state rc next, callback key state = .ok (rc, next) →
      Holds state → rc = 0 ∧ Holds next)
    (walk : foreach callback (before ++ after) state = .ok last) (start : Holds state) :
    ∃ middle, foreach callback before state = .ok middle ∧ Holds middle ∧
      foreach callback after middle = .ok last := by
  induction before generalizing state with
  | nil => exact ⟨state, rfl, start, walk⟩
  | cons key before ih =>
      simp only [List.cons_append, foreach] at walk ⊢
      split at walk
      · simp at walk
      · rename_i rc next call
        obtain ⟨rfl, reached⟩ := goesOn key (by simp) state rc next call start
        exact ih (fun other member => goesOn other (by simp [member])) walk reached

theorem count_insert {hash : ZHash α} {key : String} (holds : α → Bool) (item : α)
    (fresh : key ∉ hash) :
    count holds (hash.insert key item) = count holds hash + (if holds item then 1 else 0) := by
  simp only [count, AList.entries_insert_of_notMem fresh, List.countP_cons]

theorem count_erase {hash : ZHash α} {key : String} {item : α} (holds : α → Bool)
    (found : hash.lookup key = some item) :
    count holds (hash.erase key) + (if holds item then 1 else 0) = count holds hash := by
  obtain ⟨old, before, after, _, entries, rest⟩ :=
    List.exists_of_kerase (AList.mem_keys.mp (mem_of_lookup found))
  have same : old = item := by
    have member : Sigma.mk key old ∈ hash.entries := by simp [entries]
    have stored : hash.lookup key = some old := AList.mem_lookup_iff.mpr member
    simpa [stored] using found
  have erased : (hash.erase key).entries = before ++ after := rest
  simp only [count, erased, entries, List.countP_append, List.countP_cons, same]
  omega

theorem count_update {hash : ZHash α} {key : String} {old : α} (holds : α → Bool) (item : α)
    (found : hash.lookup key = some old) (same : holds item = holds old) :
    count holds (hash.update key item) = count holds hash := by
  have member := mem_of_lookup found
  have entries : (hash.insert key item).entries = ⟨key, item⟩ :: (hash.erase key).entries :=
    AList.entries_insert
  have erased := count_erase holds found
  simp only [update, member, if_true, count, entries, List.countP_cons, same] at erased ⊢
  exact erased

end ZHash

end Czmq
