import Mathlib.Data.List.Basic

/-! A list with one internal cursor, as CZMQ's `zlist` keeps it: walking calls
move the cursor, appending unsets it, and unlinking the node under it moves it
back to the node before. -/

namespace Czmq

structure ZList (α : Type) where
  items : List α
  /-- Position of the current node, or `none` when the cursor is unset. -/
  cursor : Option Nat
  deriving DecidableEq, Repr

namespace ZList

variable {α σ : Type}

def new : ZList α := ⟨[], none⟩

def size (list : ZList α) : Nat := list.items.length

def first (list : ZList α) : Option α × ZList α :=
  (list.items.head?, { list with cursor := if list.items.isEmpty then none else some 0 })

/-- An unset cursor moves to the head, the last node's to unset. -/
def next (list : ZList α) : Option α × ZList α :=
  match list.cursor with
  | none => list.first
  | some index =>
      (list.items[index + 1]?,
        { list with cursor := if index + 1 < list.items.length then some (index + 1) else none })

def append (list : ZList α) (item : α) : ZList α := ⟨list.items ++ [item], none⟩

def remove (same : α → Bool) (list : ZList α) : ZList α :=
  match list.items.findIdx? same with
  | none => list
  | some gone =>
      { items := list.items.eraseIdx gone
        cursor := list.cursor.bind fun index =>
          if index = gone then (if gone = 0 then none else some (gone - 1))
          else if gone < index then some (index - 1) else some index }

/-- `x = first; while (x) { if (found x) break; x = next; }` -/
def searchFrom (found : α → Bool) : Nat → Option α × ZList α → Option α × ZList α
  | 0, (_, list) => (none, list)
  | _ + 1, (none, list) => (none, list)
  | fuel + 1, (some item, list) =>
      if found item then (some item, list) else searchFrom found fuel list.next

def search (found : α → Bool) (list : ZList α) : Option α × ZList α :=
  searchFrom found (list.items.length + 1) list.first

def appendNew (same : α → Bool) (item : α) (list : ZList α) : Bool × ZList α :=
  match list.search same with
  | (none, searched) => (true, searched.append item)
  | (some _, searched) => (false, searched)

def drainFrom : Nat → ZList α → List α × ZList α
  | 0, list => ([], list)
  | fuel + 1, list =>
      match list.next with
      | (none, moved) => ([], moved)
      | (some item, moved) =>
          let rest := drainFrom fuel moved
          (item :: rest.1, rest.2)

def drain (list : ZList α) : List α × ZList α := drainFrom (list.items.length + 1) list

def walk (list : ZList α) : List α × ZList α :=
  match list.first with
  | (none, moved) => ([], moved)
  | (some item, moved) => (item :: moved.drain.1, moved.drain.2)

/-- `x = first; while (x) { if (visit x) remove x; x = next; }`, where `visit`
also updates a state the walk carries along. -/
def sweepFrom [DecidableEq α] (visit : σ → α → Bool × σ) :
    Nat → Option α × ZList α → σ → ZList α × σ
  | 0, (_, list), state => (list, state)
  | _ + 1, (none, list), state => (list, state)
  | fuel + 1, (some item, list), state =>
      let outcome := visit state item
      let list := if outcome.1 then list.remove (fun other => decide (other = item)) else list
      sweepFrom visit fuel list.next outcome.2

def sweep [DecidableEq α] (visit : σ → α → Bool × σ) (list : ZList α) (state : σ) : ZList α × σ :=
  sweepFrom visit (list.items.length + 1) list.first state

structure At (list : ZList α) (done todo : List α) : Prop where
  items : list.items = done ++ todo
  cursor : list.cursor = if todo.isEmpty then none else some done.length

theorem first_at (list : ZList α) : list.first.2.At [] list.items := by
  constructor
  · rfl
  · simp [first]

@[simp] theorem first_fst (list : ZList α) : list.first.1 = list.items.head? := rfl

@[simp] theorem first_items (list : ZList α) : list.first.2.items = list.items := rfl

@[simp] theorem next_items (list : ZList α) : list.next.2.items = list.items := by
  unfold next
  split <;> rfl

@[simp] theorem append_items (list : ZList α) (item : α) :
    (list.append item).items = list.items ++ [item] := rfl

theorem next_at {list : ZList α} {done todo : List α} {item : α}
    (here : list.At done (item :: todo)) :
    list.next.1 = todo.head? ∧ list.next.2.At (done ++ [item]) todo := by
  have cursor : list.cursor = some done.length := by simpa using here.cursor
  have items := here.items
  simp only [next, cursor, items]
  refine ⟨?_, ?_, ?_⟩
  · rw [List.getElem?_append_right (by omega)]
    cases todo <;> simp
  · simp
  · cases todo <;> simp

/-- Unlinking the item the walk stands on leaves the walk right before what it
has still to visit, wherever in the list that item was. -/
theorem remove_next_at [DecidableEq α] {list : ZList α} {done todo : List α} {item : α}
    (here : list.At done (item :: todo)) (fresh : item ∉ done) :
    let left := list.remove (fun other => decide (other = item))
    left.next.1 = todo.head? ∧ left.next.2.At done todo := by
  have cursor : list.cursor = some done.length := by simpa using here.cursor
  have found : list.items.findIdx? (fun other => decide (other = item)) = some done.length := by
    rw [here.items, List.findIdx?_append]
    have absent : done.findIdx? (fun other => decide (other = item)) = none := by
      rw [List.findIdx?_eq_none_iff]
      intro other member
      simp only [decide_eq_false_iff_not]
      rintro rfl
      exact fresh member
    simp [absent, List.findIdx?_cons]
  have erased : list.items.eraseIdx done.length = done ++ todo := by
    rw [here.items, List.eraseIdx_append_of_length_le (Nat.le_refl _)]
    simp
  simp only [remove, found, erased, cursor, Option.bind_some, if_true]
  by_cases empty : done.length = 0
  · have nothing : done = [] := List.length_eq_zero_iff.mp empty
    subst nothing
    refine ⟨by simp [next], ?_, ?_⟩
    · simp [next, first]
    · simp [next, first]
  · simp only [next, empty, if_false]
    have back : done.length - 1 + 1 = done.length := by omega
    refine ⟨?_, ?_, ?_⟩
    · rw [back, List.getElem?_append_right (Nat.le_refl _)]
      cases todo <;> simp
    · rfl
    · cases todo <;> simp [back]

theorem searchFrom_fst (found : α → Bool) (fuel : Nat) (list : ZList α) (done todo : List α)
    (here : list.At done todo) (enough : todo.length < fuel) :
    (searchFrom found fuel (todo.head?, list)).1 = todo.find? found := by
  induction fuel generalizing list done todo with
  | zero => omega
  | succ fuel ih =>
      cases todo with
      | nil => rfl
      | cons item todo =>
          simp only [List.head?_cons, searchFrom, List.find?_cons]
          cases found item with
          | true => rfl
          | false =>
              have moved := next_at here
              have rest := ih list.next.2 (done ++ [item]) todo moved.2 (by simpa using enough)
              rw [← moved.1] at rest
              simpa using rest

@[simp] theorem search_fst (found : α → Bool) (list : ZList α) :
    (list.search found).1 = list.items.find? found :=
  searchFrom_fst found _ list.first.2 [] list.items list.first_at (by simp)

/-- Where the matching items stand in order, the first match is the least one. -/
theorem find?_least (before : α → α → Prop) {found : α → Bool} {items : List α} {item : α}
    (asymmetric : ∀ left right, before left right → ¬ before right left)
    (ordered : items.Pairwise fun first later =>
      found first = true → found later = true → before first later) :
    items.find? found = some item ↔
      item ∈ items ∧ found item = true ∧
        ∀ other ∈ items, found other = true → other ≠ item → before item other := by
  induction ordered with
  | nil => simp
  | @cons head rest ahead _ ih =>
      rw [List.find?_cons]
      cases here : found head with
      | true =>
          simp only [Option.some.injEq]
          constructor
          · rintro rfl
            refine ⟨List.mem_cons_self, here, ?_⟩
            intro other member matches' different
            rcases List.mem_cons.mp member with rfl | later
            · exact absurd rfl different
            · exact ahead other later here matches'
          · rintro ⟨member, matches', least⟩
            by_contra different
            rcases List.mem_cons.mp member with rfl | later
            · exact different rfl
            · exact asymmetric _ _ (ahead item later here matches')
                (least head List.mem_cons_self here different)
      | false =>
          simp only [ih]
          constructor
          · rintro ⟨member, matches', least⟩
            refine ⟨List.mem_cons_of_mem _ member, matches', ?_⟩
            intro other among same different
            rcases List.mem_cons.mp among with rfl | later
            · rw [here] at same
              cases same
            · exact least other later same different
          · rintro ⟨member, matches', least⟩
            rcases List.mem_cons.mp member with rfl | later
            · rw [here] at matches'
              cases matches'
            · exact ⟨later, matches', fun other among => least other (List.mem_cons_of_mem _ among)⟩

theorem searchFrom_items (found : α → Bool) (fuel : Nat) (start : Option α × ZList α) :
    (searchFrom found fuel start).2.items = start.2.items := by
  induction fuel generalizing start with
  | zero => rfl
  | succ fuel ih =>
      obtain ⟨item, list⟩ := start
      cases item with
      | none => rfl
      | some item =>
          simp only [searchFrom]
          split
          · rfl
          · rw [ih, next_items]

@[simp] theorem search_items (found : α → Bool) (list : ZList α) :
    (list.search found).2.items = list.items :=
  searchFrom_items found _ _

theorem appendNew_items (same : α → Bool) (item : α) (list : ZList α) :
    (list.appendNew same item).2.items =
      if list.items.any same then list.items else list.items ++ [item] := by
  have found := search_fst same list
  have kept := search_items same list
  unfold appendNew
  split
  · rename_i searched result
    rw [result] at found kept
    have absent : list.items.any same = false := by
      rw [List.any_eq_false]
      exact List.find?_eq_none.mp found.symm
    rw [absent]
    simp only [append_items, Bool.false_eq_true, if_false]
    rw [kept]
  · rename_i other searched result
    rw [result] at found kept
    have present : list.items.any same = true :=
      List.any_eq_true.mpr ⟨other, List.mem_of_find?_eq_some found.symm,
        List.find?_some found.symm⟩
    rw [present]
    exact kept

@[simp] theorem remove_items (same : α → Bool) (list : ZList α) :
    (list.remove same).items = list.items.eraseP same := by
  rw [List.eraseP_eq_eraseIdx]
  unfold remove
  cases list.items.findIdx? same <;> rfl

def upcoming (list : ZList α) : Nat := list.cursor.elim 0 (· + 1)

theorem next_eq (list : ZList α) :
    list.next = (list.items[list.upcoming]?,
      { list with cursor :=
          if list.upcoming < list.items.length then some list.upcoming else none }) := by
  obtain ⟨items, cursor⟩ := list
  cases cursor with
  | none => cases items <;> simp [next, first, upcoming]
  | some index => rfl

theorem drainFrom_eq (fuel : Nat) (list : ZList α)
    (enough : list.items.length - list.upcoming < fuel) :
    drainFrom fuel list = (list.items.drop list.upcoming, { list with cursor := none }) := by
  induction fuel generalizing list with
  | zero => omega
  | succ fuel ih =>
      simp only [drainFrom, next_eq]
      by_cases more : list.upcoming < list.items.length
      · simp only [List.getElem?_eq_getElem more, more, if_true]
        rw [ih _ (by simp only [upcoming, Option.elim_some] at more enough ⊢; omega)]
        simp [upcoming]
      · simp only [List.getElem?_eq_none (by omega : list.items.length ≤ list.upcoming), more,
          if_false]
        rw [List.drop_eq_nil_of_le (by omega)]

/-- The calls of `next` give what lies past the cursor, and leave it unset. -/
theorem drain_eq (list : ZList α) :
    list.drain = (list.items.drop list.upcoming, { list with cursor := none }) :=
  drainFrom_eq _ list (by omega)

@[simp] theorem drain_items (list : ZList α) : list.drain.2.items = list.items := by
  rw [drain_eq]

@[simp] theorem drain_cursor (list : ZList α) : list.drain.2.cursor = none := by
  rw [drain_eq]

theorem drain_unset {list : ZList α} (unset : list.cursor = none) : list.drain.1 = list.items := by
  rw [drain_eq]
  simp [upcoming, unset]

theorem remove_cursor (same : α → Bool) {list : ZList α} (unset : list.cursor = none) :
    (list.remove same).cursor = none := by
  unfold remove
  split
  · exact unset
  · simp [unset]

theorem drain_subset (list : ZList α) : list.drain.1 ⊆ list.items := by
  rw [drain_eq]
  exact List.drop_subset _ _

theorem walk_eq (list : ZList α) : list.walk = (list.items, { list with cursor := none }) := by
  obtain ⟨items, cursor⟩ := list
  cases items with
  | nil => rfl
  | cons item rest => simp [walk, first, drain_eq, upcoming]

def sweepItems (visit : σ → α → Bool × σ) : List α → σ → List α × σ
  | [], state => ([], state)
  | item :: rest, state =>
      let outcome := visit state item
      let swept := sweepItems visit rest outcome.2
      (if outcome.1 then swept.1 else item :: swept.1, swept.2)

theorem sweepFrom_eq [DecidableEq α] (visit : σ → α → Bool × σ) (fuel : Nat) (list : ZList α)
    (done todo : List α) (state : σ) (here : list.At done todo)
    (distinct : (done ++ todo).Nodup) (enough : todo.length < fuel) :
    sweepFrom visit fuel (todo.head?, list) state =
      (⟨done ++ (sweepItems visit todo state).1, none⟩, (sweepItems visit todo state).2) := by
  induction fuel generalizing list done todo state with
  | zero => omega
  | succ fuel ih =>
      cases todo with
      | nil =>
          obtain ⟨items, cursor⟩ := list
          simp only [List.head?_nil, sweepFrom, sweepItems, List.append_nil]
          have same := here.items
          have unset := here.cursor
          simp_all
      | cons item todo =>
          have fresh : item ∉ done := by
            intro member
            exact (List.nodup_append.mp distinct).2.2 item member item (by simp) rfl
          simp only [List.head?_cons, sweepFrom, sweepItems]
          cases (visit state item).1 with
          | true =>
              have moved := remove_next_at here fresh
              have rest := ih _ done todo (visit state item).2 moved.2
                (distinct.sublist (by simp)) (by simpa using enough)
              rw [← moved.1] at rest
              simpa using rest
          | false =>
              have moved := next_at here
              have rest := ih _ (done ++ [item]) todo (visit state item).2 moved.2
                (by simpa using distinct) (by simpa using enough)
              rw [← moved.1] at rest
              simpa using rest

/-- A sweep visits every item of a duplicate-free list once, in order, also when
it unlinks the item it stands on; it ends with the cursor unset. -/
theorem sweep_eq [DecidableEq α] (visit : σ → α → Bool × σ) (list : ZList α) (state : σ)
    (distinct : list.items.Nodup) :
    list.sweep visit state =
      (⟨(sweepItems visit list.items state).1, none⟩, (sweepItems visit list.items state).2) := by
  have swept := sweepFrom_eq visit (list.items.length + 1) list.first.2 [] list.items state
    list.first_at (by simpa using distinct) (by omega)
  rw [List.nil_append] at swept
  exact swept

inductive Sweeps [DecidableEq α] (visit : σ → α → Bool × σ) :
    Option α × ZList α → σ → List α → ZList α × σ → Prop
  | ends (list : ZList α) (state : σ) : Sweeps visit (none, list) state [] (list, state)
  | round {item : α} {list : ZList α} {state : σ} {visited : List α} {result : ZList α × σ} :
      Sweeps visit
        (if (visit state item).1 then list.remove (fun other => decide (other = item))
          else list).next
        (visit state item).2 visited result →
      Sweeps visit (some item, list) state (item :: visited) result

theorem Sweeps.deterministic [DecidableEq α] {visit : σ → α → Bool × σ}
    {start : Option α × ZList α} {state : σ} {visited other : List α} {result last : ZList α × σ}
    (left : Sweeps visit start state visited result) (right : Sweeps visit start state other last) :
    visited = other ∧ result = last := by
  induction left generalizing other with
  | ends list state =>
      cases right
      exact ⟨rfl, rfl⟩
  | round _ ih =>
      cases right with
      | round rest =>
          obtain ⟨rfl, rfl⟩ := ih rest
          exact ⟨rfl, rfl⟩

theorem sweeps_from [DecidableEq α] (visit : σ → α → Bool × σ) (list : ZList α)
    (done todo : List α) (state : σ) (here : list.At done todo) (distinct : (done ++ todo).Nodup) :
    Sweeps visit (todo.head?, list) state todo
      (⟨done ++ (sweepItems visit todo state).1, none⟩, (sweepItems visit todo state).2) := by
  induction todo generalizing list done state with
  | nil =>
      have ended : list = ⟨done, none⟩ := by
        have same := here.items
        have unset := here.cursor
        obtain ⟨items, cursor⟩ := list
        simp_all
      subst ended
      have ends : Sweeps visit (none, ⟨done, none⟩) state [] (⟨done, none⟩, state) :=
        Sweeps.ends ⟨done, none⟩ state
      simpa [sweepItems] using ends
  | cons item todo ih =>
      have fresh : item ∉ done := by
        intro member
        exact (List.nodup_append.mp distinct).2.2 item member item (by simp) rfl
      apply Sweeps.round
      simp only [sweepItems]
      cases (visit state item).1 with
      | true =>
          have moved := remove_next_at here fresh
          have rest := ih _ done (visit state item).2 moved.2 (distinct.sublist (by simp))
          rw [← moved.1] at rest
          simpa using rest
      | false =>
          have moved := next_at here
          have rest := ih _ (done ++ [item]) (visit state item).2 moved.2 (by simpa using distinct)
          rw [← moved.1] at rest
          simpa using rest

/-- The one way in which the loop runs over a duplicate-free list: it ends, and
has visited every item once. -/
theorem sweeps_iff [DecidableEq α] (visit : σ → α → Bool × σ) {list : ZList α} {state : σ}
    (distinct : list.items.Nodup) {visited : List α} {result : ZList α × σ} :
    Sweeps visit list.first state visited result ↔
      visited = list.items ∧ result = list.sweep visit state := by
  have run : Sweeps visit list.first state list.items (list.sweep visit state) := by
    rw [sweep_eq visit list state distinct]
    exact sweeps_from visit list.first.2 [] list.items state list.first_at (by simpa using distinct)
  constructor
  · exact fun other => other.deterministic run
  · rintro ⟨rfl, rfl⟩
    exact run

end ZList

end Czmq
