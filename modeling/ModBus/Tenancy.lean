import Mathlib.Logic.Function.Basic
import ModBus.Transition

/-! Names that are taken by making an entry where there is none, and given back by
taking the entry away. Whoever made an entry may also go and leave it behind. -/

open Transition

namespace Tenancy

structure Tenancies (Tenant Name Ticket : Type) where
  entry : Name → Option Ticket
  tenure : Tenant → Option (Name × Ticket)

inductive Change (Name Ticket : Type)
  | take (name : Name) (ticket : Ticket)
  | leave
  | vacate

section

variable {Tenant Name Ticket : Type} [DecidableEq Tenant] [DecidableEq Name]

inductive Moves (t : Tenancies Tenant Name Ticket) (tenant : Tenant) :
    Change Name Ticket → Tenancies Tenant Name Ticket → Prop
  | take {name ticket} (idle : t.tenure tenant = none) (free : t.entry name = none) :
      Moves t tenant (.take name ticket) ⟨Function.update t.entry name (some ticket),
        Function.update t.tenure tenant (some (name, ticket))⟩
  | leave : Moves t tenant .leave ⟨t.entry, Function.update t.tenure tenant none⟩
  | vacate {name ticket} (held : t.tenure tenant = some (name, ticket)) :
      Moves t tenant .vacate ⟨Function.update t.entry name none,
        Function.update t.tenure tenant none⟩

def tenancies : System (Tenancies Tenant Name Ticket) (Tenant × Change Name Ticket) where
  initial t := ∀ tenant, t.tenure tenant = none
  step t label next := Moves t label.1 label.2 next

structure Exclusive (t : Tenancies Tenant Name Ticket) : Prop where
  entered : ∀ tenant name ticket, t.tenure tenant = some (name, ticket) → t.entry name = some ticket
  single : ∀ tenant rival name ticket other, t.tenure tenant = some (name, ticket) →
    t.tenure rival = some (name, other) → rival = tenant

structure Abandoned (name : Name) (ticket : Ticket) (t : Tenancies Tenant Name Ticket) : Prop where
  entered : t.entry name = some ticket
  unheld : ∀ tenant other, t.tenure tenant ≠ some (name, other)

variable {t next first last : Tenancies Tenant Name Ticket} {tenant rival : Tenant}
  {change : Change Name Ticket} {name : Name} {ticket : Ticket}
  {guard : Tenancies Tenant Name Ticket → Tenant × Change Name Ticket → Prop}

omit [DecidableEq Name] in
theorem tenure_update {choice : Option (Name × Ticket)} {holding : Name × Ticket}
    (held : Function.update t.tenure tenant choice rival = some holding) :
    rival = tenant ∧ choice = some holding ∨ rival ≠ tenant ∧ t.tenure rival = some holding := by
  by_cases same : rival = tenant
  · subst same
    rw [Function.update_self] at held
    exact .inl ⟨rfl, held⟩
  · rw [Function.update_of_ne same] at held
    exact .inr ⟨same, held⟩

omit [DecidableEq Name] in
theorem tenure_given_up {holding : Name × Ticket}
    (held : Function.update t.tenure tenant none rival = some holding) :
    rival ≠ tenant ∧ t.tenure rival = some holding := by
  rcases tenure_update held with ⟨_, gone⟩ | kept
  · cases gone
  · exact kept

theorem Exclusive.moves (exclusive : Exclusive t) (moved : Moves t tenant change next) :
    Exclusive next := by
  cases moved with
  | @take name ticket idle free =>
      -- whoever holds the name would have an entry under it
      have unheld : ∀ rival other, t.tenure rival ≠ some (name, other) := by
        intro rival other held
        rw [exclusive.entered rival name other held] at free
        cases free
      constructor
      case entered =>
        intro rival wanted other held
        rcases tenure_update held with ⟨_, same⟩ | ⟨_, before⟩
        · cases same
          exact Function.update_self ..
        · have different : wanted ≠ name := by
            rintro rfl
            exact unheld rival other before
          exact (Function.update_of_ne different ..).trans
            (exclusive.entered rival wanted other before)
      case single =>
        intro one two wanted first second held rivals
        rcases tenure_update held with ⟨rfl, same⟩ | ⟨_, before⟩ <;>
          rcases tenure_update rivals with ⟨rfl, also⟩ | ⟨_, earlier⟩
        · rfl
        · cases same
          exact absurd earlier (unheld two second)
        · cases also
          exact absurd before (unheld one first)
        · exact exclusive.single one two wanted first second before earlier
  | leave =>
      refine ⟨fun rival wanted other held => ?_, fun one two wanted first second held rivals => ?_⟩
      · exact exclusive.entered rival wanted other (tenure_given_up held).2
      · exact exclusive.single one two wanted first second (tenure_given_up held).2
          (tenure_given_up rivals).2
  | @vacate name ticket mine =>
      refine ⟨fun rival wanted other held => ?_, fun one two wanted first second held rivals => ?_⟩
      · obtain ⟨different, before⟩ := tenure_given_up held
        have others : wanted ≠ name := by
          rintro rfl
          exact different (exclusive.single tenant rival wanted ticket other mine before)
        exact (Function.update_of_ne others ..).trans (exclusive.entered rival wanted other before)
      · exact exclusive.single one two wanted first second (tenure_given_up held).2
          (tenure_given_up rivals).2

theorem Abandoned.moves (abandoned : Abandoned name ticket t) (moved : Moves t tenant change next) :
    Abandoned name ticket next := by
  cases moved with
  | @take taken new idle free =>
      have different : name ≠ taken := by
        rintro rfl
        rw [abandoned.entered] at free
        cases free
      refine ⟨(Function.update_of_ne different ..).trans abandoned.entered, ?_⟩
      intro rival other held
      rcases tenure_update held with ⟨_, same⟩ | ⟨_, before⟩
      · cases same
        exact different rfl
      · exact abandoned.unheld rival other before
  | leave =>
      exact ⟨abandoned.entered, fun rival other held =>
        abandoned.unheld rival other (tenure_given_up held).2⟩
  | @vacate taken old mine =>
      have different : name ≠ taken := by
        rintro rfl
        exact abandoned.unheld tenant old mine
      refine ⟨(Function.update_of_ne different ..).trans abandoned.entered, ?_⟩
      exact fun rival other held => abandoned.unheld rival other (tenure_given_up held).2

theorem exclusive (reached : Reaches tenancies guard t) : Exclusive t := by
  refine reached.invariant Exclusive ?_ ?_
  · intro start idle
    refine ⟨fun tenant _ _ held => ?_, fun tenant _ _ _ _ held => ?_⟩ <;>
      · rw [idle tenant] at held
        cases held
  · exact fun _ _ _ _ moved holds => holds.moves moved

/-- What nobody holds, nobody holds again: nobody is left to take the entry away. -/
theorem abandoned (run : Run tenancies guard first last) (start : Abandoned name ticket first) :
    Abandoned name ticket last :=
  run.invariant (Abandoned name ticket) (fun _ _ _ _ moved holds => holds.moves moved) start

end

end Tenancy
