import Mathlib.Logic.Function.Basic

/-! Labelled transition systems and the facts that hold along their guarded
runs. A guard restricts which labels a run may take from which states. -/

namespace Transition

structure System (State Label : Type) where
  initial : State → Prop
  step : State → Label → State → Prop

variable {State Label : Type} {system : System State Label}
  {guard strong : State → Label → Prop} {first middle last : State}

inductive Run (system : System State Label) (guard : State → Label → Prop) :
    State → State → Prop
  | refl (state) : Run system guard state state
  | snoc {first middle last label} : Run system guard first middle → guard middle label →
      system.step middle label last → Run system guard first last

def Reaches (system : System State Label) (guard : State → Label → Prop) (state : State) : Prop :=
  ∃ start, system.initial start ∧ Run system guard start state

def anything (_ : State) (_ : Label) : Prop := True

theorem Run.trans (left : Run system guard first middle) (right : Run system guard middle last) :
    Run system guard first last := by
  induction right with
  | refl => exact left
  | snoc _ allowed move ih => exact ih.snoc allowed move

theorem Run.single {label : Label} (allowed : guard first label)
    (move : system.step first label last) : Run system guard first last :=
  (Run.refl first).snoc allowed move

theorem Run.mono (weaker : ∀ state label, strong state label → guard state label)
    (run : Run system strong first last) : Run system guard first last := by
  induction run with
  | refl => exact .refl _
  | snoc _ allowed move ih => exact ih.snoc (weaker _ _ allowed) move

/-- What every guarded step preserves, every guarded run preserves. -/
theorem Run.invariant (Holds : State → Prop) (run : Run system guard first last)
    (preserved : ∀ state label next, guard state label → system.step state label next →
      Holds state → Holds next)
    (start : Holds first) : Holds last := by
  induction run with
  | refl => exact start
  | snoc _ allowed move ih => exact preserved _ _ _ allowed move ih

theorem Reaches.initial (start : system.initial first) : Reaches system guard first :=
  ⟨first, start, .refl first⟩

theorem Reaches.extend (reached : Reaches system guard first) (run : Run system guard first last) :
    Reaches system guard last := by
  obtain ⟨start, begins, before⟩ := reached
  exact ⟨start, begins, before.trans run⟩

/-- The induction rule of every safety result: an invariant holds initially and
is preserved by guarded steps. -/
theorem Reaches.invariant (Holds : State → Prop) (reached : Reaches system guard last)
    (initially : ∀ state, system.initial state → Holds state)
    (preserved : ∀ state label next, guard state label → system.step state label next →
      Holds state → Holds next) : Holds last := by
  obtain ⟨start, begins, run⟩ := reached
  exact run.invariant Holds preserved (initially start begins)

/-- Where an invariant rests on another one, the states before each step are
known to be reached. -/
theorem Reaches.invariant_reached (Holds : State → Prop) (reached : Reaches system guard last)
    (initially : ∀ state, system.initial state → Holds state)
    (preserved : ∀ state label next, Reaches system guard state → guard state label →
      system.step state label next → Holds state → Holds next) : Holds last := by
  have both : Reaches system guard last ∧ Holds last := by
    refine reached.invariant (fun state => Reaches system guard state ∧ Holds state) ?_ ?_
    · exact fun state start => ⟨.initial start, initially state start⟩
    · rintro state label next allowed move ⟨before, holds⟩
      exact ⟨before.extend (.single allowed move),
        preserved state label next before allowed move holds⟩
  exact both.2

section Network

variable {Index : Type} [DecidableEq Index] {parts : Index → System State Label}
  {delivers : (Index → State) → Index → Label → Prop} {net : Index → State}

/-- Systems side by side, one of which moves at a time. What `delivers` lets a
part react to depends on all of them, as do messages that come from the others. -/
def network (parts : Index → System State Label)
    (delivers : (Index → State) → Index → Label → Prop) :
    System (Index → State) (Index × Label) where
  initial net := ∀ part, (parts part).initial (net part)
  step net label next := delivers net label.1 label.2 ∧
    ∃ after, (parts label.1).step (net label.1) label.2 after ∧
      next = Function.update net label.1 after

/-- What one part's step preserves as long as it holds of every part. -/
theorem Reaches.network_invariant (Holds : Index → State → Prop)
    {guard : (Index → State) → Index × Label → Prop}
    (reached : Reaches (network parts delivers) guard net)
    (initially : ∀ part state, (parts part).initial state → Holds part state)
    (preserved : ∀ net part label after, (∀ other, Holds other (net other)) →
      delivers net part label → (parts part).step (net part) label after → Holds part after) :
    ∀ part, Holds part (net part) := by
  refine reached.invariant (fun net => ∀ part, Holds part (net part)) ?_ ?_
  · exact fun net start part => initially part (net part) (start part)
  · rintro net ⟨mover, label⟩ next _ ⟨delivered, after, move, rfl⟩ holds part
    by_cases moves : part = mover
    · subst moves
      rw [Function.update_self]
      exact preserved net part label after holds delivered move
    · rw [Function.update_of_ne moves]
      exact holds part

theorem Reaches.network_part {guard : (Index → State) → Index × Label → Prop}
    (reached : Reaches (network parts delivers) guard net) (part : Index) :
    Reaches (parts part) anything (net part) :=
  reached.network_invariant (fun part state => Reaches (parts part) anything state)
    (fun _ _ start => .initial start)
    (fun _ _ _ _ alone _ move => (alone _).extend (.single trivial move)) part

end Network

end Transition
