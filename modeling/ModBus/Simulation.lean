import ModBus.Transition

/-! Simulations along an abstraction of the states. A step of the concrete system
may be any number of steps of the abstract one. -/

namespace Transition

variable {State Label Abstract Move : Type} {concrete : System State Label}
  {guard : State → Label → Prop} {abstract : System Abstract Move} {view : State → Abstract}
  {first last : State}

/-- The abstract runs between the views of what the guarded steps of reached
states lead from and to. -/
structure Simulation (concrete : System State Label) (guard : State → Label → Prop)
    (abstract : System Abstract Move) (view : State → Abstract) : Prop where
  start : ∀ state, concrete.initial state → abstract.initial (view state)
  step : ∀ state label next, Reaches concrete guard state → guard state label →
    concrete.step state label next → Run abstract anything (view state) (view next)

theorem Simulation.run (simulation : Simulation concrete guard abstract view)
    (reached : Reaches concrete guard first) (run : Run concrete guard first last) :
    Run abstract anything (view first) (view last) := by
  induction run with
  | refl => exact .refl _
  | snoc before allowed move ih =>
      exact ih.trans (simulation.step _ _ _ (reached.extend before) allowed move)

theorem Simulation.reaches (simulation : Simulation concrete guard abstract view)
    (reached : Reaches concrete guard last) : Reaches abstract anything (view last) := by
  obtain ⟨start, begins, run⟩ := reached
  exact ⟨view start, simulation.start start begins, simulation.run (.initial begins) run⟩

section Network

variable {Index : Type} [DecidableEq Index] {parts : Index → System State Label}
  {before after : Index → State}

def independent (_ : Index → State) (_ : Index) (_ : Label) : Prop := True

theorem Run.update {part : Index} {state next : State} (net : Index → State)
    (run : Run (parts part) anything state next) :
    Run (network parts independent) anything (Function.update net part state)
      (Function.update net part next) := by
  induction run with
  | refl => exact .refl _
  | @snoc middle last label _ _ move ih =>
      have moves : (network parts independent).step (Function.update net part middle)
          (part, label) (Function.update net part last) := by
        refine ⟨trivial, last, ?_, ?_⟩
        · rwa [Function.update_self]
        · rw [Function.update_idem]
      exact ih.snoc trivial moves

/-- Runs of finitely many independent parts make a run of all. -/
theorem Run.network (moved : List Index)
    (still : ∀ part, part ∉ moved → after part = before part)
    (runs : ∀ part, Run (parts part) anything (before part) (after part)) :
    Run (network parts independent) anything before after := by
  induction moved generalizing after with
  | nil =>
      have same : after = before := funext fun part => still part List.not_mem_nil
      rw [same]
      exact .refl before
  | cons part rest ih =>
      have early : Run (Transition.network parts independent) anything before
          (Function.update after part (before part)) := by
        refine ih ?_ ?_
        · intro other unmoved
          by_cases same : other = part
          · rw [same, Function.update_self]
          · rw [Function.update_of_ne same]
            exact still other (by simp [same, unmoved])
        · intro other
          by_cases same : other = part
          · subst same
            rw [Function.update_self]
            exact .refl _
          · rw [Function.update_of_ne same]
            exact runs other
      have late : Run (Transition.network parts independent) anything
          (Function.update after part (before part)) (Function.update after part (after part)) :=
        (runs part).update after
      rw [Function.update_eq_self] at late
      exact early.trans late

/-- In a run of independent parts, each of them runs. -/
theorem Run.part {guard : (Index → State) → Index × Label → Prop}
    (run : Run (Transition.network parts independent) guard before after) (part : Index) :
    Run (parts part) anything (before part) (after part) := by
  induction run with
  | refl => exact .refl _
  | @snoc net _ label _ _ move ih =>
      obtain ⟨_, after, moves, rfl⟩ := move
      by_cases same : part = label.1
      · subst same
        rw [Function.update_self]
        exact ih.snoc trivial moves
      · rw [Function.update_of_ne same]
        exact ih

end Network

end Transition
