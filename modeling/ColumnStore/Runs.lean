/-!
# Runs of a partial transition function

`step` returns `none` where an action is not enabled. A run may be restricted
further by a condition on each state and the action taken in it, so that a
property can be stated of all runs whose steps meet the condition.
-/

namespace Runs

universe u v

variable {State : Type u} {Action : Type v}

/-- The states reached from `start` by enabled actions that meet `allowed`. -/
inductive Reaches (step : State → Action → Option State) (allowed : State → Action → Prop)
    (start : State) : State → Prop where
  | here : Reaches step allowed start start
  | next {s t : State} {a : Action} (before : Reaches step allowed start s) (meets : allowed s a)
      (taken : step s a = some t) : Reaches step allowed start t

variable {step : State → Action → Option State} {allowed : State → Action → Prop} {start : State}

/-- What holds at the start and is kept by every allowed step holds in every state reached. -/
theorem Reaches.invariant {holds : State → Prop} (initial : holds start)
    (kept : ∀ s a t, holds s → allowed s a → step s a = some t → holds t)
    {s : State} (reached : Reaches step allowed start s) : holds s := by
  induction reached with
  | here => exact initial
  | next _ meets taken ih => exact kept _ _ _ ih meets taken

theorem Reaches.mono {allowed' : State → Action → Prop} {s : State}
    (reached : Reaches step allowed start s) (weaker : ∀ s a, allowed s a → allowed' s a) :
    Reaches step allowed' start s := by
  induction reached with
  | here => exact .here
  | next _ meets taken ih => exact .next ih (weaker _ _ meets) taken

/-- Execute a list of actions, checking the condition at each of them. -/
def execute (step : State → Action → Option State) (allowed : State → Action → Prop)
    [∀ s a, Decidable (allowed s a)] (s : State) : List Action → Option State
  | [] => some s
  | a :: rest => if allowed s a then (step s a).bind fun t => execute step allowed t rest else none

theorem Reaches.trans {s t : State} (first : Reaches step allowed start s)
    (second : Reaches step allowed s t) : Reaches step allowed start t := by
  induction second with
  | here => exact first
  | next _ meets taken ih => exact .next ih meets taken

theorem reaches_of_execute [∀ s a, Decidable (allowed s a)] {s t : State} {actions : List Action}
    (done : execute step allowed s actions = some t) : Reaches step allowed s t := by
  induction actions generalizing s with
  | nil =>
    cases done
    exact .here
  | cons a rest ih =>
    simp only [execute] at done
    split at done
    · rename_i meets
      obtain ⟨middle, taken, finished⟩ := Option.bind_eq_some_iff.mp done
      exact .trans (.next .here meets taken) (ih finished)
    · cases done

end Runs
