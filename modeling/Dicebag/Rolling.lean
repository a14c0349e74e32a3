import Dicebag.Log
import Dicebag.Roller

/-!
# Actions that roll

A `Rolling σ α` is an action that takes faces from a roller of type `σ`, logs what it does, and ends
with an `α` or a fault.  Running one gives an `Aftermath`, which has all three: how it ended, the
log, and the roller as it was left.  A fault ends the action on the spot, but what was logged before
stays logged and what was drawn stays drawn.

The actions are a lawful monad (`instLawfulMonadRolling`), so a sequence of them can be regrouped in
proofs.  The building blocks are `Rolling.draw`, `Rolling.fail` and `Rolling.record`.
-/

set_option autoImplicit false

namespace Dicebag

/-- What is left after an action. -/
structure Aftermath (σ α : Type) where
  /-- How the action ended. -/
  answer : Except Fault α
  /-- What it logged, in order. -/
  log : List Event
  /-- The roller as the action left it. -/
  roller : σ

/-- An action that rolls dice. -/
def Rolling (σ α : Type) : Type := σ → Aftermath σ α

namespace Rolling

variable {σ α β : Type}

/-- Runs the action on a roller. -/
def run (action : Rolling σ α) (roller : σ) : Aftermath σ α := action roller

/-- Ends with a value and does nothing else. -/
protected def pure (a : α) : Rolling σ α := fun roller => ⟨.ok a, [], roller⟩

/-- Runs one action and then another that depends on how the first ended. -/
protected def bind (action : Rolling σ α) (next : α → Rolling σ β) : Rolling σ β := fun roller =>
  let first := action roller
  match first.answer with
  | .error fault => ⟨.error fault, first.log, first.roller⟩
  | .ok a =>
    let second := next a first.roller
    ⟨second.answer, first.log ++ second.log, second.roller⟩

/-- Runs an action and applies a function to the value it ends with. -/
protected def map (f : α → β) (action : Rolling σ α) : Rolling σ β := fun roller =>
  let after := action roller
  ⟨after.answer.map f, after.log, after.roller⟩

instance : Monad (Rolling σ) where
  pure := Rolling.pure
  bind := Rolling.bind
  map := Rolling.map

/-- Ends with a fault. -/
def fail (fault : Fault) : Rolling σ α := fun roller => ⟨.error fault, [], roller⟩

/-- Logs some events. -/
def record (events : List Event) : Rolling σ Unit := fun roller => ⟨.ok (), events, roller⟩

/-- Draws one face of a die. -/
def draw [Roller σ] (sides : Nat) : Rolling σ Nat := fun roller =>
  let drawn := Roller.roll sides roller
  ⟨drawn.1, [], drawn.2⟩

/-! ## Running the building blocks -/

@[simp] theorem run_pure (a : α) (roller : σ) :
    (pure a : Rolling σ α).run roller = ⟨.ok a, [], roller⟩ := rfl

@[simp] theorem run_fail (fault : Fault) (roller : σ) :
    (fail fault : Rolling σ α).run roller = ⟨.error fault, [], roller⟩ := rfl

@[simp] theorem run_record (events : List Event) (roller : σ) :
    (record events).run roller = ⟨.ok (), events, roller⟩ := rfl

@[simp] theorem run_map (f : α → β) (action : Rolling σ α) (roller : σ) :
    (f <$> action).run roller =
      ⟨(action.run roller).answer.map f, (action.run roller).log, (action.run roller).roller⟩ :=
  rfl

/-- If the first action ends with a value, the second goes on from where it left the roller. -/
theorem run_bind_of_ok {action : Rolling σ α} {next : α → Rolling σ β} {roller : σ} {a : α}
    (h : (action.run roller).answer = .ok a) :
    (action >>= next).run roller =
      ⟨((next a).run (action.run roller).roller).answer,
        (action.run roller).log ++ ((next a).run (action.run roller).roller).log,
        ((next a).run (action.run roller).roller).roller⟩ := by
  show Rolling.bind action next roller = _
  unfold run at h
  simp only [Rolling.bind, h]
  rfl

/-- The same where the whole run of the first action is known. -/
theorem run_bind_of_run {action : Rolling σ α} {next : α → Rolling σ β} {roller after : σ} {a : α}
    {log : List Event} (h : action.run roller = ⟨.ok a, log, after⟩) :
    (action >>= next).run roller =
      ⟨((next a).run after).answer, log ++ ((next a).run after).log,
        ((next a).run after).roller⟩ := by
  have hanswer : (action.run roller).answer = .ok a := by rw [h]
  rw [run_bind_of_ok hanswer, h]

/-- If the first action ends with a fault, the second is not run. -/
theorem run_bind_of_error {action : Rolling σ α} {next : α → Rolling σ β} {roller : σ}
    {fault : Fault} (h : (action.run roller).answer = .error fault) :
    (action >>= next).run roller =
      ⟨.error fault, (action.run roller).log, (action.run roller).roller⟩ := by
  show Rolling.bind action next roller = _
  unfold run at h
  simp only [Rolling.bind, h]
  rfl

/-- The same where the whole run of the first action is known. -/
theorem run_bind_of_fault {action : Rolling σ α} {next : α → Rolling σ β} {roller after : σ}
    {fault : Fault} {log : List Event} (h : action.run roller = ⟨.error fault, log, after⟩) :
    (action >>= next).run roller = ⟨.error fault, log, after⟩ := by
  have hanswer : (action.run roller).answer = .error fault := by rw [h]
  rw [run_bind_of_error hanswer, h]

/-! ## The monad laws -/

instance instLawfulMonadRolling : LawfulMonad (Rolling σ) :=
  LawfulMonad.mk' (Rolling σ)
    (by
      intro α action
      funext roller
      show Rolling.map id action roller = action roller
      unfold Rolling.map
      cases action roller with
      | mk answer log after => cases answer <;> rfl)
    (by
      intro α β a next
      funext roller
      show Rolling.bind (Rolling.pure a) next roller = next a roller
      simp [Rolling.bind, Rolling.pure])
    (by
      intro α β γ action next last
      funext roller
      show Rolling.bind (Rolling.bind action next) last roller =
        Rolling.bind action (fun a => Rolling.bind (next a) last) roller
      unfold Rolling.bind
      cases action roller with
      | mk answer log after =>
        cases answer with
        | error fault => rfl
        | ok a =>
          cases h : next a after with
          | mk answer' log' after' => cases answer' <;> simp [h])
    (by intros; rfl)
    (by intros; rfl)
    (by intros; rfl)
    (by
      intro α β f action
      funext roller
      show Rolling.bind action (fun a => Rolling.pure (f a)) roller = Rolling.map f action roller
      unfold Rolling.bind Rolling.map Rolling.pure
      cases action roller with
      | mk answer log after => cases answer <;> simp [Except.map])

end Rolling
end Dicebag
