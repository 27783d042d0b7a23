import Scriptlet.Evaluation

set_option autoImplicit false

/-! How the steps of a run execute on a machine. -/

namespace Scriptlet.Run

variable {α β : Type}

section Steps

variable (machine : Machine)

@[simp] theorem exec_pure (a : α) : (pure a : Run α).exec machine = (.ok a, machine) := rfl

@[simp] theorem exec_throw (fault : Fault) :
    (throw fault : Run α).exec machine = (.error fault, machine) := rfl

@[simp] theorem exec_bind (r : Run α) (k : α → Run β) :
    (r >>= k).exec machine =
      match r.exec machine with
      | (.ok a, left) => (k a).exec left
      | (.error fault, left) => (.error fault, left) := by
  change StateT.run (ExceptT.run (r >>= k)) machine = _
  cases result : r.exec machine with
  | mk outcome left =>
      have executed : StateT.run (ExceptT.run r) machine = (outcome, left) := result
      cases outcome <;> simp [ExceptT.run_bind, StateT.run_bind, executed] <;> rfl

@[simp] theorem exec_map (f : α → β) (r : Run α) :
    (f <$> r).exec machine =
      match r.exec machine with
      | (.ok a, left) => (.ok (f a), left)
      | (.error fault, left) => (.error fault, left) := by
  rw [map_eq_pure_bind, exec_bind]
  rfl

@[simp] theorem exec_lift (e : Except Fault α) : (liftM e : Run α).exec machine = (e, machine) := rfl

@[simp] theorem exec_get : (get : Run Machine).exec machine = (.ok machine, machine) := rfl

@[simp] theorem exec_modify (f : Machine → Machine) :
    (modify f : Run Unit).exec machine = (.ok (), f machine) := rfl

@[simp] theorem exec_snapshot (r : Result) :
    (snapshot r).exec machine = (.ok (r.snapshot machine.store), machine) := rfl

@[simp] theorem exec_unwrap (r : Result) :
    (unwrap r).exec machine = ((r.snapshot machine.store).unwrap, machine) := rfl

end Steps

/-- A sequence that ends well goes through a result of its first part. -/
theorem exec_bind_ok {r : Run α} {k : α → Run β} {machine after : Machine} {b : β}
    (ran : (r >>= k).exec machine = (.ok b, after)) :
    ∃ a between, r.exec machine = (.ok a, between) ∧ (k a).exec between = (.ok b, after) := by
  rw [exec_bind] at ran
  cases result : r.exec machine with
  | mk outcome between =>
      rw [result] at ran
      cases outcome with
      | ok a => exact ⟨a, between, rfl, ran⟩
      | error fault => cases ran

theorem exec_of_isOk (r : Run α) (machine : Machine)
    (completed : (r.exec machine).1.isOk = true) :
    ∃ a after, r.exec machine = (.ok a, after) := by
  rcases ran : r.exec machine with ⟨fault | a, after⟩
  · rw [ran] at completed
    cases completed
  · exact ⟨a, after, rfl⟩

theorem exec_lift_ok {e : Except Fault α} {machine after : Machine} {a : α}
    (ran : (liftM e : Run α).exec machine = (.ok a, after)) : e = .ok a ∧ machine = after := by
  rw [exec_lift] at ran
  exact Prod.mk.inj ran

theorem exec_unwrap_ok {r : Result} {machine after : Machine} {v : Value}
    (ran : (unwrap r).exec machine = (.ok v, after)) :
    (r.snapshot machine.store).unwrap = .ok v ∧ machine = after := by
  rw [exec_unwrap] at ran
  exact Prod.mk.inj ran

end Scriptlet.Run
