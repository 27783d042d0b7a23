import Scriptlet.Fault

set_option autoImplicit false

/-! How results that may be faults are taken apart and put together. -/

namespace Scriptlet.Fault

variable {α β : Type}

@[simp] theorem ok_bind (a : α) (f : α → Except Fault β) : (Except.ok a >>= f) = f a := rfl

@[simp] theorem error_bind (fault : Fault) (f : α → Except Fault β) :
    (Except.error fault >>= f) = .error fault := rfl

@[simp] theorem pure_eq_ok (a : α) : (pure a : Except Fault α) = .ok a := rfl

@[simp] theorem map_ok (f : α → β) (a : α) : (f <$> (.ok a : Except Fault α)) = .ok (f a) := rfl

@[simp] theorem map_error (f : α → β) (fault : Fault) :
    (f <$> (.error fault : Except Fault α)) = .error fault := rfl

theorem bind_eq_ok {x : Except Fault α} {f : α → Except Fault β} {b : β} :
    (x >>= f) = .ok b ↔ ∃ a, x = .ok a ∧ f a = .ok b := by
  cases x <;> simp

theorem map_eq_ok {x : Except Fault α} {f : α → β} {b : β} :
    f <$> x = .ok b ↔ ∃ a, x = .ok a ∧ f a = b := by
  cases x <;> simp

end Scriptlet.Fault
