import Scriptlet.Proofs.Evaluation.Lockstep

set_option autoImplicit false

/-!
Two machines that share a frame. A `Pairing` says which frame that is in each and how the functions of
the two correspond; `Link.between` links what the machines do from then on. The frames that they make are
partners in their order, and what they write is compared from where they stand.
-/

namespace Scriptlet

/-- How two machines correspond: they share a frame, and those functions are the same that have the same
number on the left and on the right. Functions to be made correspond in their order. -/
structure Pairing (m m' : Machine) where
  frame : Nat
  frame' : Nat
  left : Nat → Nat
  right : Nat → Nat
  left_injective : Function.Injective left
  right_injective : Function.Injective right
  later : ∀ t, left (m.serial + t) = right (m'.serial + t)
  made : frame < m.store.frames.size
  made' : frame' < m'.store.frames.size

/-- The frames that two machines share, if nothing but that frame and what they will make. -/
def Pairing.Shares {m m' : Machine} (p : Pairing m m') (i j : Nat) : Prop :=
  i = p.frame ∧ j = p.frame' ∨ ∃ t, i = m.store.frames.size + t ∧ j = m'.store.frames.size + t

namespace Link

variable {m m' : Machine} {n : Nat}

/-- Two machines that share a frame and the frames to be made, and all names. -/
def between (p : Pairing m m') : Link where
  known _ := True
  partners := p.Shares
  numbering _ f g := f = p.left ∧ g = p.right
  heard a b := ∃ text, a = m.console.output ++ text ∧ b = m'.console.output ++ text
  muted := False
  hidden _ _ := none
  hidden' _ _ := none
  finds := True
  old := 0
  enclosed := False
  passed _ := False
  partner_iff := by
    have made := p.made
    have made' := p.made'
    rintro i i' j j' (⟨rfl, rfl⟩ | ⟨t, rfl, rfl⟩) (⟨rfl, rfl⟩ | ⟨t', rfl, rfl⟩) <;> omega
  partner_passed _ := id
  numbering_exists _ := ⟨_, _, rfl, rfl⟩
  numbering_le _ numbering := numbering
  distinct_left numbering := numbering.1 ▸ p.left_injective
  distinct_right numbering := numbering.2 ▸ p.right_injective
  heard_append := by
    rintro _ _ text ⟨written, rfl, rfl⟩
    exact ⟨written ++ text, String.append_assoc, String.append_assoc⟩
  heard_of_muted := False.elim
  known_of_finds _ _ := trivial

/-- Where two machines share one frame, that frame is all that has to be compared. -/
theorem frames_shared {link : Link} {p : Pairing m m'}
    (partners : ∀ {i j}, link.partners i j → p.Shares i j)
    (traced : m.store.isTraced [p.frame] = m'.store.isTraced [p.frame'])
    (silent : link.Own p.frame → m.store.isTraced [p.frame] = false)
    (names : m.store.isTraced [p.frame] = true → m.store.names [p.frame] = m'.store.names [p.frame'])
    (bindings : ∀ name, link.Counts p.frame name → Option.Rel (link.Bound n)
      (m.store.binding? p.frame name) (m'.store.binding? p.frame' name))
    (i j : Nat) (shared : link.partners i j) :
    Option.Rel (link.Frames n i) (m.store.frame? i) (m'.store.frame? j) := by
  rcases partners shared with ⟨rfl, rfl⟩ | ⟨t, rfl, rfl⟩
  · obtain ⟨frame, found⟩ : ∃ frame, m.store.frame? p.frame = some frame :=
      ⟨_, Array.getElem?_eq_getElem p.made⟩
    obtain ⟨frame', found'⟩ : ∃ frame, m'.store.frame? p.frame' = some frame :=
      ⟨_, Array.getElem?_eq_getElem p.made'⟩
    simp only [Store.isTraced, Store.names, Store.binding?, found, found', Option.map_some,
      Option.getD_some, Option.bind_some] at traced silent names bindings
    rw [found, found']
    exact .some ⟨traced, silent, Or.inr names, bindings⟩
  · have beyond : m.store.frame? (m.store.frames.size + t) = none :=
      Array.getElem?_eq_none (Nat.le_add_right _ _)
    have beyond' : m'.store.frame? (m'.store.frames.size + t) = none :=
      Array.getElem?_eq_none (Nat.le_add_right _ _)
    rw [beyond, beyond']
    exact .none

end Link

end Scriptlet
