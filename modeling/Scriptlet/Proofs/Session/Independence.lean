import Scriptlet.Proofs.Evaluation.Pairing
import Scriptlet.Proofs.Session.Lines
import Scriptlet.Proofs.Value.Address

set_option autoImplicit false

/-!
A line of a session depends on the bindings of the outermost scope only. Sessions whose bindings are the
same up to the numbers of functions are `Alike`, whatever lines they have run before. What the lines left
behind, further frames, a scope inside of a call, the place of the scanner, has no bearing on the next
line. The texts of functions show where they lie, and apart from that the line does the same in two
sessions that are alike without their addresses (`runLine_alike`).
-/

namespace Scriptlet

open Token (bare)

/-- A binding without the addresses of the functions in it. -/
def Binding.unaddressed : Binding → Binding
  | .record r => .record { r with value := r.value.unaddressed }
  | .function v => .function v.unaddressed

/-- The functions in a binding can be put where those in another one lie, if but for addresses the
bindings are the same. -/
theorem Binding.exists_readdressed {f g : Nat → Nat} {x y : Binding} (distinct : Function.Injective f)
    (same : x.unaddressed.renumber f = y.unaddressed.renumber g) :
    ∃ z : Binding, z.unaddressed = x.unaddressed ∧ z.renumber f = y.renumber g := by
  cases x with
  | record r =>
      cases y with
      | function w => cases same
      | record s =>
          simp only [unaddressed, renumber, Binding.record.injEq, Record.mk.injEq,
            ← Value.unaddressed_renumber] at same
          obtain ⟨values, types, bindings⟩ := same
          obtain ⟨u, apart, equal⟩ := Value.exists_readdressed distinct values
          exact ⟨.record { r with value := u }, by simp only [unaddressed, apart],
            by simp only [renumber, equal, types, bindings]⟩
  | function v =>
      cases y with
      | record s => cases same
      | function w =>
          simp only [unaddressed, renumber, Binding.function.injEq, ← Value.unaddressed_renumber] at same
          obtain ⟨u, apart, equal⟩ := Value.exists_readdressed distinct same
          exact ⟨.function u, by simp only [unaddressed, apart], by simp only [renumber, equal]⟩

namespace Store

variable (store : Store)

/-- A store without the addresses of the functions in it. -/
def unaddressed (store : Store) : Store := store.map fun _ => Binding.unaddressed

theorem unaddressed_map {q : String → Binding → Binding}
    (same : ∀ name x, (q name x).unaddressed = x.unaddressed) :
    (store.map q).unaddressed = store.unaddressed := by
  simp only [unaddressed, map, Array.map_map, Store.mk.injEq]
  congr 1
  funext frame
  simp [Frame.map, same]

section Readdressed

variable {store store' : Store} {i : Nat}

theorem binding?_unaddressed (name : String) :
    store.unaddressed.binding? i name = (store.binding? i name).map Binding.unaddressed :=
  store.binding?_map (fun _ => Binding.unaddressed) i name

/-- What is bound in one store is bound in every other one that is the same without addresses. -/
theorem exists_binding_of_unaddressed (same : store'.unaddressed = store.unaddressed) {name : String}
    {y : Binding} (bound : store'.binding? i name = some y) :
    ∃ x, store.binding? i name = some x ∧ y.unaddressed = x.unaddressed := by
  have bindings : store'.unaddressed.binding? i name = store.unaddressed.binding? i name := by
    rw [same]
  rw [binding?_unaddressed, binding?_unaddressed, bound] at bindings
  obtain ⟨x, found, equal⟩ := Option.map_eq_some_iff.mp bindings.symm
  exact ⟨x, found, equal.symm⟩

theorem size_of_unaddressed (same : store'.unaddressed = store.unaddressed) :
    store'.frames.size = store.frames.size := by
  have sizes : store'.unaddressed.frames.size = store.unaddressed.frames.size := by rw [same]
  simpa [unaddressed, map] using sizes

/-- The functions of a store can be put where those of another one lie, if but for addresses the bindings
of a frame are the same. -/
theorem exists_readdressed {f g : Nat → Nat} (distinct : Function.Injective f)
    (same : ∀ name, (store.unaddressed.binding? i name).map (Binding.renumber f) =
      (store'.unaddressed.binding? i name).map (Binding.renumber g)) :
    ∃ moved : String → Binding → Binding, (∀ name x, (moved name x).unaddressed = x.unaddressed) ∧
      ∀ name, ((store.map moved).binding? i name).map (Binding.renumber f) =
        (store'.binding? i name).map (Binding.renumber g) := by
  have each (name : String) (x : Binding) : ∃ z : Binding, z.unaddressed = x.unaddressed ∧
      (store.binding? i name = some x → ∀ y, store'.binding? i name = some y →
        z.renumber f = y.renumber g) := by
    by_cases both : store.binding? i name = some x ∧ ∃ y, store'.binding? i name = some y
    · obtain ⟨bound, y, bound'⟩ := both
      have equal := same name
      simp only [binding?_unaddressed, bound, bound', Option.map_some, Option.some.injEq] at equal
      obtain ⟨z, apart, moved⟩ := Binding.exists_readdressed distinct equal
      refine ⟨z, apart, fun _ y' other => ?_⟩
      obtain rfl : y = y' := Option.some.inj (bound'.symm.trans other)
      exact moved
    · exact ⟨x, rfl, fun bound y bound' => absurd ⟨bound, y, bound'⟩ both⟩
  choose moved apart placed using each
  refine ⟨moved, apart, fun name => ?_⟩
  have equal := same name
  rw [binding?_unaddressed, binding?_unaddressed] at equal
  rw [binding?_map]
  cases bound : store.binding? i name with
  | none =>
      rw [bound] at equal
      cases bound' : store'.binding? i name with
      | none => rfl
      | some y =>
          rw [bound'] at equal
          cases equal
  | some x =>
      rw [bound] at equal
      cases bound' : store'.binding? i name with
      | none =>
          rw [bound'] at equal
          cases equal
      | some y => exact congrArg some (placed name x bound y bound')

end Readdressed

end Store

/-- A machine without the addresses of functions. -/
def Machine.unaddressed (m : Machine) : Machine :=
  { m with
    store := m.store.unaddressed
    host := { m.host with address := fun _ => Value.noAddress,
                          builtinAddress := fun _ => Value.noAddress } }

/-- Numbers for functions of which so many were numbered before: those keep to the odd numbers, and the
later ones get the even numbers in their order. -/
def renumbered (n : Nat) (f : Nat → Nat) (i : Nat) : Nat := if i < n then 2 * f i + 1 else 2 * (i - n)

section Renumbered

variable {n : Nat} {f : Nat → Nat}

theorem renumbered_injective (distinct : Function.Injective f) :
    Function.Injective (renumbered n f) := by
  intro i j same
  unfold renumbered at same
  split at same <;> split at same
  · exact distinct (by omega)
  all_goals omega

theorem renumbered_add (t : Nat) : renumbered n f (n + t) = 2 * t := by
  rw [renumbered, if_neg (by omega)]
  omega

/-- For a value whose functions were numbered before, the renumbering only makes the numbers odd. -/
theorem Value.renumber_renumbered {v : Value} (distinct : Function.Injective f)
    (own : Link.own.Same n v v) :
    v.renumber (renumbered n f) = (v.renumber f).renumber (2 * · + 1) := by
  rw [Value.renumber_renumber]
  apply own
  refine ⟨renumbered_injective distinct, fun i j same => distinct ?_, fun i below => if_pos below⟩
  dsimp only [Function.comp] at same
  omega

theorem Binding.renumber_renumbered {x : Binding} (distinct : Function.Injective f)
    (own : Link.own.Bound n x x) :
    x.renumber (renumbered n f) = (x.renumber f).renumber (2 * · + 1) := by
  cases own with
  | record value => simp only [renumber, Value.renumber_renumbered distinct value]
  | function value => simp only [renumber, Value.renumber_renumbered distinct value]

end Renumbered

section Unaddressed

variable {m m' : Machine} {n : Nat}

theorem Link.Same.readdressed {v w : Value} (own : Link.own.Same n v v)
    (same : w.unaddressed = v.unaddressed) : Link.own.Same n w w :=
  fun f g numbering => Value.renumber_eq_of_unaddressed same (own f g numbering)

theorem Link.Bound.readdressed {x y : Binding} (own : Link.own.Bound n x x)
    (same : y.unaddressed = x.unaddressed) : Link.own.Bound n y y := by
  cases own with
  | @record r _ value =>
      cases y with
      | function w => cases same
      | record s =>
          refine .record (value.readdressed ?_) rfl rfl
          exact congrArg Record.value (Binding.record.inj same)
  | @function v _ value =>
      cases y with
      | record s => cases same
      | function w => exact .function (value.readdressed (Binding.function.inj same))

theorem Link.Callable.readdressed {link : Link} {knows : String → Prop} {v w : Value}
    (callable : link.Callable knows v) (same : w.unaddressed = v.unaddressed) :
    link.Callable knows w := by
  rintro serial address name params body rfl
  cases v with
  | function serial' address' name' params' body' =>
      simp only [Value.unaddressed, Value.function.injEq] at same
      obtain ⟨-, -, -, rfl, rfl⟩ := same
      exact callable serial' address' name' params body rfl
  | _ => simp [Value.unaddressed] at same

/-- That a machine is sound has nothing to do with addresses. -/
theorem Machine.Sound.readdressed (sound : m.Sound) (same : m'.unaddressed = m.unaddressed) :
    m'.Sound := by
  have stores : m'.store.unaddressed = m.store.unaddressed := congrArg Machine.store same
  have serial : m'.serial = m.serial := by
    have serials : m'.unaddressed.serial = m.unaddressed.serial := by rw [same]
    exact serials
  refine ⟨fun _ => none, ?_⟩
  exact
    { stores :=
        { frames := by
            rintro i _ rfl
            cases made : m'.store.frame? i with
            | none => exact .none
            | some frame =>
                refine .some ⟨rfl, fun own => own.1.elim, Or.inl trivial, fun name _ => ?_⟩
                have here : m'.store.binding? i name = frame.find? name := by
                  rw [Store.binding?, made, Option.bind_some]
                cases bound : frame.find? name with
                | none => exact .none
                | some y =>
                    obtain ⟨x, found, apart⟩ :=
                      Store.exists_binding_of_unaddressed stores (here.trans bound)
                    rw [serial]
                    exact .some ((sound.binding found).readdressed apart)
          functions := by
            rintro i _ name f rfl _ bound
            obtain ⟨x, found, apart⟩ := Store.exists_binding_of_unaddressed stores bound
            cases x with
            | record r => cases apart
            | function v =>
                have callable := (sound.callable found).readdressed (Binding.function.inj apart)
                exact callable.mono fun _ _ => Or.inl trivial
          fresh := fun _ => rfl
          hidden := fun _ _ unknown => absurd (Or.inl trivial) unknown
          hidden' := fun _ _ unknown => absurd trivial unknown
          clear := fun _ _ passed => passed.elim
          made := fun _ _ before => by cases before
          old := by
            rw [Store.size_of_unaddressed stores]
            exact sound.made }
      input := rfl
      interrupts := rfl
      output := trivial
      supply := fun _ _ _ numbering => numbering.2.2 _ (Nat.lt_succ_self _)
      addresses := fun _ => rfl
      files := fun _ => rfl
      encode := fun _ => rfl }

end Unaddressed

deriving instance DecidableEq for Files

namespace Session

variable {s s' : Session} {line : String}

/-- Two sessions have the same bindings, but for the numbers of functions, the same to be typed in, the
same files and the same flags. Functions that will be made lie at the same addresses. Where searches are
traced, the names are in the same order. -/
structure Alike (s s' : Session) : Prop where
  bindings : ∃ left right : Nat → Nat, Function.Injective left ∧ Function.Injective right ∧
    ∀ name, (s.machine.store.binding? 0 name).map (Binding.renumber left) =
      (s'.machine.store.binding? 0 name).map (Binding.renumber right)
  addresses : ∀ t, s.machine.host.address (s.machine.serial + t) =
    s'.machine.host.address (s'.machine.serial + t)
  traced : s.machine.store.isTraced scope = s'.machine.store.isTraced scope
  names : s.machine.store.isTraced scope = true →
    s.machine.store.names scope = s'.machine.store.names scope
  input : s.machine.console.input = s'.machine.console.input
  interrupts : s.machine.console.interrupts = s'.machine.console.interrupts
  files : s.machine.files = s'.machine.files
  encode : s.machine.host.encode = s'.machine.host.encode
  verbose : s.verbose = s'.verbose
  folder : s.folder = s'.folder

/-- A session without the addresses of functions. -/
def unaddressed (s : Session) : Session := { s with machine := s.machine.unaddressed }

/-- Where two sessions are alike without addresses, the functions of the first can be put where those of
the second lie. -/
theorem Alike.exists_readdressed (alike : Alike s.unaddressed s'.unaddressed) :
    ∃ s₁ : Session, s₁.unaddressed = s.unaddressed ∧ (Alike s s' → s₁ = s) ∧ Alike s₁ s' := by
  by_cases already : Alike s s'
  · exact ⟨s, rfl, fun _ => rfl, already⟩
  · obtain ⟨left, right, left_injective, right_injective, same⟩ := alike.bindings
    obtain ⟨moved, apart, placed⟩ := Store.exists_readdressed left_injective same
    let machine : Machine :=
      { s.machine with
        store := s.machine.store.map moved
        host := { s.machine.host with
          address := fun i => s'.machine.host.address (i - s.machine.serial + s'.machine.serial) } }
    refine ⟨{ s with machine }, ?_, fun same => absurd same already, ?_⟩
    · have stores : (s.machine.store.map moved).unaddressed = s.machine.store.unaddressed :=
        Store.unaddressed_map _ apart
      simp only [unaddressed, Machine.unaddressed, machine, stores]
    · have traced := alike.traced
      have names := alike.names
      simp only [unaddressed, Machine.unaddressed, Store.unaddressed, Store.isTraced_map,
        Store.names_map] at traced names
      exact
        { bindings := ⟨left, right, left_injective, right_injective, placed⟩
          addresses := fun t => by
            dsimp only [machine]
            congr 1
            omega
          traced := by rw [Store.isTraced_map, traced]
          names := by rwa [Store.isTraced_map, Store.names_map]
          input := alike.input
          interrupts := alike.interrupts
          files := alike.files
          encode := alike.encode
          verbose := alike.verbose
          folder := alike.folder }

/-- A line can be scanned and read as a program. -/
def Parses (s : Session) (line : String) : Prop :=
  ∃ tokens program, (Token.scan line s.cursor).1 = .ok tokens ∧ Expr.ofTokens tokens = .ok program

theorem parses_iff :
    s.Parses line ↔ ((Token.scan line s.cursor).1.bind Expr.ofTokens).isOk = true := by
  unfold Parses
  cases (Token.scan line s.cursor).1 with
  | error fault => simp [Except.bind, Except.isOk, Except.toBool]
  | ok tokens =>
      cases parsed : Expr.ofTokens tokens with
      | error fault => simp [Except.bind, Except.isOk, Except.toBool, parsed]
      | ok program => simp [Except.bind, Except.isOk, Except.toBool, parsed]

instance : Decidable (s.Parses line) := decidable_of_iff _ parses_iff.symm

/-- A line is a single name. -/
def Names (s : Session) (line : String) : Prop :=
  ∃ tokens, (Token.scan line s.cursor).1 = .ok tokens ∧ IsName tokens

theorem scan_elsewhere {tokens : List Token} {cursor : Cursor} (cursor' : Cursor)
    (scanned : (Token.scan line cursor).1 = .ok tokens) :
    ∃ tokens', (Token.scan line cursor').1 = .ok tokens' ∧ tokens.map bare = tokens'.map bare := by
  have seen := Token.scan_bare line cursor cursor'
  rw [scanned] at seen
  cases scanned' : (Token.scan line cursor').1 with
  | error fault =>
      rw [scanned'] at seen
      cases seen
  | ok tokens' =>
      rw [scanned'] at seen
      exact ⟨tokens', rfl, Option.some.inj seen⟩

theorem ofTokens_elsewhere {tokens tokens' : List Token} {program : List Expr}
    (same : tokens.map bare = tokens'.map bare) (parsed : Expr.ofTokens tokens = .ok program) :
    Expr.ofTokens tokens' = .ok program := by
  rw [← Reading.ofTokens_bare, ← same, Reading.ofTokens_bare]
  exact parsed

theorem Parses.elsewhere (parses : s.Parses line) (s' : Session) : s'.Parses line := by
  obtain ⟨tokens, program, scanned, parsed⟩ := parses
  obtain ⟨tokens', scanned', same⟩ := scan_elsewhere s'.cursor scanned
  exact ⟨tokens', program, scanned', ofTokens_elsewhere same parsed⟩

theorem sameTokens_elsewhere (legible : s.Names line ∨ s.Parses line) (s' : Session) :
    Outcomes SameTokens (Token.scan line s.cursor).1 (Token.scan line s'.cursor).1 := by
  rcases legible with ⟨tokens, scanned, named⟩ | ⟨tokens, program, scanned, parsed⟩
  · obtain ⟨tokens', scanned', same⟩ := scan_elsewhere s'.cursor scanned
    rw [scanned, scanned']
    exact .ok ⟨same, Or.inl named⟩
  · obtain ⟨tokens', scanned', same⟩ := scan_elsewhere s'.cursor scanned
    rw [scanned, scanned']
    exact .ok ⟨same, Or.inr (parsed.trans (ofTokens_elsewhere same parsed).symm)⟩

/-- How the functions of two sound machines correspond where those in the outermost frames do: the later
ones follow in their order. -/
def pairing {m m' : Machine} (sound : m.Sound) (sound' : m'.Sound) {left right : Nat → Nat}
    (left_injective : Function.Injective left) (right_injective : Function.Injective right) :
    Pairing m m' where
  frame := 0
  frame' := 0
  left := renumbered m.serial left
  right := renumbered m'.serial right
  left_injective := renumbered_injective left_injective
  right_injective := renumbered_injective right_injective
  later t := by rw [renumbered_add, renumbered_add]
  made := sound.made
  made' := sound'.made

/-- Alike sessions are linked. -/
theorem Alike.machines (alike : Alike s s') (sound : s.machine.Sound) (sound' : s'.machine.Sound) :
    ∃ p : Pairing s.machine s'.machine, p.Shares 0 0 ∧
      (Link.between p).Machines (fun _ => none) s.machine s'.machine := by
  obtain ⟨left, right, left_injective, right_injective, same⟩ := alike.bindings
  let p := pairing sound sound' left_injective right_injective
  have fixed {v : Value} (own : Link.own.Fixed v) : (Link.between p).Fixed v := by
    rintro _ _ ⟨rfl, rfl⟩
    exact own _ _ ⟨p.left_injective, p.right_injective, fun i below => absurd below (Nat.not_lt_zero i)⟩
  have bindings (name : String) : Option.Rel ((Link.between p).Bound s.machine.serial)
      (s.machine.store.binding? 0 name) (s'.machine.store.binding? 0 name) := by
    refine Link.rel_bound_iff.mpr ?_
    rintro _ _ ⟨rfl, rfl⟩
    have equal := same name
    cases bound : s.machine.store.binding? 0 name with
    | none =>
        rw [bound] at equal
        rw [Option.map_eq_none_iff.mp equal.symm]
        rfl
    | some x =>
        rw [bound] at equal
        obtain ⟨y, bound', equal⟩ := Option.map_eq_some_iff.mp equal.symm
        rw [bound']
        refine congrArg some ?_
        have left := Binding.renumber_renumbered left_injective (sound.binding bound)
        have right := Binding.renumber_renumbered right_injective (sound'.binding bound')
        rw [equal] at right
        exact left.trans right.symm
  refine ⟨p, Or.inl ⟨rfl, rfl⟩, ?_⟩
  exact
    { stores :=
        { frames := Link.frames_shared id alike.traced (fun own => own.1.elim) alike.names
            fun name _ => bindings name
          functions := by
            intro i j name f _ _ bound serial address called params body is
            obtain ⟨parameters, each⟩ := sound.callable bound serial address called params body is
            refine ⟨fun q has => ⟨Or.inl trivial, fixed (parameters q has).2⟩, fun e has => ?_⟩
            exact (each e has).mono (fun _ _ => Or.inl trivial) (fun _ => fixed)
              fun _ _ => Or.inl (Or.inl trivial)
          fresh := fun t => Or.inr ⟨t, rfl, rfl⟩
          hidden := fun _ _ unknown => absurd (Or.inl trivial) unknown
          hidden' := fun _ _ unknown => absurd trivial unknown
          clear := fun _ _ passed => passed.elim
          made := fun _ _ before => by cases before
          old := Nat.zero_le _ }
      input := alike.input
      interrupts := alike.interrupts
      output := ⟨"", String.append_empty.symm, String.append_empty.symm⟩
      supply := by
        rintro t _ _ ⟨rfl, rfl⟩
        exact p.later t
      addresses := alike.addresses
      files := fun _ => alike.files
      encode := fun _ => alike.encode }

/-- Sessions on linked machines are alike, wherever their scanners are. -/
theorem alike_of_machines {m m' n n' : Machine} {p : Pairing m m'} {chain : Chain}
    (top : p.Shares 0 0) (linked : (Link.between p).Machines chain n n') (cursor cursor' : Cursor)
    (verbose : Bool) (folder : Option Path) :
    Alike ⟨n, cursor, verbose, folder⟩ ⟨n', cursor', verbose, folder⟩ := by
  have scopes : (Link.between p).Scopes chain scope scope := Link.scopes_top id top
  have bindings (name : String) : Option.Rel ((Link.between p).Bound n.serial)
      (n.store.binding? 0 name) (n'.store.binding? 0 name) := linked.stores.binding top (Or.inl trivial)
  exact
    { bindings := ⟨p.left, p.right, p.left_injective, p.right_injective,
        fun name => Link.rel_bound_iff.mp (bindings name) _ _ ⟨rfl, rfl⟩⟩
      addresses := linked.addresses
      traced := linked.stores.isTraced scopes
      names := linked.stores.names scopes id
      input := linked.input
      interrupts := linked.interrupts
      files := linked.files trivial
      encode := linked.encode trivial
      verbose := rfl
      folder := rfl }

/-- A line does the same in sessions that are alike. -/
theorem Alike.runLine (alike : Alike s s') (sound : s.machine.Sound) (sound' : s'.machine.Sound)
    (legible : line = "exit" ∨ s.Names line ∨ s.Parses line) :
    (s.runLine line).1 = (s'.runLine line).1 ∧
      (∃ text, (s.runLine line).2.machine.console.output = s.machine.console.output ++ text ∧
        (s'.runLine line).2.machine.console.output = s'.machine.console.output ++ text) ∧
      Alike (s.runLine line).2 (s'.runLine line).2 := by
  by_cases exits : line = "exit"
  · rw [Session.runLine, Session.runLine, if_pos exits, if_pos exits]
    exact ⟨rfl, ⟨"", String.append_empty.symm, String.append_empty.symm⟩, alike⟩
  · obtain ⟨p, top, linked⟩ := alike.machines sound sound'
    have same := sameTokens_elsewhere (legible.resolve_left exits) s'
    have agree := Link.agree_line id top linked trivial same s.verbose s.folder
    obtain ⟨ends, chain, after⟩ := agree.ends
    -- The flags are the same, so the second session runs the line as the first one would.
    have ran : lineRun s' line =
        report (do showTokens (← liftM (Token.scan line s'.cursor).1) s.verbose s.folder) := by
      rw [lineRun, alike.verbose, alike.folder]
    rw [runLine_eq s exits, runLine_eq s' exits, ran]
    refine ⟨congrArg endingOf ends, after.output, ?_⟩
    rw [← alike.verbose, ← alike.folder]
    exact alike_of_machines top after _ _ _ _

/-- A session after some lines. -/
def runLines (s : Session) (lines : List String) : Session :=
  lines.foldl (fun s line => (s.runLine line).2) s

theorem Reached.runLines (reached : Reached s) (lines : List String) : Reached (s.runLines lines) := by
  induction lines generalizing s with
  | nil => exact reached
  | cons line lines ih => exact ih (reached.line line)

theorem runLines_host (s : Session) (lines : List String) :
    (s.runLines lines).machine.host = s.machine.host := by
  induction lines generalizing s with
  | nil => rfl
  | cons line lines ih => exact (ih (s.runLine line).2).trans (runLine_host s line)

section Holding

variable {n k l n' k' l' : Nat} {a b c : String}

/-- A variable that holds a function `f`, a function that makes such functions, and a function `f`. -/
@[match_pattern] def holding (n k l : Nat) (a b c : String) : List (String × Binding) :=
  [("g", .record ⟨.function n a "f" [] [], "int", some "let"⟩),
    ("h", .function (.function k b "h" [] [.define "f" [] [], .assign none "g" (.ident "f")])),
    ("f", .function (.function l c "f" [] []))]

/-- The numbers of the functions, where there are just these bindings. -/
def numbers? : List (String × Binding) → Option (Nat × Nat × Nat)
  | holding n k l _ _ _ => some (n, k, l)
  | _ => none

def numbers (s : Session) : Option (Nat × Nat × Nat) :=
  (s.machine.store.frame? 0).bind fun frame => numbers? frame.entries

theorem eq_holding {entries : List (String × Binding)} (found : numbers? entries = some (n, k, l)) :
    ∃ a b c, entries = holding n k l a b c := by
  unfold numbers? at found
  split at found
  · cases found
    exact ⟨_, _, _, rfl⟩
  · cases found

theorem find?_holding (f : Nat → Nat) (name : String) :
    ((Frame.find? ⟨none, false, holding n k l a b c⟩ name).map Binding.unaddressed).map
        (Binding.renumber f) =
      Frame.find? ⟨none, false, holding (f n) (f k) (f l) Value.noAddress Value.noAddress
        Value.noAddress⟩ name := by
  unfold Frame.find? holding
  by_cases g : "g" = name
  · simp [g, Binding.renumber, Binding.unaddressed, Value.renumber, Value.unaddressed]
  · by_cases h : "h" = name
    · simp [g, h, Binding.renumber, Binding.unaddressed, Value.renumber, Value.unaddressed]
    · by_cases f : "f" = name <;>
        simp [g, h, f, Binding.renumber, Binding.unaddressed, Value.renumber, Value.unaddressed]

theorem binding?_of_numbers (found : s.numbers = some (n, k, l)) (f : Nat → Nat) (name : String) :
    (s.unaddressed.machine.store.binding? 0 name).map (Binding.renumber f) =
      Frame.find? ⟨none, false, holding (f n) (f k) (f l) Value.noAddress Value.noAddress
        Value.noAddress⟩ name := by
  rw [numbers] at found
  cases made : s.machine.store.frame? 0 with
  | none =>
      rw [made] at found
      cases found
  | some frame =>
      rw [made] at found
      obtain ⟨a, b, c, entries⟩ := eq_holding found
      rw [← find?_holding (a := a) (b := b) (c := c)]
      simp only [unaddressed, Machine.unaddressed, Store.unaddressed, Store.binding?_map]
      rw [Store.binding?, made, Option.bind_some, Frame.find?, entries, Frame.find?]

/-- Sessions with just these bindings are alike without addresses, if the numbers correspond. -/
theorem alike_of_numbers (left : Nat → Nat) (found : s.numbers = some (n, k, l))
    (found' : s'.numbers = some (left n, left k, left l)) (distinct : Function.Injective left)
    (untraced : s.machine.store.isTraced scope = false ∧ s'.machine.store.isTraced scope = false)
    (rest : s.machine.console.input = s'.machine.console.input ∧
      s.machine.console.interrupts = s'.machine.console.interrupts ∧
      s.machine.files = s'.machine.files ∧ s.verbose = s'.verbose ∧ s.folder = s'.folder)
    (encode : s.machine.host.encode = s'.machine.host.encode) :
    Alike s.unaddressed s'.unaddressed := by
  obtain ⟨input, interrupts, files, verbose, folder⟩ := rest
  have traced : s.unaddressed.machine.store.isTraced scope = false :=
    (Store.isTraced_map _ _ _).trans untraced.1
  have traced' : s'.unaddressed.machine.store.isTraced scope = false :=
    (Store.isTraced_map _ _ _).trans untraced.2
  exact
    { bindings := by
        refine ⟨left, id, distinct, Function.injective_id, fun name => ?_⟩
        rw [binding?_of_numbers found, binding?_of_numbers found']
        rfl
      addresses := fun _ => rfl
      traced := traced.trans traced'.symm
      names := fun traces => Bool.noConfusion (traced.symm.trans traces)
      input, interrupts, files, encode, verbose, folder }

end Holding

/-- A host that gives functions one address after another, from some number on. -/
def countingFrom (base : Nat) : Host := { Host.plain with address := fun i => toString (base + i) }

/-- A session without builtin functions and without input. -/
def begun (base : Nat) : Session :=
  ⟨.fresh (.ofInput "" false) .none false (countingFrom base), .start, false, none⟩

theorem reached_begun (base : Nat) (lines : List String) : Reached ((begun base).runLines lines) :=
  (Reached.fresh _ _ _ _ _ _ _).runLines lines

def definition : String := "fun f() \x7b\x7d"

/-- Defines a function that makes a function of that name and puts it into a variable, which then is
refused. -/
def maker : String := "fun h() \x7b fun f() \x7b\x7d g = f;; \x7d"

def comparison : String := "if (f == g) \x7b 1 \x7d else \x7b 2 \x7d"

/-- The variable holds a function from a call that was broken off, and `f` was defined after it. -/
def afterCall (base : Nat) : Session :=
  (begun base).runLines ["let g = 1", maker, "h()", definition]

/-- The same after more calls, a line that cannot be scanned and one that cannot be read. The last call
was broken off, too, so that the machine is inside of it. -/
def afterFaults (base : Nat) : Session :=
  (begun base).runLines ["let g = 1", maker, "h()", "h()", definition, "/*", "fun", "h()"]

/-- The variable holds `f` itself. -/
def afterAssignment (base : Nat) : Session :=
  (begun base).runLines ["let g = 1", maker, definition, "g = f;"]

theorem alike_afterFaults : Alike (afterCall 0).unaddressed (afterFaults 8).unaddressed := by
  have found : (afterCall 0).numbers = some (1, 0, 2) ∧ (afterFaults 8).numbers = some (2, 0, 3) := by
    decide +kernel
  refine alike_of_numbers (fun i => if i = 0 then 0 else i + 1) found.1 found.2 ?_ ?_ ?_ ?_
  · intro i j same
    dsimp only at same
    split at same <;> split at same <;> omega
  · decide +kernel
  · decide +kernel
  · rw [afterCall, afterFaults, runLines_host, runLines_host]
    rfl

theorem alike_elsewhere : Alike (afterCall 0).unaddressed (afterCall 8).unaddressed := by
  have found : (afterCall 0).numbers = some (1, 0, 2) ∧ (afterCall 8).numbers = some (1, 0, 2) := by
    decide +kernel
  refine alike_of_numbers id found.1 found.2 Function.injective_id ?_ ?_ ?_
  · decide +kernel
  · decide +kernel
  · rw [afterCall, afterCall, runLines_host, runLines_host]
    rfl

end Session

end Scriptlet
