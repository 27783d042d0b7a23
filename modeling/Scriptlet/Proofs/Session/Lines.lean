import Scriptlet.Proofs.Evaluation.Placement
import Scriptlet.Proofs.Evaluation.Simulation
import Scriptlet.Proofs.Expr.Positions
import Scriptlet.Session

set_option autoImplicit false

/-!
Lines of a session on linked machines. Whatever the two machines have gone through before, a line that
comes to the same tokens but for their positions writes the same and leaves them linked (`agree_line`).
Every machine that a session can reach is linked to itself under other numbers for the functions to come
(`sound_of_reached`).
-/

namespace Scriptlet

namespace Session

/-- The text of a result, also where there is none. -/
def shown : Value → Except Fault String
  | .null => .ok "null"
  | v => v.text

theorem shown_renumber {f : Nat → Nat} (v : Value) : shown (v.renumber f) = shown v := by
  have texts := Value.text_renumber (f := f) v
  cases v <;> simp_all [Value.renumber, shown]

def showValue : Value → Run String
  | .null => return "null"
  | v => liftM v.text

theorem showValue_eq (v : Value) : showValue v = liftM (shown v) := by
  cases v <;> rfl

/-- What a program shows once it is read. -/
def showRead (program : List Expr) (verbose : Bool) (folder : Option Path) : Run String := do
  let program ← liftM (Expr.foldProgram program).1
  match ← Run.evalProgram Run.depthLimit program scope verbose folder with
  | [] => throw .outOfRange
  | first :: _ => showValue (← Run.snapshot first)

/-- A line that is a single name. -/
def IsName (tokens : List Token) : Prop := ∃ t, tokens = [t] ∧ t.kind = some .identifier

/-- Two lists of tokens are the same but for positions, and come to the same program unless they are a
single name. -/
structure SameTokens (tokens tokens' : List Token) : Prop where
  bare : tokens.map Token.bare = tokens'.map Token.bare
  parsed : IsName tokens ∨ Expr.ofTokens tokens = Expr.ofTokens tokens'

theorem showTokens_name {t : Token} (isName : t.kind = some .identifier) (verbose : Bool)
    (folder : Option Path) : showTokens [t] verbose folder = showName t.value := by
  rw [showTokens, if_pos isName]

theorem showTokens_program {tokens : List Token} (other : ¬ IsName tokens) (verbose : Bool)
    (folder : Option Path) :
    showTokens tokens verbose folder = showProgram tokens verbose folder := by
  unfold showTokens
  split
  · rename_i t
    rw [if_neg fun isName => other ⟨t, rfl, isName⟩]
  · rfl

theorem eq_singleton_of_bare {t : Token} {tokens : List Token}
    (same : [t].map Token.bare = tokens.map Token.bare) :
    ∃ t', tokens = [t'] ∧ t'.kind = t.kind ∧ t'.value = t.value := by
  obtain ⟨t', rfl, first⟩ := List.map_eq_singleton_iff.mp same.symm
  have kind : t'.bare.kind = t.bare.kind := congrArg Token.kind first
  have value : t'.bare.value = t.bare.value := congrArg Token.value first
  exact ⟨t', rfl, kind, value⟩

/-- What a line does to the machine. -/
def lineRun (s : Session) (line : String) : Run Unit :=
  report (do showTokens (← liftM (Token.scan line s.cursor).1) s.verbose s.folder)

/-- How a line ends. -/
def endingOf : Except Fault Unit → Ending
  | .ok _ => .done
  | .error fault => .failed fault

theorem runLine_eq (s : Session) {line : String} (other : line ≠ "exit") :
    s.runLine line = (endingOf ((lineRun s line).exec s.machine).1,
      { s with
        machine := ((lineRun s line).exec s.machine).2
        cursor := (Token.scan line s.cursor).2 }) := by
  unfold runLine lineRun
  rw [if_neg other]
  generalize Token.scan line s.cursor = scanned
  obtain ⟨tokens, cursor⟩ := scanned
  dsimp only
  generalize (report (do showTokens (← liftM tokens) s.verbose s.folder)).exec s.machine = ran
  obtain ⟨outcome, machine⟩ := ran
  cases outcome <;> rfl

section Host

/-- A computation leaves the host as it is. -/
def KeepsHost {α : Type} (r : Run α) : Prop := ∀ m, (r.exec m).2.host = m.host

variable {α β : Type}

theorem keepsHost_of_quiet {r : Run α} (quiet : Run.Quiet r) : KeepsHost r := fun m =>
  (quiet.keeps m).2.2

theorem keepsHost_bind {r : Run α} {k : α → Run β} (first : KeepsHost r)
    (others : ∀ a, KeepsHost (k a)) : KeepsHost (r >>= k) := by
  intro m
  have before := first m
  rw [Run.exec_bind]
  rcases ran : r.exec m with ⟨fault | a, between⟩
  · rw [ran] at before
    exact before
  · rw [ran] at before
    exact (others a between).trans before

theorem keepsHost_evalProgram (program : List Expr) (verbose : Bool) (folder : Option Path) :
    KeepsHost (Run.evalProgram Run.depthLimit program scope verbose folder) := fun m =>
  (Run.evalAll_placed Run.depthLimit program { m with scope := scope, verbose, folder }).given.2

theorem keepsHost_showRead (program : List Expr) (verbose : Bool) (folder : Option Path) :
    KeepsHost (showRead program verbose folder) := by
  refine keepsHost_bind (keepsHost_of_quiet (Run.quiet_lift _)) fun program => ?_
  refine keepsHost_bind (keepsHost_evalProgram program verbose folder) fun results => ?_
  cases results with
  | nil => exact keepsHost_of_quiet (Run.quiet_throw _)
  | cons first rest =>
      refine keepsHost_bind (keepsHost_of_quiet (Run.quiet_snapshot first)) fun v => ?_
      rw [showValue_eq]
      exact keepsHost_of_quiet (Run.quiet_lift _)

theorem keepsHost_showTokens (tokens : List Token) (verbose : Bool) (folder : Option Path) :
    KeepsHost (showTokens tokens verbose folder) := by
  by_cases named : IsName tokens
  · obtain ⟨t, rfl, isName⟩ := named
    rw [showTokens_name isName]
    refine keepsHost_bind (keepsHost_of_quiet (Run.quiet_lookup _ _)) fun found => ?_
    obtain ⟨id, r | f⟩ := found
    · exact keepsHost_of_quiet (Run.quiet_lift _)
    · exact keepsHost_of_quiet (Run.quiet_lift _)
  · rw [showTokens_program named]
    refine keepsHost_bind (keepsHost_of_quiet (Run.quiet_lift _)) fun program => ?_
    cases verbose with
    | false => exact keepsHost_showRead program false folder
    | true =>
        refine keepsHost_bind (fun _ => rfl) fun machine => ?_
        refine keepsHost_bind (keepsHost_of_quiet (Run.quiet_lift _)) fun text => ?_
        refine keepsHost_bind (keepsHost_of_quiet (Run.quiet_write text)) fun _ => ?_
        exact keepsHost_showRead program true folder

theorem keepsHost_lineRun (s : Session) (line : String) : KeepsHost (lineRun s line) := by
  intro m
  have shown : KeepsHost (do
      let text ← showTokens (← liftM (Token.scan line s.cursor).1) s.verbose s.folder
      Run.write (text ++ "\n")) :=
    keepsHost_bind (keepsHost_of_quiet (Run.quiet_lift _)) fun tokens =>
      keepsHost_bind (keepsHost_showTokens tokens s.verbose s.folder) fun _ =>
        keepsHost_of_quiet (Run.quiet_write _)
  have before := shown m
  unfold lineRun report
  rw [Run.exec_tryCatch]
  simp only [bind_assoc] at before ⊢
  revert before
  generalize Run.exec _ m = ended
  rcases ended with ⟨fault | _, between⟩
  · intro before
    dsimp only
    split
    · exact (keepsHost_of_quiet (Run.quiet_write _) between).trans before
    · exact before
  · exact id

/-- The host stays throughout a session. -/
theorem runLine_host (s : Session) (line : String) :
    (s.runLine line).2.machine.host = s.machine.host := by
  by_cases exits : line = "exit"
  · rw [runLine, if_pos exits]
  · rw [runLine_eq s exits]
    exact keepsHost_lineRun s line s.machine

end Host

end Session

open Session

namespace Link

section Lines

variable {link : Link} {chain : Chain} {m m' : Machine}

/-- A line that is shown is written out in both, as is a fault. -/
theorem agree_report {shown shown' : Run String}
    (agree : link.Agree chain m link.Machines Equal (shown.exec m) (shown'.exec m')) :
    link.Agree chain m link.Machines Equal ((report shown).exec m) ((report shown').exec m') := by
  have written : link.Agree chain m link.Machines Equal
      ((do Run.write ((← shown) ++ "\n") : Run Unit).exec m)
      ((do Run.write ((← shown') ++ "\n") : Run Unit).exec m') := by
    apply Agree.bind_equal agree
    intro _ text n n' _ linked
    exact agree_write linked (Or.inr rfl)
  unfold report
  rw [Run.exec_tryCatch, Run.exec_tryCatch]
  generalize (do Run.write ((← shown) ++ "\n") : Run Unit).exec m = o at written ⊢
  generalize (do Run.write ((← shown') ++ "\n") : Run Unit).exec m' = o' at written ⊢
  cases written with
  | ok later linked same => exact .ok later linked same
  | error later linked =>
      refine Agree.since ?_ later
      dsimp only
      split
      · exact agree_write linked (Or.inr rfl)
      · exact agree_throw linked _

variable (unenclosed : ¬ link.enclosed) (top : link.partners 0 0)
include unenclosed top

theorem scopes_top : link.Scopes chain scope scope := scopes_of_partners unenclosed (.cons top .nil)

theorem agree_showName {name : String} (linked : link.Machines chain m m')
    (known : link.known name) :
    link.Agree chain m link.Machines Equal ((showName name).exec m) ((showName name).exec m') := by
  apply Agree.bind (agree_lookup linked (scopes_top unenclosed top) (Or.inl known))
  intro _ x y n n' _ linked found
  obtain ⟨i, binding⟩ := x
  obtain ⟨j, binding'⟩ := y
  cases found.bound with
  | record value type binding =>
      exact agree_lift_equal linked (value.congr fun f v => Value.text_renumber v)
  | function same => exact agree_lift_equal linked (same.congr fun f v => Value.text_renumber v)

theorem agree_showRead {program : List Expr} {tokens : List Token}
    (linked : link.Machines chain m m') (finds : link.finds)
    (read : Expr.ofTokens tokens = .ok program) (verbose : Bool) (folder : Option Path) :
    link.Agree chain m link.Machines Equal ((showRead program verbose folder).exec m)
      ((showRead program verbose folder).exec m') := by
  apply Agree.bind (agree_lift linked (same_folded finds read))
  intro chain₁ program program' n n' _ linked same
  obtain ⟨rfl, fits⟩ := same
  -- A program begins in the outermost scope, wherever the machines were left.
  have entered : link.Abreast true scope scope chain₁ { n with scope := scope, verbose, folder }
      { n' with scope := scope, verbose, folder } :=
    { stores := linked.stores, input := linked.input, interrupts := linked.interrupts,
      output := linked.output, supply := linked.supply, addresses := linked.addresses,
      files := linked.files, encode := linked.encode,
      hand := ⟨scopes_top unenclosed top, fun _ => ⟨rfl, rfl⟩⟩
      modules := fun _ => Or.inr ⟨finds, rfl, rfl⟩ }
  have ran : link.Agree chain₁ n (link.Abreast true scope scope) link.RelatedAll
      ((Run.evalProgram Run.depthLimit program scope verbose folder).exec n)
      ((Run.evalProgram Run.depthLimit program scope verbose folder).exec n') :=
    (agree_evalAll unenclosed entered (fits n.store scope) Run.depthLimit).since
      ⟨.refl chain₁ n.store, Nat.le_refl _⟩
  apply Agree.bind ran
  intro _ rs ss n n' _ abreast related
  cases related with
  | nil => exact agree_throw abreast.toMachines _
  | cons first rest =>
      apply Agree.bind (agree_snapshot abreast first)
      intro _ v w n n' _ abreast same
      rw [showValue_eq, showValue_eq]
      exact agree_lift_equal abreast.toMachines (same.congr fun f v => shown_renumber v)

theorem agree_showProgram {tokens tokens' : List Token} (linked : link.Machines chain m m')
    (finds : link.finds) (parsed : Expr.ofTokens tokens = Expr.ofTokens tokens') (verbose : Bool)
    (folder : Option Path) :
    link.Agree chain m link.Machines Equal ((showProgram tokens verbose folder).exec m)
      ((showProgram tokens' verbose folder).exec m') := by
  have programs : Outcomes (SameProgram m.serial) (Expr.ofTokens tokens) (Expr.ofTokens tokens') := by
    rw [← parsed]
    cases read : Expr.ofTokens tokens with
    | error fault => exact .error fault
    | ok program => exact .ok ⟨rfl, tokens, read⟩
  apply Agree.bind (agree_lift linked programs)
  intro _ program program' n n' _ linked same
  obtain ⟨rfl, tokens, read⟩ := same
  cases verbose with
  | false => exact agree_showRead unenclosed top linked finds read false folder
  | true =>
      apply agree_listed linked finds program
      intro _ n n' _ linked
      exact agree_showRead unenclosed top linked finds read true folder

theorem agree_showTokens {tokens tokens' : List Token} (linked : link.Machines chain m m')
    (finds : link.finds) (same : SameTokens tokens tokens') (verbose : Bool)
    (folder : Option Path) :
    link.Agree chain m link.Machines Equal ((showTokens tokens verbose folder).exec m)
      ((showTokens tokens' verbose folder).exec m') := by
  by_cases named : IsName tokens
  · obtain ⟨t, rfl, isName⟩ := named
    obtain ⟨t', rfl, kind, value⟩ := eq_singleton_of_bare same.bare
    rw [showTokens_name isName, showTokens_name (kind.trans isName), value]
    exact agree_showName unenclosed top linked (link.known_of_finds finds t.value)
  · have other : ¬ IsName tokens' := by
      rintro ⟨t', rfl, isName⟩
      obtain ⟨t, rfl, kind, -⟩ := eq_singleton_of_bare same.bare.symm
      exact named ⟨t, rfl, kind.trans isName⟩
    rw [showTokens_program named, showTokens_program other]
    exact agree_showProgram unenclosed top linked finds (same.parsed.resolve_left named) verbose folder

/-- A line of the same tokens runs alike on linked machines, whatever scopes they were left in. -/
theorem agree_line {o o' : Except Fault (List Token)} (linked : link.Machines chain m m')
    (finds : link.finds) (same : Outcomes SameTokens o o') (verbose : Bool)
    (folder : Option Path) :
    link.Agree chain m link.Machines Equal
      ((report (do showTokens (← liftM o) verbose folder)).exec m)
      ((report (do showTokens (← liftM o') verbose folder)).exec m') := by
  have tokens : link.Agree chain m link.Machines (fun _ => SameTokens)
      ((liftM o : Run (List Token)).exec m) ((liftM o' : Run (List Token)).exec m') :=
    agree_lift linked same
  apply agree_report
  apply Agree.bind tokens
  intro _ tokens tokens' n n' _ linked same
  exact agree_showTokens unenclosed top linked finds same verbose folder

omit unenclosed top in
/-- The builtin functions are defined in both, at the same addresses. -/
theorem agree_addBuiltins {s t : Scope} (linked : link.Machines chain m m')
    (scopes : ∀ chain, link.Scopes chain s t) (knows : ∀ name, link.known name)
    (addresses : m.host.builtinAddress = m'.host.builtinAddress) :
    link.Agree chain m link.Machines Equal ((Run.addBuiltins s).exec m)
      ((Run.addBuiltins t).exec m') := by
  have defined {chain : Chain} {n n' : Machine} (linked : link.Machines chain n n') (name : String)
      (f : Builtin) : link.Agree chain n link.Machines link.Same
        ((Run.defineFunction s name (.builtin f)).exec n)
        ((Run.defineFunction t name (.builtin f)).exec n') := by
    have unnumbered : (Value.builtin f).Unnumbered := fun _ => by rw [Value.renumber]
    apply agree_defineFunction linked (scopes chain) (Or.inl (knows name))
      (same_of_unnumbered unnumbered)
    intro serial address name params body other
    cases other
  rw [Run.addBuiltins, Run.addBuiltins, Run.exec_bind, Run.exec_bind, Run.exec_get, Run.exec_get]
  simp only [addresses]
  apply Agree.bind (defined linked "print" (.print _))
  intro _ _ _ n n' _ linked _
  apply Agree.bind (defined linked "string" (.string _))
  intro _ _ _ n n' _ linked _
  apply Agree.bind (defined linked "input" (.input _))
  intro _ _ _ n n' _ linked _
  exact agree_pure linked rfl

end Lines

/-- A run beside itself, with other numbers for the functions that are made later on. -/
def own : Link where
  known _ := True
  partners i j := i = j
  numbering n f g := Function.Injective f ∧ Function.Injective g ∧ ∀ i < n, f i = g i
  heard _ _ := True
  muted := True
  hidden _ _ := none
  hidden' _ _ := none
  finds := True
  old := 1
  enclosed := False
  passed _ := False
  partner_iff := by
    rintro i i' _ _ rfl rfl
    exact Iff.rfl
  partner_passed _ := id
  numbering_exists _ := ⟨id, id, Function.injective_id, Function.injective_id, fun _ _ => rfl⟩
  numbering_le le numbering :=
    ⟨numbering.1, numbering.2.1, fun i below => numbering.2.2 i (Nat.lt_of_lt_of_le below le)⟩
  distinct_left numbering := numbering.1
  distinct_right numbering := numbering.2.1
  heard_append _ _ := trivial
  heard_of_muted _ _ _ := trivial
  known_of_finds _ _ := trivial

end Link

/-- The functions in the store of a machine are numbered below the next number, and the values in their
bodies have no numbers. -/
def Machine.Sound (m : Machine) : Prop := ∃ chain, Link.own.Machines chain m m

namespace Machine

variable {m : Machine}

theorem machines_fresh (console : Console) (files : Files) (traced : Bool) (host : Host) :
    Link.own.Machines (fun _ => none) (fresh console files traced host)
      (fresh console files traced host) where
  stores :=
    { frames := by
        rintro i _ rfl
        cases i with
        | zero => exact .some ⟨rfl, fun own => own.1.elim, Or.inl trivial, fun _ _ => .none⟩
        | succ i => exact .none
      functions := by
        rintro i _ name f rfl _ bound
        cases i with
        | zero => cases bound
        | succ i => cases bound
      fresh := fun _ => rfl
      hidden := fun _ _ unknown => absurd (Or.inl trivial) unknown
      hidden' := fun _ _ unknown => absurd trivial unknown
      clear := fun _ _ passed => passed.elim
      made := fun _ _ before => by cases before
      old := Nat.le_refl 1 }
  input := rfl
  interrupts := rfl
  output := trivial
  supply _ _ _ numbering := numbering.2.2 _ (Nat.lt_succ_self _)
  addresses _ := rfl
  files _ := rfl
  encode _ := rfl

theorem Sound.withConsole (sound : m.Sound) (console : Console) : Sound { m with console } := by
  obtain ⟨chain, linked⟩ := sound
  exact ⟨chain, { linked with input := rfl, interrupts := rfl }⟩

theorem sound_freshWithBuiltins (console : Console) (files : Files) (host : Host) :
    (freshWithBuiltins console files host).Sound :=
  (Link.agree_addBuiltins (machines_fresh console files false host)
    (fun _ => Link.scopes_top id rfl) (fun _ => trivial) rfl).ends.2

theorem Sound.made (sound : m.Sound) : 0 < m.store.frames.size := by
  obtain ⟨chain, linked⟩ := sound
  exact linked.stores.old

theorem Sound.binding {i : Nat} {name : String} {x : Binding} (sound : m.Sound)
    (bound : m.store.binding? i name = some x) : Link.own.Bound m.serial x x := by
  obtain ⟨chain, linked⟩ := sound
  have own : Option.Rel (Link.own.Bound m.serial) (m.store.binding? i name)
      (m.store.binding? i name) := linked.stores.binding rfl (Or.inl trivial)
  rw [bound] at own
  cases own with
  | some own => exact own

/-- The values in the body of a bound function have no numbers. -/
theorem Sound.callable {i : Nat} {name : String} {f : Value} (sound : m.Sound)
    (bound : m.store.binding? i name = some (.function f)) :
    Link.own.Callable (fun _ => True) f := by
  obtain ⟨chain, linked⟩ := sound
  have callable := linked.stores.functions i i name f rfl (Or.inl trivial) bound
  exact callable.mono fun _ _ => trivial

end Machine

namespace Session

/-- The sessions that there are: begun with or without the builtin functions, with lines run in them and
more typed in. -/
inductive Reached : Session → Prop
  | fresh (console : Console) (files : Files) (traced : Bool) (host : Host) (cursor : Cursor)
      (verbose : Bool) (folder : Option Path) :
      Reached ⟨.fresh console files traced host, cursor, verbose, folder⟩
  | builtins (console : Console) (files : Files) (host : Host) (cursor : Cursor) (verbose : Bool)
      (folder : Option Path) : Reached ⟨.freshWithBuiltins console files host, cursor, verbose, folder⟩
  | line {s : Session} (before : Reached s) (line : String) : Reached (s.runLine line).2
  | typed {s : Session} (before : Reached s) (console : Console) :
      Reached { s with machine := { s.machine with console } }

theorem sound_runLine {s : Session} (sound : s.machine.Sound) (line : String) :
    (s.runLine line).2.machine.Sound := by
  by_cases exits : line = "exit"
  · rw [runLine, if_pos exits]
    exact sound
  · have same : Outcomes SameTokens (Token.scan line s.cursor).1 (Token.scan line s.cursor).1 := by
      cases (Token.scan line s.cursor).1 with
      | error fault => exact .error fault
      | ok tokens => exact .ok ⟨rfl, Or.inr rfl⟩
    obtain ⟨chain, linked⟩ := sound
    rw [runLine_eq s exits]
    exact (Link.agree_line id rfl linked trivial same s.verbose s.folder).ends.2

theorem sound_of_reached {s : Session} (reached : Reached s) : s.machine.Sound := by
  induction reached with
  | fresh console files traced host => exact ⟨_, Machine.machines_fresh console files traced host⟩
  | builtins console files host => exact Machine.sound_freshWithBuiltins console files host
  | line before line sound => exact sound_runLine sound line
  | typed before console sound => exact sound.withConsole console

end Session

end Scriptlet
