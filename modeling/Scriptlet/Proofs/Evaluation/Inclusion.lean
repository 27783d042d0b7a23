import Scriptlet.Proofs.Evaluation.Depth

set_option autoImplicit false

/-!
Importing a module is the same as having its statements in place of the import. The module is run one
level deeper than the program that imports it, so the two programs are compared in the order of runs by
their depth, and the results of the module are put before those of the statements that follow.
-/

namespace Scriptlet.Run

theorem evalAll_append (ev : Expr → Run Result) (first others : List Expr) :
    evalAll ev (first ++ others) = do
      let results ← evalAll ev first
      return results ++ (← evalAll ev others) := by
  induction first with
  | nil => simp [evalAll]
  | cons e first ih =>
      simp only [List.cons_append, evalAll, ih, bind_assoc, pure_bind, List.append_assoc]

/-- A folder holds a module: there is no directory of its name, and the text of its file is read and
folded to the statements. -/
structure Provides (files : Files) (folder : Path) (name : String) (statements : List Expr) :
    Prop where
  plain : files.isDirectory (folder.join name) = false
  source : ∃ text tokens program, files.read? (folder.join (name ++ ".jk")) = some text ∧
    Token.ofText text = .ok tokens ∧ Expr.ofTokens tokens = .ok program ∧
    (Expr.foldProgram program).1 = .ok statements

section

variable {machine : Machine} {folder : Path} {name : String} {statements : List Expr}

theorem moduleText_found {files : Files} {text : String} {suffix : List (Option String)}
    (plain : files.isDirectory (folder.join name) = false)
    (found : files.read? (folder.join (name ++ ".jk")) = some text) (named : name ≠ ".") :
    moduleText files (some folder) (some name :: suffix) = .ok text := by
  simp [moduleText, named, plain, found]

/-- On a machine that looks into the folder and lists nothing, a module is run by running its
statements on the machine as it is. -/
theorem exec_evalModule (ev : Expr → Run Result) {suffix : List (Option String)}
    (provides : Provides machine.files folder name statements) (named : name ≠ ".")
    (located : machine.folder = some folder) (silent : machine.verbose = false) :
    (evalModule ev (some name :: suffix)).exec machine =
      (Result.block <$> evalAll ev statements).exec machine := by
  obtain ⟨text, tokens, program, found, scanned, read, folded⟩ := provides.source
  have same : { machine with scope := machine.scope, verbose := false, folder := some folder } =
      machine := by
    rw [← silent, ← located]
  simp only [evalModule, exec_bind, exec_get, located, silent, exec_lift,
    moduleText_found provides.plain found named, readProgram, scanned, read, Bool.false_eq_true,
    ↓reduceIte, exec_pure, folded, evalIn, exec_modify, same, exec_map]

/-- Statements of a module and those after them, each with an evaluator of their own. -/
def spliced (inner outer : Expr → Run Result) (statements rest : List Expr) : Run (List Result) := do
  let results ← evalAll inner statements
  return results ++ (← evalAll outer rest)

theorem spliced_below {inner inner' outer outer' : Expr → Run Result}
    (deeper : ∀ e, Below (inner e) (inner' e)) (higher : ∀ e, Below (outer e) (outer' e))
    (statements rest : List Expr) :
    Below (spliced inner outer statements rest) (spliced inner' outer' statements rest) :=
  below_bind (evalAll_below (each_same deeper statements)) fun _ =>
    below_bind_left (evalAll_below (each_same higher rest))

theorem exec_import {parents : List (Option String)} {last : Option String}
    {suffix : List (Option String)} (path : Expr.modulePath parents last = some name :: suffix)
    (named : name ≠ ".") (provides : Provides machine.files folder name statements)
    (located : machine.folder = some folder) (silent : machine.verbose = false) (rest : List Expr)
    (fuel : Nat) :
    (evalAll (eval (fuel + 1)) (.module parents last :: rest)).exec machine =
      (spliced (eval fuel) (eval (fuel + 1)) statements rest).exec machine := by
  have module : (evalModule (eval fuel) (some name :: suffix)).exec machine =
      (Result.block <$> evalAll (eval fuel) statements).exec machine :=
    exec_evalModule (eval fuel) provides named located silent
  simp only [evalAll, eval, evalWith, path, exec_bind, module, exec_map, spliced]
  cases (evalAll (eval fuel) statements).exec machine with
  | mk outcome left => cases outcome <;> rfl

/-- A program does what another one does if it does so with every bound on its depth, the other program
with some bound. -/
theorem evaluates_imp {program program' : List Expr} {scope : Scope} {verbose : Bool}
    {place : Option Path} {outcome : Except Fault (List Result) × Machine}
    (same : ∀ fuel, ∃ fuel',
      ((evalProgram fuel program scope verbose place).exec machine).1 = .error .outOfFuel ∨
      (evalProgram fuel program scope verbose place).exec machine =
        (evalProgram fuel' program' scope verbose place).exec machine)
    (evaluates : Evaluates program scope verbose place machine outcome) :
    Evaluates program' scope verbose place machine outcome := by
  obtain ⟨finished, fuel, rfl⟩ := evaluates
  obtain ⟨fuel', stopped | same⟩ := same fuel
  · exact absurd stopped finished
  · exact ⟨finished, fuel', same.symm⟩

/-- A program that imports a module does what it does with the statements of the module in place of the
import: the results, the machine and the faults are the same. -/
theorem evaluates_import_iff {parents : List (Option String)} {last : Option String}
    {suffix : List (Option String)} (path : Expr.modulePath parents last = some name :: suffix)
    (named : name ≠ ".") (provides : Provides machine.files folder name statements)
    (rest : List Expr) (scope : Scope) (outcome : Except Fault (List Result) × Machine) :
    Evaluates (.module parents last :: rest) scope false (some folder) machine outcome ↔
      Evaluates (statements ++ rest) scope false (some folder) machine outcome := by
  let placed : Machine := { machine with scope, verbose := false, folder := some folder }
  have held : Provides placed.files folder name statements := provides
  have imported (fuel : Nat) : (evalProgram (fuel + 1) (.module parents last :: rest) scope false
      (some folder)).exec machine =
        (spliced (eval fuel) (eval (fuel + 1)) statements rest).exec placed :=
    exec_import path named held rfl rfl rest fuel
  have inPlace (fuel : Nat) : (evalProgram fuel (statements ++ rest) scope false
      (some folder)).exec machine =
        (spliced (eval fuel) (eval fuel) statements rest).exec placed :=
    congrArg (Run.exec · placed) (evalAll_append (eval fuel) statements rest)
  constructor
  · refine evaluates_imp fun fuel => ?_
    cases fuel with
    | zero => exact ⟨0, .inl rfl⟩
    | succ fuel =>
        refine ⟨fuel + 1, ?_⟩
        rw [imported, inPlace]
        exact spliced_below (eval_below fuel.le_succ) (fun e => below_refl _) statements rest placed
  · refine evaluates_imp fun fuel => ⟨fuel + 1, ?_⟩
    rw [imported, inPlace]
    exact spliced_below (fun e => below_refl _) (eval_below fuel.le_succ) statements rest placed

end

/-- One file with a module that defines a variable. -/
def libraryFiles : Files := ⟨"", [(["lib.jk"], some "let x = 1\n")]⟩

def libraryMachine : Machine := .fresh (.ofInput "" false) libraryFiles false

/-- The tokens of the module. -/
def libraryTokens : List Token :=
  [⟨some .keyword, "let", 1, 1⟩, ⟨some .identifier, "x", 1, 3⟩, ⟨some .operator, "=", 1, 5⟩,
    ⟨some .number, "1", 1, 7⟩, ⟨some .newline, "newline", 2, 8⟩]

theorem splitOnAux_next {s : String} {b i : String.Pos.Raw} {parts : List String}
    (inside : ¬ i.atEnd s = true) (other : ¬ (i.get s == String.Pos.Raw.get "/" 0) = true) :
    s.splitOnAux "/" b i 0 parts = s.splitOnAux "/" b (i.next s) 0 parts := by
  rw [String.splitOnAux, if_neg inside, if_neg other]
  rfl

/-- A name without a slash is looked for in the folder itself. -/
theorem join_here {name : String} (relative : name.startsWith "/" = false)
    (whole : name.splitOn "/" = [name]) (proper : name ≠ "" ∧ name ≠ "." ∧ name ≠ "..") :
    Path.here.join name = ⟨false, [name]⟩ := by
  simp [Path.join, Path.ofText, relative, whole, Path.here, Path.descend, proper]

theorem join_library : Path.here.join "lib" = ⟨false, ["lib"]⟩ := by
  refine join_here (by simp) ?_ (by decide)
  rw [String.splitOn, if_neg (by decide)]
  iterate 3 rw [splitOnAux_next (by decide) (by decide)]
  rw [String.splitOnAux, if_pos (by decide)]
  decide

theorem join_libraryFile : Path.here.join "lib.jk" = ⟨false, ["lib.jk"]⟩ := by
  refine join_here (by simp) ?_ (by decide)
  rw [String.splitOn, if_neg (by decide)]
  iterate 6 rw [splitOnAux_next (by decide) (by decide)]
  rw [String.splitOnAux, if_pos (by decide)]
  decide

theorem provides_library :
    Provides libraryFiles .here "lib" [.assign (some "let") "x" (.int 1)] := by
  have plain : libraryFiles.isDirectory (Path.here.join "lib") = false := by
    rw [join_library]
    decide
  have found : libraryFiles.read? (Path.here.join "lib.jk") = some "let x = 1\n" := by
    rw [join_libraryFile]
    decide
  have scanned : Token.ofText "let x = 1\n" = .ok libraryTokens := by decide +kernel
  exact ⟨plain, _, _, _, found, scanned, rfl, rfl⟩

/-- The variable of an imported module is found after the import, of whose path only the first part
counts. -/
theorem evaluates_import_library :
    "lib" ≠ "." ∧ Provides libraryMachine.files .here "lib" [.assign (some "let") "x" (.int 1)] ∧
      ∃ results after, Evaluates [.module [some "lib", some "."] (some "part"), .ident "x"] [0] false
        (some .here) libraryMachine (.ok results, after) := by
  obtain ⟨results, after, ran⟩ := exec_of_isOk
    (evalProgram 2 [.assign (some "let") "x" (.int 1), .ident "x"] [0] false (some .here))
    libraryMachine (by decide +kernel)
  have named : "lib" ≠ "." := by decide
  refine ⟨named, provides_library, results, after, ?_⟩
  exact (evaluates_import_iff rfl named provides_library [.ident "x"] [0] _).mpr
    ⟨by simp, 2, ran⟩

end Scriptlet.Run
