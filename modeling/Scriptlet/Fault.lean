import Scriptlet.Text.Quoted

set_option autoImplicit false

/-!
Everything that can go wrong, as causes, with the wording of each cause in `Fault.message` and the
name of its class in `Fault.className`.
-/

namespace Scriptlet

/-- A place in a source text: line, column and the text of the line. -/
structure Spot where
  line : Nat
  column : Nat
  text : String
deriving Repr, DecidableEq

/-- The place, its line, and a mark under the column. -/
def Spot.report (s : Spot) : String :=
  s!"{s.line}:{s.column}\n  {s.text}\n  " ++ String.ofList (List.replicate (s.column - 1) ' ') ++ "^"

/-- What the reader of expressions wanted to see. -/
inductive Wanted
  /-- A token given by its kind or its spelling. -/
  | token (item : String)
  | keyword
  | primary
  | packageIndex
  | commaOrColon
  | binding
deriving Repr, DecidableEq

def Wanted.text : Wanted → String
  | .token item => s!"'{item}'"
  | .keyword => "keyword"
  | .primary => "primary expression"
  | .packageIndex => "package index"
  | .commaOrColon => "comma or colon"
  | .binding => "let or const"

/-- The ways to divide by zero. -/
inductive ZeroDivision
  | intQuotient
  | floatQuotient
  | intFloor
  | floatFloor
  | power
  | complexQuotient
  | complexPower
deriving Repr, DecidableEq

def ZeroDivision.text : ZeroDivision → String
  | .intQuotient => "division by zero"
  | .floatQuotient => "float division by zero"
  | .intFloor => "integer division or modulo by zero"
  | .floatFloor => "float floor division by zero"
  | .power => "0.0 cannot be raised to a negative power"
  | .complexQuotient => "complex division by zero"
  | .complexPower => "0.0 to a negative or complex power"

/-- Results and operands that are too large. -/
inductive Overflow
  | quotient
  | intToFloat
  | power
  | complexPower
  | repeatCount
  | repeatedText
deriving Repr, DecidableEq

def Overflow.text : Overflow → String
  | .quotient => "integer division result too large for a float"
  | .intToFloat => "int too large to convert to float"
  | .power => "(34, 'Numerical result out of range')"
  | .complexPower => "complex exponentiation"
  | .repeatCount => "cannot fit 'int' into an index-sized integer"
  | .repeatedText => "repeated string is too long"

/-- The causes of failure. Kinds of values are given by their names. -/
inductive Fault
  -- source text
  | invalidCharacter (spot : Spot)
  | invalidOperator (spot : Spot)
  | invalidNumber (spot : Spot)
  | unclosedString (spot : Spot)
  | unclosedComment
  -- tokens
  | unexpected (wanted : Wanted) (got : String) (line : Nat)
  | emptyBody (line : Nat)
  | nullWithoutValue
  -- names and bindings
  | undefined (name : String)
  | alreadyDefined (name : String)
  | constant (name : String)
  | unbound (name : String)
  | functionDefined (name : String)
  | notIndexable (name type : String)
  | noProperty (name property : String)
  -- statements
  | importFailed (name : String)
  | badCondition
  | tooManyArguments (function : String) (expected given : Nat)
  | badParameter (cause function : String)
  | noProgram
  | onlyConcatenation
  | onlyRepetition
  -- kinds of values
  | noAttribute (kind member : String)
  | noEntry (key : String)
  | outOfRange
  | unassigned (name : String)
  | unsupported (operator left right : String)
  | notConcatenable (kind other : String)
  | notRepeatable (other : String)
  | notOrdered (operator left right : String)
  | notContainer (kind : String)
  | stringIndex
  | listIndex
  | notSubscriptable (kind : String)
  | notCallable (kind : String)
  | notIterable (kind : String)
  | notJoinable (position : Nat) (kind : String)
  -- numbers
  | zeroDivision (way : ZeroDivision)
  | overflow (what : Overflow)
  | notInt (text : String)
  | noInt (kind : String)
  | notFloat (text : String)
  | tooManyDigits (count : Nat)
  | tooLongToPrint
  | outOfMemory
  -- the world outside
  | endOfInput
  | interrupted
  | fileMissing (path : String)
  | notDirectory (path : String)
  | directoryGiven (path : String)
  | noCompiler
  -- the bound on the depth of evaluation
  | outOfFuel
deriving Repr, DecidableEq

namespace Fault

/-- The wording of a fault. -/
def message : Fault → String
  | invalidCharacter s => "Invalid character on " ++ s.report
  | invalidOperator s => "Invalid operator on " ++ s.report
  | invalidNumber s => "Invalid number at " ++ s.report
  | unclosedString s => "A string was not properly enclosed at " ++ s.report
  | unclosedComment => "A multi-line comment was not closed."
  | unexpected wanted got line => s!"Expected {wanted.text}, got '{got}' on line {line}."
  | emptyBody line => s!"Empty function body on line {line}."
  | nullWithoutValue => "Null.__init__() missing 1 required positional argument: 'value'"
  | undefined name => s!"{name} is not defined."
  | alreadyDefined name => s!"{name} is already defined."
  | constant name => s!"Constant {name} is not reassignable."
  | unbound name => s!"Expected let or const, got 'null' for {name}."
  | functionDefined name => s!"Function '{name}' is already defined!"
  | notIndexable name type => s!"Variable '{name}' of type {type} does not support indexing"
  | noProperty name property => s!"Object '{name}' does not contain the property '{property}'"
  | importFailed name => s!"Failed to import module {name}."
  | badCondition => "Conditional improperly used."
  | tooManyArguments function expected given =>
    s!"Function '{function}' takes {expected} arguments but {given} were given."
  | badParameter cause function =>
    s!"{cause}\nException: Improper function parameter or call argument at function '{function}'."
  | noProgram => "AST not found"
  | onlyConcatenation => "Only '+' operator can be used for string/string binop."
  | onlyRepetition => "Only '*' operator can be used for string/int binop."
  | noAttribute kind member => s!"'{kind}' object has no attribute '{member}'"
  | noEntry key => Text.quoted key
  | outOfRange => "list index out of range"
  | unassigned name =>
    s!"cannot access local variable '{name}' where it is not associated with a value"
  | unsupported operator left right =>
    s!"unsupported operand type(s) for {operator}: '{left}' and '{right}'"
  | notConcatenable kind other => s!"can only concatenate {kind} (not \"{other}\") to {kind}"
  | notRepeatable other => s!"can't multiply sequence by non-int of type '{other}'"
  | notOrdered operator left right =>
    s!"'{operator}' not supported between instances of '{left}' and '{right}'"
  | notContainer kind => s!"argument of type '{kind}' is not iterable"
  | stringIndex => "string indices must be integers, not 'str'"
  | listIndex => "list indices must be integers or slices, not str"
  | notSubscriptable kind => s!"'{kind}' object is not subscriptable"
  | notCallable kind => s!"'{kind}' object is not callable"
  | notIterable kind => s!"'{kind}' object is not iterable"
  | notJoinable position kind => s!"sequence item {position}: expected str instance, {kind} found"
  | zeroDivision way => way.text
  | overflow what => what.text
  | notInt text => s!"invalid literal for int() with base 10: " ++ Text.quoted text
  | noInt kind =>
    s!"int() argument must be a string, a bytes-like object or a real number, not '{kind}'"
  | notFloat text => s!"could not convert string to float: " ++ Text.quoted text
  | tooManyDigits count =>
    s!"Exceeds the limit (4300 digits) for integer string conversion: value has {count} digits; " ++
      "use sys.set_int_max_str_digits() to increase the limit"
  | tooLongToPrint =>
    "Exceeds the limit (4300 digits) for integer string conversion; " ++
      "use sys.set_int_max_str_digits() to increase the limit"
  | outOfMemory => ""
  | endOfInput => "EOF when reading a line"
  | interrupted => ""
  | fileMissing path => "[Errno 2] No such file or directory: " ++ Text.quoted path
  | notDirectory path => "[Errno 20] Not a directory: " ++ Text.quoted path
  | directoryGiven path => s!"File expected, was given dir: {path}"
  | noCompiler => "Compiler not yet implemented."
  | outOfFuel => "maximum recursion depth exceeded"

/-- The name under which a fault is reported. -/
def className : Fault → String
  | nullWithoutValue | unsupported .. | notConcatenable .. | notRepeatable .. | notOrdered ..
  | notContainer .. | stringIndex | listIndex | notSubscriptable .. | notCallable ..
  | notIterable .. | notJoinable .. | noInt .. => "TypeError"
  | noAttribute .. => "AttributeError"
  | noEntry .. => "KeyError"
  | outOfRange => "IndexError"
  | unassigned .. => "UnboundLocalError"
  | zeroDivision .. => "ZeroDivisionError"
  | overflow .. => "OverflowError"
  | notInt .. | notFloat .. | tooManyDigits .. | tooLongToPrint => "ValueError"
  | outOfMemory => "MemoryError"
  | endOfInput => "EOFError"
  | interrupted => "KeyboardInterrupt"
  | fileMissing .. => "FileNotFoundError"
  | notDirectory .. => "NotADirectoryError"
  | noCompiler => "NotImplementedError"
  | outOfFuel => "RecursionError"
  | _ => "Exception"

/-- A request from outside to stop is not handled by the program; all else can be. -/
def isHandled : Fault → Bool
  | interrupted => false
  | _ => true

end Fault

end Scriptlet
