import Scriptlet.Expr.Reading
import Scriptlet.Number.Numeral
import Scriptlet.Value

set_option autoImplicit false

/-!
Reading expressions and statements from tokens by precedence climbing, with one token of lookahead.
The depth of a reading is bounded by its fuel; every few levels take a token, so that `fuelFor` is
enough for any list of tokens.
-/

namespace Scriptlet.Reading

/-- Enough fuel to read a list of tokens. -/
def fuelFor (tokens : List Token) : Nat := 8 * (tokens.length + 2)

/-- Gives a reading the fuel for the tokens that are left. -/
def fuelled {α : Type} (r : Nat → Reading α) : Reading α := do r (fuelFor (← get))

/-- How tightly an operator binds. -/
def precedence (token : Token) : Int :=
  if ["+", "-"].contains token.value then 1
  else if ["*", "/", "%"].contains token.value then 2
  else if ["^", ""].contains token.value then 3
  else 0

/-- Whether a run of equal operators groups to the left. -/
def isLeftAssociative (token : Token) : Bool :=
  token.kind ≠ some .string && !(["++", "--", "+=", "-=", "="].contains token.value)

/-- Whether a token is an operator before its operand. -/
def isUnary (token : Token) : Bool :=
  token.kind ≠ some .string && ["-", "+", "++", "--", "!"].contains token.value

/-- The kinds of tokens that end a statement. -/
def separators : List TokenKind := [.newline, .semicolon]

/-- An import path: parts, each an identifier or an operator such as a point, up to a separator. -/
def readModule : Nat → Option String → List (Option String) → Reading Expr
  | 0, _, _ => throw .outOfFuel
  | fuel + 1, name, parents => do
    let token ← demand "type" (← current)
    match token.kind with
    | none => return .module parents name
    | some .newline | some .semicolon =>
      let _ ← takeOneOf separators
      return .module parents name
    | some .identifier | some .operator =>
      let _ ← next
      let following ← demand "type" (← current)
      match following.kind with
      | some .identifier | some .operator =>
        readModule fuel (some following.value) (parents ++ [some token.value])
      | some .newline | some .semicolon =>
        let _ ← takeOneOf separators
        return .module parents (some token.value)
      | _ => return .module parents (some token.value)
    | some _ => throw (.unexpected .packageIndex token.value token.line)

mutual

/-- The entries of an object up to its closing brace, which is left. -/
def readEntries : Nat → List (String × Value) → Reading Value
  | 0, _ => throw .outOfFuel
  | fuel + 1, entries => do
    match ← current with
    | none => closeObject entries
    | some token =>
      if token.kind = some .rbrace then closeObject entries
      else
        let (key, value) ← readEntry fuel
        let entries := Value.putEntry key value entries
        let _ ← skipNewlines none
        if (← currentKind) = some .rbrace then closeObject entries
        else
          let _ ← take .comma
          readEntries fuel entries
where
  /-- The object, if its closing brace is at the front. -/
  closeObject (entries : List (String × Value)) : Reading Value := do
    let token ← demand "value" (← current)
    if token.value = "\x7d" then return .obj entries
    else throw (.unexpected (.token "\x7d") token.value token.line)

/-- A key, a colon, and a word, a string or an object. -/
def readEntry : Nat → Reading (String × Value)
  | 0 => throw .outOfFuel
  | fuel + 1 => do
    let _ ← skipNewlines none
    let key ← takeOneOf [.identifier, .string]
    let _ ← takeSpelled ":"
    if (← currentKind) = some .lbrace then
      let _ ← take .lbrace
      let value ← readEntries fuel []
      let _ ← take .rbrace
      return (key.value, value)
    else
      let word ← takeOneOf [.identifier, .string]
      return (key.value, .str word.value)

end

/-- An object after its opening brace. -/
def readObject (fuel : Nat) : Reading Value := readEntries fuel []

/-- The number that a numeral stands for: broken if it has a point. -/
def numberOf (text : String) : Except Fault Expr :=
  if text.toList.contains '.' then Expr.float <$> Number.readFloat text
  else Expr.int <$> Number.readInt text

mutual

/-- A statement. -/
def readTop : Nat → Reading Expr
  | 0 => throw .outOfFuel
  | fuel + 1 => do
    match ← current with
    | none => return .missing
    | some token =>
      if token.kind ≠ some .keyword then readExpr fuel 0
      else if token.value = "import" then
        let _ ← next
        fuelled fun fuel => readModule fuel none []
      else if token.value = "let" || token.value = "const" then
        let _ ← next
        let name ← take .identifier
        let following ← demand "type" (← current)
        if following.kind = some .operator && following.value = "="
            || separators.any fun k => following.kind = some k then
          let _ ← next
          readAssignment fuel (some token.value) name.value
        else return .missing
      else if token.value = "fun" then
        let _ ← next
        readFunction fuel
      else if token.value = "return" then readReturn fuel
      else if token.value = "if" then readConditional fuel
      else if token.value = "null" then
        let _ ← next
        throw .nullWithoutValue
      else throw (.unexpected .keyword token.value token.line)

/-- An expression whose operators bind at least so tightly, and a semicolon after it. -/
def readExpr : Nat → Int → Reading Expr
  | 0, _ => throw .outOfFuel
  | fuel + 1, least => do
    let left ← readPrimary fuel
    readOperators fuel least left

/-- The operators and right operands after a left operand. -/
def readOperators : Nat → Int → Expr → Reading Expr
  | 0, _, _ => throw .outOfFuel
  | fuel + 1, least, left => do
    match ← current with
    | none => return left
    | some token =>
      if token.kind = some .operator && least ≤ precedence token then
        let _ ← next
        if token.value = "++" || token.value = "--" then
          return .unary (token.value ++ ":post") left
        else
          let tighter := if isLeftAssociative token then precedence token + 1 else precedence token
          let right ← readExpr fuel tighter
          readOperators fuel least (.binary token.value left right)
      else if token.kind = some .semicolon then
        let _ ← take .semicolon
        return left
      else return left

/-- An operand. -/
def readPrimary : Nat → Reading Expr
  | 0 => throw .outOfFuel
  | fuel + 1 => do
    match ← skipNewlines none with
    | none => return .missing
    | some token =>
      if isUnary token then
        let _ ← next
        if ["-", "+", "!"].contains token.value then
          return .unary token.value (← readPrimary fuel)
        else return .unary token.value (← readExpr fuel (precedence token))
      else if token.value = "(" then
        let _ ← take .lparen
        let inner ← readExpr fuel 0
        let _ ← take .rparen
        return inner
      else if token.value = "\x7b" then
        let _ ← take .lbrace
        let object ← fuelled readObject
        let _ ← take .rbrace
        return .datum object
      else
        match token.kind with
        | some .number =>
          let _ ← next
          numberOf token.value
        | some .string =>
          let _ ← next
          return .str token.value
        | some .identifier =>
          let _ ← next
          readName fuel token.value
        | some .keyword =>
          let _ ← next
          if token.value = "true" || token.value = "false" then
            return .literal .boolean (.str token.value)
          else if (← currentValue) = "(" then return .call token.value (← readArguments fuel)
          else if token.value = "null" then throw .nullWithoutValue
          else throw (.unexpected .primary token.value token.line)
        | _ => throw (.unexpected .primary token.value token.line)

/-- What a name is used for: a property, a call, an assignment or itself. -/
def readName : Nat → String → Reading Expr
  | 0, _ => throw .outOfFuel
  | fuel + 1, name => do
    let following ← currentValue
    if following = "." then
      let _ ← next
      return .property name (← readTop fuel)
    else if following = "(" then return .call name (← readArguments fuel)
    else if following = "=" then
      let _ ← next
      readAssignment fuel none name
    else return .ident name

/-- The value of an assignment, if any, and the separator after it. -/
def readAssignment : Nat → Option String → String → Reading Expr
  | 0, _, _ => throw .outOfFuel
  | fuel + 1, binding, name => do
    let kind ← currentKind
    if kind = some .rparen then return .assign binding name .missing
    else
      let value ←
        if [TokenKind.newline, .semicolon, .comma].any fun k => kind = some k then pure .missing
        else readExpr fuel 0
      match ← current with
      | none => return .assign binding name value
      | some token =>
        if token.kind = some .comma then return .assign binding name value
        else
          let _ ← takeOneOf separators
          return .assign binding name value

/-- The arguments of a call, in parentheses. -/
def readArguments : Nat → Reading (List Expr)
  | 0 => throw .outOfFuel
  | fuel + 1 => do
    let _ ← take .lparen
    readMoreArguments fuel

/-- Arguments up to the closing parenthesis or the end. -/
def readMoreArguments : Nat → Reading (List Expr)
  | 0 => throw .outOfFuel
  | fuel + 1 => do
    match ← current with
    | none => return []
    | some token =>
      if token.value = ")" then
        let _ ← take .rparen
        return []
      else
        let argument ← readTop fuel
        let following ← currentValue
        if following = "," || following = "newline" then
          let _ ← takeIf (.oneOf [.comma, .newline])
          return argument :: (← readMoreArguments fuel)
        else
          let _ ← take .rparen
          return [argument]

/-- The parameters of a function, in parentheses. -/
def readParameters : Nat → Reading (List Parameter)
  | 0 => throw .outOfFuel
  | fuel + 1 => do
    let _ ← take .lparen
    readMoreParameters fuel

/-- Parameters up to the closing parenthesis, an opening brace or the end. The token after a default
is skipped, whatever it is. -/
def readMoreParameters : Nat → Reading (List Parameter)
  | 0 => throw .outOfFuel
  | fuel + 1 => do
    match ← current with
    | none => return []
    | some token =>
      if token.value = ")" then
        let _ ← take .rparen
        return []
      else if token.value = "\x7b" then return []
      else
        let _ ← next
        if token.kind = some .keyword && (token.value = "let" || token.value = "const") then
          let name ← take .identifier
          let following ← demand "type" (← current)
          if following.kind = some .rparen then
            return .mk name.value (some token.value) .missing :: (← readMoreParameters fuel)
          else if (following.kind = some .comma || following.kind = some .operator)
              && (following.value = "," || following.value = ":") then
            let _ ← next
            if following.value = ":" then
              let default ← readExpr fuel 0
              let _ ← next
              return .mk name.value (some token.value) default :: (← readMoreParameters fuel)
            else return .mk name.value (some token.value) .missing :: (← readMoreParameters fuel)
          else throw (.unexpected .commaOrColon token.value token.line)
        else throw (.unexpected .binding token.value token.line)

/-- A function after its keyword. -/
def readFunction : Nat → Reading Expr
  | 0 => throw .outOfFuel
  | fuel + 1 => do
    let name ← take .identifier
    let params ← readParameters fuel
    let body ← readBlock fuel
    return .define name.value params body

/-- A return and its value, if one stands on the same line. -/
def readReturn : Nat → Reading Expr
  | 0 => throw .outOfFuel
  | fuel + 1 => do
    let _ ← next
    let kind ← currentKind
    if kind = some .semicolon then
      let _ ← next
      return .ret .missing
    else if kind = some .newline then return .ret .missing
    else return .ret (← readExpr fuel 0)

/-- A conditional and those that continue it. -/
def readConditional : Nat → Reading Expr
  | 0 => throw .outOfFuel
  | fuel + 1 => do
    let token ← demand "value" (← next)
    if token.value = "else" then
      return .conditional token.value .missing (← readBlock fuel) none
    else
      let _ ← take .lparen
      let condition ← readExpr fuel 0
      let _ ← take .rparen
      let body ← readBlock fuel
      match ← skipNewlines none with
      | none => return .conditional token.value condition body (some [])
      | some following =>
        if following.kind = some .keyword
            && (following.value = "elseif" || following.value = "else") then
          return .conditional token.value condition body (some [← readConditional fuel])
        else return .conditional token.value condition body (some [])

/-- Statements in braces, or one statement on this or the next line. -/
def readBlock : Nat → Reading (List Expr)
  | 0 => throw .outOfFuel
  | fuel + 1 => do
    let token ← demand "value" (← current)
    if token.value = "\x7b" then
      let _ ← take .lbrace
      let _ ← skipNewlines none
      readStatements fuel
    else
      let _ ← skipNewlines (some 1)
      if (← currentKind) = some .newline then throw (.emptyBody token.line)
      else return [← readTop fuel]

/-- Statements up to and with a closing brace. -/
def readStatements : Nat → Reading (List Expr)
  | 0 => throw .outOfFuel
  | fuel + 1 => do
    match ← current with
    | none => throw (.noAttribute "NoneType" "value")
    | some token =>
      if token.value = "\x7d" then
        let _ ← next
        return []
      else
        let statement ← readTop fuel
        let _ ← skipNewlines none
        return statement :: (← readStatements fuel)

end

/-- The statements of a program. Newlines between them are skipped. -/
def readProgram : Nat → Reading (List Expr)
  | 0 => throw .outOfFuel
  | fuel + 1 => do
    match ← current with
    | none => return []
    | some token =>
      if token.kind = some .newline then
        let _ ← next
        readProgram fuel
      else
        let statement ← fuelled readTop
        return statement :: (← readProgram fuel)

end Reading

/-- The program that a list of tokens stands for. -/
def Expr.ofTokens (tokens : List Token) : Except Fault (List Expr) :=
  ((Reading.readProgram (Reading.fuelFor tokens)).run tokens).1

end Scriptlet
