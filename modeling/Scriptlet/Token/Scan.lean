import Scriptlet.Fault
import Scriptlet.Text.Alphanumeric
import Scriptlet.Text.Blank
import Scriptlet.Token

set_option autoImplicit false

/-!
Scanning text into tokens. The scanner's cursor goes on from text to text, also after a fault, so the
line number may lie beyond the last line of the text at hand; a report about such a line fails itself.
-/

namespace Scriptlet

/-- Where the scanner stands: how many tokens and blanks it has begun, the line, and the column. -/
structure Cursor where
  pos : Nat
  line : Nat
  column : Nat
deriving Repr, DecidableEq

namespace Cursor

/-- The cursor of a fresh scanner. -/
def start : Cursor := ⟨0, 1, 0⟩

/-- On to the next token or blank. -/
def advance (c : Cursor) : Cursor := { c with pos := c.pos + 1, column := c.column + 1 }

/-- Over further characters of the same token. -/
def skip (c : Cursor) (count : Nat) : Cursor := { c with column := c.column + count }

/-- To the start of the next line. -/
def nextLine (c : Cursor) : Cursor := { c with line := c.line + 1, column := 0 }

end Cursor

namespace Token

/-- The outcome of one step of the scanner: a token or none, or a fault, with what is left to scan. -/
structure Step where
  found : Except Fault (Option Token)
  rest : List Char
  cursor : Cursor

/-- A fault at a column of the current line, with that line of the source. -/
def faultAt (source : String) (line column : Nat) (cause : Spot → Fault) : Fault :=
  match (source.splitOn "\n")[line - 1]? with
  | some text => cause ⟨line, column, text⟩
  | none => .outOfRange

/-- A token that begins at the cursor. -/
def atCursor (kind : TokenKind) (value : String) (cursor : Cursor) : Token :=
  ⟨some kind, value, cursor.line, cursor.pos⟩

/-- A character that continues a name. -/
def continuesName (c : Char) : Bool := Text.isAlphanumeric c || c = '_'

/-- A character that continues a numeral. -/
def continuesNumber (c : Char) : Bool := !Text.isBlank c && (Text.isDigit c || c = '.')

/-- A character that is an operator by itself. -/
def isOperatorChar (c : Char) : Bool := operators.contains (String.singleton c)

/-- A name or a keyword. -/
def scanName (first : Char) (rest : List Char) (cursor : Cursor) : Step :=
  let tail := rest.takeWhile continuesName
  let name := String.ofList (first :: tail)
  let kind := if keywords.contains name then TokenKind.keyword else .identifier
  ⟨.ok (some (atCursor kind name cursor)), rest.dropWhile continuesName, cursor.skip tail.length⟩

/-- A run of operator characters, which has to be one operator. -/
def scanOperator (source : String) (first : Char) (rest : List Char) (cursor : Cursor) : Step :=
  let tail := rest.takeWhile isOperatorChar
  let symbol := String.ofList (first :: tail)
  let found :=
    if operators.contains symbol then .ok (some (atCursor .operator symbol cursor))
    else .error (faultAt source cursor.line cursor.column .invalidOperator)
  ⟨found, rest.dropWhile isOperatorChar, cursor.skip tail.length⟩

/-- A numeral with at most one point. -/
def scanNumber (source : String) (first : Char) (rest : List Char) (cursor : Cursor) : Step :=
  let tail := rest.takeWhile continuesNumber
  let found :=
    if 1 < (first :: tail).count '.' then
      .error (faultAt source cursor.line cursor.column .invalidNumber)
    else .ok (some (atCursor .number (String.ofList (first :: tail)) cursor))
  ⟨found, rest.dropWhile continuesNumber, cursor.skip tail.length⟩

/-- How the scan of a string ended. -/
inductive StringEnd
  | closed
  | unclosed
  /-- The text ended right after a backslash. -/
  | dangling
deriving Repr, DecidableEq

/-- Reads a string up to its closing quote: its contents, what is left and the cursor there. The
escape for a line feed counts as a line, a line feed itself does not. -/
def readString (quote : Char) : List Char → Cursor → StringEnd × List Char × List Char × Cursor
  | [], cursor => (.unclosed, [], [], cursor)
  | c :: rest, cursor =>
    if c = quote then (.closed, [], rest, cursor.skip 1)
    else if c = '\\' then
      match rest with
      | [] => (.dangling, [], [], cursor.skip 1)
      | d :: rest =>
        if d = 'n' then
          let (ending, contents, rest, cursor) := readString quote rest cursor.nextLine
          (ending, '\n' :: contents, rest, cursor)
        else
          let (ending, contents, rest, cursor) := readString quote rest (cursor.skip 2)
          (ending, d :: contents, rest, cursor)
    else
      let (ending, contents, rest, cursor) := readString quote rest (cursor.skip 1)
      (ending, c :: contents, rest, cursor)

/-- A string. Its position is the column of its opening quote. -/
def scanString (source : String) (quote : Char) (rest : List Char) (cursor : Cursor) : Step :=
  let start := cursor.column
  let (ending, contents, rest, cursor) := readString quote rest cursor
  let found := match ending with
    | .closed => .ok (some ⟨some .string, String.ofList contents, cursor.line, start⟩)
    | .unclosed => .error (faultAt source cursor.line start .unclosedString)
    | .dangling => .error (.notConcatenable "str" "NoneType")
  ⟨found, rest, cursor⟩

/-- Skips a comment up to and with its closing `*/`, given the character before. -/
def skipBlock : Char → List Char → Cursor → Option (List Char) × Cursor
  | _, [], cursor => (none, cursor)
  | previous, c :: rest, cursor =>
    if previous = '*' && c = '/' then (some rest, cursor)
    else if c = '\r' || c = '\n' then skipBlock c rest cursor.nextLine
    else skipBlock c rest (cursor.skip 1)

/-- A character that ends a comment of one line. -/
def endsLine (c : Char) : Bool := c = '\r' || c = '\n'

/-- A comment, or else an operator that begins with a slash. -/
def scanSlash (source : String) (rest : List Char) (cursor : Cursor) : Step :=
  match rest with
  | '/' :: _ =>
    let comment := rest.takeWhile fun c => !endsLine c
    ⟨.ok none, rest.dropWhile fun c => !endsLine c, cursor.skip comment.length⟩
  | '*' :: body =>
    match skipBlock '*' body cursor with
    | (some rest, cursor) => ⟨.ok none, rest, cursor⟩
    | (none, cursor) => ⟨.error .unclosedComment, [], cursor⟩
  | _ => scanOperator source '/' rest cursor

/-- The kind of a token of one fixed character. -/
def punctuation? : Char → Option TokenKind
  | '(' => some .lparen
  | ')' => some .rparen
  | '[' => some .lbracket
  | ']' => some .rbracket
  | '\x7b' => some .lbrace
  | '\x7d' => some .rbrace
  | ';' => some .semicolon
  | ',' => some .comma
  | _ => none

/-- A backslash and the character after it are skipped. -/
def skipEscaped (rest : List Char) (cursor : Cursor) : Step :=
  ⟨.ok none, rest.drop 1, if rest.head? = some '\n' then cursor.nextLine else cursor⟩

/-- Whether a point begins a numeral. At the end of the text that cannot be said. -/
def pointBeginsNumber (rest : List Char) : Except Fault Bool :=
  match rest with
  | c :: _ => .ok (Text.isDigit c)
  | [] => .error (.noAttribute "NoneType" "isdigit")

/-- A numeral, an operator or an invalid character. -/
def scanOther (source : String) (c : Char) (rest : List Char) (cursor : Cursor) : Step :=
  match if Text.isDigit c then .ok true else if c = '.' then pointBeginsNumber rest else .ok false with
  | .error fault => ⟨.error fault, rest, cursor⟩
  | .ok true => scanNumber source c rest cursor
  | .ok false =>
    if isOperatorChar c then scanOperator source c rest cursor
    else ⟨.error (faultAt source cursor.line cursor.column .invalidCharacter), rest, cursor⟩

/-- One step of the scanner, from a character that it has taken. -/
def step (source : String) (c : Char) (rest : List Char) (cursor : Cursor) : Step :=
  if c = '\\' then skipEscaped rest cursor
  else if Text.isBlank c then
    if c = '\n' then
      ⟨.ok (some (atCursor .newline "newline" cursor.nextLine)), rest, cursor.nextLine⟩
    else ⟨.ok none, rest, cursor⟩
  else if c = '/' then scanSlash source rest cursor
  else
    match punctuation? c with
    | some kind => ⟨.ok (some (atCursor kind (String.singleton c) cursor)), rest, cursor⟩
    | none =>
      if c = '\'' || c = '"' then scanString source c rest cursor
      else if Text.isLetter c || c = '_' || c = '$' then scanName c rest cursor
      else scanOther source c rest cursor

theorem dropWhile_length_le (p : Char → Bool) (chars : List Char) :
    (chars.dropWhile p).length ≤ chars.length :=
  (List.dropWhile_sublist p).length_le

theorem readString_length_le (quote : Char) (chars : List Char) (cursor : Cursor) :
    (readString quote chars cursor).2.2.1.length ≤ chars.length := by
  fun_induction readString quote chars cursor <;> simp_all <;> omega

theorem skipBlock_length_le (previous : Char) (chars : List Char) (cursor : Cursor)
    (rest : List Char) (closed : (skipBlock previous chars cursor).1 = some rest) :
    rest.length ≤ chars.length := by
  fun_induction skipBlock previous chars cursor <;> simp_all
  all_goals omega

theorem scanSlash_length_le (source : String) (rest : List Char) (cursor : Cursor) :
    (scanSlash source rest cursor).rest.length ≤ rest.length := by
  unfold scanSlash
  split
  · exact dropWhile_length_le _ _
  · rename_i body
    split
    · rename_i left _ skipped
      have := skipBlock_length_le '*' body cursor left (by rw [skipped])
      simp only [List.length_cons]
      omega
    · simp
  · exact dropWhile_length_le _ _

theorem scanOther_length_le (source : String) (c : Char) (rest : List Char) (cursor : Cursor) :
    (scanOther source c rest cursor).rest.length ≤ rest.length := by
  unfold scanOther
  split
  · exact Nat.le_refl _
  · exact dropWhile_length_le _ _
  · split
    · exact dropWhile_length_le _ _
    · exact Nat.le_refl _

/-- A step never puts characters back. -/
theorem step_length_le (source : String) (c : Char) (rest : List Char) (cursor : Cursor) :
    (step source c rest cursor).rest.length ≤ rest.length := by
  unfold step
  split
  · simp [skipEscaped]
  split
  · split <;> exact Nat.le_refl _
  split
  · exact scanSlash_length_le source rest cursor
  split
  · exact Nat.le_refl _
  split
  · exact readString_length_le c rest cursor
  split
  · exact dropWhile_length_le _ _
  · exact scanOther_length_le source c rest cursor

/-- Scans the rest of a source. -/
def scanFrom (source : String) (chars : List Char) (cursor : Cursor) :
    Except Fault (List Token) × Cursor :=
  match chars with
  | [] => (.ok [], cursor)
  | c :: rest =>
    let s := step source c rest cursor.advance
    match s.found with
    | .error fault => (.error fault, s.cursor)
    | .ok token? =>
      let (tokens, cursor) := scanFrom source s.rest s.cursor
      (tokens.map (token?.toList ++ ·), cursor)
termination_by chars.length
decreasing_by
  have := step_length_le source c rest cursor.advance
  simp only [List.length_cons]
  omega

/-- Scans a text from a cursor: its tokens or a fault, and the cursor after it. -/
def scan (text : String) (cursor : Cursor) : Except Fault (List Token) × Cursor :=
  scanFrom text text.toList cursor

/-- The tokens of a text by itself. -/
def ofText (text : String) : Except Fault (List Token) := (scan text .start).1

end Token

end Scriptlet
