import SqlPipeline.Template.Expr
import SqlPipeline.Template.Fault
import SqlPipeline.Template.Token

/-!
# Reading a template

A template is read into statements from its tokens. From weakest to strongest, operators bind as:
the inline condition, `or`, `and`, `not`, comparisons and membership, `+` and `-`, `~`, the other
arithmetic operators, the unary minus, and last filters and tests. A unary minus takes a bare
primary expression, so a call or member access after it applies to the negated value.

Expressions in brackets, primary expressions and statements nest no deeper than `nestingLimit`
together. A fault of reading is reported on the line of the last token that was taken.

The statements that are read are `for`, `if`, `set` and `macro`. Others are left out here: `with`,
`call`, `filter`, `do`, `autoescape` and those that use further templates are refused as unknown.
-/

namespace SqlPipeline.Template

/-- The tokens still to be read, the line of the last one taken, and how deep the present part is
nested. -/
structure Reading where
  tokens : List LocatedToken
  lastLine : Nat
  depth : Nat

/-- How deep the parts of a template may nest. -/
def nestingLimit : Nat := 150

/-- A reader of one part of a template. -/
abbrev Parser := StateT Reading (Except Fault)

namespace Parser

/-- Stop with a fault at the last token that was taken. -/
def malformed {α : Type} (detail : String) : Parser α := do
  throw ⟨.malformed detail, (← get).lastLine⟩

/-- The next token, which stays. -/
def peek : Parser (Option Token) := do
  match (← get).tokens with
  | [] => pure none
  | (.fault detail line, _) :: _ => throw ⟨.malformed detail, line.getD (← get).lastLine⟩
  | (token, _) :: _ => pure (some token)

/-- The line of the next token, or of the last one at the end. -/
def peekLine : Parser Nat := do
  let state ← get
  match state.tokens with
  | [] => pure state.lastLine
  | (_, line) :: _ => pure line

/-- Take the next token, if there is one. -/
def take? : Parser (Option Token) := do
  let token ← peek
  match (← get).tokens with
  | [] => pure none
  | (_, line) :: tokens => do
    modify fun reading => { reading with tokens, lastLine := line }
    pure token

/-- Take the next token. -/
def take (expected : String) : Parser Token := do
  match ← take? with
  | some token => pure token
  | none => malformed ("unexpected end of input, expected " ++ expected)

/-- Take the next token if it is the given one. -/
def skip (token : Token) : Parser Bool := do
  if (← peek) = some token then
    let _ ← take?
    pure true
  else pure false

/-- Take the next token, which has to be the given one. -/
def expect (token : Token) (expected : String) : Parser Unit := do
  if (← take expected) ≠ token then malformed ("unexpected token, expected " ++ expected)

/-- Take a name. -/
def ident : Parser String := do
  match ← take "identifier" with
  | .ident name => pure name
  | _ => malformed "unexpected token, expected identifier"

/-- Read a part that is nested in the present one. -/
def nested {α : Type} (part : Parser α) : Parser α := do
  let depth := (← get).depth
  if nestingLimit ≤ depth then malformed "template exceeds maximum recursion limits"
  modify fun reading => { reading with depth := depth + 1 }
  let result ← part
  modify fun reading => { reading with depth }
  pure result

end Parser

/-- A keyword as a token. -/
def keyword (name : String) : Token := .ident name

/-- Names that cannot be assigned. -/
def reservedNames : List String :=
  ["true", "True", "false", "False", "none", "None", "loop", "self"]

/-- The constant that a name denotes. -/
def constantNamed? : String → Option Value
  | "true" => some (.bool true)
  | "True" => some (.bool true)
  | "false" => some (.bool false)
  | "False" => some (.bool false)
  | "none" => some .null
  | "None" => some .null
  | _ => none

/-- The operators of each level that compute a value. -/
def operatorAt : Nat → Token → Option BinaryOp
  | 4, .symbol "+" => some .add
  | 4, .symbol "-" => some .sub
  | 5, .symbol "~" => some .concat
  | 6, .symbol "*" => some .mul
  | 6, .symbol "/" => some .div
  | 6, .symbol "//" => some .floorDiv
  | 6, .symbol "%" => some .rem
  | _, _ => none

/-- The comparison that a token denotes. -/
def comparisonOf? : Token → Option Comparison
  | .symbol "==" => some .equal
  | .symbol "!=" => some .notEqual
  | .symbol "<" => some .less
  | .symbol "<=" => some .lessEqual
  | .symbol ">" => some .greater
  | .symbol ">=" => some .greaterEqual
  | .ident "in" => some .contained
  | _ => none

/-- Whether a token after the name of a test begins an argument without parentheses. -/
def beginsOperand : Token → Bool
  | .ident name => !(["and", "or", "else", "is"].contains name)
  | .text _ => true
  | .int _ => true
  | .real _ => true
  | .symbol s => ["+", "-", "[", "\x7b"].contains s
  | _ => false

open SqlPipeline.Template.Parser

/-- A name that is assigned, and its line. -/
def assignedName : Parser (String × Nat) := do
  let name ← ident
  if reservedNames.contains name then
    malformed ("cannot assign to reserved variable name " ++ name)
  else pure (name, (← get).lastLine)

/-- A name with further names after points: the name of a filter or test. -/
def dottedName : Nat → String → Parser String
  | 0, _ => malformed "template exceeds maximum recursion limits"
  | fuel + 1, name => do
    if ← skip (.symbol ".") then dottedName fuel (name ++ "." ++ (← ident)) else pure name

/-- The members of an assigned name after points. -/
def assignedMember : Nat → Target → Parser Target
  | 0, _ => malformed "template exceeds maximum recursion limits"
  | fuel + 1, owner => do
    if ← skip (.symbol ".") then assignedMember fuel (.member owner (← ident)) else pure owner

mutual

/-- What an assignment or a loop binds; an assignment may also name members. -/
def target (members : Bool) : Nat → Parser Target
  | 0 => malformed "template exceeds maximum recursion limits"
  | fuel + 1 => do
    let line ← peekLine
    match ← targetParts members fuel with
    | ([part], false) => pure part
    | (parts, _) => pure (.list parts line)

/-- The parts of what is bound, and whether there is a comma. There may be none, and a comma may
stand after the last one. -/
def targetParts (members : Bool) : Nat → Parser (List Target × Bool)
  | 0 => malformed "template exceeds maximum recursion limits"
  | fuel + 1 => do
    match ← peek with
    | some (.symbol ")") => pure ([], false)
    | some .variableEnd => pure ([], false)
    | some .blockEnd => pure ([], false)
    | some (.ident "in") => pure ([], false)
    | _ => do
      let part ← if ← skip (.symbol "(") then do
          let inside ← target members fuel
          expect (.symbol ")") ")"
          pure inside
        else do
          let (name, line) ← assignedName
          let owner := Target.name name line
          if members then assignedMember fuel owner else pure owner
      if ← skip (.symbol ",") then
        let (parts, _) ← targetParts members fuel
        pure (part :: parts, true)
      else pure ([part], false)

end

/-- The texts that follow a text without anything between them. -/
def adjacentTexts : Nat → String → Parser String
  | 0, _ => malformed "template exceeds maximum recursion limits"
  | fuel + 1, value => do
    match ← peek with
    | some (.text next) => do
      let _ ← take?
      adjacentTexts fuel (value ++ next)
    | _ => pure value

mutual

/-- An expression. -/
def expression : Nat → Parser Expr
  | 0 => malformed "template exceeds maximum recursion limits"
  | fuel + 1 => nested (choice fuel)

/-- An operand with the inline conditions after it. -/
def choice : Nat → Parser Expr
  | 0 => malformed "template exceeds maximum recursion limits"
  | fuel + 1 => do conditions fuel (← level fuel 0)

/-- The inline conditions after an expression. -/
def conditions : Nat → Expr → Parser Expr
  | 0, _ => malformed "template exceeds maximum recursion limits"
  | fuel + 1, value => do
    if ← skip (keyword "if") then
      let test ← level fuel 0
      if ← skip (keyword "else") then
        let otherwise ← choice fuel
        conditions fuel (.choice test value (some otherwise))
      else conditions fuel (.choice test value none)
    else pure value

/-- An expression whose operators bind at least as strongly as those of a level: 0 for `or`, 1 for
`and`, 2 for `not`, 3 for comparisons, 4 to 6 for operators that compute a value, and beyond that
unary ones. -/
def level : Nat → Nat → Parser Expr
  | 0, _ => malformed "template exceeds maximum recursion limits"
  | fuel + 1, 2 => do
    let line ← peekLine
    if ← skip (keyword "not") then pure (.ofNot (← level fuel 2) line) else level fuel 3
  | fuel + 1, 3 => do
    let line := (← get).lastLine
    let first ← level fuel 4
    match ← comparisons fuel with
    | [] => pure first
    | others => pure (.ofChain first others line)
  | fuel + 1, strength =>
    if strength ≤ 6 then do
      let line ← peekLine
      let first ← level fuel (strength + 1)
      operators fuel strength line first
    else unary fuel

/-- The comparisons after a first operand. -/
def comparisons : Nat → Parser (List (Comparison × Expr))
  | 0 => malformed "template exceeds maximum recursion limits"
  | fuel + 1 => do
    match ← peek with
    | some (.ident "not") => do
      let _ ← take?
      expect (keyword "in") "in"
      let operand ← level fuel 4
      pure ((.notContained, operand) :: (← comparisons fuel))
    | some token =>
      match comparisonOf? token with
      | some op => do
        let _ ← take?
        let operand ← level fuel 4
        pure ((op, operand) :: (← comparisons fuel))
      | none => pure []
    | none => pure []

/-- The operators of a level after a first operand. -/
def operators : Nat → Nat → Nat → Expr → Parser Expr
  | 0, _, _, _ => malformed "template exceeds maximum recursion limits"
  | fuel + 1, strength, line, left => do
    match strength, ← peek with
    | 0, some (.ident "or") => do
      let _ ← take?
      operators fuel strength line (.ofEither left (← level fuel 1) line)
    | 1, some (.ident "and") => do
      let _ ← take?
      operators fuel strength line (.ofBoth left (← level fuel 2) line)
    | _, some token =>
      match operatorAt strength token with
      | some op => do
        let _ ← take?
        let right ← level fuel (strength + 1)
        operators fuel strength line (.ofBinary op left right line)
      | none => pure left
    | _, none => pure left

/-- A primary expression with its signs, members, calls, filters and tests. -/
def unary : Nat → Parser Expr
  | 0 => malformed "template exceeds maximum recursion limits"
  | fuel + 1 => do filters fuel (← operand fuel)

/-- A primary expression with its signs, members and calls. -/
def operand : Nat → Parser Expr
  | 0 => malformed "template exceeds maximum recursion limits"
  | fuel + 1 => do
    let line ← peekLine
    members fuel line (← signed fuel)

/-- A primary expression with its signs. -/
def signed : Nat → Parser Expr
  | 0 => malformed "template exceeds maximum recursion limits"
  | fuel + 1 => do
    let line ← peekLine
    if ← skip (.symbol "-") then pure (.ofNeg (← signed fuel) line) else nested (primary fuel)

/-- The member accesses and calls after an expression that begins on a line. -/
def members : Nat → Nat → Expr → Parser Expr
  | 0, _, _ => malformed "template exceeds maximum recursion limits"
  | fuel + 1, line, value => do
    let nextLine ← peekLine
    match ← peek with
    | some (.symbol ".") => do
      let _ ← take?
      match ← take "identifier or integer" with
      | .ident name => members fuel nextLine (.member value name)
      | .int index => do
        let key := Expr.const (.natural index) true (← get).lastLine
        members fuel nextLine (.item value key)
      | _ => malformed "unexpected token, expected identifier or integer"
    | some (.symbol "[") => do
      let _ ← take?
      let key ← expression fuel
      expect (.symbol "]") "]"
      members fuel nextLine (.item value key)
    | some (.symbol "(") => do
      let args ← arguments fuel
      members fuel nextLine (.call value args line)
    | _ => pure value

/-- The filters and tests after an expression. The argument of a test may stand without
parentheses. -/
def filters : Nat → Expr → Parser Expr
  | 0, _ => malformed "template exceeds maximum recursion limits"
  | fuel + 1, value => do
    match ← peek with
    | some (.symbol "|") => do
      let _ ← take?
      let name ← dottedName fuel (← ident)
      let args ← optionalArguments fuel
      filters fuel (.filter name value args)
    | some (.ident "is") => do
      let _ ← take?
      let negated ← skip (keyword "not")
      let name ← dottedName fuel (← ident)
      let line := (← get).lastLine
      let args ← match ← peek with
        | some (.symbol "(") => arguments fuel
        | some token => if beginsOperand token then do pure [(none, ← operand fuel)] else pure []
        | none => pure []
      let test := Expr.test name value args
      filters fuel (if negated then .ofNot test line else test)
    | _ => pure value

/-- Arguments in parentheses, or none. -/
def optionalArguments : Nat → Parser (List (Option String × Expr))
  | 0 => malformed "template exceeds maximum recursion limits"
  | fuel + 1 => do
    match ← peek with
    | some (.symbol "(") => arguments fuel
    | _ => pure []

/-- Arguments in parentheses. -/
def arguments : Nat → Parser (List (Option String × Expr))
  | 0 => malformed "template exceeds maximum recursion limits"
  | fuel + 1 => do
    expect (.symbol "(") "("
    if ← skip (.symbol ")") then pure [] else argument fuel false

/-- An argument and those after it. Positional arguments come before those with a name. -/
def argument : Nat → Bool → Parser (List (Option String × Expr))
  | 0, _ => malformed "template exceeds maximum recursion limits"
  | fuel + 1, named => do
    let value ← expression fuel
    let (named, arg) ← match value with
      | .name name _ => do
        if ← skip (.symbol "=") then pure (true, (some name, ← expression fuel))
        else if named then malformed "non-keyword arg after keyword arg"
        else pure (false, (none, value))
      | _ =>
        if named then malformed "non-keyword arg after keyword arg"
        else pure (false, (none, value))
    if ← skip (.symbol ")") then pure [arg]
    else
      expect (.symbol ",") ","
      if ← skip (.symbol ")") then pure [arg]
      else pure (arg :: (← argument fuel named))

/-- A name, a constant, a list, a map or an expression in parentheses. -/
def primary : Nat → Parser Expr
  | 0 => malformed "template exceeds maximum recursion limits"
  | fuel + 1 => do
    let line ← peekLine
    match ← take "expression" with
    | .ident name =>
      match constantNamed? name with
      | some value => pure (.const value true line)
      | none => pure (.name name line)
    | .text value => do pure (.const (.string (← adjacentTexts fuel value)) true line)
    | .int value => pure (.const (.natural value) true line)
    | .real value => pure (.const (.real value) true line)
    | .symbol "(" => do
      if ← skip (.symbol ")") then pure (.ofItems [] line)
      else
        let first ← expression fuel
        match ← peek with
        | some (.symbol ",") => do
          let _ ← take?
          pure (.ofItems (first :: (← items fuel ")")) line)
        | _ => do
          expect (.symbol ")") ")"
          pure first
    | .symbol "[" => do pure (.ofItems (← items fuel "]") line)
    | .symbol "\x7b" => do pure (.ofEntries (← entries fuel) line)
    | _ => malformed "unexpected token"

/-- The items of a list up to its closing bracket. -/
def items : Nat → String → Parser (List Expr)
  | 0, _ => malformed "template exceeds maximum recursion limits"
  | fuel + 1, closing => do
    if ← skip (.symbol closing) then pure []
    else
      let item ← expression fuel
      if ← skip (.symbol closing) then pure [item]
      else
        expect (.symbol ",") ","
        pure (item :: (← items fuel closing))

/-- The entries of a map up to its closing brace. -/
def entries : Nat → Parser (List (Expr × Expr))
  | 0 => malformed "template exceeds maximum recursion limits"
  | fuel + 1 => do
    if ← skip (.symbol "\x7d") then pure []
    else
      let key ← expression fuel
      expect (.symbol ":") ":"
      let value ← expression fuel
      if ← skip (.symbol "\x7d") then pure [(key, value)]
      else
        expect (.symbol ",") ","
        pure ((key, value) :: (← entries fuel))

end

/-- The further values after a first one and a comma, up to the end of the tag. -/
def furtherValues (depth : Nat) : Nat → Parser (List Expr)
  | 0 => malformed "template exceeds maximum recursion limits"
  | fuel + 1 => do
    if (← peek) = some .blockEnd then pure []
    else
      let value ← expression depth
      if ← skip (.symbol ",") then pure (value :: (← furtherValues depth fuel)) else pure [value]

/-- What is assigned: a value, or several with commas, which are a list. -/
def assignedValue (depth : Nat) : Parser Expr := do
  let line ← peekLine
  let first ← expression depth
  if ← skip (.symbol ",") then pure (.ofItems (first :: (← furtherValues depth depth)) line)
  else pure first

/-- The filters after the name of a captured section. -/
def captureFilters (depth : Nat) : Nat → Parser (List (String × List (Option String × Expr) × Nat))
  | 0 => malformed "template exceeds maximum recursion limits"
  | fuel + 1 => do
    if ← skip (.symbol "|") then
      let line ← peekLine
      let name ← dottedName depth (← ident)
      let args ← optionalArguments depth
      pure ((name, args, line) :: (← captureFilters depth fuel))
    else pure []

/-- The parameters of a function up to the closing parenthesis, and the defaults of the last of
them. -/
def parameters (depth : Nat) : Nat → Bool → Bool → Parser (List String × List Expr)
  | 0, _, _ => malformed "template exceeds maximum recursion limits"
  | fuel + 1, first, defaulted => do
    if ← skip (.symbol ")") then pure ([], [])
    else
      if !first then expect (.symbol ",") ","
      if ← skip (.symbol ")") then pure ([], [])
      else
        let (name, _) ← assignedName
        if ← skip (.symbol "=") then
          let value ← expression depth
          let (names, values) ← parameters depth fuel false true
          pure (name :: names, value :: values)
        else if defaulted then malformed "unexpected token, expected ="
        else
          let (names, values) ← parameters depth fuel false false
          pure (name :: names, values)

mutual

/-- Statements up to the end of the template or to a tag that begins with one of the given names,
which stays. -/
def statements (depth : Nat) : Nat → List String → Parser (List Stmt)
  | 0, _ => malformed "template exceeds maximum recursion limits"
  | fuel + 1, ends => do
    match ← take? with
    | none => pure []
    | some (.data text) => do
      pure (.data text :: (← statements depth fuel ends))
    | some .variableStart => do
      let expr ← expression depth
      expect .variableEnd "end of variable block"
      pure (.emit expr :: (← statements depth fuel ends))
    | some .blockStart => do
      let ending ← match ← peek with
        | some (.ident name) => pure (ends.contains name)
        | some _ => pure false
        | none => malformed "unexpected end of input, expected keyword"
      if ending then pure []
      else
        let stmt ← nested (statement depth fuel)
        expect .blockEnd "end of block"
        pure (stmt :: (← statements depth fuel ends))
    | some _ => malformed "unexpected token"

/-- A statement, from the name of its tag to the name of its last tag. -/
def statement (depth : Nat) : Nat → Parser Stmt
  | 0 => malformed "template exceeds maximum recursion limits"
  | fuel + 1 => do
    match ← take "block keyword" with
    | .ident "for" => do
      let bound ← target false depth
      expect (keyword "in") "in"
      let range ← level depth 0
      let filter ← if ← skip (keyword "if") then some <$> expression depth else pure none
      expect .blockEnd "end of block"
      let body ← statements depth fuel ["endfor", "else"]
      let otherwise ← if ← skip (keyword "else") then do
          expect .blockEnd "end of block"
          statements depth fuel ["endfor"]
        else pure []
      let _ ← take?
      pure (.loop bound range filter body otherwise)
    | .ident "if" => conditional depth fuel
    | .ident "set" => do
      let bound ← target true depth
      let next ← peek
      if next == some .blockEnd || next == some (.symbol "|") then
        let filters ← captureFilters depth depth
        expect .blockEnd "end of block"
        let body ← statements depth fuel ["endset"]
        let _ ← take?
        pure (.capture bound filters body)
      else
        expect (.symbol "=") "assignment operator"
        pure (.assign bound (← assignedValue depth))
    | .ident "macro" => do
      let name ← ident
      expect (.symbol "(") "("
      let (params, defaults) ← parameters depth depth true false
      expect .blockEnd "end of block"
      let body ← statements depth fuel ["endmacro"]
      let _ ← take?
      pure (.define name params defaults body)
    | .ident name => malformed ("unknown statement " ++ name)
    | _ => malformed "unknown token, expected statement"

/-- A condition, from its test to the name of its last tag. -/
def conditional (depth : Nat) : Nat → Parser Stmt
  | 0 => malformed "template exceeds maximum recursion limits"
  | fuel + 1 => do
    let test ← level depth 0
    expect .blockEnd "end of block"
    let whenTrue ← statements depth fuel ["endif", "else", "elif"]
    let whenFalse ← match ← take? with
      | some (.ident "else") => do
        expect .blockEnd "end of block"
        let body ← statements depth fuel ["endif"]
        let _ ← take?
        pure body
      | some (.ident "elif") => do pure [← conditional depth fuel]
      | _ => pure []
    pure (.conditional test whenTrue whenFalse)

end

/-- The statements of a template. -/
def parse (source : String) : Except Fault (List Stmt) :=
  let tokens := Template.tokens source
  let fuel := 20 * tokens.length + 20
  (statements fuel fuel [] |>.run ⟨tokens, 1, 0⟩).map (·.1)

end SqlPipeline.Template
