import SqlPipeline.Proofs.Template.Token
import SqlPipeline.Template.Parser

/-!
# Reading a page

A call with quoted arguments is read as the call that it spells: between the tokens of its parts
there is no operator that any level of an expression could take.  So a page is read as plain text,
its calls, in order, and its assignments.
-/

namespace SqlPipeline

open Template

/-- What an argument is as an expression: its keyword and its value. -/
def Argument.reading (argument : Argument) : Option String × Option Value :=
  (argument.1.map Keyword.text, some (.string argument.2.literal.value))

/-- The expression is the call, with the values of its arguments written down. -/
def PlainCall.IsReadAs (call : PlainCall) (expr : Expr) : Prop :=
  ∃ args start line, expr = .call (.name call.function start) args line ∧
    args.map (fun arg => (arg.1, arg.2.literal?)) = call.arguments.map Argument.reading

/-- The statements are plain text, expressions that are the calls, in order, and assignments of
texts to names that calls do not look up. -/
inductive IsReadAs : List PlainCall → List Stmt → Prop
  | nil : IsReadAs [] []
  | data {calls : List PlainCall} {body : List Stmt} (text : String)
      (rest : IsReadAs calls body) : IsReadAs calls (.data text :: body)
  | call {call : PlainCall} {calls : List PlainCall} {body : List Stmt} {expr : Expr}
      (reads : call.IsReadAs expr) (rest : IsReadAs calls body) :
      IsReadAs (call :: calls) (.emit expr :: body)
  | assignment {calls : List PlainCall} {body : List Stmt} {name : String} (text : String)
      (place line : Nat) (other : name ∉ keptNames) (rest : IsReadAs calls body) :
      IsReadAs calls (.assign (.name name place) (.const (.string text) true line) :: body)

namespace Template

variable {α β : Type} {token : Token} {line last depth fuel : Nat} {rest : List LocatedToken}
  {value : Expr}

/-- A computation goes on from the value and the state of its first part. -/
theorem bind_of_ok {σ : Type} {p : StateT σ (Except Fault) α} {f : α → StateT σ (Except Fault) β}
    {state next : σ} {value : α} (run : p state = .ok (value, next)) :
    (p >>= f) state = f value next := by
  change (p state >>= fun pair => f pair.1 pair.2) = _
  rw [run]
  rfl

theorem bind_of_error {σ : Type} {p : StateT σ (Except Fault) α}
    {f : α → StateT σ (Except Fault) β} {state : σ} {fault : Fault}
    (run : p state = .error fault) : (p >>= f) state = .error fault := by
  change (p state >>= fun pair => f pair.1 pair.2) = _
  rw [run]
  rfl

/-! ## Single tokens -/

namespace Parser

/-- The token is one that can be taken. -/
def Sound (token : Token) : Prop := ∀ detail line, token ≠ .fault detail line

theorem sound_ident (name : String) : Sound (.ident name) := nofun

theorem sound_text (text : String) : Sound (.text text) := nofun

theorem sound_symbol (symbol : String) : Sound (.symbol symbol) := nofun

theorem peek_cons (sound : Sound token) :
    peek ⟨(token, line) :: rest, last, depth⟩ =
      .ok (some token, ⟨(token, line) :: rest, last, depth⟩) := by
  cases token with
  | fault => exact absurd rfl (sound _ _)
  | _ => rfl

theorem peekLine_cons :
    peekLine ⟨(token, line) :: rest, last, depth⟩ =
      .ok (line, ⟨(token, line) :: rest, last, depth⟩) := rfl

theorem take?_cons (sound : Sound token) :
    take? ⟨(token, line) :: rest, last, depth⟩ = .ok (some token, ⟨rest, line, depth⟩) := by
  rw [take?, bind_of_ok (peek_cons sound)]
  rfl

theorem take_cons (sound : Sound token) (expected : String) :
    take expected ⟨(token, line) :: rest, last, depth⟩ = .ok (token, ⟨rest, line, depth⟩) := by
  rw [take, bind_of_ok (take?_cons sound)]
  rfl

theorem skip_self (sound : Sound token) :
    skip token ⟨(token, line) :: rest, last, depth⟩ = .ok (true, ⟨rest, line, depth⟩) := by
  rw [skip, bind_of_ok (peek_cons sound), if_pos rfl, bind_of_ok (take?_cons sound)]
  rfl

theorem skip_of_ne {other : Token} (sound : Sound token) (different : token ≠ other) :
    skip other ⟨(token, line) :: rest, last, depth⟩ =
      .ok (false, ⟨(token, line) :: rest, last, depth⟩) := by
  rw [skip, bind_of_ok (peek_cons sound), if_neg (by simpa using different)]
  rfl

theorem expect_self (sound : Sound token) (expected : String) :
    expect token expected ⟨(token, line) :: rest, last, depth⟩ =
      .ok ((), ⟨rest, line, depth⟩) := by
  rw [expect, bind_of_ok (take_cons sound expected), if_neg (by simp)]
  rfl

theorem nested_of_ok {part : Parser α} {tokens : List LocatedToken} {value : α} {next : Reading}
    (shallow : depth < nestingLimit)
    (run : part ⟨tokens, last, depth + 1⟩ = .ok (value, next)) :
    nested part ⟨tokens, last, depth⟩ = .ok (value, { next with depth }) := by
  have present : (get : Parser Reading) ⟨tokens, last, depth⟩ =
      .ok (⟨tokens, last, depth⟩, ⟨tokens, last, depth⟩) := rfl
  have deeper : (modify fun reading : Reading => { reading with depth := depth + 1 } : Parser Unit)
      ⟨tokens, last, depth⟩ = .ok ((), ⟨tokens, last, depth + 1⟩) := rfl
  rw [nested, bind_of_ok present]
  dsimp only
  rw [if_neg (by omega), bind_of_ok deeper, bind_of_ok run]
  rfl

end Parser

open SqlPipeline.Template.Parser

/-! ## Expressions without operators -/

/-- A token that ends an expression. -/
inductive Ends : Token → Prop
  | parenthesis : Ends (.symbol ")")
  | comma : Ends (.symbol ",")
  | equals : Ends (.symbol "=")
  | tag : Ends .variableEnd
  | statement : Ends .blockEnd

theorem Ends.sound (ends : Ends token) : Sound token := by
  cases ends <;> exact nofun

theorem members_of_ends (ends : Ends token) (start : Nat) :
    members (fuel + 1) start value ⟨(token, line) :: rest, last, depth⟩ =
      .ok (value, ⟨(token, line) :: rest, last, depth⟩) := by
  rw [members, bind_of_ok peekLine_cons, bind_of_ok (peek_cons ends.sound)]
  cases ends <;> rfl

theorem filters_of_ends (ends : Ends token) :
    filters (fuel + 1) value ⟨(token, line) :: rest, last, depth⟩ =
      .ok (value, ⟨(token, line) :: rest, last, depth⟩) := by
  rw [filters, bind_of_ok (peek_cons ends.sound)]
  cases ends <;> rfl

theorem comparisons_of_ends (ends : Ends token) :
    comparisons (fuel + 1) ⟨(token, line) :: rest, last, depth⟩ =
      .ok ([], ⟨(token, line) :: rest, last, depth⟩) := by
  rw [comparisons, bind_of_ok (peek_cons ends.sound)]
  cases ends <;> rfl

theorem operators_of_ends (ends : Ends token) {strength : Nat}
    (listed : strength ∈ [0, 1, 4, 5, 6]) (start : Nat) :
    operators (fuel + 1) strength start value ⟨(token, line) :: rest, last, depth⟩ =
      .ok (value, ⟨(token, line) :: rest, last, depth⟩) := by
  rw [operators, bind_of_ok (peek_cons ends.sound)]
  simp only [List.mem_cons, List.not_mem_nil, or_false] at listed
  rcases listed with rfl | rfl | rfl | rfl | rfl <;> cases ends <;> rfl

theorem conditions_of_ends (ends : Ends token) :
    conditions (fuel + 1) value ⟨(token, line) :: rest, last, depth⟩ =
      .ok (value, ⟨(token, line) :: rest, last, depth⟩) := by
  have different : token ≠ keyword "if" := by cases ends <;> exact nofun
  rw [conditions, bind_of_ok (skip_of_ne ends.sound different)]
  rfl

section

variable {start : LocatedToken} {tokens : List LocatedToken} {last' : Nat}

/-- Before the end of an expression a level with operators reads what the next stronger one does. -/
theorem level_of_stronger (ends : Ends token) {strength : Nat}
    (listed : strength ∈ [0, 1, 4, 5, 6])
    (run : level (fuel + 1) (strength + 1) ⟨start :: tokens, last, depth⟩ =
      .ok (value, ⟨(token, line) :: rest, last', depth⟩)) :
    level (fuel + 2) strength ⟨start :: tokens, last, depth⟩ =
      .ok (value, ⟨(token, line) :: rest, last', depth⟩) := by
  have binary : strength ≠ 2 ∧ strength ≠ 3 ∧ strength ≤ 6 := by
    simp only [List.mem_cons, List.not_mem_nil, or_false] at listed
    omega
  rw [level, if_pos binary.2.2, bind_of_ok peekLine_cons, bind_of_ok run,
    operators_of_ends ends listed]
  · exact binary.1
  · exact binary.2.1

/-- An operand that ends an expression is the whole expression. -/
theorem expression_of_operand (shallow : depth < nestingLimit) (ends : Ends token)
    (sound : Sound start.1) (positive : start.1 ≠ keyword "not")
    (run : operand (fuel + 1) ⟨start :: tokens, last, depth + 1⟩ =
      .ok (value, ⟨(token, line) :: rest, last', depth + 1⟩)) :
    expression (fuel + 12) ⟨start :: tokens, last, depth⟩ =
      .ok (value, ⟨(token, line) :: rest, last', depth⟩) := by
  have bare : unary (fuel + 2) ⟨start :: tokens, last, depth + 1⟩ =
      .ok (value, ⟨(token, line) :: rest, last', depth + 1⟩) := by
    rw [unary, bind_of_ok run, filters_of_ends ends]
  have strongest : level (fuel + 3) 7 ⟨start :: tokens, last, depth + 1⟩ =
      .ok (value, ⟨(token, line) :: rest, last', depth + 1⟩) := by
    rw [level, if_neg (by decide), bare]
    · decide
    · decide
  have arithmetic : level (fuel + 6) 4 ⟨start :: tokens, last, depth + 1⟩ =
      .ok (value, ⟨(token, line) :: rest, last', depth + 1⟩) :=
    level_of_stronger ends (by decide) (level_of_stronger ends (by decide)
      (level_of_stronger ends (by decide) strongest))
  have compared : level (fuel + 7) 3 ⟨start :: tokens, last, depth + 1⟩ =
      .ok (value, ⟨(token, line) :: rest, last', depth + 1⟩) := by
    have present : (get : Parser Reading) ⟨start :: tokens, last, depth + 1⟩ =
        .ok (⟨start :: tokens, last, depth + 1⟩, ⟨start :: tokens, last, depth + 1⟩) := rfl
    rw [level, bind_of_ok present]
    dsimp only
    rw [bind_of_ok arithmetic, bind_of_ok (comparisons_of_ends ends)]
    rfl
  have affirmed : level (fuel + 8) 2 ⟨start :: tokens, last, depth + 1⟩ =
      .ok (value, ⟨(token, line) :: rest, last', depth + 1⟩) := by
    rw [level, bind_of_ok peekLine_cons, bind_of_ok (skip_of_ne sound positive)]
    exact compared
  have weakest : level (fuel + 10) 0 ⟨start :: tokens, last, depth + 1⟩ =
      .ok (value, ⟨(token, line) :: rest, last', depth + 1⟩) :=
    level_of_stronger ends (by decide) (level_of_stronger ends (by decide) affirmed)
  have chosen : choice (fuel + 11) ⟨start :: tokens, last, depth + 1⟩ =
      .ok (value, ⟨(token, line) :: rest, last', depth + 1⟩) := by
    rw [choice, bind_of_ok weakest, conditions_of_ends ends]
  rw [expression, nested_of_ok shallow chosen]

end

/-! ## Arguments and calls -/

/-- A name that is neither a constant nor an operator is read as itself. -/
theorem signed_name (shallow : depth < nestingLimit) {name : String}
    (free : name ∉ operatorNames) :
    signed (fuel + 2) ⟨(.ident name, line) :: rest, last, depth⟩ =
      .ok (.name name line, ⟨rest, line, depth⟩) := by
  have constant : constantNamed? name = none := by
    rw [constantNamed?.eq_def]
    split
    · exact absurd (by decide) free
    · exact absurd (by decide) free
    · exact absurd (by decide) free
    · exact absurd (by decide) free
    · exact absurd (by decide) free
    · exact absurd (by decide) free
    · rfl
  have negative : Token.ident name ≠ .symbol "-" := by rintro ⟨⟩
  have read : primary (fuel + 1) ⟨(.ident name, line) :: rest, last, depth + 1⟩ =
      .ok (.name name line, ⟨rest, line, depth + 1⟩) := by
    rw [primary, bind_of_ok peekLine_cons, bind_of_ok (take_cons (sound_ident name) _)]
    dsimp only
    rw [constant]
    rfl
  rw [signed, bind_of_ok peekLine_cons, bind_of_ok (skip_of_ne (sound_ident name) negative)]
  exact nested_of_ok shallow read

/-- A text that no further text follows is read as itself. -/
theorem signed_text (shallow : depth < nestingLimit) (ends : Ends token) (text : String)
    (after : Nat) :
    signed (fuel + 3) ⟨(.text text, line) :: (token, after) :: rest, last, depth⟩ =
      .ok (.const (.string text) true line, ⟨(token, after) :: rest, line, depth⟩) := by
  have alone : adjacentTexts (fuel + 1) text ⟨(token, after) :: rest, line, depth + 1⟩ =
      .ok (text, ⟨(token, after) :: rest, line, depth + 1⟩) := by
    rw [adjacentTexts, bind_of_ok (peek_cons ends.sound)]
    cases ends <;> rfl
  have read : primary (fuel + 2) ⟨(.text text, line) :: (token, after) :: rest, last, depth + 1⟩ =
      .ok (.const (.string text) true line, ⟨(token, after) :: rest, line, depth + 1⟩) := by
    rw [primary, bind_of_ok peekLine_cons, bind_of_ok (take_cons (sound_text text) _)]
    dsimp only
    rw [bind_of_ok alone]
    rfl
  have negative : Token.text text ≠ .symbol "-" := by rintro ⟨⟩
  rw [signed, bind_of_ok peekLine_cons, bind_of_ok (skip_of_ne (sound_text text) negative)]
  exact nested_of_ok shallow read

/-- A name before the end of an expression. -/
theorem expression_name (shallow : depth + 1 < nestingLimit) (ends : Ends token) {name : String}
    (free : name ∉ operatorNames) (after : Nat) :
    expression (fuel + 15) ⟨(.ident name, line) :: (token, after) :: rest, last, depth⟩ =
      .ok (.name name line, ⟨(token, after) :: rest, line, depth⟩) := by
  have positive : Token.ident name ≠ keyword "not" := by
    rintro ⟨⟩
    exact free (by decide)
  refine expression_of_operand (Nat.lt_of_succ_lt shallow) ends (sound_ident name) positive ?_
  rw [operand, bind_of_ok peekLine_cons, bind_of_ok (signed_name shallow free),
    members_of_ends ends]

/-- A text before the end of an expression. -/
theorem expression_text (shallow : depth + 1 < nestingLimit) (ends : Ends token) (text : String)
    (after : Nat) :
    expression (fuel + 15) ⟨(.text text, line) :: (token, after) :: rest, last, depth⟩ =
      .ok (.const (.string text) true line, ⟨(token, after) :: rest, line, depth⟩) := by
  have positive : Token.text text ≠ keyword "not" := by rintro ⟨⟩
  refine expression_of_operand (Nat.lt_of_succ_lt shallow) ends (sound_text text) positive ?_
  rw [operand, bind_of_ok peekLine_cons, bind_of_ok (signed_text shallow ends text after),
    members_of_ends ends]

theorem exists_cons_of_map_fst {located : List LocatedToken} {tokens : List Token}
    (spelled : located.map Prod.fst = token :: tokens) :
    ∃ line tail, located = (token, line) :: tail ∧ tail.map Prod.fst = tokens := by
  obtain ⟨⟨first, line⟩, tail, rfl, same, rest⟩ := List.map_eq_cons_iff.mp spelled
  obtain rfl : first = token := same
  exact ⟨line, tail, rfl, rest⟩

/-- What is read after an argument. -/
def afterArgument (fuel : Nat) (named : Bool) (arg : Option String × Expr) :
    Parser (List (Option String × Expr)) := do
  if ← skip (.symbol ")") then pure [arg]
  else
    expect (.symbol ",") ","
    if ← skip (.symbol ")") then pure [arg]
    else pure (arg :: (← argument fuel named))

/-- One argument is read with its keyword and its value. -/
theorem exists_argument {arg : Argument} (readable : ReadableArgument arg)
    (shallow : depth + 1 < nestingLimit) (ends : Ends token) {named : Bool}
    (ordered : named = true → arg.1.isSome = true) {located : List LocatedToken}
    (spelled : located.map Prod.fst = arg.tokens) (fuel last line : Nat)
    (rest : List LocatedToken) :
    ∃ read last', (read.1, read.2.literal?) = arg.reading ∧
      argument (fuel + 16) named ⟨located ++ (token, line) :: rest, last, depth⟩ =
        afterArgument (fuel + 15) arg.1.isSome read ⟨(token, line) :: rest, last', depth⟩ := by
  obtain ⟨keyword, item⟩ := arg
  cases keyword with
  | none =>
    obtain rfl : named = false := by
      cases named with
      | false => rfl
      | true => cases ordered rfl
    obtain ⟨start, tail, rfl, nothing⟩ := exists_cons_of_map_fst spelled
    obtain rfl := List.map_eq_nil_iff.mp nothing
    refine ⟨(none, .const (.string item.literal.value) true start), start, rfl, ?_⟩
    rw [argument, List.cons_append, List.nil_append,
      bind_of_ok (expression_text shallow ends item.literal.value line)]
    rfl
  | some keyword =>
    obtain ⟨start, signed, rfl, sign⟩ := exists_cons_of_map_fst spelled
    obtain ⟨middle, valued, rfl, text⟩ := exists_cons_of_map_fst sign
    obtain ⟨last', tail, rfl, nothing⟩ := exists_cons_of_map_fst text
    obtain rfl := List.map_eq_nil_iff.mp nothing
    refine ⟨(some keyword.text, .const (.string item.literal.value) true last'), last', rfl, ?_⟩
    have free := (readable.keyword keyword rfl).free
    rw [argument, List.cons_append, List.cons_append, List.cons_append, List.nil_append,
      bind_of_ok (expression_name shallow .equals free middle)]
    dsimp only
    rw [bind_of_ok (skip_self (sound_symbol "="))]
    rw [if_pos rfl, bind_of_ok (expression_text shallow ends item.literal.value line)]
    rfl

/-- Arguments do not begin with the parenthesis that closes the call. -/
theorem exists_argumentTokens (first : Argument) (others : List Argument) (rest : List Token) :
    ∃ head tokens, argumentTokens (first :: others) ++ rest = head :: tokens ∧
      Sound head ∧ head ≠ .symbol ")" := by
  obtain ⟨keyword, item⟩ := first
  cases keyword with
  | none => exact ⟨_, _, rfl, sound_text _, by rintro ⟨⟩⟩
  | some keyword => exact ⟨_, _, rfl, sound_ident _, by rintro ⟨⟩⟩

/-- After the last argument a comma may stand before the closing parenthesis. -/
theorem afterArgument_last {comma : Bool} {located : List LocatedToken}
    (spelled : located.map Prod.fst = lastCommaTokens comma ++ [.symbol ")"]) (named : Bool)
    (read : Option String × Expr) (fuel last depth : Nat) (rest : List LocatedToken) :
    ∃ last', afterArgument fuel named read ⟨located ++ rest, last, depth⟩ =
      .ok ([read], ⟨rest, last', depth⟩) := by
  cases comma with
  | false =>
    obtain ⟨close, none, rfl, nothing⟩ := exists_cons_of_map_fst spelled
    obtain rfl := List.map_eq_nil_iff.mp nothing
    refine ⟨close, ?_⟩
    rw [afterArgument, List.cons_append, List.nil_append,
      bind_of_ok (skip_self (sound_symbol ")"))]
    rfl
  | true =>
    obtain ⟨place, tail, rfl, closed⟩ := exists_cons_of_map_fst spelled
    obtain ⟨close, none, rfl, nothing⟩ := exists_cons_of_map_fst closed
    obtain rfl := List.map_eq_nil_iff.mp nothing
    have open_call : Token.symbol "," ≠ .symbol ")" := by decide
    refine ⟨close, ?_⟩
    rw [afterArgument, List.cons_append, List.cons_append, List.nil_append,
      bind_of_ok (skip_of_ne (sound_symbol ",") open_call), if_neg Bool.false_ne_true,
      bind_of_ok (expect_self (sound_symbol ",") ","),
      bind_of_ok (skip_self (sound_symbol ")"))]
    rfl

/-- The tokens after an argument are those of its end. -/
theorem exists_lastToken (comma : Bool) :
    ∃ token more, lastCommaTokens comma ++ [.symbol ")"] = token :: more ∧ Ends token := by
  cases comma with
  | false => exact ⟨_, _, rfl, .parenthesis⟩
  | true => exact ⟨_, _, rfl, .comma⟩

/-- Arguments are read up to the closing parenthesis, each with its keyword and its value. -/
theorem exists_argument_list {kind comma : Bool} (first : Argument) (others : List Argument)
    (readable : ∀ arg ∈ first :: others, ReadableArgument arg)
    (alike : ∀ arg ∈ first :: others, arg.1.isSome = kind) (shallow : depth + 1 < nestingLimit)
    {named : Bool} (ordered : named = true → kind = true) {located : List LocatedToken}
    (spelled : located.map Prod.fst =
      argumentTokens (first :: others) ++ (lastCommaTokens comma ++ [.symbol ")"]))
    {fuel : Nat} (enough : others.length + 16 ≤ fuel) (last : Nat) (rest : List LocatedToken) :
    ∃ args last', args.map (fun arg => (arg.1, arg.2.literal?)) =
        (first :: others).map Argument.reading ∧
      argument fuel named ⟨located ++ rest, last, depth⟩ = .ok (args, ⟨rest, last', depth⟩) := by
  induction others generalizing first located named last fuel with
  | nil =>
    obtain ⟨fuel, rfl⟩ : ∃ less, fuel = less + 16 := ⟨fuel - 16, (Nat.sub_add_cancel enough).symm⟩
    obtain ⟨here, -⟩ := List.forall_mem_cons.mp readable
    obtain ⟨kind_here, -⟩ := List.forall_mem_cons.mp alike
    have parts : argumentTokens [first] = first.tokens := by simp [argumentTokens]
    rw [parts] at spelled
    obtain ⟨inside, tail, rfl, tokens, ending⟩ := List.map_eq_append_iff.mp spelled
    obtain ⟨token, more, begins, ends⟩ := exists_lastToken comma
    obtain ⟨close, others, rfl, -⟩ := exists_cons_of_map_fst (ending.trans begins)
    obtain ⟨read, middle, value, run⟩ := exists_argument here shallow ends
      (fun positional => kind_here.trans (ordered positional)) tokens fuel last close
      (others ++ rest)
    obtain ⟨last', after⟩ :=
      afterArgument_last ending first.1.isSome read (fuel + 15) middle depth rest
    refine ⟨[read], last', congrArg (fun reading => [reading]) value, ?_⟩
    rw [List.append_assoc, List.cons_append, run, ← List.cons_append, after]
  | cons second others ih =>
    rw [List.length_cons] at enough
    obtain ⟨fuel, rfl⟩ : ∃ less, fuel = less + 16 := ⟨fuel - 16, by omega⟩
    obtain ⟨here, later⟩ := List.forall_mem_cons.mp readable
    obtain ⟨kind_here, kind_later⟩ := List.forall_mem_cons.mp alike
    have parts : argumentTokens (first :: second :: others) ++
        (lastCommaTokens comma ++ [.symbol ")"]) = first.tokens ++ .symbol "," ::
          (argumentTokens (second :: others) ++ (lastCommaTokens comma ++ [.symbol ")"])) := by
      simp [argumentTokens]
    rw [parts] at spelled
    obtain ⟨inside, tail, rfl, tokens, separated⟩ := List.map_eq_append_iff.mp spelled
    obtain ⟨place, tail, rfl, further⟩ := exists_cons_of_map_fst separated
    obtain ⟨read, middle, value, run⟩ := exists_argument here shallow .comma
      (fun positional => kind_here.trans (ordered positional)) tokens fuel last place (tail ++ rest)
    obtain ⟨args, last', values, runs⟩ := ih second later kind_later
      (fun positional => kind_here.symm.trans positional) further
      (by omega : others.length + 16 ≤ fuel + 15) place
    refine ⟨read :: args, last', congrArg₂ List.cons value values, ?_⟩
    obtain ⟨head, _, begins, sound, different⟩ := exists_argumentTokens second others _
    obtain ⟨place', tail, rfl, -⟩ := exists_cons_of_map_fst (further.trans begins)
    have open_call : Token.symbol "," ≠ .symbol ")" := by decide
    rw [List.append_assoc, List.cons_append, run, afterArgument,
      bind_of_ok (skip_of_ne (sound_symbol ",") open_call), if_neg Bool.false_ne_true,
      bind_of_ok (expect_self (sound_symbol ",") ","), List.cons_append,
      bind_of_ok (skip_of_ne sound different), if_neg Bool.false_ne_true, ← List.cons_append,
      bind_of_ok runs]
    rfl

/-- Either all arguments of a call have a keyword or none has. -/
theorem exists_kind (call : PlainCall) : ∃ kind, ∀ arg ∈ call.arguments, arg.1.isSome = kind := by
  cases call with
  | ref package name => cases package <;> exact ⟨false, by simp [PlainCall.arguments]⟩
  | source group table => exact ⟨false, by simp [PlainCall.arguments]⟩
  | config settings =>
    refine ⟨true, fun arg member => ?_⟩
    obtain ⟨setting, -, rfl⟩ := List.mem_map.mp member
    rfl

theorem function_free (call : PlainCall) : call.function ∉ operatorNames := by
  have free : ∀ name ∈ ["ref", "source", "config"], name ∉ operatorNames := by decide
  exact free _ call.function_mem

/-- The arguments of a call in parentheses. -/
theorem exists_arguments {call : PlainCall} {comma : Bool}
    (readable : ∀ arg ∈ call.arguments, ReadableArgument arg)
    (given : comma = true → call.arguments ≠ []) (shallow : depth + 1 < nestingLimit)
    {located : List LocatedToken}
    (spelled : located.map Prod.fst = .symbol "(" ::
      (argumentTokens call.arguments ++ (lastCommaTokens comma ++ [.symbol ")"])))
    {fuel : Nat} (enough : call.arguments.length + 16 ≤ fuel) (last : Nat)
    (rest : List LocatedToken) :
    ∃ args last', args.map (fun arg => (arg.1, arg.2.literal?)) =
        call.arguments.map Argument.reading ∧
      arguments (fuel + 1) ⟨located ++ rest, last, depth⟩ = .ok (args, ⟨rest, last', depth⟩) := by
  obtain ⟨place, tail, rfl, inside⟩ := exists_cons_of_map_fst spelled
  rw [List.cons_append, arguments, bind_of_ok (expect_self (sound_symbol "(") "(")]
  obtain ⟨kind, alike⟩ := exists_kind call
  cases listed : call.arguments with
  | nil =>
    obtain rfl : comma = false := Bool.eq_false_iff.mpr fun comma => given comma listed
    rw [listed] at inside
    obtain ⟨close, none, rfl, nothing⟩ := exists_cons_of_map_fst inside
    obtain rfl := List.map_eq_nil_iff.mp nothing
    refine ⟨[], close, rfl, ?_⟩
    rw [List.cons_append, List.nil_append, bind_of_ok (skip_self (sound_symbol ")"))]
    rfl
  | cons first others =>
    rw [listed] at readable alike inside enough
    rw [List.length_cons] at enough
    have unordered : false = true → kind = true := fun same => absurd same Bool.false_ne_true
    obtain ⟨args, last', values, run⟩ := exists_argument_list first others readable alike shallow
      unordered inside (by omega : others.length + 16 ≤ fuel) place rest
    obtain ⟨head, _, begins, sound, different⟩ := exists_argumentTokens first others _
    obtain ⟨place', tail, rfl, -⟩ := exists_cons_of_map_fst (inside.trans begins)
    refine ⟨args, last', values, ?_⟩
    rw [List.cons_append, bind_of_ok (skip_of_ne sound different), if_neg Bool.false_ne_true,
      ← List.cons_append, run]

/-- A call is read as an expression. -/
theorem exists_expression {call : PlainCall} {comma : Bool}
    (readable : ∀ arg ∈ call.arguments, ReadableArgument arg)
    (given : comma = true → call.arguments ≠ []) (shallow : depth + 2 < nestingLimit)
    {located : List LocatedToken} (spelled : located.map Prod.fst = call.tokens comma) {fuel : Nat}
    (enough : call.arguments.length + 30 ≤ fuel) (ends : Ends token) (last line : Nat)
    (rest : List LocatedToken) :
    ∃ expr last', call.IsReadAs expr ∧
      expression fuel ⟨located ++ (token, line) :: rest, last, depth⟩ =
        .ok (expr, ⟨(token, line) :: rest, last', depth⟩) := by
  obtain ⟨fuel, rfl⟩ : ∃ less, fuel = less + 15 := ⟨fuel - 15, by omega⟩
  obtain ⟨start, tail, rfl, inside⟩ := exists_cons_of_map_fst spelled
  rw [List.append_assoc] at inside
  have deeper : depth + 1 + 1 < nestingLimit := shallow
  obtain ⟨args, last', values, run⟩ := exists_arguments readable given deeper inside
    (by omega : call.arguments.length + 16 ≤ fuel + 1) start ((token, line) :: rest)
  refine ⟨.call (.name call.function start) args start, last',
    ⟨args, start, start, rfl, values⟩, ?_⟩
  have positive : Token.ident call.function ≠ keyword "not" := by
    intro same
    exact function_free call (by rw [Token.ident.inj same]; decide)
  have opens : ∃ place more, tail = (.symbol "(", place) :: more := by
    obtain ⟨place, more, same, -⟩ := exists_cons_of_map_fst inside
    exact ⟨place, more, same⟩
  obtain ⟨place, more, rfl⟩ := opens
  have inner : arguments (fuel + 2)
      ⟨(.symbol "(", place) :: (more ++ (token, line) :: rest), start, depth + 1⟩ =
        .ok (args, ⟨(token, line) :: rest, last', depth + 1⟩) := run
  rw [List.cons_append, List.cons_append]
  refine expression_of_operand (by omega) ends (sound_ident _) positive ?_
  rw [operand, bind_of_ok peekLine_cons,
    bind_of_ok (signed_name (by omega) (function_free call)), members,
    bind_of_ok peekLine_cons, bind_of_ok (peek_cons (sound_symbol "("))]
  change (arguments (fuel + 2) >>= fun args =>
    members (fuel + 2) place (.call (.name call.function start) args start)) _ = _
  rw [bind_of_ok inner, members_of_ends ends]

/-! ## Assignments -/

theorem assignedName_cons {name : String} (free : name ∉ reservedNames) (place : Nat) :
    assignedName ⟨(.ident name, place) :: rest, last, depth⟩ =
      .ok ((name, place), ⟨rest, place, depth⟩) := by
  have word : ident ⟨(.ident name, place) :: rest, last, depth⟩ =
      .ok (name, ⟨rest, place, depth⟩) := by
    rw [ident, bind_of_ok (take_cons (sound_ident name) _)]
    rfl
  rw [assignedName, bind_of_ok word, if_neg (mt List.contains_iff_mem.mp free)]
  rfl

/-- A name before an equals sign is all that is assigned. -/
theorem targetParts_name {name : String} (free : name ∉ reservedNames) (other : name ≠ "in")
    (place line : Nat) :
    targetParts true (fuel + 2) ⟨(.ident name, place) :: (.symbol "=", line) :: rest, last, depth⟩ =
      .ok (([.name name place], false), ⟨(.symbol "=", line) :: rest, place, depth⟩) := by
  have bare : Token.ident name ≠ .symbol "(" := by rintro ⟨⟩
  have whole : Token.symbol "=" ≠ .symbol "." := by decide
  have single : Token.symbol "=" ≠ .symbol "," := by decide
  have member : assignedMember (fuel + 1) (.name name place)
      ⟨(.symbol "=", line) :: rest, place, depth⟩ =
        .ok (.name name place, ⟨(.symbol "=", line) :: rest, place, depth⟩) := by
    rw [assignedMember, bind_of_ok (skip_of_ne (sound_symbol "=") whole)]
    rfl
  rw [targetParts, bind_of_ok (peek_cons (sound_ident name))]
  simp only [↓reduceIte]
  generalize found : some (Token.ident name) = next
  split
  · cases found
  · cases found
  · cases found
  · cases found
    exact absurd rfl other
  · rw [bind_of_ok (skip_of_ne (sound_ident name) bare), if_neg Bool.false_ne_true,
      bind_of_ok (assignedName_cons free place)]
    dsimp only
    rw [bind_of_ok member, bind_of_ok (skip_of_ne (sound_symbol "=") single)]
    rfl

theorem target_name {name : String} (free : name ∉ reservedNames) (other : name ≠ "in")
    (place line : Nat) :
    target true (fuel + 3) ⟨(.ident name, place) :: (.symbol "=", line) :: rest, last, depth⟩ =
      .ok (.name name place, ⟨(.symbol "=", line) :: rest, place, depth⟩) := by
  rw [target, bind_of_ok peekLine_cons, bind_of_ok (targetParts_name free other place line)]
  rfl

/-- A text up to the end of a tag is what a name is given. -/
theorem assignedValue_text (shallow : depth + 1 < nestingLimit) (text : String) (after : Nat) :
    assignedValue (fuel + 15) ⟨(.text text, line) :: (.blockEnd, after) :: rest, last, depth⟩ =
      .ok (.const (.string text) true line, ⟨(.blockEnd, after) :: rest, line, depth⟩) := by
  have open_end : Token.blockEnd ≠ .symbol "," := by rintro ⟨⟩
  rw [assignedValue, bind_of_ok peekLine_cons,
    bind_of_ok (expression_text shallow .statement text after),
    bind_of_ok (skip_of_ne Ends.statement.sound open_end)]
  rfl

/-- An assignment is read as a statement. -/
theorem exists_statement {assignment : PlainAssignment} (readable : assignment.Readable)
    (shallow : depth + 1 < nestingLimit) {located : List LocatedToken}
    (spelled : located.map Prod.fst = assignment.tokens) {deep : Nat} (roomy : 30 ≤ deep)
    (fuel last line : Nat) (rest : List LocatedToken) :
    ∃ place start last',
      statement deep (fuel + 1) ⟨located ++ (.blockEnd, line) :: rest, last, depth⟩ =
        .ok (.assign (.name assignment.name.text place)
          (.const (.string assignment.item.literal.value) true start),
            ⟨(.blockEnd, line) :: rest, last', depth⟩) := by
  obtain ⟨deep, rfl⟩ : ∃ less, deep = less + 15 := ⟨deep - 15, by omega⟩
  obtain ⟨start, tail, rfl, named⟩ := exists_cons_of_map_fst spelled
  obtain ⟨place, tail, rfl, signed⟩ := exists_cons_of_map_fst named
  obtain ⟨sign, tail, rfl, valued⟩ := exists_cons_of_map_fst signed
  obtain ⟨value, tail, rfl, nothing⟩ := exists_cons_of_map_fst valued
  obtain rfl := List.map_eq_nil_iff.mp nothing
  have other : assignment.name.text ≠ "in" := by
    intro same
    exact readable.other (same ▸ by decide)
  have free : assignment.name.text ∉ reservedNames := by
    intro reserved
    have listed : ∀ name ∈ reservedNames, name ∈ keptNames ∨ name ∈ operatorNames := by decide
    exact (listed _ reserved).elim readable.other readable.name.free
  refine ⟨place, value, value, ?_⟩
  simp only [List.cons_append, List.nil_append]
  rw [statement, bind_of_ok (take_cons (sound_ident "set") _)]
  change (target true (deep + 15) >>= _) _ = _
  rw [bind_of_ok (target_name free other place sign), bind_of_ok (peek_cons (sound_symbol "="))]
  rw [if_neg (by decide), bind_of_ok (expect_self (sound_symbol "=") _),
    bind_of_ok (assignedValue_text shallow assignment.item.literal.value line)]
  rfl

/-! ## Pages -/

theorem length_le_argumentTokens (arguments : List Argument) :
    arguments.length ≤ (argumentTokens arguments).length := by
  have further : ∀ arguments : List Argument, arguments.length ≤
      (arguments.flatMap fun arg => .symbol "," :: arg.tokens).length := by
    intro arguments
    induction arguments with
    | nil => exact Nat.le_refl 0
    | cons arg arguments ih =>
      rw [List.flatMap_cons, List.cons_append, List.length_cons, List.length_cons,
        List.length_append]
      omega
  cases arguments with
  | nil => exact Nat.le_refl 0
  | cons first others =>
    have rest := further others
    have start : 0 < first.tokens.length := by
      obtain ⟨keyword, item⟩ := first
      cases keyword with
      | none => exact Nat.one_pos
      | some keyword => exact Nat.succ_pos 2
    rw [argumentTokens, List.length_cons, List.length_append]
    omega

/-- A template has more tokens than any of its calls has arguments. -/
theorem length_arguments_lt {calls : List PlainCall} {located : List LocatedToken}
    (lexed : Lexed calls located) {call : PlainCall} (member : call ∈ calls) :
    call.arguments.length < located.length := by
  induction lexed with
  | nil => cases member
  | data _ _ _ ih => exact Nat.lt_succ_of_lt (ih member)
  | @call calls located inside here comma start stop _ spelled _ ih =>
    rw [List.length_cons, List.length_append, List.length_cons]
    rcases List.mem_cons.mp member with rfl | later
    · have total := congrArg List.length spelled
      have given := length_le_argumentTokens call.arguments
      rw [List.length_map, PlainCall.tokens, List.length_cons, List.length_cons,
        List.length_append, List.length_append] at total
      omega
    · have shorter := ih later
      omega
  | assignment start stop readable spelled _ ih =>
    have shorter := ih member
    rw [List.length_cons, List.length_append, List.length_cons]
    omega

/-- The tokens of calls, with plain text and assignments around them, are read as these calls. -/
theorem exists_statements {calls : List PlainCall} {located : List LocatedToken}
    (lexed : Lexed calls located)
    (readable : ∀ call ∈ calls, ∀ arg ∈ call.arguments, ReadableArgument arg) {deep fuel : Nat}
    (deep_enough : 20 * located.length + 20 ≤ deep) (enough : located.length < fuel) (last : Nat) :
    ∃ body state, IsReadAs calls body ∧
      statements deep fuel [] ⟨located, last, 0⟩ = .ok (body, state) := by
  induction lexed generalizing fuel last with
  | nil =>
    obtain ⟨fuel, rfl⟩ : ∃ less, fuel = less + 1 := ⟨fuel - 1, by omega⟩
    refine ⟨[], ⟨[], last, 0⟩, .nil, ?_⟩
    rw [statements]
    rfl
  | @data calls located text line _ ih =>
    rw [List.length_cons] at enough deep_enough
    obtain ⟨fuel, rfl⟩ : ∃ less, fuel = less + 1 := ⟨fuel - 1, by omega⟩
    have shorter : located.length < fuel := by omega
    obtain ⟨body, state, reads, run⟩ := ih readable (by omega) shorter line
    refine ⟨.data text :: body, state, .data text reads, ?_⟩
    have sound : Sound (.data text) := nofun
    rw [statements, bind_of_ok (take?_cons sound)]
    dsimp only
    rw [bind_of_ok run]
    rfl
  | @call calls located inside call comma start stop given spelled rest ih =>
    have fewer := length_arguments_lt (.call start stop given spelled rest) List.mem_cons_self
    have deep_here : call.arguments.length + 30 ≤ deep := by omega
    rw [List.length_cons, List.length_append, List.length_cons] at enough deep_enough
    obtain ⟨fuel, rfl⟩ : ∃ less, fuel = less + 1 := ⟨fuel - 1, by omega⟩
    obtain ⟨here, later⟩ := List.forall_mem_cons.mp readable
    have shorter : located.length < fuel := by omega
    have shallow : 0 + 2 < nestingLimit := by decide
    obtain ⟨body, state, reads, run⟩ := ih later (by omega) shorter stop
    obtain ⟨expr, last', read, runs⟩ :=
      exists_expression here given shallow spelled deep_here .tag start stop located
    refine ⟨.emit expr :: body, state, .call read reads, ?_⟩
    have opening : Sound .variableStart := nofun
    rw [statements, bind_of_ok (take?_cons opening)]
    dsimp only
    rw [bind_of_ok runs, bind_of_ok (expect_self Ends.tag.sound "end of variable block"),
      bind_of_ok run]
    rfl
  | @assignment calls located inside assignment start stop written spelled _ ih =>
    rw [List.length_cons, List.length_append, List.length_cons] at enough deep_enough
    obtain ⟨fuel, rfl⟩ : ∃ less, fuel = less + 2 := ⟨fuel - 2, by omega⟩
    have shorter : located.length < fuel + 1 := by omega
    obtain ⟨place, value, last', reads_statement⟩ := exists_statement written
      (by decide : 1 + 1 < nestingLimit) spelled (by omega : 30 ≤ deep) fuel start stop located
    obtain ⟨body, state, reads, run⟩ := ih readable (by omega) shorter stop
    refine ⟨.assign (.name assignment.name.text place)
      (.const (.string assignment.item.literal.value) true value) :: body, state,
      .assignment _ place value written.other reads, ?_⟩
    obtain ⟨first, tail, rfl, -⟩ := exists_cons_of_map_fst spelled
    have opening : Sound .blockStart := nofun
    rw [statements, bind_of_ok (take?_cons opening)]
    dsimp only
    have unending : ∀ state : Reading,
        (pure (([] : List String).contains "set") : Parser Bool) state = .ok (false, state) :=
      fun _ => rfl
    rw [List.cons_append, bind_of_ok (peek_cons (sound_ident "set"))]
    dsimp only
    rw [bind_of_ok (unending _), if_neg Bool.false_ne_true, ← List.cons_append,
      bind_of_ok (nested_of_ok (by decide) reads_statement),
      bind_of_ok (expect_self Ends.statement.sound "end of block"), bind_of_ok run]
    rfl

/-- A page is read as its calls with plain text and assignments around them. -/
theorem exists_parse {page : Page} (readable : page.Readable) :
    ∃ body, parse page.text = .ok body ∧ IsReadAs (page.blocks.map (·.call)) body := by
  have lexed := lexed_tokens readable
  have each : ∀ call ∈ page.blocks.map (·.call), ∀ arg ∈ call.arguments, ReadableArgument arg := by
    intro call member
    obtain ⟨block, listed, rfl⟩ := List.mem_map.mp member
    exact (readable.block listed).arguments
  have enough : (Template.tokens page.text).length <
      20 * (Template.tokens page.text).length + 20 := by omega
  obtain ⟨body, state, reads, run⟩ := exists_statements lexed each (Nat.le_refl _) enough 1
  refine ⟨body, ?_, reads⟩
  change (statements _ _ [] ⟨Template.tokens page.text, 1, 0⟩).map (·.1) = _
  rw [run]
  rfl

end Template
end SqlPipeline
