import SchemaOnRead.Sql.Statement
import SchemaOnRead.Sql.Token
import SchemaOnRead.Text.Lowercase

/-!
# Reading statements

`Sql.parse` reads the tokens of a statement. The operators of an expression bind more and more
tightly in the order of `Level`. A place where an expression may stand can also hold none: it is up
to what stands around it whether one is needed.
-/

namespace SchemaOnRead.Sql

open Text

/-! ## Words and names -/

/-- Whether a token is a word, in any case of letters. -/
def Token.isWord (w : String) : Token → Bool
  | .word s => lowercase s == w
  | _ => false

/-- Words that are never names. -/
def reserved : List String :=
  ["select", "from", "where", "having", "limit", "union", "intersect", "except", "join", "on",
    "using", "and", "or", "not", "in", "like", "ilike", "between", "is", "cross", "inner", "outer",
    "distinct", "with", "null", "when", "then", "else", "qualify", "isnull", "notnull"]

/-- Words that are never the alias of a table. -/
def reservedAfterTable : List String :=
  ["left", "right", "full", "natural", "asof", "semi", "anti", "offset", "window", "lateral"]

/-- The rest of a statement after a word. -/
def afterWord? (w : String) : List Token → Option (List Token)
  | t :: rest => if t.isWord w then some rest else none
  | [] => none

/-- The rest of a statement after words. -/
def afterWords? : List String → List Token → Option (List Token)
  | [], ts => some ts
  | w :: ws, ts => (afterWord? w ts).bind (afterWords? ws)

/-- The rest of a statement after a symbol. -/
def afterSymbol? (s : String) : List Token → Option (List Token)
  | .symbol t :: rest => if t == s then some rest else none
  | _ => none

/-- The rest of a statement after one of some words, if one is there. -/
def skipWords (ws : List String) (ts : List Token) : List Token :=
  match ts with
  | t :: rest => if ws.any t.isWord then rest else ts
  | [] => []

/-- Whether a statement goes on with the words of a grouping or an order. -/
def beginsClause (ts : List Token) : Bool :=
  (afterWords? ["group", "by"] ts).isSome || (afterWords? ["order", "by"] ts).isSome

/-- A name that is not one of some words. -/
def nameExcept? (excluded : List String) (ts : List Token) : Option (String × List Token) :=
  match ts with
  | .name s :: rest => some (s, rest)
  | .word s :: rest =>
    if excluded.contains (lowercase s) || beginsClause ts then none else some (s, rest)
  | _ => none

/-- A name. -/
def name? : List Token → Option (String × List Token) := nameExcept? reserved

/-- A name after a point or a word, where any word may stand. -/
def anyName? : List Token → Option (String × List Token)
  | .name s :: rest | .word s :: rest => some (s, rest)
  | _ => none

/-- Further names after points, and whether a star ends them. -/
def pathFrom : Nat → List String → List Token → Option (List String × Bool × List Token)
  | 0, names, ts => some (names, false, ts)
  | fuel + 1, names, ts =>
    match afterSymbol? "." ts with
    | none => some (names, false, ts)
    | some rest =>
      match anyName? rest with
      | some (n, rest) => pathFrom fuel (names ++ [n]) rest
      | none => (afterSymbol? "*" rest).map fun rest => (names, true, rest)

/-- The column that a path of names is; one with too many names is none. -/
def columnOf (names : List String) : Expr :=
  if names.length ≤ 4 then .column names.dropLast (names.getLastD "")
  else .call "." (names.map fun n => .column [] n)

/-! ## Operators -/

/-- How tightly operators bind. -/
inductive Level where
  | or
  | and
  | equality
  | order
  | range
  | concat
  | sum
  | product
  | unary
  deriving DecidableEq, Repr

/-- The level of the operands of a level's operators. -/
def Level.next : Level → Level
  | or => and
  | and => equality
  | equality => order
  | order => range
  | range => concat
  | concat => sum
  | sum => product
  | product => unary
  | unary => unary

/-- The operators with two operands of each level. -/
def Level.operator? : Level → Token → Option (Expr → Expr → Expr)
  | or, t => if t.isWord "or" then some .or else none
  | and, t => if t.isWord "and" then some .and else none
  | equality, .symbol s =>
    if s == "=" || s == "==" then some (.compare .equal)
    else if s == "<>" || s == "!=" then some (.compare .unequal)
    else none
  | order, .symbol s =>
    if s == "<" then some (.compare .less)
    else if s == "<=" then some (.compare .lessOrEqual)
    else if s == ">" then some (.compare .greater)
    else if s == ">=" then some (.compare .greaterOrEqual)
    else none
  | concat, .symbol s => if s == "||" then some .concat else none
  | sum, .symbol s => if s == "+" || s == "-" || s == "%" then some (.arithmetic s) else none
  | product, .symbol s => if s == "*" || s == "/" then some (.arithmetic s) else none
  | _, _ => none

/-! ## Types -/

/-- Further words of a type's name. -/
def typeWords : List (List String) :=
  [["precision"], ["varying"], ["with", "time", "zone"], ["without", "time", "zone"]]

/-- Skips what stands between parentheses or brackets. -/
def skipGroup (closing : String) : List Token → Option (List Token)
  | [] => none
  | .symbol s :: rest => if s == closing then some rest else skipGroup closing rest
  | _ :: rest => skipGroup closing rest

/-- Pairs of brackets after a type. -/
def skipBrackets : Nat → List Token → Option (List Token)
  | 0, ts => some ts
  | fuel + 1, ts =>
    match afterSymbol? "[" ts with
    | some rest => (skipGroup "]" rest).bind (skipBrackets fuel)
    | none => some ts

/-- A type with its sizes. -/
def type? (ts : List Token) : Option (String × List Token) := do
  let (n, rest) ← name? ts
  let rest := (typeWords.findSome? fun ws => afterWords? ws rest).getD rest
  let rest ← match afterSymbol? "(" rest with
    | some inner => skipGroup ")" inner
    | none => some rest
  return (n, ← skipBrackets rest.length rest)

/-! ## Expressions and queries -/

/-- The expression at a place, if one is there, and the tokens after it; `none` if the tokens make
no sense. -/
abbrev Place := Option (Option Expr × List Token)

/-- The expression that has to be at a place. -/
def needed : Place → Option (Expr × List Token)
  | some (some e, rest) => some (e, rest)
  | _ => none

/-- Whether a query begins here. -/
def beginsQuery (ts : List Token) : Bool :=
  (afterWord? "select" ts).isSome || (afterWord? "with" ts).isSome

/-- The alias of an expression. -/
def aliased (e : Expr) (ts : List Token) : Expr × List Token :=
  match afterWord? "as" ts with
  | some rest =>
    match anyName? rest with
    | some (n, rest) => (.named e n, rest)
    | none => (e, rest)
  | none =>
    match name? ts with
    | some (n, rest) => (.named e n, rest)
    | none => (e, ts)

/-- Texts that follow one another are one. -/
def textsFrom : Expr → List Token → Expr × List Token
  | e, .text s :: rest => textsFrom (.concat e (.text s)) rest
  | e, ts => (e, ts)

/-- Skips the escape character of a pattern. -/
def skipEscape (ts : List Token) : List Token :=
  match ts with
  | t :: .text _ :: rest => if t.isWord "escape" then rest else ts
  | ts => ts

/-- A word that is a value, or a column. -/
def literal (ts : List Token) : Place :=
  match ts with
  | t :: rest =>
    if t.isWord "null" then some (some .null, rest)
    else if t.isWord "true" then some (some (.bool true), rest)
    else if t.isWord "false" then some (some (.bool false), rest)
    else match name? ts with
      | none => some (none, ts)
      | some (n, rest) => do
        let (names, isStar, rest) ← pathFrom ts.length [n] rest
        return (some (if isStar then .star names else columnOf names), rest)
  | [] => some (none, [])

/-- The alias of a table, with names for its columns. -/
def tableAlias (ts : List Token) : Option (Option String × List Token) :=
  let found := match afterWord? "as" ts with
    | some rest => anyName? rest
    | none => nameExcept? (reserved ++ reservedAfterTable) ts
  match found with
  | none => if (afterWord? "as" ts).isSome then none else some (none, ts)
  | some (n, rest) =>
    match afterSymbol? "(" rest with
    | some inner => (skipGroup ")" inner).map fun rest => (some n, rest)
    | none => some (some n, rest)

/-- The words of a join, up to the table; a comma joins as well. -/
def afterJoin? (ts : List Token) : Option (List Token) :=
  match afterSymbol? "," ts with
  | some rest => some rest
  | none =>
    let rest := skipWords ["natural", "asof"] ts
    let rest := skipWords ["left", "right", "full", "inner", "cross", "semi", "anti"] rest
    let rest := skipWords ["outer", "semi", "anti"] rest
    afterWord? "join" rest

/-- The words that join two queries. -/
def afterSetOperator? (ts : List Token) : Option (List Token) :=
  (["union", "intersect", "except"].findSome? (afterWord? · ts)).map fun rest =>
    let rest := skipWords ["all", "distinct"] rest
    (afterWords? ["by", "name"] rest).getD rest

mutual

/-- An expression with its alias. -/
def exprFrom : Nat → List Token → Place
  | 0, _ => none
  | fuel + 1, ts => do
    match ← levelFrom fuel .or ts with
    | (none, rest) => return (none, rest)
    | (some e, rest) =>
      let (e, rest) := aliased e rest
      return (some e, rest)

/-- Items with commas between them, some of which may be left out; and whether a comma ends them. -/
def itemsFrom : Nat → List Expr → List Token → Option (List Expr × Bool × List Token)
  | 0, _, _ => none
  | fuel + 1, acc, ts => do
    let (e, rest) ← if beginsQuery ts then
        (queryFrom fuel ts).map fun (q, rest) => (some (Expr.subquery q.reading), rest)
      else exprFrom fuel ts
    let acc := e.toList ++ acc
    match afterSymbol? "," rest with
    | some rest =>
      let (found, _, after) ← itemsFrom fuel acc rest
      return (found, true, after)
    | none => return (acc.reverse, false, rest)

/-- An expression of a level. -/
def levelFrom : Nat → Level → List Token → Place
  | 0, _, _ => none
  | fuel + 1, level, ts =>
    match level with
    | .unary => unaryFrom fuel ts
    | .range => rangeFrom fuel ts
    | level => do
      let (e, rest) ← levelFrom fuel level.next ts
      operatorsFrom fuel level e rest

/-- Further operands of a level's operators. -/
def operatorsFrom : Nat → Level → Option Expr → List Token → Place
  | 0, _, _, _ => none
  | fuel + 1, level, e, ts =>
    match ts with
    | [] => some (e, [])
    | t :: rest =>
      match level.operator? t, e with
      | some make, some left => do
        let (right, rest) ← needed (levelFrom fuel level.next rest)
        operatorsFrom fuel level (some (make left right)) rest
      | some _, none => none
      | none, e => some (e, ts)

/-- An expression with what may follow it: a membership, a likeness or a range, and then a test. -/
def rangeFrom : Nat → List Token → Place
  | 0, _ => none
  | fuel + 1, ts =>
    match levelFrom fuel .concat ts with
    | some (some e, rest) =>
      match afterWord? "not" rest with
      | some rest => (relationFrom fuel e rest).bind fun (e, rest) => testFrom fuel (.not e) rest
      | none => (relationFrom fuel e rest).bind fun (e, rest) => testFrom fuel e rest
    | place => place

/-- A membership, a likeness or a range. -/
def relationFrom : Nat → Expr → List Token → Option (Expr × List Token)
  | 0, _, _ => none
  | fuel + 1, e, ts =>
    if let some rest := afterWord? "in" ts then
      match afterSymbol? "(" rest with
      | some inner => do
        let (items, _, rest) ← itemsFrom fuel [] inner
        return (.member e items, ← afterSymbol? ")" rest)
      | none => do
        let (source, rest) ← needed (primaryFrom fuel rest)
        return (.memberOf e source, rest)
    else if let some rest := afterWord? "like" ts then do
      let (pattern, rest) ← needed (levelFrom fuel .concat rest)
      return (.like false e pattern, skipEscape rest)
    else if let some rest := afterWord? "ilike" ts then do
      let (pattern, rest) ← needed (levelFrom fuel .concat rest)
      return (.like true e pattern, skipEscape rest)
    else if let some rest := afterWord? "between" ts then do
      let (low, rest) ← needed (levelFrom fuel .concat rest)
      let (high, rest) ← needed (levelFrom fuel .concat (← afterWord? "and" rest))
      return (.between e low high, rest)
    else if let some rest := afterWord? "isnull" ts then some (.is e .null, rest)
    else if let some rest := afterWord? "notnull" ts then some (.not (.is e .null), rest)
    else some (e, ts)

/-- A test after an expression. -/
def testFrom : Nat → Expr → List Token → Place
  | 0, _, _ => none
  | fuel + 1, e, ts =>
    match afterWord? "is" ts with
    | none => some (some e, ts)
    | some rest => do
      let isNegated := (afterWord? "not" rest).isSome
      let rest := skipWords ["not"] rest
      match afterWords? ["distinct", "from"] rest with
      | some rest =>
        let (other, rest) ← needed (levelFrom fuel .concat rest)
        return (some (.arithmetic (if isNegated then "same" else "distinct") e other), rest)
      | none =>
        let (value, rest) ← needed (primaryFrom fuel rest)
        return (some (if isNegated then .not (.is e value) else .is e value), rest)

/-- An operand with its signs and negations. -/
def unaryFrom : Nat → List Token → Place
  | 0, _ => none
  | fuel + 1, ts =>
    if let some rest := afterWord? "not" ts then do
      let (e, rest) ← needed (levelFrom fuel .equality rest)
      return (some (.not e), rest)
    else if let some rest := afterSymbol? "-" ts then do
      let (e, rest) ← needed (unaryFrom fuel rest)
      return (some (.negative e), rest)
    else if let some rest := afterSymbol? "+" ts then unaryFrom fuel rest
    else do
      let (e, rest) ← primaryFrom fuel ts
      castsFrom fuel e rest

/-- Casts after an operand. -/
def castsFrom : Nat → Option Expr → List Token → Place
  | 0, _, _ => none
  | fuel + 1, e, ts =>
    match afterSymbol? "::" ts, e with
    | some rest, some e => do
      let (t, rest) ← type? rest
      castsFrom fuel (some (.cast e t)) rest
    | some _, none => none
    | none, e => some (e, ts)

/-- An operand. -/
def primaryFrom : Nat → List Token → Place
  | 0, _ => none
  | fuel + 1, ts =>
    match ts with
    | .text s :: rest =>
      let (e, rest) := textsFrom (.text s) rest
      some (some e, rest)
    | .number s :: rest => some (some (.number s), rest)
    | .symbol "." :: .number s :: rest => some (some (.number ("0." ++ s)), rest)
    | .symbol "*" :: rest => some (some (.star []), rest)
    | .symbol "(" :: rest => parenFrom fuel rest
    | t :: .symbol "(" :: rest =>
      if t.isWord "cast" || t.isWord "try_cast" then do
        let (e, rest) ← needed (levelFrom fuel .or rest)
        let rest ← afterWord? "as" rest
        let (type, rest) ← type? rest
        let rest ← afterSymbol? ")" rest
        return (some (.cast e type), rest)
      else if (name? ts).isSome then callFrom fuel t rest
      else literal ts
    | t :: rest => if t.isWord "case" then caseFrom fuel [] rest else literal ts
    | [] => some (none, [])

/-- A call, read after its opening parenthesis. -/
def callFrom : Nat → Token → List Token → Place
  | 0, _, _ => none
  | fuel + 1, t, ts => do
    let (arguments, _, rest) ← itemsFrom fuel [] (skipWords ["distinct"] ts)
    let rest ← afterSymbol? ")" rest
    match t with
    | .word n | .name n => return (some (.call n arguments), rest)
    | _ => none

/-- The cases of a choice, up to its end; `acc` holds the expressions before, last first. -/
def caseFrom : Nat → List Expr → List Token → Place
  | 0, _, _ => none
  | fuel + 1, acc, ts =>
    if let some rest := afterWord? "end" ts then some (some (.call "case" acc.reverse), rest)
    else do
      let (e, rest) ← needed (levelFrom fuel .or (skipWords ["when", "then", "else"] ts))
      caseFrom fuel (e :: acc) rest

/-- What stands in parentheses, read after the opening one. -/
def parenFrom : Nat → List Token → Place
  | 0, _ => none
  | fuel + 1, ts =>
    if beginsQuery ts then do
      let (q, rest) ← queryFrom fuel ts
      let rest ← afterSymbol? ")" rest
      return (some (.subquery q.reading), rest)
    else do
      let (items, hasComma, rest) ← itemsFrom fuel [] ts
      let rest ← afterSymbol? ")" rest
      match items, hasComma with
      | [e], false => return (some (.paren e), rest)
      | items, _ => return (some (.tuple items), rest)

/-- A query with its definitions and the clauses after it. -/
def queryFrom : Nat → List Token → Option (Statement × List Token)
  | 0, _ => none
  | fuel + 1, ts => do
    let (definitions, rest) ← match afterWord? "with" ts with
      | some rest => definitionsFrom fuel [] (skipWords ["recursive"] rest)
      | none => some ([], ts)
    let (q, rest) ← termFrom fuel rest
    let (q, rest) ← setOperatorsFrom fuel q rest
    return (q.define definitions, rest)

/-- The definitions in front of a query; `acc` holds those before, last first. -/
def definitionsFrom : Nat → List Reading → List Token → Option (List Reading × List Token)
  | 0, _, _ => none
  | fuel + 1, acc, ts => do
    let (n, rest) ← name? ts
    let rest ← match afterSymbol? "(" rest with
      | some inner => skipGroup ")" inner
      | none => some rest
    let rest ← afterWord? "as" rest
    let rest := skipWords ["materialized"] (skipWords ["not"] rest)
    let rest ← afterSymbol? "(" rest
    let (q, rest) ← queryFrom fuel rest
    let rest ← afterSymbol? ")" rest
    let acc := .defined n [q.reading] :: acc
    match afterSymbol? "," rest with
    | some rest => definitionsFrom fuel acc rest
    | none => return (acc.reverse, rest)

/-- A select, or a query in parentheses. -/
def termFrom : Nat → List Token → Option (Statement × List Token)
  | 0, _ => none
  | fuel + 1, ts =>
    if let some rest := afterSymbol? "(" ts then do
      let (q, rest) ← queryFrom fuel rest
      let rest ← afterSymbol? ")" rest
      return (.query (.part [q.reading]), rest)
    else do
      let rest ← afterWord? "select" ts
      let isDistinct := (afterWord? "distinct" rest).isSome
      let (items, _, rest) ← itemsFrom fuel [] (skipWords ["distinct", "all"] rest)
      let (s, rest) ← clausesFrom fuel { items, isDistinct } rest
      return (.select s, rest)

/-- Further queries after words that join queries, and the clauses of the whole. -/
def setOperatorsFrom : Nat → Statement → List Token → Option (Statement × List Token)
  | 0, _, _ => none
  | fuel + 1, q, ts =>
    match afterSetOperator? ts with
    | some rest => do
      let (other, rest) ← termFrom fuel rest
      let both := Reading.part [q.reading, other.reading]
      let (s, rest) ← clausesFrom fuel {} rest
      setOperatorsFrom fuel (.query (.part (both.parts ++ s.reading.parts))) rest
    | none => some (q, ts)

/-- The clauses of a select. -/
def clausesFrom : Nat → Select → List Token → Option (Select × List Token)
  | 0, _, _ => none
  | fuel + 1, s, ts =>
    if let some rest := afterWord? "from" ts then do
      if s.source.isSome then none
      else
        let (source, rest) ← sourceFrom fuel rest
        clausesFrom fuel { s with source := some source } rest
    else if let some rest := afterWord? "where" ts then do
      let (e, rest) ← needed (levelFrom fuel .or rest)
      clausesFrom fuel { s with filter := some e } rest
    else if let some rest := afterWords? ["group", "by"] ts then do
      let (es, _, rest) ← itemsFrom fuel [] rest
      clausesFrom fuel { s with grouping := es } rest
    else if let some rest := afterWord? "having" ts then do
      let (e, rest) ← needed (levelFrom fuel .or rest)
      clausesFrom fuel { s with having := some e } rest
    else if let some rest := afterWords? ["order", "by"] ts then do
      let (order, rest) ← orderFrom fuel [] rest
      clausesFrom fuel { s with order := order } rest
    else if let some rest := afterWord? "limit" ts then do
      let (e, rest) ← needed (levelFrom fuel .sum rest)
      clausesFrom fuel { s with limit := some e } rest
    else if let some rest := afterWord? "offset" ts then do
      let (e, rest) ← needed (levelFrom fuel .sum rest)
      clausesFrom fuel { s with offset := some e } (skipWords ["row", "rows"] rest)
    else match afterJoin? ts with
      | some rest => do
        if s.source.isNone then none
        else
          let (source, rest) ← sourceFrom fuel rest
          if let some rest := afterWord? "on" rest then do
            let (e, rest) ← needed (levelFrom fuel .or rest)
            let join := Reading.part [source.reading, e.reading]
            clausesFrom fuel { s with joins := s.joins ++ [join] } rest
          else if let some rest := afterWord? "using" rest then do
            let rest ← (afterSymbol? "(" rest).bind (skipGroup ")")
            clausesFrom fuel { s with joins := s.joins ++ [.part [source.reading]] } rest
          else clausesFrom fuel { s with joins := s.joins ++ [.part [source.reading]] } rest
      | none => some (s, ts)

/-- The expressions to order by; `acc` holds those before, last first. -/
def orderFrom : Nat → List (Expr × Bool) → List Token → Option (List (Expr × Bool) × List Token)
  | 0, _, _ => none
  | fuel + 1, acc, ts => do
    let (e, rest) ← needed (levelFrom fuel .or ts)
    let descends := (afterWord? "desc" rest).isSome
    let rest := skipWords ["asc", "desc"] rest
    let rest := match afterWord? "nulls" rest with
      | some rest => skipWords ["first", "last"] rest
      | none => rest
    let acc := (e, descends) :: acc
    match afterSymbol? "," rest with
    | some rest => orderFrom fuel acc rest
    | none => return (acc.reverse, rest)

/-- What is read from: a table, or a query in parentheses. -/
def sourceFrom : Nat → List Token → Option (Source × List Token)
  | 0, _ => none
  | fuel + 1, ts =>
    if let some rest := afterSymbol? "(" ts then do
      let (reading, rest) ← if beginsQuery rest then
          (queryFrom fuel rest).map fun (q, rest) => (q.reading, rest)
        else joinedFrom fuel rest
      let rest ← afterSymbol? ")" rest
      let (_, rest) ← tableAlias rest
      return (.subquery reading, rest)
    else do
      let (n, rest) ← name? ts
      let (names, isStar, rest) ← pathFrom ts.length [n] rest
      if isStar then none
      else
        let (aliasName?, rest) ← tableAlias rest
        return (.table ⟨names.dropLast, names.getLastD "", aliasName?⟩, rest)

/-- Tables that are joined in parentheses. -/
def joinedFrom : Nat → List Token → Option (Reading × List Token)
  | 0, _ => none
  | fuel + 1, ts => do
    let (source, rest) ← sourceFrom fuel ts
    let (s, rest) ← clausesFrom fuel { source := some source } rest
    return (s.reading, rest)

end

/-! ## Statements -/

/-- How deep the tokens of a statement can nest. -/
def depthBound (ts : List Token) : Nat := 24 * (ts.length + 2)

/-- A statement: an expression, or else a query. -/
def statementFrom (ts : List Token) : Option (Statement × List Token) :=
  if beginsQuery ts then queryFrom (depthBound ts) ts
  else
    match exprFrom (depthBound ts) ts with
    | some (some (.subquery r), rest) => setOperatorsFrom (depthBound ts) (.query (.part [r])) rest
    | some (some e, rest) => some (.expr e, rest)
    | some (none, _) => none
    | none => queryFrom (depthBound ts) ts

/-- Splits tokens at semicolons. -/
def splitStatements : List Token → List (List Token)
  | [] => [[]]
  | t :: rest =>
    match t, splitStatements rest with
    | .symbol ";", parts => [] :: parts
    | t, part :: parts => (t :: part) :: parts
    | t, [] => [[t]]

/-- Reads tokens that are exactly one statement, or none. -/
def whole (ts : List Token) : Option (Option Statement) :=
  match ts with
  | [] => some none
  | ts =>
    match statementFrom ts with
    | some (s, []) => some (some s)
    | _ => none

/-- Why a text is no statement: it has no tokens, or they make no sense. -/
inductive Fault where
  | badToken
  | badStatement
  deriving DecidableEq, Repr

/-- The first statement of a text; those after it have to make sense as well. -/
def parse (text : String) : Except Fault Statement :=
  match Token.read text with
  | none => .error .badToken
  | some ts =>
    match (splitStatements ts).mapM whole with
    | some (some s :: _) => .ok s
    | _ => .error .badStatement

end SchemaOnRead.Sql
