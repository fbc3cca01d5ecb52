/-! # Kinds of tokens and nodes

Every element of a syntax tree has a kind. Token kinds are declared first and end with `eof`, node
kinds follow, and `tombstone` stands last for a node that was started and never completed. -/
set_option autoImplicit false
namespace ScriptTree

inductive Kind where
  | leftParen | rightParen | leftBracket | rightBracket | leftBrace | rightBrace | semicolon
  | comma | dot | dot3 | question | questionDot | colon | fatArrow | eq | eq2 | eq3 | bang | neq
  | neq2 | lt | gt | lteq | gteq | plus | minus | star | star2 | slash | percent | plus2 | minus2
  | shl | shr | ushr | amp | pipe | caret | tilde | amp2 | pipe2 | question2 | plusEq | minusEq
  | starEq | star2Eq | slashEq | percentEq | shlEq | shrEq | ushrEq | ampEq | pipeEq | caretEq
  | amp2Eq | pipe2Eq | question2Eq | breakKw | caseKw | catchKw | classKw | constKw | continueKw
  | debuggerKw | defaultKw | deleteKw | doKw | elseKw | enumKw | exportKw | extendsKw | falseKw
  | finallyKw | forKw | functionKw | ifKw | importKw | inKw | instanceofKw | newKw | nullKw
  | returnKw | superKw | switchKw | thisKw | throwKw | trueKw | tryKw | typeofKw | varKw | voidKw
  | whileKw | withKw | asyncKw | awaitKw | getKw | letKw | ofKw | setKw | staticKw | yieldKw
  | ident | privateName | number | string | regex | noSubstitutionTemplate | templateHead
  | templateMiddle | templateTail | unknown | eof | script | block | variableStatement
  | variableDeclaration | emptyStatement | expressionStatement | ifStatement | elseClause
  | doWhileStatement | whileStatement | forStatement | forInStatement | forOfStatement
  | continueStatement | breakStatement | returnStatement | withStatement | switchStatement
  | caseClause | defaultClause | labelledStatement | label | throwStatement | tryStatement
  | catchClause | finallyClause | debuggerStatement | functionDeclaration | generatorDeclaration
  | functionExpression | generatorExpression | arrowFunction | formalParameters | functionBody
  | classDeclaration | classExpression | extendsClause | classBody | method | generatorMethod
  | getter | setter | fieldDefinition | bindingIdentifier | arrayBindingPattern
  | objectBindingPattern | bindingProperty | initializedBindingElement | restElement
  | identifierReference | thisExpression | superExpression | literal | templateLiteral
  | taggedTemplate | arrayLiteral | spreadElement | objectLiteral | propertyName
  | computedPropertyName | pairProperty | shorthandProperty | parenthesizedExpression
  | dotMemberExpression | bracketMemberExpression | callExpression | arguments | newExpression
  | postfixExpression | unaryExpression | awaitExpression | binaryExpression
  | conditionalExpression | assignmentExpression | yieldExpression | sequenceExpression
  | tombstone
  deriving DecidableEq, Repr, Inhabited

namespace Kind

def all : List Kind := [
  .leftParen, .rightParen, .leftBracket, .rightBracket, .leftBrace, .rightBrace, .semicolon,
  .comma, .dot, .dot3, .question, .questionDot, .colon, .fatArrow, .eq, .eq2, .eq3, .bang, .neq,
  .neq2, .lt, .gt, .lteq, .gteq, .plus, .minus, .star, .star2, .slash, .percent, .plus2, .minus2,
  .shl, .shr, .ushr, .amp, .pipe, .caret, .tilde, .amp2, .pipe2, .question2, .plusEq, .minusEq,
  .starEq, .star2Eq, .slashEq, .percentEq, .shlEq, .shrEq, .ushrEq, .ampEq, .pipeEq, .caretEq,
  .amp2Eq, .pipe2Eq, .question2Eq, .breakKw, .caseKw, .catchKw, .classKw, .constKw, .continueKw,
  .debuggerKw, .defaultKw, .deleteKw, .doKw, .elseKw, .enumKw, .exportKw, .extendsKw, .falseKw,
  .finallyKw, .forKw, .functionKw, .ifKw, .importKw, .inKw, .instanceofKw, .newKw, .nullKw,
  .returnKw, .superKw, .switchKw, .thisKw, .throwKw, .trueKw, .tryKw, .typeofKw, .varKw, .voidKw,
  .whileKw, .withKw, .asyncKw, .awaitKw, .getKw, .letKw, .ofKw, .setKw, .staticKw, .yieldKw,
  .ident, .privateName, .number, .string, .regex, .noSubstitutionTemplate, .templateHead,
  .templateMiddle, .templateTail, .unknown, .eof, .script, .block, .variableStatement,
  .variableDeclaration, .emptyStatement, .expressionStatement, .ifStatement, .elseClause,
  .doWhileStatement, .whileStatement, .forStatement, .forInStatement, .forOfStatement,
  .continueStatement, .breakStatement, .returnStatement, .withStatement, .switchStatement,
  .caseClause, .defaultClause, .labelledStatement, .label, .throwStatement, .tryStatement,
  .catchClause, .finallyClause, .debuggerStatement, .functionDeclaration, .generatorDeclaration,
  .functionExpression, .generatorExpression, .arrowFunction, .formalParameters, .functionBody,
  .classDeclaration, .classExpression, .extendsClause, .classBody, .method, .generatorMethod,
  .getter, .setter, .fieldDefinition, .bindingIdentifier, .arrayBindingPattern,
  .objectBindingPattern, .bindingProperty, .initializedBindingElement, .restElement,
  .identifierReference, .thisExpression, .superExpression, .literal, .templateLiteral,
  .taggedTemplate, .arrayLiteral, .spreadElement, .objectLiteral, .propertyName,
  .computedPropertyName, .pairProperty, .shorthandProperty, .parenthesizedExpression,
  .dotMemberExpression, .bracketMemberExpression, .callExpression, .arguments, .newExpression,
  .postfixExpression, .unaryExpression, .awaitExpression, .binaryExpression,
  .conditionalExpression, .assignmentExpression, .yieldExpression, .sequenceExpression,
  .tombstone]

/-- Position of a kind in the order of declaration. -/
def raw (kind : Kind) : Nat := kind.ctorIdx

def ofRaw? (number : Nat) : Option Kind := all[number]?

/-! ## Names and spellings -/

def name : Kind → String
  | .leftParen => "LEFT_PAREN"
  | .rightParen => "RIGHT_PAREN"
  | .leftBracket => "LEFT_BRACKET"
  | .rightBracket => "RIGHT_BRACKET"
  | .leftBrace => "LEFT_BRACE"
  | .rightBrace => "RIGHT_BRACE"
  | .semicolon => "SEMICOLON"
  | .comma => "COMMA"
  | .dot => "DOT"
  | .dot3 => "DOT3"
  | .question => "QUESTION"
  | .questionDot => "QUESTION_DOT"
  | .colon => "COLON"
  | .fatArrow => "FAT_ARROW"
  | .eq => "EQ"
  | .eq2 => "EQ2"
  | .eq3 => "EQ3"
  | .bang => "BANG"
  | .neq => "NEQ"
  | .neq2 => "NEQ2"
  | .lt => "LT"
  | .gt => "GT"
  | .lteq => "LTEQ"
  | .gteq => "GTEQ"
  | .plus => "PLUS"
  | .minus => "MINUS"
  | .star => "STAR"
  | .star2 => "STAR2"
  | .slash => "SLASH"
  | .percent => "PERCENT"
  | .plus2 => "PLUS2"
  | .minus2 => "MINUS2"
  | .shl => "SHL"
  | .shr => "SHR"
  | .ushr => "USHR"
  | .amp => "AMP"
  | .pipe => "PIPE"
  | .caret => "CARET"
  | .tilde => "TILDE"
  | .amp2 => "AMP2"
  | .pipe2 => "PIPE2"
  | .question2 => "QUESTION2"
  | .plusEq => "PLUS_EQ"
  | .minusEq => "MINUS_EQ"
  | .starEq => "STAR_EQ"
  | .star2Eq => "STAR2_EQ"
  | .slashEq => "SLASH_EQ"
  | .percentEq => "PERCENT_EQ"
  | .shlEq => "SHL_EQ"
  | .shrEq => "SHR_EQ"
  | .ushrEq => "USHR_EQ"
  | .ampEq => "AMP_EQ"
  | .pipeEq => "PIPE_EQ"
  | .caretEq => "CARET_EQ"
  | .amp2Eq => "AMP2_EQ"
  | .pipe2Eq => "PIPE2_EQ"
  | .question2Eq => "QUESTION2_EQ"
  | .breakKw => "BREAK_KW"
  | .caseKw => "CASE_KW"
  | .catchKw => "CATCH_KW"
  | .classKw => "CLASS_KW"
  | .constKw => "CONST_KW"
  | .continueKw => "CONTINUE_KW"
  | .debuggerKw => "DEBUGGER_KW"
  | .defaultKw => "DEFAULT_KW"
  | .deleteKw => "DELETE_KW"
  | .doKw => "DO_KW"
  | .elseKw => "ELSE_KW"
  | .enumKw => "ENUM_KW"
  | .exportKw => "EXPORT_KW"
  | .extendsKw => "EXTENDS_KW"
  | .falseKw => "FALSE_KW"
  | .finallyKw => "FINALLY_KW"
  | .forKw => "FOR_KW"
  | .functionKw => "FUNCTION_KW"
  | .ifKw => "IF_KW"
  | .importKw => "IMPORT_KW"
  | .inKw => "IN_KW"
  | .instanceofKw => "INSTANCEOF_KW"
  | .newKw => "NEW_KW"
  | .nullKw => "NULL_KW"
  | .returnKw => "RETURN_KW"
  | .superKw => "SUPER_KW"
  | .switchKw => "SWITCH_KW"
  | .thisKw => "THIS_KW"
  | .throwKw => "THROW_KW"
  | .trueKw => "TRUE_KW"
  | .tryKw => "TRY_KW"
  | .typeofKw => "TYPEOF_KW"
  | .varKw => "VAR_KW"
  | .voidKw => "VOID_KW"
  | .whileKw => "WHILE_KW"
  | .withKw => "WITH_KW"
  | .asyncKw => "ASYNC_KW"
  | .awaitKw => "AWAIT_KW"
  | .getKw => "GET_KW"
  | .letKw => "LET_KW"
  | .ofKw => "OF_KW"
  | .setKw => "SET_KW"
  | .staticKw => "STATIC_KW"
  | .yieldKw => "YIELD_KW"
  | .ident => "IDENT"
  | .privateName => "PRIVATE_NAME"
  | .number => "NUMBER"
  | .string => "STRING"
  | .regex => "REGEX"
  | .noSubstitutionTemplate => "NO_SUBSTITUTION_TEMPLATE"
  | .templateHead => "TEMPLATE_HEAD"
  | .templateMiddle => "TEMPLATE_MIDDLE"
  | .templateTail => "TEMPLATE_TAIL"
  | .unknown => "UNKNOWN"
  | .eof => "EOF"
  | .script => "SCRIPT"
  | .block => "BLOCK"
  | .variableStatement => "VARIABLE_STATEMENT"
  | .variableDeclaration => "VARIABLE_DECLARATION"
  | .emptyStatement => "EMPTY_STATEMENT"
  | .expressionStatement => "EXPRESSION_STATEMENT"
  | .ifStatement => "IF_STATEMENT"
  | .elseClause => "ELSE_CLAUSE"
  | .doWhileStatement => "DO_WHILE_STATEMENT"
  | .whileStatement => "WHILE_STATEMENT"
  | .forStatement => "FOR_STATEMENT"
  | .forInStatement => "FOR_IN_STATEMENT"
  | .forOfStatement => "FOR_OF_STATEMENT"
  | .continueStatement => "CONTINUE_STATEMENT"
  | .breakStatement => "BREAK_STATEMENT"
  | .returnStatement => "RETURN_STATEMENT"
  | .withStatement => "WITH_STATEMENT"
  | .switchStatement => "SWITCH_STATEMENT"
  | .caseClause => "CASE_CLAUSE"
  | .defaultClause => "DEFAULT_CLAUSE"
  | .labelledStatement => "LABELLED_STATEMENT"
  | .label => "LABEL"
  | .throwStatement => "THROW_STATEMENT"
  | .tryStatement => "TRY_STATEMENT"
  | .catchClause => "CATCH_CLAUSE"
  | .finallyClause => "FINALLY_CLAUSE"
  | .debuggerStatement => "DEBUGGER_STATEMENT"
  | .functionDeclaration => "FUNCTION_DECLARATION"
  | .generatorDeclaration => "GENERATOR_DECLARATION"
  | .functionExpression => "FUNCTION_EXPRESSION"
  | .generatorExpression => "GENERATOR_EXPRESSION"
  | .arrowFunction => "ARROW_FUNCTION"
  | .formalParameters => "FORMAL_PARAMETERS"
  | .functionBody => "FUNCTION_BODY"
  | .classDeclaration => "CLASS_DECLARATION"
  | .classExpression => "CLASS_EXPRESSION"
  | .extendsClause => "EXTENDS_CLAUSE"
  | .classBody => "CLASS_BODY"
  | .method => "METHOD"
  | .generatorMethod => "GENERATOR_METHOD"
  | .getter => "GETTER"
  | .setter => "SETTER"
  | .fieldDefinition => "FIELD_DEFINITION"
  | .bindingIdentifier => "BINDING_IDENTIFIER"
  | .arrayBindingPattern => "ARRAY_BINDING_PATTERN"
  | .objectBindingPattern => "OBJECT_BINDING_PATTERN"
  | .bindingProperty => "BINDING_PROPERTY"
  | .initializedBindingElement => "INITIALIZED_BINDING_ELEMENT"
  | .restElement => "REST_ELEMENT"
  | .identifierReference => "IDENTIFIER_REFERENCE"
  | .thisExpression => "THIS_EXPRESSION"
  | .superExpression => "SUPER_EXPRESSION"
  | .literal => "LITERAL"
  | .templateLiteral => "TEMPLATE_LITERAL"
  | .taggedTemplate => "TAGGED_TEMPLATE"
  | .arrayLiteral => "ARRAY_LITERAL"
  | .spreadElement => "SPREAD_ELEMENT"
  | .objectLiteral => "OBJECT_LITERAL"
  | .propertyName => "PROPERTY_NAME"
  | .computedPropertyName => "COMPUTED_PROPERTY_NAME"
  | .pairProperty => "PAIR_PROPERTY"
  | .shorthandProperty => "SHORTHAND_PROPERTY"
  | .parenthesizedExpression => "PARENTHESIZED_EXPRESSION"
  | .dotMemberExpression => "DOT_MEMBER_EXPRESSION"
  | .bracketMemberExpression => "BRACKET_MEMBER_EXPRESSION"
  | .callExpression => "CALL_EXPRESSION"
  | .arguments => "ARGUMENTS"
  | .newExpression => "NEW_EXPRESSION"
  | .postfixExpression => "POSTFIX_EXPRESSION"
  | .unaryExpression => "UNARY_EXPRESSION"
  | .awaitExpression => "AWAIT_EXPRESSION"
  | .binaryExpression => "BINARY_EXPRESSION"
  | .conditionalExpression => "CONDITIONAL_EXPRESSION"
  | .assignmentExpression => "ASSIGNMENT_EXPRESSION"
  | .yieldExpression => "YIELD_EXPRESSION"
  | .sequenceExpression => "SEQUENCE_EXPRESSION"
  | .tombstone => "TOMBSTONE"

def ofName? (word : String) : Option Kind := all.find? fun kind => kind.name == word

/-- The fixed spelling of punctuators and keywords. -/
def text : Kind → Option String
  | .leftParen => some "("
  | .rightParen => some ")"
  | .leftBracket => some "["
  | .rightBracket => some "]"
  | .leftBrace => some "\x7b"
  | .rightBrace => some "\x7d"
  | .semicolon => some ";"
  | .comma => some ","
  | .dot => some "."
  | .dot3 => some "..."
  | .question => some "?"
  | .questionDot => some "?."
  | .colon => some ":"
  | .fatArrow => some "=>"
  | .eq => some "="
  | .eq2 => some "=="
  | .eq3 => some "==="
  | .bang => some "!"
  | .neq => some "!="
  | .neq2 => some "!=="
  | .lt => some "<"
  | .gt => some ">"
  | .lteq => some "<="
  | .gteq => some ">="
  | .plus => some "+"
  | .minus => some "-"
  | .star => some "*"
  | .star2 => some "**"
  | .slash => some "/"
  | .percent => some "%"
  | .plus2 => some "++"
  | .minus2 => some "--"
  | .shl => some "<<"
  | .shr => some ">>"
  | .ushr => some ">>>"
  | .amp => some "&"
  | .pipe => some "|"
  | .caret => some "^"
  | .tilde => some "~"
  | .amp2 => some "&&"
  | .pipe2 => some "||"
  | .question2 => some "??"
  | .plusEq => some "+="
  | .minusEq => some "-="
  | .starEq => some "*="
  | .star2Eq => some "**="
  | .slashEq => some "/="
  | .percentEq => some "%="
  | .shlEq => some "<<="
  | .shrEq => some ">>="
  | .ushrEq => some ">>>="
  | .ampEq => some "&="
  | .pipeEq => some "|="
  | .caretEq => some "^="
  | .amp2Eq => some "&&="
  | .pipe2Eq => some "||="
  | .question2Eq => some "??="
  | .breakKw => some "break"
  | .caseKw => some "case"
  | .catchKw => some "catch"
  | .classKw => some "class"
  | .constKw => some "const"
  | .continueKw => some "continue"
  | .debuggerKw => some "debugger"
  | .defaultKw => some "default"
  | .deleteKw => some "delete"
  | .doKw => some "do"
  | .elseKw => some "else"
  | .enumKw => some "enum"
  | .exportKw => some "export"
  | .extendsKw => some "extends"
  | .falseKw => some "false"
  | .finallyKw => some "finally"
  | .forKw => some "for"
  | .functionKw => some "function"
  | .ifKw => some "if"
  | .importKw => some "import"
  | .inKw => some "in"
  | .instanceofKw => some "instanceof"
  | .newKw => some "new"
  | .nullKw => some "null"
  | .returnKw => some "return"
  | .superKw => some "super"
  | .switchKw => some "switch"
  | .thisKw => some "this"
  | .throwKw => some "throw"
  | .trueKw => some "true"
  | .tryKw => some "try"
  | .typeofKw => some "typeof"
  | .varKw => some "var"
  | .voidKw => some "void"
  | .whileKw => some "while"
  | .withKw => some "with"
  | .asyncKw => some "async"
  | .awaitKw => some "await"
  | .getKw => some "get"
  | .letKw => some "let"
  | .ofKw => some "of"
  | .setKw => some "set"
  | .staticKw => some "static"
  | .yieldKw => some "yield"
  | _ => none

/-! ## Classes of kinds -/

def isToken (kind : Kind) : Bool := kind.raw ≤ Kind.eof.raw

def isNode (kind : Kind) : Bool := Kind.eof.raw < kind.raw && kind != .tombstone

def isPunctuator (kind : Kind) : Bool := kind.raw ≤ Kind.question2Eq.raw

/-- Words that can never be used as identifiers. -/
def isReservedWord (kind : Kind) : Bool :=
  Kind.breakKw.raw ≤ kind.raw && kind.raw ≤ Kind.withKw.raw

/-- Words with a keyword meaning only in some positions. -/
def isContextualKeyword (kind : Kind) : Bool :=
  Kind.asyncKw.raw ≤ kind.raw && kind.raw ≤ Kind.yieldKw.raw

def isKeyword (kind : Kind) : Bool := kind.isReservedWord || kind.isContextualKeyword

def isTemplate : Kind → Bool
  | .noSubstitutionTemplate | .templateHead | .templateMiddle | .templateTail => true
  | _ => false

def ofKeyword? (word : String) : Option Kind :=
  match word with
  | "break" => some .breakKw
  | "case" => some .caseKw
  | "catch" => some .catchKw
  | "class" => some .classKw
  | "const" => some .constKw
  | "continue" => some .continueKw
  | "debugger" => some .debuggerKw
  | "default" => some .defaultKw
  | "delete" => some .deleteKw
  | "do" => some .doKw
  | "else" => some .elseKw
  | "enum" => some .enumKw
  | "export" => some .exportKw
  | "extends" => some .extendsKw
  | "false" => some .falseKw
  | "finally" => some .finallyKw
  | "for" => some .forKw
  | "function" => some .functionKw
  | "if" => some .ifKw
  | "import" => some .importKw
  | "in" => some .inKw
  | "instanceof" => some .instanceofKw
  | "new" => some .newKw
  | "null" => some .nullKw
  | "return" => some .returnKw
  | "super" => some .superKw
  | "switch" => some .switchKw
  | "this" => some .thisKw
  | "throw" => some .throwKw
  | "true" => some .trueKw
  | "try" => some .tryKw
  | "typeof" => some .typeofKw
  | "var" => some .varKw
  | "void" => some .voidKw
  | "while" => some .whileKw
  | "with" => some .withKw
  | "async" => some .asyncKw
  | "await" => some .awaitKw
  | "get" => some .getKw
  | "let" => some .letKw
  | "of" => some .ofKw
  | "set" => some .setKw
  | "static" => some .staticKw
  | "yield" => some .yieldKw
  | _ => none

/-! ## Descriptions -/

/-- A printed name in running text: lower case, words apart. -/
private def spaced (printed : String) : String :=
  String.ofList (printed.toList.map fun char => if char = '_' then ' ' else char.toLower)

/-- How a diagnostic speaks of a kind: a fixed spelling in backticks, else a phrase. -/
def describe (kind : Kind) : String :=
  match kind.text with
  | some spelling => "`" ++ spelling ++ "`"
  | none =>
    match kind with
    | .ident => "identifier"
    | .privateName => "private name"
    | .number => "number"
    | .string => "string"
    | .regex => "regular expression"
    | .noSubstitutionTemplate | .templateHead => "template"
    | .templateMiddle | .templateTail => "template continuation"
    | .unknown => "unknown token"
    | .eof => "end of file"
    | _ => spaced kind.name

theorem ofRaw?_raw (kind : Kind) : ofRaw? kind.raw = some kind := by
  cases kind <;> rfl

theorem mem_all (kind : Kind) : kind ∈ all :=
  List.mem_of_getElem? (ofRaw?_raw kind)

theorem raw_injective {left right : Kind} (same : left.raw = right.raw) : left = right := by
  have found := ofRaw?_raw left
  rw [same, ofRaw?_raw right] at found
  exact (Option.some.inj found).symm

/-- The words of `ofKeyword?` are spelled as `text` spells their kinds. -/
theorem text_of_ofKeyword? {word : String} {kind : Kind} (found : ofKeyword? word = some kind) :
    kind.isKeyword = true ∧ kind.text = some word := by
  unfold ofKeyword? at found
  split at found
  all_goals cases found
  all_goals exact ⟨rfl, rfl⟩

/-- A mask of 256 bits has one for each kind. -/
theorem raw_lt (kind : Kind) : kind.raw < 256 := by
  cases kind <;> decide

end Kind
end ScriptTree
