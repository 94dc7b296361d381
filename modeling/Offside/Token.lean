import Offside.Location

/-!
# Tokens

A token has a kind, a payload and a location. The payload of a string literal is a list of segments:
literal text, and interpolated expressions that are token lists of their own. Four kinds never come
from the characters of a source: the three layout kinds and, at the end, the end of file.
-/

namespace Offside

namespace Token

/-- The kinds of tokens. -/
inductive Kind where
  | endOfFile
  | integer
  | float
  | string
  | identifier
  | fnWord
  | ifWord
  | thenWord
  | elseWord
  | forWord
  | whileWord
  | trueWord
  | falseWord
  | declare
  | assign
  | plusAssign
  | concatAssign
  | plus
  | minus
  | star
  | slash
  | doubleSlash
  | percent
  | concat
  | equal
  | notEqual
  | less
  | greater
  | lessEqual
  | greaterEqual
  | and
  | or
  | not
  /-- An attached `!`, which marks a call. -/
  | bang
  | pipe
  | dot
  | doubleDot
  | thinArrow
  | leftArrow
  | leftParen
  | rightParen
  | leftBracket
  | rightBracket
  | leftBrace
  | rightBrace
  | comma
  | colon
  | semicolon
  | newline
  | blockStart
  | blockEnd
  | statementEnd
  /-- Characters that form no token; the payload says why. -/
  | invalid
  deriving DecidableEq

namespace Kind

/-- All kinds with the names under which listings show them. -/
def names : List (Kind × String) :=
  [(.endOfFile, "EOF"), (.integer, "INTEGER"), (.float, "FLOAT"), (.string, "STRING"),
    (.identifier, "IDENTIFIER"), (.fnWord, "FN"), (.ifWord, "IF"), (.thenWord, "THEN"),
    (.elseWord, "ELSE"), (.forWord, "FOR"), (.whileWord, "WHILE"), (.trueWord, "TRUE"),
    (.falseWord, "FALSE"), (.declare, "DECLARE"), (.assign, "ASSIGN"),
    (.plusAssign, "PLUS_ASSIGN"), (.concatAssign, "CONCAT_ASSIGN"), (.plus, "PLUS"),
    (.minus, "MINUS"), (.star, "STAR"), (.slash, "SLASH"), (.doubleSlash, "DOUBLE_SLASH"),
    (.percent, "PERCENT"), (.concat, "CONCAT"), (.equal, "EQ"), (.notEqual, "NE"), (.less, "LT"),
    (.greater, "GT"), (.lessEqual, "LE"), (.greaterEqual, "GE"), (.and, "AND"), (.or, "OR"),
    (.not, "NOT"), (.bang, "BANG"), (.pipe, "PIPE"), (.dot, "DOT"), (.doubleDot, "DOUBLE_DOT"),
    (.thinArrow, "THIN_ARROW"), (.leftArrow, "LEFT_ARROW"), (.leftParen, "LPAREN"),
    (.rightParen, "RPAREN"), (.leftBracket, "LBRACKET"), (.rightBracket, "RBRACKET"),
    (.leftBrace, "LBRACE"), (.rightBrace, "RBRACE"), (.comma, "COMMA"), (.colon, "COLON"),
    (.semicolon, "SEMICOLON"), (.newline, "NEWLINE"), (.blockStart, "BLOCK_START"),
    (.blockEnd, "BLOCK_END"), (.statementEnd, "STATEMENT_END"), (.invalid, "INVALID")]

/-- The name under which listings show a kind. -/
def name (kind : Kind) : String :=
  (names.lookup kind).getD ""

/-- The kind with a given name. -/
def ofName? (name : String) : Option Kind :=
  (names.find? (·.2 == name)).map (·.1)

/-- The operators that stand between two operands, the pipe and the range dots included. -/
def isBinaryOperator : Kind → Bool
  | .plus | .minus | .star | .slash | .doubleSlash | .percent | .concat | .equal | .notEqual
  | .less | .greater | .lessEqual | .greaterEqual | .and | .or | .doubleDot | .pipe => true
  | _ => false

/-- The brackets that open. -/
def isOpening : Kind → Bool
  | .leftParen | .leftBracket | .leftBrace => true
  | _ => false

/-- The brackets that close. -/
def isClosing : Kind → Bool
  | .rightParen | .rightBracket | .rightBrace => true
  | _ => false

end Kind

/-- The reserved words. -/
def keywords : List (String × Kind) :=
  [("fn", .fnWord), ("if", .ifWord), ("then", .thenWord), ("else", .elseWord), ("for", .forWord),
    ("while", .whileWord), ("true", .trueWord), ("false", .falseWord)]

/-- The operators and punctuation marks, longer ones first. -/
def operators : List (String × Kind) :=
  [("++=", .concatAssign), (":=", .declare), ("+=", .plusAssign), ("++", .concat), ("==", .equal),
    ("!=", .notEqual), ("<=", .lessEqual), (">=", .greaterEqual), ("&&", .and), ("||", .or),
    ("|>", .pipe), ("..", .doubleDot), ("->", .thinArrow), ("<-", .leftArrow),
    ("//", .doubleSlash), ("+", .plus), ("-", .minus), ("*", .star), ("/", .slash),
    ("%", .percent), ("<", .less), (">", .greater), ("=", .assign), ("!", .not), (".", .dot),
    ("(", .leftParen), (")", .rightParen), ("[", .leftBracket), ("]", .rightBracket),
    ("\x7b", .leftBrace), ("\x7d", .rightBrace), (",", .comma), (":", .colon),
    (";", .semicolon)]

end Token

mutual

/-- A part of a string literal. -/
inductive Segment where
  /-- Literal text. -/
  | text (text : String)
  /-- An interpolated expression: its tokens, up to an end of file, and its source text. -/
  | expression (tokens : List Token) (source : String)

/-- What a token carries besides its kind. -/
inductive Payload where
  | absent
  | text (text : String)
  | integer (value : Int)
  | float (value : Float)
  | boolean (value : Bool)
  | segments (segments : List Segment)

/-- A token of a source text. -/
structure Token where
  /-- The kind of the token. -/
  kind : Token.Kind
  /-- The value of a literal, the text of a word or an operator, or the fault of invalid text. -/
  payload : Payload
  /-- The place of the first character. -/
  location : Location

end

instance : Inhabited Token := ⟨⟨.endOfFile, .absent, .start none⟩⟩

namespace Token

/-- A token that layout inserts. -/
def inserted (kind : Kind) (location : Location) : Token := ⟨kind, .absent, location⟩

mutual

/-- How deeply interpolations nest in a token. -/
def depth : Token → Nat
  | ⟨_, .segments segments, _⟩ => depthOfSegments segments
  | _ => 0

/-- How deeply interpolations nest in the segments of a string literal. -/
def depthOfSegments : List Segment → Nat
  | [] => 0
  | .text _ :: rest => depthOfSegments rest
  | .expression tokens _ :: rest => max (depthOfTokens tokens + 1) (depthOfSegments rest)

/-- How deeply interpolations nest in a list of tokens. -/
def depthOfTokens : List Token → Nat
  | [] => 0
  | token :: rest => max (depth token) (depthOfTokens rest)

end

end Token

end Offside
