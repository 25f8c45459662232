import CodeAgent.Text.CodePoint

namespace CodeAgent.Source

inductive TokenKind where
  /-- A name as it is spelled; it can be a word with a meaning in some places only. -/
  | name (spelling : List Char)
  /-- A reserved word or an operator. -/
  | mark (spelling : String)
  | number (imaginary : Bool)
  /-- A string literal. The texts are the expressions that stand in it between braces. -/
  | string (bytes : Bool) (embedded : List (List Char))
  | newline
  | indent
  | dedent
  | stop
deriving DecidableEq

/-- A token with the lines of its first and its last character. -/
structure Token where
  kind : TokenKind
  line : Nat
  endLine : Nat
deriving DecidableEq

def reserved : List String :=
  ["False", "None", "True", "and", "as", "assert", "async", "await", "break", "class", "continue",
   "def", "del", "elif", "else", "except", "finally", "for", "from", "global", "if", "import", "in",
   "is", "lambda", "nonlocal", "not", "or", "pass", "raise", "return", "try", "while", "with",
   "yield"]

/-- Operators and delimiters, longer ones before their own beginnings. -/
def operators : List String :=
  ["**=", "//=", ">>=", "<<=", "...", "->", ":=", "!=", "==", "<=", ">=", "+=", "-=", "*=", "/=",
   "%=", "&=", "|=", "^=", "@=", "**", "//", "<<", ">>", "(", ")", "[", "]", "\x7b", "\x7d", ",",
   ":", ".", ";", "@", "=", "+", "-", "*", "/", "%", "&", "|", "^", "~", "<", ">"]

end CodeAgent.Source
