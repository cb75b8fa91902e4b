import Lumen.Grammar.Rule

/-!
# Vocabulary of the Rust grammar

Binding strengths and the word lists that several rules share.
-/

namespace Lumen

namespace Language.Rust

open Grammar Grammar.Rule

namespace Level

/-! ## Binding strengths -/

def call : Int := 15
def field : Int := 14
def attempt : Int := 13
def unary : Int := 12
def cast : Int := 11
def multiplicative : Int := 10
def additive : Int := 9
def shift : Int := 8
def bitand : Int := 7
def bitxor : Int := 6
def bitor : Int := 5
def comparative : Int := 4
def and : Int := 3
def or : Int := 2
def range : Int := 1
def assign : Int := 0
def closure : Int := -1

end Level

def numericTypes : List (Rule String) := [
  "u8", "i8", "u16", "i16", "u32", "i32", "u64", "i64", "u128", "i128", "isize", "usize", "f32",
  "f64"].map .text

def primitiveTypes : List (Rule String) := numericTypes ++ ["bool", "str", "char"].map .text

/-- Punctuation that has no part in the nesting of token trees. -/
def punctuation : List (Rule String) := [
  "+", "-", "*", "/", "%", "^", "!", "&", "|", "&&", "||", "<<", ">>", "+=", "-=", "*=", "/=",
  "%=", "^=", "&=", "|=", "<<=", ">>=", "=", "==", "!=", ">", "<", ">=", "<=", "@", "_", ".",
  "..", "...", "..=", ",", ";", ":", "::", "->", "=>", "#", "?"].map .text

/-- The quote and the keywords that may stand in a token tree. -/
def tokenTreeWords : List (Rule String) := [
  "'", "as", "async", "await", "break", "const", "continue", "default", "enum", "fn", "for", "gen",
  "if", "impl", "let", "loop", "match", "mod", "pub", "return", "static", "struct", "trait",
  "type", "union", "unsafe", "use", "where", "while"].map .text

/-- The binary operators by binding strength. -/
def binaryOperators : List (Int × List String) := [
  (Level.and, ["&&"]),
  (Level.or, ["||"]),
  (Level.bitand, ["&"]),
  (Level.bitor, ["|"]),
  (Level.bitxor, ["^"]),
  (Level.comparative, ["==", "!=", "<", "<=", ">", ">="]),
  (Level.shift, ["<<", ">>"]),
  (Level.additive, ["+", "-"]),
  (Level.multiplicative, ["*", "/", "%"])]

/-- The body of a macro definition: arms that end in a semicolon, the last of which may do
without it. -/
def macroRules : Rule String :=
  seqOf [many (seqOf [.sym "macro_rule", ";"]), opt (.sym "macro_rule")]

end Language.Rust

end Lumen
