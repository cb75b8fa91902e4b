import Lumen.Grammar.Rule

/-!
# The JSON grammar

Documents are any number of values, with comments of both kinds between the tokens.
-/

namespace Lumen

namespace Language.Json

open Grammar Grammar.Rule

/-- The tokens that numbers are made of: an integer part without needless zeros, a fraction whose
digits may be missing, and an exponent. -/
def number : Rule String :=
  let digits : Rule String := .pattern "\\d+"
  let exponent := seqOf [oneOf ["e", "E"], seqOf [opt "-", digits]]
  let integer := seqOf [opt "-", oneOf ["0", seqOf [.pattern "[1-9]", opt digits]]]
  token (oneOf [
    seqOf [integer, ".", opt digits, opt exponent],
    seqOf [integer, opt exponent]])

def rules : List (String × Rule String) := [
  ("document", many (.sym "_value")),
  ("_value",
    oneOf [.sym "object", .sym "array", .sym "number", .sym "string", .sym "true", .sym "false",
      .sym "null"]),
  ("object", seqOf ["\x7b", sepBy "," (.sym "pair"), "\x7d"]),
  ("pair", seqOf [field "key" (.sym "string"), ":", field "value" (.sym "_value")]),
  ("array", seqOf ["[", sepBy "," (.sym "_value"), "]"]),
  ("string", oneOf [seqOf ["\"", "\""], seqOf ["\"", .sym "_string_content", "\""]]),
  ("_string_content", .rep (oneOf [.sym "string_content", .sym "escape_sequence"])),
  ("string_content", immediate (prec 1 (.pattern "[^\\\\\"\\n]+"))),
  ("escape_sequence", immediate (seqOf ["\\", .pattern "(\"|\\\\|/|b|f|n|r|t|u)"])),
  ("number", number),
  ("true", "true"),
  ("false", "false"),
  ("null", "null"),
  ("comment",
    token (oneOf [
      seqOf ["//", .pattern ".*"],
      seqOf ["/*", .pattern "[^*]*\\*+([^/*][^*]*\\*+)*", "/"]]))]

def grammar : Grammar where
  name := "json"
  rules := rules
  extras := [.pattern "\\s", .sym "comment"]
  supertypes := ["_value"]

end Language.Json

end Lumen
