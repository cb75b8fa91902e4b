import Lumen.Language.Rust.Declarations
import Lumen.Language.Rust.Types
import Lumen.Language.Rust.Expressions
import Lumen.Language.Rust.Literals

/-!
# The Rust grammar

The rules of the five rule modules in one grammar. Rules are numbered in this order, which is also
the order in which equal claims on a token are settled.
-/

namespace Lumen

namespace Language.Rust

open Grammar

def grammar : Grammar where
  name := "rust"
  rules := statementRules ++ macroRuleSet ++ itemRules ++ typeRules ++ expressionRules ++
    patternRules ++ literalRules
  extras := [.pattern "\\s", .sym "line_comment", .sym "block_comment"]
  externals := ["string_content", "_raw_string_literal_start", "raw_string_literal_content",
    "_raw_string_literal_end", "float_literal", "_outer_block_doc_comment_marker",
    "_inner_block_doc_comment_marker", "_block_comment_content", "_line_doc_content",
    "_error_sentinel"]
  supertypes := ["_expression", "_type", "_literal", "_literal_pattern",
    "_declaration_statement", "_pattern"]
  inlined := ["_path", "_type_identifier", "_tokens", "_field_identifier", "_non_special_token",
    "_declaration_statement", "_reserved_identifier", "_expression_ending_with_block"]
  word := some "identifier"

end Language.Rust

end Lumen
