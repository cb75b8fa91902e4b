import Lumen.Language.Rust.Vocabulary

/-!
# Expressions and patterns of the Rust grammar

Expressions, blocks and patterns.
-/

namespace Lumen

namespace Language.Rust

open Grammar Grammar.Rule

def expressionRules : List (String × Rule String) := [
  ("_expression_except_range",
    oneOf [
      .sym "unary_expression",
      .sym "reference_expression",
      .sym "try_expression",
      .sym "binary_expression",
      .sym "assignment_expression",
      .sym "compound_assignment_expr",
      .sym "type_cast_expression",
      .sym "call_expression",
      .sym "return_expression",
      .sym "yield_expression",
      .sym "_literal",
      precLeft 0 (.sym "identifier"),
      shownAs "identifier" (oneOf primitiveTypes),
      precLeft 0 (.sym "_reserved_identifier"),
      .sym "self",
      .sym "scoped_identifier",
      .sym "generic_function",
      .sym "await_expression",
      .sym "field_expression",
      .sym "array_expression",
      .sym "tuple_expression",
      prec 1 (.sym "macro_invocation"),
      .sym "unit_expression",
      .sym "break_expression",
      .sym "continue_expression",
      .sym "index_expression",
      .sym "metavariable",
      .sym "closure_expression",
      .sym "parenthesized_expression",
      .sym "struct_expression",
      .sym "_expression_ending_with_block"]),
  ("_expression",
    oneOf [.sym "_expression_except_range", .sym "range_expression"]),
  ("_expression_ending_with_block",
    oneOf [
      .sym "unsafe_block",
      .sym "async_block",
      .sym "gen_block",
      .sym "try_block",
      .sym "block",
      .sym "if_expression",
      .sym "match_expression",
      .sym "while_expression",
      .sym "loop_expression",
      .sym "for_expression",
      .sym "const_block"]),
  ("macro_invocation",
    seqOf [
      field "macro" (oneOf [
        .sym "scoped_identifier", .sym "identifier", .sym "_reserved_identifier"]),
      "!",
      shownAs "token_tree" (.sym "delim_token_tree")]),
  ("delim_token_tree",
    oneOf [
      seqOf ["(", many (.sym "_delim_tokens"), ")"],
      seqOf ["[", many (.sym "_delim_tokens"), "]"],
      seqOf ["\x7b", many (.sym "_delim_tokens"), "\x7d"]]),
  ("_delim_tokens",
    oneOf [.sym "_non_delim_token", shownAs "token_tree" (.sym "delim_token_tree")]),
  ("_non_delim_token",
    oneOf [.sym "_non_special_token", "$"]),
  ("scoped_identifier",
    seqOf [
      field "path" (opt (oneOf [
        .sym "_path",
        .sym "bracketed_type",
        shownAs "generic_type" (.sym "generic_type_with_turbofish")])),
      "::",
      field "name" (oneOf [.sym "identifier", .sym "super"])]),
  ("scoped_type_identifier_in_expression_position",
    prec (-2) (seqOf [
      field "path" (opt (oneOf [
        .sym "_path", shownAs "generic_type" (.sym "generic_type_with_turbofish")])),
      "::",
      field "name" (.sym "_type_identifier")])),
  ("scoped_type_identifier",
    seqOf [
      field "path" (opt (oneOf [
        .sym "_path",
        shownAs "generic_type" (.sym "generic_type_with_turbofish"),
        .sym "bracketed_type",
        .sym "generic_type"])),
      "::",
      field "name" (.sym "_type_identifier")]),
  ("range_expression",
    precLeft Level.range (oneOf [
      seqOf [.sym "_expression", oneOf ["..", "...", "..="], .sym "_expression"],
      seqOf [.sym "_expression", ".."],
      seqOf ["..", .sym "_expression"],
      ".."])),
  ("unary_expression",
    prec Level.unary (seqOf [oneOf ["-", "*", "!"], .sym "_expression"])),
  ("try_expression",
    prec Level.attempt (seqOf [.sym "_expression", "?"])),
  ("reference_expression",
    prec Level.unary (seqOf [
      "&",
      oneOf [
        seqOf ["raw", oneOf ["const", .sym "mutable_specifier"]],
        opt (.sym "mutable_specifier")],
      field "value" (.sym "_expression")])),
  ("binary_expression",
    oneOf (binaryOperators.map fun (level, operators) =>
      precLeft level (seqOf [
        field "left" (.sym "_expression"),
        field "operator" (oneOf (operators.map .text)),
        field "right" (.sym "_expression")]))),
  ("assignment_expression",
    precLeft Level.assign (seqOf [
      field "left" (.sym "_expression"), "=", field "right" (.sym "_expression")])),
  ("compound_assignment_expr",
    precLeft Level.assign (seqOf [
      field "left" (.sym "_expression"),
      field "operator" (oneOf ["+=", "-=", "*=", "/=", "%=", "&=", "|=", "^=", "<<=", ">>="]),
      field "right" (.sym "_expression")])),
  ("type_cast_expression",
    precLeft Level.cast (seqOf [
      field "value" (.sym "_expression"), "as", field "type" (.sym "_type")])),
  ("return_expression",
    oneOf [precLeft 0 (seqOf ["return", .sym "_expression"]), prec (-1) "return"]),
  ("yield_expression",
    oneOf [precLeft 0 (seqOf ["yield", .sym "_expression"]), prec (-1) "yield"]),
  ("call_expression",
    prec Level.call (seqOf [
      field "function" (.sym "_expression_except_range"),
      field "arguments" (.sym "arguments")])),
  ("arguments",
    seqOf [
      "(",
      sepBy "," (seqOf [many (.sym "attribute_item"), .sym "_expression"]),
      opt ",",
      ")"]),
  ("array_expression",
    seqOf [
      "[",
      many (.sym "attribute_item"),
      oneOf [
        seqOf [.sym "_expression", ";", field "length" (.sym "_expression")],
        seqOf [sepBy "," (seqOf [many (.sym "attribute_item"), .sym "_expression"]), opt ","]],
      "]"]),
  ("parenthesized_expression",
    seqOf ["(", .sym "_expression", ")"]),
  ("tuple_expression",
    seqOf [
      "(",
      many (.sym "attribute_item"),
      seqOf [.sym "_expression", ","],
      many (seqOf [.sym "_expression", ","]),
      opt (.sym "_expression"),
      ")"]),
  ("unit_expression",
    seqOf ["(", ")"]),
  ("struct_expression",
    seqOf [
      field "name" (oneOf [
        .sym "_type_identifier",
        shownAs "scoped_type_identifier" (.sym "scoped_type_identifier_in_expression_position"),
        .sym "generic_type_with_turbofish"]),
      field "body" (.sym "field_initializer_list")]),
  ("field_initializer_list",
    seqOf [
      "\x7b",
      sepBy "," (oneOf [
        .sym "shorthand_field_initializer",
        .sym "field_initializer",
        .sym "base_field_initializer"]),
      opt ",",
      "\x7d"]),
  ("shorthand_field_initializer",
    seqOf [many (.sym "attribute_item"), .sym "identifier"]),
  ("field_initializer",
    seqOf [
      many (.sym "attribute_item"),
      field "field" (oneOf [.sym "_field_identifier", .sym "integer_literal"]),
      ":",
      field "value" (.sym "_expression")]),
  ("base_field_initializer",
    seqOf ["..", .sym "_expression"]),
  ("if_expression",
    precRight 0 (seqOf [
      "if",
      field "condition" (.sym "_condition"),
      field "consequence" (.sym "block"),
      opt (field "alternative" (.sym "else_clause"))])),
  ("let_condition",
    seqOf [
      "let",
      field "pattern" (.sym "_pattern"),
      "=",
      field "value" (precLeft Level.and (.sym "_expression"))]),
  ("_let_chain",
    precLeft Level.and (oneOf [
      seqOf [.sym "_let_chain", "&&", .sym "let_condition"],
      seqOf [.sym "_let_chain", "&&", .sym "_expression"],
      seqOf [.sym "let_condition", "&&", .sym "_expression"],
      seqOf [.sym "let_condition", "&&", .sym "let_condition"],
      seqOf [.sym "_expression", "&&", .sym "let_condition"]])),
  ("_condition",
    oneOf [.sym "_expression", .sym "let_condition", shownAs "let_chain" (.sym "_let_chain")]),
  ("else_clause",
    seqOf ["else", oneOf [.sym "block", .sym "if_expression"]]),
  ("match_expression",
    seqOf ["match", field "value" (.sym "_expression"), field "body" (.sym "match_block")]),
  ("match_block",
    seqOf [
      "\x7b",
      opt (seqOf [many (.sym "match_arm"), shownAs "match_arm" (.sym "last_match_arm")]),
      "\x7d"]),
  ("match_arm",
    precRight 0 (seqOf [
      many (oneOf [.sym "attribute_item", .sym "inner_attribute_item"]),
      field "pattern" (.sym "match_pattern"),
      "=>",
      oneOf [
        seqOf [field "value" (.sym "_expression"), ","],
        field "value" (prec 1 (.sym "_expression_ending_with_block"))]])),
  ("last_match_arm",
    seqOf [
      many (oneOf [.sym "attribute_item", .sym "inner_attribute_item"]),
      field "pattern" (.sym "match_pattern"),
      "=>",
      field "value" (.sym "_expression"),
      opt ","]),
  ("match_pattern",
    seqOf [.sym "_pattern", opt (seqOf ["if", field "condition" (.sym "_condition")])]),
  ("while_expression",
    seqOf [
      opt (seqOf [.sym "label", ":"]),
      "while",
      field "condition" (.sym "_condition"),
      field "body" (.sym "block")]),
  ("loop_expression",
    seqOf [opt (seqOf [.sym "label", ":"]), "loop", field "body" (.sym "block")]),
  ("for_expression",
    seqOf [
      opt (seqOf [.sym "label", ":"]),
      "for",
      field "pattern" (.sym "_pattern"),
      "in",
      field "value" (.sym "_expression"),
      field "body" (.sym "block")]),
  ("const_block",
    seqOf ["const", field "body" (.sym "block")]),
  ("closure_expression",
    prec Level.closure (seqOf [
      opt "static",
      opt "async",
      opt "move",
      field "parameters" (.sym "closure_parameters"),
      oneOf [
        seqOf [
          opt (seqOf ["->", field "return_type" (.sym "_type")]),
          field "body" (.sym "block")],
        field "body" (oneOf [.sym "_expression", "_"])]])),
  ("closure_parameters",
    seqOf ["|", sepBy "," (oneOf [.sym "_pattern", .sym "parameter"]), "|"]),
  ("label",
    seqOf ["'", .sym "identifier"]),
  ("break_expression",
    precLeft 0 (seqOf ["break", opt (.sym "label"), opt (.sym "_expression")])),
  ("continue_expression",
    precLeft 0 (seqOf ["continue", opt (.sym "label")])),
  ("index_expression",
    prec Level.call (seqOf [.sym "_expression", "[", .sym "_expression", "]"])),
  ("await_expression",
    prec Level.field (seqOf [.sym "_expression", ".", "await"])),
  ("field_expression",
    prec Level.field (seqOf [
      field "value" (.sym "_expression"),
      ".",
      field "field" (oneOf [.sym "_field_identifier", .sym "integer_literal"])])),
  ("unsafe_block",
    seqOf ["unsafe", .sym "block"]),
  ("async_block",
    seqOf ["async", opt "move", .sym "block"]),
  ("gen_block",
    seqOf ["gen", opt "move", .sym "block"]),
  ("try_block",
    seqOf ["try", .sym "block"]),
  ("block",
    seqOf [
      opt (seqOf [.sym "label", ":"]),
      "\x7b",
      many (.sym "_statement"),
      opt (.sym "_expression"),
      "\x7d"])]

def patternRules : List (String × Rule String) := [
  ("_pattern",
    oneOf [
      .sym "_literal_pattern",
      shownAs "identifier" (oneOf primitiveTypes),
      .sym "identifier",
      .sym "scoped_identifier",
      .sym "generic_pattern",
      .sym "tuple_pattern",
      .sym "tuple_struct_pattern",
      .sym "struct_pattern",
      .sym "_reserved_identifier",
      .sym "ref_pattern",
      .sym "slice_pattern",
      .sym "captured_pattern",
      .sym "reference_pattern",
      .sym "remaining_field_pattern",
      .sym "mut_pattern",
      .sym "range_pattern",
      .sym "or_pattern",
      .sym "const_block",
      .sym "macro_invocation",
      "_"]),
  ("generic_pattern",
    seqOf [
      oneOf [.sym "identifier", .sym "scoped_identifier"],
      "::",
      field "type_arguments" (.sym "type_arguments")]),
  ("tuple_pattern",
    seqOf ["(", sepBy "," (oneOf [.sym "_pattern", .sym "closure_expression"]), opt ",", ")"]),
  ("slice_pattern",
    seqOf ["[", sepBy "," (.sym "_pattern"), opt ",", "]"]),
  ("tuple_struct_pattern",
    seqOf [
      field "type" (oneOf [
        .sym "identifier",
        .sym "scoped_identifier",
        shownAs "generic_type" (.sym "generic_type_with_turbofish")]),
      "(",
      sepBy "," (.sym "_pattern"),
      opt ",",
      ")"]),
  ("struct_pattern",
    seqOf [
      field "type" (oneOf [.sym "_type_identifier", .sym "scoped_type_identifier"]),
      "\x7b",
      sepBy "," (oneOf [.sym "field_pattern", .sym "remaining_field_pattern"]),
      opt ",",
      "\x7d"]),
  ("field_pattern",
    seqOf [
      opt "ref",
      opt (.sym "mutable_specifier"),
      oneOf [
        field "name" (shownAs "shorthand_field_identifier" (.sym "identifier")),
        seqOf [field "name" (.sym "_field_identifier"), ":", field "pattern" (.sym "_pattern")]]]),
  ("remaining_field_pattern",
    ".."),
  ("mut_pattern",
    prec (-1) (seqOf [.sym "mutable_specifier", .sym "_pattern"])),
  ("range_pattern",
    oneOf [
      seqOf [
        field "left" (oneOf [.sym "_literal_pattern", .sym "_path"]),
        oneOf [
          seqOf [
            oneOf ["...", "..=", ".."],
            field "right" (oneOf [.sym "_literal_pattern", .sym "_path"])],
          ".."]],
      seqOf [
        oneOf ["..=", ".."],
        field "right" (oneOf [.sym "_literal_pattern", .sym "_path"])]]),
  ("ref_pattern",
    seqOf ["ref", .sym "_pattern"]),
  ("captured_pattern",
    seqOf [.sym "identifier", "@", .sym "_pattern"]),
  ("reference_pattern",
    seqOf ["&", opt (.sym "mutable_specifier"), .sym "_pattern"]),
  ("or_pattern",
    precLeft (-2) (oneOf [
      seqOf [.sym "_pattern", "|", .sym "_pattern"], seqOf ["|", .sym "_pattern"]]))]

end Language.Rust

end Lumen
