import Lumen.Language.Rust.Vocabulary

/-!
# Declarations of the Rust grammar

Source files, statements, macros and items.
-/

namespace Lumen

namespace Language.Rust

open Grammar Grammar.Rule

def statementRules : List (String × Rule String) := [
  ("source_file",
    seqOf [opt (.sym "shebang"), many (.sym "_statement")]),
  ("_statement",
    oneOf [.sym "expression_statement", .sym "_declaration_statement"]),
  ("empty_statement",
    ";"),
  ("expression_statement",
    oneOf [seqOf [.sym "_expression", ";"], prec 1 (.sym "_expression_ending_with_block")]),
  ("_declaration_statement",
    oneOf [
      .sym "const_item",
      .sym "macro_invocation",
      .sym "macro_definition",
      .sym "empty_statement",
      .sym "attribute_item",
      .sym "inner_attribute_item",
      .sym "mod_item",
      .sym "foreign_mod_item",
      .sym "struct_item",
      .sym "union_item",
      .sym "enum_item",
      .sym "type_item",
      .sym "function_item",
      .sym "function_signature_item",
      .sym "impl_item",
      .sym "trait_item",
      .sym "associated_type",
      .sym "let_declaration",
      .sym "use_declaration",
      .sym "extern_crate_declaration",
      .sym "static_item"])]

def macroRuleSet : List (String × Rule String) := [
  ("macro_definition",
    seqOf [
      "macro_rules!",
      field "name" (oneOf [.sym "identifier", .sym "_reserved_identifier"]),
      oneOf [
        seqOf ["(", macroRules, ")", ";"],
        seqOf ["[", macroRules, "]", ";"],
        seqOf ["\x7b", macroRules, "\x7d"]]]),
  ("macro_rule",
    seqOf [field "left" (.sym "token_tree_pattern"), "=>", field "right" (.sym "token_tree")]),
  ("_token_pattern",
    oneOf [
      .sym "token_tree_pattern",
      .sym "token_repetition_pattern",
      .sym "token_binding_pattern",
      .sym "metavariable",
      .sym "_non_special_token"]),
  ("token_tree_pattern",
    oneOf [
      seqOf ["(", many (.sym "_token_pattern"), ")"],
      seqOf ["[", many (.sym "_token_pattern"), "]"],
      seqOf ["\x7b", many (.sym "_token_pattern"), "\x7d"]]),
  ("token_binding_pattern",
    prec 1 (seqOf [
      field "name" (.sym "metavariable"), ":", field "type" (.sym "fragment_specifier")])),
  ("token_repetition_pattern",
    seqOf [
      "$",
      "(",
      many (.sym "_token_pattern"),
      ")",
      opt (.pattern "[^+*?]+"),
      oneOf ["+", "*", "?"]]),
  ("fragment_specifier",
    oneOf [
      "block",
      "expr",
      "expr_2021",
      "ident",
      "item",
      "lifetime",
      "literal",
      "meta",
      "pat",
      "pat_param",
      "path",
      "stmt",
      "tt",
      "ty",
      "vis"]),
  ("_tokens",
    oneOf [
      .sym "token_tree",
      .sym "token_repetition",
      .sym "metavariable",
      .sym "_non_special_token"]),
  ("token_tree",
    oneOf [
      seqOf ["(", many (.sym "_tokens"), ")"],
      seqOf ["[", many (.sym "_tokens"), "]"],
      seqOf ["\x7b", many (.sym "_tokens"), "\x7d"]]),
  ("token_repetition",
    seqOf [
      "$",
      "(",
      many (.sym "_tokens"),
      ")",
      opt (.pattern "[^+*?]+"),
      oneOf ["+", "*", "?"]]),
  ("_non_special_token",
    oneOf ([
      .sym "_literal",
      .sym "identifier",
      .sym "mutable_specifier",
      .sym "self",
      .sym "super",
      .sym "crate",
      shownAs "primitive_type" (oneOf primitiveTypes),
      precRight 0 (.rep (oneOf punctuation))] ++ tokenTreeWords))]

def itemRules : List (String × Rule String) := [
  ("attribute_item",
    seqOf ["#", "[", .sym "attribute", "]"]),
  ("inner_attribute_item",
    seqOf ["#", "!", "[", .sym "attribute", "]"]),
  ("attribute",
    seqOf [
      .sym "_path",
      opt (oneOf [
        seqOf ["=", field "value" (.sym "_expression")],
        field "arguments" (shownAs "token_tree" (.sym "delim_token_tree"))])]),
  ("mod_item",
    seqOf [
      opt (.sym "visibility_modifier"),
      "mod",
      field "name" (.sym "identifier"),
      oneOf [";", field "body" (.sym "declaration_list")]]),
  ("foreign_mod_item",
    seqOf [
      opt (.sym "visibility_modifier"),
      .sym "extern_modifier",
      oneOf [";", field "body" (.sym "declaration_list")]]),
  ("declaration_list",
    seqOf ["\x7b", many (.sym "_declaration_statement"), "\x7d"]),
  ("struct_item",
    seqOf [
      opt (.sym "visibility_modifier"),
      "struct",
      field "name" (.sym "_type_identifier"),
      field "type_parameters" (opt (.sym "type_parameters")),
      oneOf [
        seqOf [opt (.sym "where_clause"), field "body" (.sym "field_declaration_list")],
        seqOf [
          field "body" (.sym "ordered_field_declaration_list"),
          opt (.sym "where_clause"),
          ";"],
        ";"]]),
  ("union_item",
    seqOf [
      opt (.sym "visibility_modifier"),
      "union",
      field "name" (.sym "_type_identifier"),
      field "type_parameters" (opt (.sym "type_parameters")),
      opt (.sym "where_clause"),
      field "body" (.sym "field_declaration_list")]),
  ("enum_item",
    seqOf [
      opt (.sym "visibility_modifier"),
      "enum",
      field "name" (.sym "_type_identifier"),
      field "type_parameters" (opt (.sym "type_parameters")),
      opt (.sym "where_clause"),
      field "body" (.sym "enum_variant_list")]),
  ("enum_variant_list",
    seqOf [
      "\x7b",
      sepBy "," (seqOf [many (.sym "attribute_item"), .sym "enum_variant"]),
      opt ",",
      "\x7d"]),
  ("enum_variant",
    seqOf [
      opt (.sym "visibility_modifier"),
      field "name" (.sym "identifier"),
      field "body" (opt (oneOf [
        .sym "field_declaration_list", .sym "ordered_field_declaration_list"])),
      opt (seqOf ["=", field "value" (.sym "_expression")])]),
  ("field_declaration_list",
    seqOf [
      "\x7b",
      sepBy "," (seqOf [many (.sym "attribute_item"), .sym "field_declaration"]),
      opt ",",
      "\x7d"]),
  ("field_declaration",
    seqOf [
      opt (.sym "visibility_modifier"),
      field "name" (.sym "_field_identifier"),
      ":",
      field "type" (.sym "_type")]),
  ("ordered_field_declaration_list",
    seqOf [
      "(",
      sepBy "," (seqOf [
        many (.sym "attribute_item"),
        opt (.sym "visibility_modifier"),
        field "type" (.sym "_type")]),
      opt ",",
      ")"]),
  ("extern_crate_declaration",
    seqOf [
      opt (.sym "visibility_modifier"),
      "extern",
      .sym "crate",
      field "name" (.sym "identifier"),
      opt (seqOf ["as", field "alias" (.sym "identifier")]),
      ";"]),
  ("const_item",
    seqOf [
      opt (.sym "visibility_modifier"),
      "const",
      field "name" (.sym "identifier"),
      ":",
      field "type" (.sym "_type"),
      opt (seqOf ["=", field "value" (.sym "_expression")]),
      ";"]),
  ("static_item",
    seqOf [
      opt (.sym "visibility_modifier"),
      "static",
      opt "ref",
      opt (.sym "mutable_specifier"),
      field "name" (.sym "identifier"),
      ":",
      field "type" (.sym "_type"),
      opt (seqOf ["=", field "value" (.sym "_expression")]),
      ";"]),
  ("type_item",
    seqOf [
      opt (.sym "visibility_modifier"),
      "type",
      field "name" (.sym "_type_identifier"),
      field "type_parameters" (opt (.sym "type_parameters")),
      opt (.sym "where_clause"),
      "=",
      field "type" (.sym "_type"),
      opt (.sym "where_clause"),
      ";"]),
  ("function_item",
    seqOf [
      opt (.sym "visibility_modifier"),
      opt (.sym "function_modifiers"),
      "fn",
      field "name" (oneOf [.sym "identifier", .sym "metavariable"]),
      field "type_parameters" (opt (.sym "type_parameters")),
      field "parameters" (.sym "parameters"),
      opt (seqOf ["->", field "return_type" (.sym "_type")]),
      opt (.sym "where_clause"),
      field "body" (.sym "block")]),
  ("function_signature_item",
    seqOf [
      opt (.sym "visibility_modifier"),
      opt (.sym "function_modifiers"),
      "fn",
      field "name" (oneOf [.sym "identifier", .sym "metavariable"]),
      field "type_parameters" (opt (.sym "type_parameters")),
      field "parameters" (.sym "parameters"),
      opt (seqOf ["->", field "return_type" (.sym "_type")]),
      opt (.sym "where_clause"),
      ";"]),
  ("function_modifiers",
    .rep (oneOf ["async", "default", "const", "unsafe", .sym "extern_modifier"])),
  ("where_clause",
    precRight 0 (seqOf ["where", opt (seqOf [sepBy1 "," (.sym "where_predicate"), opt ","])])),
  ("where_predicate",
    seqOf [
      field "left" (oneOf [
        .sym "lifetime",
        .sym "_type_identifier",
        .sym "scoped_type_identifier",
        .sym "generic_type",
        .sym "reference_type",
        .sym "pointer_type",
        .sym "tuple_type",
        .sym "array_type",
        .sym "higher_ranked_trait_bound",
        shownAs "primitive_type" (oneOf primitiveTypes)]),
      field "bounds" (.sym "trait_bounds")]),
  ("impl_item",
    seqOf [
      opt "unsafe",
      "impl",
      field "type_parameters" (opt (.sym "type_parameters")),
      opt (seqOf [
        opt "!",
        field "trait" (oneOf [
          .sym "_type_identifier", .sym "scoped_type_identifier", .sym "generic_type"]),
        "for"]),
      field "type" (.sym "_type"),
      opt (.sym "where_clause"),
      oneOf [field "body" (.sym "declaration_list"), ";"]]),
  ("trait_item",
    seqOf [
      opt (.sym "visibility_modifier"),
      opt "unsafe",
      "trait",
      field "name" (.sym "_type_identifier"),
      field "type_parameters" (opt (.sym "type_parameters")),
      field "bounds" (opt (.sym "trait_bounds")),
      opt (.sym "where_clause"),
      field "body" (.sym "declaration_list")]),
  ("associated_type",
    seqOf [
      "type",
      field "name" (.sym "_type_identifier"),
      field "type_parameters" (opt (.sym "type_parameters")),
      field "bounds" (opt (.sym "trait_bounds")),
      opt (.sym "where_clause"),
      ";"]),
  ("trait_bounds",
    seqOf [
      ":",
      sepBy1 "+" (oneOf [.sym "_type", .sym "lifetime", .sym "higher_ranked_trait_bound"])]),
  ("higher_ranked_trait_bound",
    seqOf [
      "for",
      field "type_parameters" (.sym "type_parameters"),
      field "type" (.sym "_type")]),
  ("removed_trait_bound",
    seqOf ["?", .sym "_type"]),
  ("type_parameters",
    prec 1 (seqOf [
      "<",
      sepBy1 "," (seqOf [
        many (.sym "attribute_item"),
        oneOf [
          .sym "metavariable",
          .sym "type_parameter",
          .sym "lifetime_parameter",
          .sym "const_parameter"]]),
      opt ",",
      ">"])),
  ("const_parameter",
    seqOf [
      "const",
      field "name" (.sym "identifier"),
      ":",
      field "type" (.sym "_type"),
      opt (seqOf [
        "=",
        field "value" (oneOf [
          .sym "block", .sym "identifier", .sym "_literal", .sym "negative_literal"])])]),
  ("type_parameter",
    prec 1 (seqOf [
      field "name" (.sym "_type_identifier"),
      opt (field "bounds" (.sym "trait_bounds")),
      opt (seqOf ["=", field "default_type" (.sym "_type")])])),
  ("lifetime_parameter",
    prec 1 (seqOf [field "name" (.sym "lifetime"), opt (field "bounds" (.sym "trait_bounds"))])),
  ("let_declaration",
    seqOf [
      "let",
      opt (.sym "mutable_specifier"),
      field "pattern" (.sym "_pattern"),
      opt (seqOf [":", field "type" (.sym "_type")]),
      opt (seqOf ["=", field "value" (.sym "_expression")]),
      opt (seqOf ["else", field "alternative" (.sym "block")]),
      ";"]),
  ("use_declaration",
    seqOf [opt (.sym "visibility_modifier"), "use", field "argument" (.sym "_use_clause"), ";"]),
  ("_use_clause",
    oneOf [
      .sym "_path",
      .sym "use_as_clause",
      .sym "use_list",
      .sym "scoped_use_list",
      .sym "use_wildcard"]),
  ("scoped_use_list",
    seqOf [field "path" (opt (.sym "_path")), "::", field "list" (.sym "use_list")]),
  ("use_list",
    seqOf ["\x7b", sepBy "," (oneOf [.sym "_use_clause"]), opt ",", "\x7d"]),
  ("use_as_clause",
    seqOf [field "path" (.sym "_path"), "as", field "alias" (.sym "identifier")]),
  ("use_wildcard",
    seqOf [opt (seqOf [opt (.sym "_path"), "::"]), "*"]),
  ("parameters",
    seqOf [
      "(",
      sepBy "," (seqOf [
        opt (.sym "attribute_item"),
        oneOf [
          .sym "parameter",
          .sym "self_parameter",
          .sym "variadic_parameter",
          "_",
          .sym "_type"]]),
      opt ",",
      ")"]),
  ("self_parameter",
    seqOf [opt "&", opt (.sym "lifetime"), opt (.sym "mutable_specifier"), .sym "self"]),
  ("variadic_parameter",
    seqOf [
      opt (.sym "mutable_specifier"),
      opt (seqOf [field "pattern" (.sym "_pattern"), ":"]),
      "..."]),
  ("parameter",
    seqOf [
      opt (.sym "mutable_specifier"),
      field "pattern" (oneOf [.sym "_pattern", .sym "self"]),
      ":",
      field "type" (.sym "_type")]),
  ("extern_modifier",
    seqOf ["extern", opt (.sym "string_literal")]),
  ("visibility_modifier",
    oneOf [
      .sym "crate",
      seqOf [
        "pub",
        opt (seqOf [
          "(",
          oneOf [.sym "self", .sym "super", .sym "crate", seqOf ["in", .sym "_path"]],
          ")"])]])]

end Language.Rust

end Lumen
