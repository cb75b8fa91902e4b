import Lumen.Language.Rust.Vocabulary

/-!
# Types of the Rust grammar

The forms of a type.
-/

namespace Lumen

namespace Language.Rust

open Grammar Grammar.Rule

def typeRules : List (String × Rule String) := [
  ("_type",
    oneOf [
      .sym "abstract_type",
      .sym "reference_type",
      .sym "metavariable",
      .sym "pointer_type",
      .sym "generic_type",
      .sym "scoped_type_identifier",
      .sym "tuple_type",
      .sym "unit_type",
      .sym "array_type",
      .sym "function_type",
      .sym "_type_identifier",
      .sym "macro_invocation",
      .sym "never_type",
      .sym "dynamic_type",
      .sym "bounded_type",
      .sym "removed_trait_bound",
      shownAs "primitive_type" (oneOf primitiveTypes)]),
  ("bracketed_type",
    seqOf ["<", oneOf [.sym "_type", .sym "qualified_type"], ">"]),
  ("qualified_type",
    seqOf [field "type" (.sym "_type"), "as", field "alias" (.sym "_type")]),
  ("lifetime",
    prec 1 (seqOf ["'", .sym "identifier"])),
  ("array_type",
    seqOf [
      "[",
      field "element" (.sym "_type"),
      opt (seqOf [";", field "length" (.sym "_expression")]),
      "]"]),
  ("for_lifetimes",
    seqOf ["for", "<", sepBy1 "," (.sym "lifetime"), opt ",", ">"]),
  ("function_type",
    seqOf [
      opt (.sym "for_lifetimes"),
      prec Level.call (seqOf [
        oneOf [
          field "trait" (oneOf [.sym "_type_identifier", .sym "scoped_type_identifier"]),
          seqOf [opt (.sym "function_modifiers"), "fn"]],
        field "parameters" (.sym "parameters")]),
      opt (seqOf ["->", field "return_type" (.sym "_type")])]),
  ("tuple_type",
    seqOf ["(", sepBy1 "," (.sym "_type"), opt ",", ")"]),
  ("unit_type",
    seqOf ["(", ")"]),
  ("generic_function",
    prec 1 (seqOf [
      field "function" (oneOf [
        .sym "identifier", .sym "scoped_identifier", .sym "field_expression"]),
      "::",
      field "type_arguments" (.sym "type_arguments")])),
  ("generic_type",
    prec 1 (seqOf [
      field "type" (oneOf [
        .sym "_type_identifier",
        .sym "_reserved_identifier",
        .sym "scoped_type_identifier"]),
      field "type_arguments" (.sym "type_arguments")])),
  ("generic_type_with_turbofish",
    seqOf [
      field "type" (oneOf [.sym "_type_identifier", .sym "scoped_identifier"]),
      "::",
      field "type_arguments" (.sym "type_arguments")]),
  ("bounded_type",
    precLeft (-1) (seqOf [
      oneOf [.sym "lifetime", .sym "_type", .sym "use_bounds"],
      "+",
      oneOf [.sym "lifetime", .sym "_type", .sym "use_bounds"]])),
  ("use_bounds",
    seqOf [
      "use",
      token (prec 1 "<"),
      sepBy "," (oneOf [.sym "lifetime", .sym "_type_identifier"]),
      opt ",",
      ">"]),
  ("type_arguments",
    seqOf [
      token (prec 1 "<"),
      sepBy1 "," (seqOf [
        oneOf [
          .sym "_type",
          .sym "type_binding",
          .sym "lifetime",
          .sym "_literal",
          .sym "block"],
        opt (.sym "trait_bounds")]),
      opt ",",
      ">"]),
  ("type_binding",
    seqOf [
      field "name" (.sym "_type_identifier"),
      field "type_arguments" (opt (.sym "type_arguments")),
      "=",
      field "type" (.sym "_type")]),
  ("reference_type",
    seqOf [
      "&",
      opt (.sym "lifetime"),
      opt (.sym "mutable_specifier"),
      field "type" (.sym "_type")]),
  ("pointer_type",
    seqOf ["*", oneOf ["const", .sym "mutable_specifier"], field "type" (.sym "_type")]),
  ("never_type",
    "!"),
  ("abstract_type",
    seqOf [
      "impl",
      opt (seqOf ["for", .sym "type_parameters"]),
      field "trait" (prec 1 (oneOf [
        .sym "_type_identifier",
        .sym "scoped_type_identifier",
        .sym "removed_trait_bound",
        .sym "generic_type",
        .sym "function_type",
        .sym "tuple_type",
        .sym "bounded_type"]))]),
  ("dynamic_type",
    seqOf [
      "dyn",
      field "trait" (oneOf [
        .sym "higher_ranked_trait_bound",
        .sym "_type_identifier",
        .sym "scoped_type_identifier",
        .sym "generic_type",
        .sym "function_type",
        .sym "tuple_type"])]),
  ("mutable_specifier",
    "mut")]

end Language.Rust

end Lumen
