import Lumen.Language.Rust.Vocabulary

/-!
# Literals and names of the Rust grammar

Literals, comments, paths and identifiers.
-/

namespace Lumen

namespace Language.Rust

open Grammar Grammar.Rule

def literalRules : List (String × Rule String) := [
  ("_literal",
    oneOf [
      .sym "string_literal",
      .sym "raw_string_literal",
      .sym "char_literal",
      .sym "boolean_literal",
      .sym "integer_literal",
      .sym "float_literal"]),
  ("_literal_pattern",
    oneOf [
      .sym "string_literal",
      .sym "raw_string_literal",
      .sym "char_literal",
      .sym "boolean_literal",
      .sym "integer_literal",
      .sym "float_literal",
      .sym "negative_literal"]),
  ("negative_literal",
    seqOf ["-", oneOf [.sym "integer_literal", .sym "float_literal"]]),
  ("integer_literal",
    token (seqOf [
      oneOf [
        .pattern "[0-9][0-9_]*",
        .pattern "0x[0-9a-fA-F_]+",
        .pattern "0b[01_]+",
        .pattern "0o[0-7_]+"],
      opt (oneOf numericTypes)])),
  ("string_literal",
    seqOf [
      shownAsText "\"" (.pattern "[bc]?\""),
      many (oneOf [.sym "escape_sequence", .sym "string_content"]),
      immediate "\""]),
  ("raw_string_literal",
    seqOf [
      .sym "_raw_string_literal_start",
      shownAs "string_content" (.sym "raw_string_literal_content"),
      .sym "_raw_string_literal_end"]),
  ("char_literal",
    token (seqOf [
      opt "b",
      "'",
      opt (oneOf [
        seqOf [
          "\\",
          oneOf [
            .pattern "[^xu]",
            .pattern "u[0-9a-fA-F]\x7b4\x7d",
            .pattern "u\\\x7b[0-9a-fA-F]+\\\x7d",
            .pattern "x[0-9a-fA-F]\x7b2\x7d"]],
        .pattern "[^\\\\']"]),
      "'"])),
  ("escape_sequence",
    immediate (seqOf [
      "\\",
      oneOf [
        .pattern "[^xu]",
        .pattern "u[0-9a-fA-F]\x7b4\x7d",
        .pattern "u\\\x7b[0-9a-fA-F]+\\\x7d",
        .pattern "x[0-9a-fA-F]\x7b2\x7d"]])),
  ("boolean_literal",
    oneOf ["true", "false"]),
  ("comment",
    oneOf [.sym "line_comment", .sym "block_comment"]),
  ("line_comment",
    seqOf [
      "//",
      oneOf [
        seqOf [immediate (prec 2 (.pattern "//")), .pattern ".*"],
        seqOf [
          .sym "_line_doc_comment_marker",
          field "doc" (shownAs "doc_comment" (.sym "_line_doc_content"))],
        immediate (prec 1 (.pattern ".*"))]]),
  ("_line_doc_comment_marker",
    oneOf [
      field "outer" (shownAs "outer_doc_comment_marker" (.sym "_outer_line_doc_comment_marker")),
      field "inner" (shownAs "inner_doc_comment_marker" (.sym "_inner_line_doc_comment_marker"))]),
  ("_inner_line_doc_comment_marker",
    immediate (prec 2 "!")),
  ("_outer_line_doc_comment_marker",
    immediate (prec 2 "/")),
  ("block_comment",
    seqOf [
      "/*",
      opt (oneOf [
        seqOf [
          .sym "_block_doc_comment_marker",
          opt (field "doc" (shownAs "doc_comment" (.sym "_block_comment_content")))],
        .sym "_block_comment_content"]),
      "*/"]),
  ("_block_doc_comment_marker",
    oneOf [
      field "outer" (shownAs "outer_doc_comment_marker" (.sym "_outer_block_doc_comment_marker")),
      field "inner" (shownAs "inner_doc_comment_marker" (.sym "_inner_block_doc_comment_marker"))]),
  ("_path",
    oneOf [
      .sym "self",
      shownAs "identifier" (oneOf primitiveTypes),
      .sym "metavariable",
      .sym "super",
      .sym "crate",
      .sym "identifier",
      .sym "scoped_identifier",
      .sym "_reserved_identifier"]),
  ("identifier",
    .pattern "(r#)?[_\\p\x7bXID_Start\x7d][_\\p\x7bXID_Continue\x7d]*"),
  ("shebang",
    .pattern "#![\\r\\f\\t\\v ]*([^\\[\\n].*)?\\n"),
  ("_reserved_identifier",
    shownAs "identifier" (oneOf ["default", "union", "gen"])),
  ("_type_identifier",
    shownAs "type_identifier" (.sym "identifier")),
  ("_field_identifier",
    shownAs "field_identifier" (.sym "identifier")),
  ("self",
    "self"),
  ("super",
    "super"),
  ("crate",
    "crate"),
  ("metavariable",
    .pattern "\\$[a-zA-Z_]\\w*")]

end Language.Rust

end Lumen
