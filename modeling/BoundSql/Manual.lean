set_option autoImplicit false

/-!
# The manual

The texts that the program shows about itself, an overview and one text for each topic.
-/

namespace BoundSql.Manual

/-- The lines of a text, each with its end. -/
def lines (ls : List String) : String := String.join (ls.map (· ++ "\n"))

/-- The list of topics, and the commonest expressions. -/
def overview : String := lines [
  "ESQL DOCUMENTATION",
  "",
  "esql compiles JSON query documents (filters, a projection, ordering) into a",
  "single SQL query plus the positional parameters bound to its '?' placeholders.",
  "",
  "DOCUMENTATION TOPICS",
  "",
  "  document          Layout of a query document: dataset, types, captured values",
  "  expressions       Filter and projection expressions",
  "  output            Generated SQL and the request body",
  "",
  "QUICK REFERENCE",
  "",
  "  \x7b\"col\": \"Age\"\x7d                      Row column (dotted for nested members)",
  "  \x7b\"captured\": \"codes\"\x7d               Captured variable",
  "  \x7b\"op\": \">\", \"left\": .., \"right\": ..\x7d Binary operator",
  "  \x7b\"in\": .., \"item\": ..\x7d              List membership",
  "",
  "Run 'esql doc <topic>' for detailed documentation."]

/-- The layout of a query document. -/
def documentText : String := lines [
  "DOCUMENT - Query Document Layout",
  "",
  "  \x7b",
  "    \"dataset\": \"people\",",
  "    \"row_type\": \"Person\",",
  "    \"types\": \x7b",
  "      \"Person\": \x7b",
  "        \"properties\": \x7b \"Id\": \"int\", \"Name\": \"string\", \"Age\": \"int?\", \"Info\": \"Info\" \x7d,",
  "        \"statics\": \x7b \"MinAge\": 18 \x7d",
  "      \x7d,",
  "      \"Info\": \x7b \"properties\": \x7b \"City\": \"string\" \x7d \x7d",
  "    \x7d,",
  "    \"captured\": \x7b \"codes\": [1, 2, null], \"filter\": \x7b \"min\": 30 \x7d \x7d,",
  "    \"filters\": [ ... ],",
  "    \"select\": \x7b ... \x7d | [ ... ],",
  "    \"order_by\": [ \"Name\", \"-Age\" ]",
  "  \x7d",
  "",
  "TYPES",
  "  Scalars: bool, char, int, uint, float, decimal, string, datetime,",
  "  datetimeoffset, guid. Suffix '?' for nullable, 'list<T>' for lists, or the",
  "  name of another declared type.",
  "",
  "FILTERS",
  "  Each entry is one predicate; predicates are joined with AND. Entries that",
  "  are not boolean are skipped.",
  "",
  "SELECT",
  "  An object selects an anonymous record, one column per key:",
  "    \"select\": \x7b \"Id\": \x7b\"col\": \"Id\"\x7d, \"Fixed\": \"x\" \x7d",
  "",
  "  An array selects through dynamic name/value containers:",
  "    \"select\": [ \x7b\"name\": \"city\", \"value\": \x7b\"if\": .., \"then\": null, \"else\": \x7b\"col\": \"Info.City\"\x7d\x7d\x7d ]",
  "",
  "ORDER BY",
  "  Column names; prefix '-' for descending."]

/-- The expressions of filters and projections. -/
def expressionsText : String := lines [
  "EXPRESSIONS",
  "",
  "LITERALS",
  "  30, \"x\", true, null",
  "  \x7b\"value\": [1, 2]\x7d                 Literal of any JSON shape",
  "",
  "COLUMNS",
  "  \x7b\"col\": \"Age\"\x7d                    Column of the row",
  "  \x7b\"col\": \"Info.City\"\x7d              Nested member (renders NULL in filters)",
  "",
  "CAPTURED VALUES",
  "  \x7b\"captured\": \"codes\"\x7d             Top-level captured variable",
  "  \x7b\"captured\": \"filter.min\"\x7d        Member of a captured object",
  "  \x7b\"static\": \"MinAge\"\x7d              Static member of the row type",
  "",
  "OPERATORS",
  "  \x7b\"op\": \"==\", \"left\": .., \"right\": ..\x7d",
  "    == != < <= > >=     comparison (== null renders IS NULL)",
  "    && ||               AND / OR",
  "    & |                 bitwise",
  "  \x7b\"op\": \">\", \"left\": \x7b\"col\": \"Name\"\x7d, \"right\": \"M\", \"compare\": true\x7d",
  "    String comparison: Name > ?",
  "",
  "MEMBERSHIP",
  "  \x7b\"in\": \x7b\"captured\": \"codes\"\x7d, \"item\": \x7b\"col\": \"Code\"\x7d\x7d",
  "    (Code = ? OR Code = ? OR Code = NULL)",
  "",
  "CONDITIONAL",
  "  \x7b\"if\": .., \"then\": .., \"else\": ..\x7d",
  "    As the left operand of a comparison, renders the 'else' member path."]

/-- What a query is compiled to. -/
def outputText : String := lines [
  "OUTPUT",
  "",
  "SQL",
  "  SELECT <value AS alias, ...> FROM <dataset> [WHERE <f1> AND <f2>] [ORDER BY <k1>, <k2> DESC]",
  "",
  "  Without a select, every property of the row type is selected under its",
  "  own name.",
  "",
  "PARAMETERS",
  "  Projection parameters come first, then filter parameters, matching the",
  "  '?' placeholders from left to right.",
  "",
  "REQUEST BODY (--body)",
  "  \x7b\"query\": \"<sql>\", \"params\": [ ... ]\x7d"]

/-- How the program is called. -/
def usageText : String := lines [
  "esql - Compile JSON query documents into parameterised SQL",
  "",
  "Usage: esql [-v] <command>",
  "",
  "Commands:",
  "  compile [FILE]   Compile a query document (from stdin if FILE is omitted or '-')",
  "    -b, --body               Print the JSON request body instead of SQL and parameters",
  "        --validate-only      Only validate the document, don't compile",
  "        --no-order-by        Leave ordering out of the generated SQL",
  "        --dot-separator S    Separator replacing '.' in nested dynamic aliases",
  "  docs             List documentation topics",
  "  doc TOPIC        Show documentation for a specific topic",
  "",
  "Options:",
  "  -v, --verbose    Log compilation details to stderr",
  "  -h, --help       Print help",
  "  -V, --version    Print version"]

/-- A topic of the manual. -/
inductive Topic where
  | document
  | expressions
  | output
  deriving DecidableEq, Repr, Inhabited

namespace Topic

/-- The topic that a name means, in letters of either case.  No topic has a letter beyond ASCII in
its name, and no letter beyond ASCII has a lower case that one of these names needs. -/
def ofName? (name : String) : Option Topic :=
  match name.map Char.toLower with
  | "document" | "doc" | "documents" => some .document
  | "expressions" | "expression" | "expr" => some .expressions
  | "output" | "sql" => some .output
  | _ => none

/-- The text about a topic. -/
def text : Topic → String
  | .document => documentText
  | .expressions => expressionsText
  | .output => outputText

end Topic

end BoundSql.Manual
