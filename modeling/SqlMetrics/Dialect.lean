import SqlMetrics.Text.Casing
import SqlMetrics.Text.Letter

/-!
# Dialects of SQL

A dialect is a record of the lexical rules that differ from one database to another: which
characters make a word, how names are quoted, which string forms and comments exist, and which
operators are read. Everything else about tokens is common to all dialects. `Dialect.ofName?`
knows thirteen dialects by name, in any letter case.
-/

set_option autoImplicit false

namespace SqlMetrics

/-- The lexical rules that differ between dialects. -/
structure Dialect where
  /-- A character that may begin an unquoted word. -/
  startsWord : Char → Bool
  /-- A character that may follow in an unquoted word. -/
  continuesWord : Char → Bool
  /-- The characters that open a quoted word. -/
  wordQuotes : List Char
  /-- A bracket opens a quoted word only before a double quote or a character that may begin a
  word, with white space between them. -/
  bracketLooksAhead : Bool := false
  /-- A backslash in a string escapes the next character. -/
  backslashEscapes : Bool := false
  /-- The backslash before a percent sign or an underscore stays in the string. -/
  keepsPatternEscapes : Bool := false
  /-- Strings with the mark `E`, which have escapes of their own. -/
  escapeStrings : Bool := false
  /-- Strings with the mark `U&`, which have escapes for code points. -/
  unicodeStrings : Bool := false
  /-- Strings with the mark `B`. -/
  byteStrings : Bool := false
  /-- Strings with the mark `R`, in single or triple quotes. -/
  rawStrings : Bool := false
  /-- All strings may stand in triple quotes. -/
  tripleQuotes : Bool := false
  /-- A word may begin with digits. -/
  digitsStartWords : Bool := false
  /-- An underscore may stand between the digits of a number. -/
  digitUnderscores : Bool := false
  /-- Comments between `/*` and `*/` nest. -/
  nestedComments : Bool := false
  /-- Two dashes begin a comment only before a space. -/
  dashesNeedSpace : Bool := false
  /-- A carriage return ends a comment begun by two dashes. -/
  returnEndsComment : Bool := false
  /-- The sign `#` begins a comment. -/
  hashComments : Bool := false
  /-- Two slashes begin a comment. -/
  slashComments : Bool := false
  /-- Two slashes are an operator. -/
  slashOperator : Bool := false
  /-- The operators on geometric values are read. -/
  geometricOperators : Bool := false
  /-- The operator `|>` is read. -/
  pipeOperator : Bool := false
  /-- Further operator characters extend an operator to one of the user's own. -/
  customOperators : Bool := false
  /-- A dollar sign begins a placeholder and never a string. -/
  dollarPlaceholders : Bool := false

namespace Dialect

def isAsciiWordChar (c : Char) : Bool :=
  c.isAlpha || c.isDigit

def isForeign (c : Char) : Bool :=
  0x80 ≤ c.toNat

/-- No particular database: what most of them read. -/
def generic : Dialect where
  startsWord c := isLetter c || ['_', '#', '@'].contains c
  continuesWord c := isLetter c || c.isDigit || ['@', '$', '#', '_'].contains c
  wordQuotes := ['\x22', '\x60']
  escapeStrings := true
  unicodeStrings := true
  byteStrings := true
  rawStrings := true
  nestedComments := true
  slashOperator := true
  pipeOperator := true

/-- Microsoft SQL Server: names in brackets. -/
def mssql : Dialect where
  startsWord := generic.startsWord
  continuesWord := generic.continuesWord
  wordQuotes := ['\x22', '[']
  nestedComments := true

/-- MySQL: double quotes are strings, words may begin with digits, `#` begins a comment. -/
def mysql : Dialect where
  startsWord c := isLetter c || ['_', '$', '@'].contains c || isForeign c
  continuesWord c := isLetter c || ['_', '$', '@'].contains c || isForeign c || c.isDigit
  wordQuotes := ['\x60']
  backslashEscapes := true
  keepsPatternEscapes := true
  byteStrings := true
  digitsStartWords := true
  dashesNeedSpace := true
  hashComments := true

/-- PostgreSQL: operators may be extended, and geometric ones are known. -/
def postgresql : Dialect where
  startsWord c := isLetter c || c = '_' || isForeign c
  continuesWord c := isLetter c || c = '_' || isForeign c || c.isDigit || c = '$'
  wordQuotes := ['\x22']
  escapeStrings := true
  unicodeStrings := true
  byteStrings := true
  digitUnderscores := true
  nestedComments := true
  returnEndsComment := true
  geometricOperators := true
  customOperators := true

/-- Redshift: the words of PostgreSQL and `#`, and brackets around names in double quotes. -/
def redshift : Dialect where
  startsWord c := postgresql.startsWord c || c = '#'
  continuesWord c := postgresql.continuesWord c || c = '#'
  wordQuotes := ['\x22', '\x60', '[']
  bracketLooksAhead := true
  backslashEscapes := true
  escapeStrings := true
  geometricOperators := true

/-- Hive: words may begin with digits and hold braces. -/
def hive : Dialect where
  startsWord c := isAsciiWordChar c || c = '$'
  continuesWord c := isAsciiWordChar c || ['_', '$', '\x7b', '\x7d'].contains c
  wordQuotes := ['\x22', '\x60']
  digitsStartWords := true
  hashComments := true

/-- SQLite: three kinds of quotes around names; a dollar sign begins a placeholder. -/
def sqlite : Dialect where
  startsWord c := c.isAlpha || c = '_' || (0x7f ≤ c.toNat && c.toNat ≤ 0xffff)
  continuesWord c := c.isAlpha || c = '_' || (0x7f ≤ c.toNat && c.toNat ≤ 0xffff) || c.isDigit
  wordQuotes := ['\x60', '\x22', '[']
  dollarPlaceholders := true

/-- Snowflake: `#` and two slashes begin comments. -/
def snowflake : Dialect where
  startsWord c := c.isAlpha || c = '_'
  continuesWord c := isAsciiWordChar c || ['$', '_'].contains c
  wordQuotes := ['\x22', '\x60']
  backslashEscapes := true
  hashComments := true
  slashComments := true

/-- ClickHouse: backslash escapes and underscores between digits. -/
def clickhouse : Dialect where
  startsWord c := c.isAlpha || c = '_'
  continuesWord c := isAsciiWordChar c || c = '_'
  wordQuotes := ['\x22', '\x60']
  backslashEscapes := true
  digitUnderscores := true

/-- Databricks: double quotes are strings. -/
def databricks : Dialect where
  startsWord c := c.isAlpha || c = '_'
  continuesWord c := isAsciiWordChar c || c = '_'
  wordQuotes := ['\x60']

/-- BigQuery: double quotes are strings, and all strings may stand in triple quotes. -/
def bigquery : Dialect where
  startsWord c := c.isAlpha || ['_', '@'].contains c
  continuesWord c := isAsciiWordChar c || c = '_'
  wordQuotes := ['\x60']
  backslashEscapes := true
  byteStrings := true
  rawStrings := true
  tripleQuotes := true
  hashComments := true
  pipeOperator := true

/-- The standard: words of ASCII letters, digits and underscores. -/
def ansi : Dialect where
  startsWord c := c.isAlpha
  continuesWord c := isAsciiWordChar c || c = '_'
  wordQuotes := ['\x22', '\x60']

/-- DuckDB: two slashes are an operator. -/
def duckdb : Dialect where
  startsWord c := isLetter c || c = '_'
  continuesWord c := isLetter c || c.isDigit || ['$', '_'].contains c
  wordQuotes := ['\x22', '\x60']
  slashOperator := true

/-- The dialects by name; PostgreSQL has two names. -/
def named : List (String × Dialect) := [
  ("generic", generic), ("mysql", mysql), ("postgresql", postgresql), ("postgres", postgresql),
  ("hive", hive), ("sqlite", sqlite), ("snowflake", snowflake), ("redshift", redshift),
  ("mssql", mssql), ("clickhouse", clickhouse), ("bigquery", bigquery), ("ansi", ansi),
  ("duckdb", duckdb), ("databricks", databricks)]

/-- The dialect of this name, in any letter case. -/
def ofName? (name : String) : Option Dialect :=
  named.lookup (lowerText name)

end Dialect

end SqlMetrics
