import FilterPlan.Text.Unsigned

set_option autoImplicit false

/-! The part of TOML that a settings document can use: texts, integers, empty lists, tables in all their
forms. Values that no setting has (other numbers, dates, truth values, lists with items) are refused
where they are read. -/
namespace FilterPlan.Toml

inductive Fault where
  | badComment
  | badKey
  | badString
  | badEscape
  | badInteger
  | unusableValue
  | misplaced
  | redefined (key : String)
deriving DecidableEq, Repr

def Fault.message : Fault → String
  | .badComment => "a control character in a comment"
  | .badKey => "a key is missing or badly written"
  | .badString => "a string is not closed or holds a control character"
  | .badEscape => "a bad escape in a string"
  | .badInteger => "a badly written integer"
  | .unusableValue => "a value that no setting has"
  | .misplaced => "something is out of place"
  | .redefined key => "the key '" ++ key ++ "' is defined twice"

-- How a table came to be, which decides whether it may still be extended.
inductive TableKind where
  | header
  | implied
  | dotted
  | inline
deriving DecidableEq, Repr

inductive Value where
  | text (content : String)
  | integer (value : Int)
  | emptyList
  | table (kind : TableKind) (entries : List (String × Value))

-- Blanks, comments and line ends

def skipBlanks (text : List Char) : List Char := text.dropWhile fun c => c = ' ' || c = '\t'

def isControl (c : Char) : Bool := (c.toNat < 0x20 && c ≠ '\t') || c.toNat = 0x7F

def skipComment : List Char → Except Fault (List Char)
  | [] => .ok []
  | '\n' :: rest => .ok ('\n' :: rest)
  | '\r' :: '\n' :: rest => .ok ('\r' :: '\n' :: rest)
  | c :: rest => if isControl c then .error .badComment else skipComment rest

def endLine (text : List Char) : Except Fault (List Char) := do
  let rest ← match skipBlanks text with
    | '#' :: rest => skipComment rest
    | rest => .ok rest
  match rest with
  | [] => .ok []
  | '\n' :: rest => .ok rest
  | '\r' :: '\n' :: rest => .ok rest
  | _ => .error .misplaced

def skipLines : Nat → List Char → Except Fault (List Char)
  | 0, text => .ok text
  | steps + 1, text =>
      match skipBlanks text with
      | '#' :: rest => do skipLines steps (← skipComment rest)
      | '\n' :: rest => skipLines steps rest
      | '\r' :: '\n' :: rest => skipLines steps rest
      | rest => .ok rest

-- Strings

def takeHex (value : Nat) : Nat → List Char → Option (Nat × List Char)
  | 0, rest => some (value, rest)
  | _ + 1, [] => none
  | count + 1, c :: rest =>
      match Text.digit? 16 c with
      | none => none
      | some d => takeHex (value * 16 + d) count rest

def charOf? (value : Nat) : Option Char :=
  if value < 0xD800 ∨ (0xDFFF < value ∧ value < 0x110000) then some (Char.ofNat value) else none

def escape : List Char → Except Fault (Char × List Char)
  | 'b' :: rest => .ok ('\x08', rest)
  | 't' :: rest => .ok ('\t', rest)
  | 'n' :: rest => .ok ('\n', rest)
  | 'f' :: rest => .ok ('\x0C', rest)
  | 'r' :: rest => .ok ('\r', rest)
  | 'e' :: rest => .ok ('\x1B', rest)
  | '"' :: rest => .ok ('"', rest)
  | '\\' :: rest => .ok ('\\', rest)
  | c :: rest =>
      let count := if c = 'x' then 2 else if c = 'u' then 4 else if c = 'U' then 8 else 0
      if count = 0 then .error .badEscape
      else
        match takeHex 0 count rest with
        | none => .error .badEscape
        | some (value, rest) =>
            match charOf? value with
            | none => .error .badEscape
            | some found => .ok (found, rest)
  | [] => .error .badEscape

def basicString (read : List Char) : Nat → List Char → Except Fault (String × List Char)
  | 0, _ => .error .badString
  | _ + 1, [] => .error .badString
  | _ + 1, '"' :: rest => .ok (String.ofList read.reverse, rest)
  | steps + 1, '\\' :: rest => do
      let (c, rest) ← escape rest
      basicString (c :: read) steps rest
  | steps + 1, c :: rest => if isControl c then .error .badString else basicString (c :: read) steps rest

def literalString (read : List Char) : List Char → Except Fault (String × List Char)
  | [] => .error .badString
  | '\'' :: rest => .ok (String.ofList read.reverse, rest)
  | c :: rest => if isControl c then .error .badString else literalString (c :: read) rest

-- A line end directly after the opening quotes of a multi-line string is not part of it.
def dropLineEnd : List Char → List Char
  | '\n' :: rest => rest
  | '\r' :: '\n' :: rest => rest
  | rest => rest

def skipLineBlanks : List Char → List Char
  | ' ' :: rest => skipLineBlanks rest
  | '\t' :: rest => skipLineBlanks rest
  | '\n' :: rest => skipLineBlanks rest
  | '\r' :: '\n' :: rest => skipLineBlanks rest
  | rest => rest

-- Reads a multi-line string after its opening quotes. A backslash at the end of a line joins the next text
-- that is not blank to what was read.
def multilineBasic (read : List Char) : Nat → List Char → Except Fault (String × List Char)
  | 0, _ => .error .badString
  | _ + 1, [] => .error .badString
  | _ + 1, '"' :: '"' :: '"' :: rest => .ok (String.ofList read.reverse, rest)
  | steps + 1, '\\' :: rest =>
      match skipBlanks rest with
      | '\n' :: later => multilineBasic read steps (skipLineBlanks later)
      | '\r' :: '\n' :: later => multilineBasic read steps (skipLineBlanks later)
      | _ => do
          let (c, rest) ← escape rest
          multilineBasic (c :: read) steps rest
  | steps + 1, '\r' :: '\n' :: rest => multilineBasic ('\n' :: read) steps rest
  | steps + 1, c :: rest =>
      if isControl c && c ≠ '\n' then .error .badString else multilineBasic (c :: read) steps rest

def multilineLiteral (read : List Char) : List Char → Except Fault (String × List Char)
  | [] => .error .badString
  | '\'' :: '\'' :: '\'' :: rest => .ok (String.ofList read.reverse, rest)
  | '\r' :: '\n' :: rest => multilineLiteral ('\n' :: read) rest
  | c :: rest =>
      if isControl c && c ≠ '\n' then .error .badString else multilineLiteral (c :: read) rest

-- Integers

def digitsOf (base value : Nat) : List Char → Option Nat
  | [] => none
  | [c] => (Text.digit? base c).map (value * base + ·)
  | c :: '_' :: rest => (Text.digit? base c).bind fun d => digitsOf base (value * base + d) rest
  | c :: rest => (Text.digit? base c).bind fun d => digitsOf base (value * base + d) rest

def decimal? (digits : List Char) : Option Nat :=
  match digits with
  | '0' :: _ :: _ => none
  | _ => digitsOf 10 0 digits

def integer? : List Char → Option Int
  | '+' :: digits => (decimal? digits).map Int.ofNat
  | '-' :: digits => (decimal? digits).map fun value => -(value : Int)
  | '0' :: 'x' :: digits => (digitsOf 16 0 digits).map Int.ofNat
  | '0' :: 'o' :: digits => (digitsOf 8 0 digits).map Int.ofNat
  | '0' :: 'b' :: digits => (digitsOf 2 0 digits).map Int.ofNat
  | digits => (decimal? digits).map Int.ofNat

-- Tables

def find? (key : String) (entries : List (String × Value)) : Option Value :=
  (entries.find? fun entry => entry.1 = key).map Prod.snd

def replace (key : String) (value : Value) (entries : List (String × Value)) : List (String × Value) :=
  entries.map fun entry => if entry.1 = key then (key, value) else entry

-- Gives a key below `entries` its value. A dotted key makes the tables it passes through, and may pass only
-- through tables that no header has defined.
def assign (value : Value) : List String → List (String × Value) → Except Fault (List (String × Value))
  | [], _ => .error .badKey
  | [key], entries =>
      match find? key entries with
      | none => .ok (entries ++ [(key, value)])
      | some _ => .error (.redefined key)
  | key :: keys, entries =>
      match find? key entries with
      | none => do
          let inner ← assign value keys []
          .ok (entries ++ [(key, .table .dotted inner)])
      | some (.table kind inner) =>
          if kind = .dotted ∨ kind = .implied then do
            let inner ← assign value keys inner
            .ok (replace key (.table kind inner) entries)
          else .error (.redefined key)
      | some _ => .error (.redefined key)

-- Opens the table of a header. A header may complete a table that an earlier header implied, and opens every
-- other table for the first time.
def openTable : List String → List (String × Value) → Except Fault (List (String × Value))
  | [], _ => .error .badKey
  | [key], entries =>
      match find? key entries with
      | none => .ok (entries ++ [(key, .table .header [])])
      | some (.table .implied inner) => .ok (replace key (.table .header inner) entries)
      | some _ => .error (.redefined key)
  | key :: keys, entries =>
      match find? key entries with
      | none => do
          let inner ← openTable keys []
          .ok (entries ++ [(key, .table .implied inner)])
      | some (.table kind inner) =>
          if kind = .inline then .error (.redefined key)
          else do
            let inner ← openTable keys inner
            .ok (replace key (.table kind inner) entries)
      | some _ => .error (.redefined key)

def within (change : List (String × Value) → Except Fault (List (String × Value))) :
    List String → List (String × Value) → Except Fault (List (String × Value))
  | [], entries => change entries
  | key :: keys, entries =>
      match find? key entries with
      | some (.table kind inner) => do
          let inner ← within change keys inner
          .ok (replace key (.table kind inner) entries)
      | _ => .error .misplaced

-- Keys and values

def isBareKeyChar (c : Char) : Bool := c.isAlphanum || c = '_' || c = '-'

def simpleKey (text : List Char) : Except Fault (String × List Char) :=
  match text with
  | '"' :: rest => basicString [] (rest.length + 1) rest
  | '\'' :: rest => literalString [] rest
  | _ =>
      match text.takeWhile isBareKeyChar with
      | [] => .error .badKey
      | key => .ok (String.ofList key, text.dropWhile isBareKeyChar)

def dottedKey : Nat → List Char → Except Fault (List String × List Char)
  | 0, _ => .error .badKey
  | steps + 1, text => do
      let (key, rest) ← simpleKey text
      match skipBlanks rest with
      | '.' :: rest => do
          let (keys, rest) ← dottedKey steps (skipBlanks rest)
          .ok (key :: keys, rest)
      | rest => .ok ([key], rest)

def endsScalar (c : Char) : Bool :=
  c = ' ' || c = '\t' || c = '\n' || c = '\r' || c = '#' || c = ',' || c = ']' || c = '['
    || c = '\x7b' || c = '\x7d' || c = '=' || c = '"' || c = '\''

-- Every reader below takes more steps than its text has characters.

mutual
def value : Nat → List Char → Except Fault (Value × List Char)
  | 0, _ => .error .unusableValue
  | steps + 1, text =>
      match text with
      | '"' :: '"' :: '"' :: rest => do
          let (content, rest) ← multilineBasic [] steps (dropLineEnd rest)
          .ok (.text content, rest)
      | '"' :: rest => do
          let (content, rest) ← basicString [] steps rest
          .ok (.text content, rest)
      | '\'' :: '\'' :: '\'' :: rest => do
          let (content, rest) ← multilineLiteral [] (dropLineEnd rest)
          .ok (.text content, rest)
      | '\'' :: rest => do
          let (content, rest) ← literalString [] rest
          .ok (.text content, rest)
      | '[' :: rest => do
          match ← skipLines steps rest with
          | ']' :: rest => .ok (.emptyList, rest)
          | _ => .error .unusableValue
      | '\x7b' :: rest => do
          match ← skipLines steps rest with
          | '\x7d' :: rest => .ok (.table .inline [], rest)
          | rest => inlineEntries steps [] rest
      | _ =>
          match integer? (text.takeWhile fun c => !endsScalar c) with
          | some found => .ok (.integer found, text.dropWhile fun c => !endsScalar c)
          | none => .error .badInteger

def inlineEntries : Nat → List (String × Value) → List Char → Except Fault (Value × List Char)
  | 0, _, _ => .error .unusableValue
  | steps + 1, entries, text => do
      let (keys, rest) ← dottedKey steps text
      match ← skipLines steps rest with
      | '=' :: rest => do
          let (found, rest) ← value steps (← skipLines steps rest)
          let entries ← assign found keys entries
          match ← skipLines steps rest with
          | '\x7d' :: rest => .ok (.table .inline entries, rest)
          | ',' :: rest => do
              match ← skipLines steps rest with
              | '\x7d' :: rest => .ok (.table .inline entries, rest)
              | rest => inlineEntries steps entries rest
          | _ => .error .misplaced
      | _ => .error .misplaced
end

def lines : Nat → List String → List (String × Value) → List Char → Except Fault (List (String × Value))
  | 0, _, entries, _ => .ok entries
  | steps + 1, header, entries, text => do
      match ← skipLines steps text with
      | [] => .ok entries
      | '[' :: '[' :: _ => .error .unusableValue
      | '[' :: rest => do
          let (keys, rest) ← dottedKey steps (skipBlanks rest)
          match rest with
          | ']' :: rest => do
              let rest ← endLine rest
              lines steps keys (← openTable keys entries) rest
          | _ => .error .misplaced
      | text => do
          let (keys, rest) ← dottedKey steps text
          match rest with
          | '=' :: rest => do
              let (found, rest) ← value steps (skipBlanks rest)
              let rest ← endLine rest
              lines steps header (← within (assign found keys) header entries) rest
          | _ => .error .misplaced

def read (document : String) : Except Fault (List (String × Value)) :=
  let text := match document.toList with
    | '\uFEFF' :: rest => rest
    | text => text
  lines (text.length + 1) [] [] text

end FilterPlan.Toml
