import FilterPlan.Json

set_option autoImplicit false

namespace FilterPlan.Json

def hexDigit (value : Nat) : Char :=
  if value < 10 then Char.ofNat ('0'.toNat + value) else Char.ofNat ('a'.toNat + (value - 10))

def escape (c : Char) : List Char :=
  if c = '"' then ['\\', '"']
  else if c = '\\' then ['\\', '\\']
  else if c = '\x08' then ['\\', 'b']
  else if c = '\x0C' then ['\\', 'f']
  else if c = '\n' then ['\\', 'n']
  else if c = '\r' then ['\\', 'r']
  else if c = '\t' then ['\\', 't']
  else if c.toNat < 0x20 then ['\\', 'u', '0', '0', hexDigit (c.toNat / 16), hexDigit (c.toNat % 16)]
  else [c]

-- Each writer puts its text in front of `rest`, so a document is written in one pass.

def stringOnto (text : String) (rest : List Char) : List Char :=
  '"' :: text.toList.foldr (fun c written => escape c ++ written) ('"' :: rest)

def numberOnto (value : Number) (rest : List Char) : List Char :=
  match value with
  | .natural value => (toString value).toList ++ rest
  | .other literal => literal.toList ++ rest

mutual
def compactOnto (rest : List Char) : Json → List Char
  | .null => "null".toList ++ rest
  | .bool true => "true".toList ++ rest
  | .bool false => "false".toList ++ rest
  | .number value => numberOnto value rest
  | .string text => stringOnto text rest
  | .array items => '[' :: compactItems (']' :: rest) items
  | .object members => '\x7b' :: compactMembers ('\x7d' :: rest) members

def compactItems (rest : List Char) : List Json → List Char
  | [] => rest
  | [item] => compactOnto rest item
  | item :: items => compactOnto (',' :: compactItems rest items) item

def compactMembers (rest : List Char) : List (String × Json) → List Char
  | [] => rest
  | [(key, value)] => stringOnto key (':' :: compactOnto rest value)
  | (key, value) :: members =>
      stringOnto key (':' :: compactOnto (',' :: compactMembers rest members) value)
end

def compact (value : Json) : String := String.ofList (compactOnto [] value)

def lineOnto (level : Nat) (rest : List Char) : List Char :=
  '\n' :: (List.replicate (2 * level) ' ' ++ rest)

mutual
def prettyOnto (level : Nat) (rest : List Char) : Json → List Char
  | .null => "null".toList ++ rest
  | .bool true => "true".toList ++ rest
  | .bool false => "false".toList ++ rest
  | .number value => numberOnto value rest
  | .string text => stringOnto text rest
  | .array [] => '[' :: ']' :: rest
  | .array items => '[' :: prettyItems (level + 1) (lineOnto level (']' :: rest)) items
  | .object [] => '\x7b' :: '\x7d' :: rest
  | .object members => '\x7b' :: prettyMembers (level + 1) (lineOnto level ('\x7d' :: rest)) members

def prettyItems (level : Nat) (rest : List Char) : List Json → List Char
  | [] => rest
  | [item] => lineOnto level (prettyOnto level rest item)
  | item :: items => lineOnto level (prettyOnto level (',' :: prettyItems level rest items) item)

def prettyMembers (level : Nat) (rest : List Char) : List (String × Json) → List Char
  | [] => rest
  | [(key, value)] => lineOnto level (stringOnto key (':' :: ' ' :: prettyOnto level rest value))
  | (key, value) :: members =>
      lineOnto level (stringOnto key
        (':' :: ' ' :: prettyOnto level (',' :: prettyMembers level rest members) value))
end

def pretty (value : Json) : String := String.ofList (prettyOnto 0 [] value)

end FilterPlan.Json
