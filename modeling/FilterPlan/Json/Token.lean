import FilterPlan.Json
import FilterPlan.Text.Unsigned
import FilterPlan.Word

set_option autoImplicit false

namespace FilterPlan.Json

inductive Fault where
  | endOfText
  | unexpected
  | unexpectedCharacter (c : Char)
  | controlCharacter
  | badEscape
  | badNumber
  | numberOutOfRange
  | nestedTooDeep
deriving DecidableEq, Repr

def Fault.message : Fault → String
  | .endOfText => "the text ends too early"
  | .unexpected => "a value, a separator or the end is out of place"
  | .unexpectedCharacter c => "unexpected character '" ++ String.singleton c ++ "'"
  | .controlCharacter => "a control character in a string"
  | .badEscape => "a bad escape in a string"
  | .badNumber => "a badly written number"
  | .numberOutOfRange => "a number out of range"
  | .nestedTooDeep => "the values are nested too deep"

inductive Token where
  | beginObject
  | endObject
  | beginArray
  | endArray
  | colon
  | comma
  | null
  | bool (value : Bool)
  | number (value : Number)
  | string (text : String)
  | outOfRange
  | unpaired
deriving DecidableEq, Repr

namespace Token

def levelsAfter (levels : Nat) : Token → Nat
  | .beginObject | .beginArray => levels + 1
  | .endObject | .endArray => levels - 1
  | _ => levels

def nestsWithin (limit levels : Nat) : List Token → Bool
  | [] => true
  | token :: rest =>
      decide (token.levelsAfter levels ≤ limit) && nestsWithin limit (token.levelsAfter levels) rest

end Token

def isSpace (c : Char) : Bool := c = ' ' || c = '\t' || c = '\n' || c = '\r'

-- Strings

def hex4? (a b c d : Char) : Option Nat :=
  match Text.digit? 16 a, Text.digit? 16 b, Text.digit? 16 c, Text.digit? 16 d with
  | some a, some b, some c, some d => some (a * 4096 + b * 256 + c * 16 + d)
  | _, _, _, _ => none

def isHighSurrogate (unit : Nat) : Bool := decide (0xD800 ≤ unit) && decide (unit ≤ 0xDBFF)

def isLowSurrogate (unit : Nat) : Bool := decide (0xDC00 ≤ unit) && decide (unit ≤ 0xDFFF)

def shortEscape? : Char → Option Char
  | '"' => some '"'
  | '\\' => some '\\'
  | '/' => some '/'
  | 'b' => some '\x08'
  | 'f' => some '\x0C'
  | 'n' => some '\n'
  | 'r' => some '\r'
  | 't' => some '\t'
  | _ => none

-- The part of a string that has been read: characters, newest first, perhaps with half of a surrogate pair
-- after them. A string with a surrogate that stands alone has no text.
inductive Content where
  | text (read : List Char)
  | half (read : List Char) (high : Nat)
  | unpaired

namespace Content

def push (c : Char) : Content → Content
  | .text read => .text (c :: read)
  | _ => .unpaired

def pushUnit (unit : Nat) : Content → Content
  | .text read =>
      if isHighSurrogate unit then .half read unit
      else if isLowSurrogate unit then .unpaired
      else .text (Char.ofNat unit :: read)
  | .half read high =>
      if isLowSurrogate unit then
        .text (Char.ofNat (0x10000 + (high - 0xD800) * 1024 + (unit - 0xDC00)) :: read)
      else .unpaired
  | .unpaired => .unpaired

def token : Content → Token
  | .text read => .string (String.ofList read.reverse)
  | _ => .unpaired

end Content

def scanString (content : Content) : List Char → Except Fault (Token × List Char)
  | [] => .error .endOfText
  | '"' :: rest => .ok (content.token, rest)
  | '\\' :: 'u' :: a :: b :: c :: d :: rest =>
      match hex4? a b c d with
      | none => .error .badEscape
      | some unit => scanString (content.pushUnit unit) rest
  | '\\' :: c :: rest =>
      match shortEscape? c with
      | none => .error .badEscape
      | some c => scanString (content.push c) rest
  | c :: rest => if c.toNat < 0x20 then .error .controlCharacter else scanString (content.push c) rest

theorem scan_string_shorter (content : Content) (text : List Char) (result : Token × List Char)
    (scanned : scanString content text = .ok result) : result.2.length < text.length := by
  fun_induction scanString content text <;> simp_all
  case case2 => subst scanned; simp
  all_goals omega

-- Numbers

def isNumberChar (c : Char) : Bool :=
  c.isDigit || c = '-' || c = '+' || c = '.' || c = 'e' || c = 'E'

def digits? (text : List Char) : Option (List Char × List Char) :=
  match text.takeWhile Char.isDigit with
  | [] => none
  | first => some (first, text.dropWhile Char.isDigit)

def fraction? : List Char → Option (List Char × List Char)
  | '.' :: rest => digits? rest
  | rest => some ([], rest)

def exponent? : List Char → Option (Bool × List Char × List Char)
  | c :: rest =>
      if c = 'e' ∨ c = 'E' then
        match rest with
        | '-' :: tail => (digits? tail).map fun found => (true, found)
        | '+' :: tail => (digits? tail).map fun found => (false, found)
        | tail => (digits? tail).map fun found => (false, found)
      else some (false, [], c :: rest)
  | [] => some (false, [], [])

def digitValue (c : Char) : Nat := c.toNat - '0'.toNat

def valueOfDigits (digits : List Char) : Nat := digits.foldl (fun value c => value * 10 + digitValue c) 0

-- Reads digits onto `value` while the result fits in 64 bits, and counts the digits that are left over.
def significandOf (value : Nat) : List Char → Nat × Nat
  | [] => (value, 0)
  | c :: rest =>
      if maxWord64 < value * 10 + digitValue c then (value, rest.length + 1)
      else significandOf (value * 10 + digitValue c) rest

-- The nearest number with at most 53 significant bits; of two, the one with the even last bit.
def roundToDouble (value : Nat) : Nat :=
  let unit := Nat.pow 2 (value.log2 - 52)
  let below := value / unit
  let excess := 2 * (value % unit)
  if unit < excess ∨ (excess = unit ∧ below % 2 = 1) then (below + 1) * unit else below * unit

-- The least number that rounds to no finite double: half a unit past the largest one.
def doubleBound : Nat := Nat.pow 2 1024 - Nat.pow 2 970

def fitsDouble (significand : Nat) (exponent : Int) : Bool :=
  if significand = 0 ∨ exponent < 0 then true
  else if 308 < exponent then false
  else decide (roundToDouble significand * roundToDouble (Nat.pow 10 exponent.toNat) < doubleBound)

-- Reads a whole literal: sign, digits without a leading zero, fraction, exponent. Whether the number is in
-- range is decided on its first digits, as many as fit in 64 bits.
def readNumber (literal : List Char) : Except Fault Number :=
  let negative := literal.head? = some '-'
  match digits? (if negative then literal.drop 1 else literal) with
  | none => .error .badNumber
  | some (whole, afterWhole) =>
      if whole.head? = some '0' ∧ 1 < whole.length then .error .badNumber
      else
        match fraction? afterWhole with
        | none => .error .badNumber
        | some (fraction, afterFraction) =>
            match exponent? afterFraction with
            | some (small, power, []) =>
                let (first, above) := significandOf 0 whole
                let (significand, below) := significandOf first fraction
                let places : Int := above - (fraction.length - below)
                if fitsDouble significand ((if small then -1 else 1) * valueOfDigits power + places) then
                  if negative = false ∧ afterWhole = [] then .ok (.natural (valueOfDigits whole))
                  else .ok (.other (String.ofList literal))
                else .error .numberOutOfRange
            | _ => .error .badNumber

-- Texts as tokens

def tokensFrom (read : List Token) (text : List Char) : Except Fault (List Token) :=
  match text with
  | [] => .ok read.reverse
  | '\x7b' :: rest => tokensFrom (.beginObject :: read) rest
  | '\x7d' :: rest => tokensFrom (.endObject :: read) rest
  | '[' :: rest => tokensFrom (.beginArray :: read) rest
  | ']' :: rest => tokensFrom (.endArray :: read) rest
  | ':' :: rest => tokensFrom (.colon :: read) rest
  | ',' :: rest => tokensFrom (.comma :: read) rest
  | 'n' :: 'u' :: 'l' :: 'l' :: rest => tokensFrom (.null :: read) rest
  | 't' :: 'r' :: 'u' :: 'e' :: rest => tokensFrom (.bool true :: read) rest
  | 'f' :: 'a' :: 'l' :: 's' :: 'e' :: rest => tokensFrom (.bool false :: read) rest
  | '"' :: rest =>
      match _scanned : scanString (.text []) rest with
      | .error fault => .error fault
      | .ok (found, after) => tokensFrom (found :: read) after
  | c :: rest =>
      if isSpace c then tokensFrom read rest
      else if isNumberChar c then
        match readNumber (c :: rest.takeWhile isNumberChar) with
        | .ok value => tokensFrom (.number value :: read) (rest.dropWhile isNumberChar)
        | .error .numberOutOfRange => tokensFrom (.outOfRange :: read) (rest.dropWhile isNumberChar)
        | .error fault => .error fault
      else .error (.unexpectedCharacter c)
termination_by text.length
decreasing_by
  all_goals simp_wf
  all_goals try omega
  · have shorter := scan_string_shorter _ _ _ _scanned
    simp only at shorter
    omega
  all_goals
    have shorter := (List.dropWhile_sublist isNumberChar (l := rest)).length_le
    omega

def tokens (text : List Char) : Except Fault (List Token) := tokensFrom [] text

end FilterPlan.Json
