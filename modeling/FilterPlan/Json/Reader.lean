import FilterPlan.Json.Token

set_option autoImplicit false

namespace FilterPlan.Json

inductive Frame where
  | list (items : List Json)
  | entry (members : List (String × Json)) (key : String)

-- What may come next. Until a record's next key and colon are read, its finished members are kept here and
-- not in a frame.
inductive Phase where
  | value
  | firstItem
  | firstKey
  | key (members : List (String × Json))
  | colon (members : List (String × Json)) (key : String)
  | after (value : Json)

structure Reading where
  frames : List Frame
  phase : Phase

def begin (frames : List Frame) : Token → Except Fault Reading
  | .null => .ok ⟨frames, .after .null⟩
  | .bool value => .ok ⟨frames, .after (.bool value)⟩
  | .number value => .ok ⟨frames, .after (.number value)⟩
  | .string text => .ok ⟨frames, .after (.string text)⟩
  | .beginArray => .ok ⟨frames, .firstItem⟩
  | .beginObject => .ok ⟨frames, .firstKey⟩
  | .outOfRange => .error .numberOutOfRange
  | .unpaired => .error .badEscape
  | _ => .error .unexpected

def step (reading : Reading) (token : Token) : Except Fault Reading :=
  match reading.phase, reading.frames, token with
  | .value, frames, token => begin frames token
  | .firstItem, frames, .endArray => .ok ⟨frames, .after (.array [])⟩
  | .firstItem, frames, token => begin (.list [] :: frames) token
  | .firstKey, frames, .endObject => .ok ⟨frames, .after (.object [])⟩
  | .firstKey, frames, .string key => .ok ⟨frames, .colon [] key⟩
  | .key members, frames, .string key => .ok ⟨frames, .colon members key⟩
  | .colon members key, frames, .colon => .ok ⟨.entry members key :: frames, .value⟩
  | .after value, .list items :: frames, .comma => .ok ⟨.list (value :: items) :: frames, .value⟩
  | .after value, .list items :: frames, .endArray => .ok ⟨frames, .after (.array (value :: items).reverse)⟩
  | .after value, .entry members key :: frames, .comma => .ok ⟨frames, .key ((key, value) :: members)⟩
  | .after value, .entry members key :: frames, .endObject =>
      .ok ⟨frames, .after (.object ((key, value) :: members).reverse)⟩
  | _, _, _ => .error .unexpected

def run : Reading → List Token → Except Fault Reading
  | reading, [] => .ok reading
  | reading, token :: rest =>
      match step reading token with
      | .error fault => .error fault
      | .ok reading => run reading rest

def start : Reading := ⟨[], .value⟩

def ofTokens (found : List Token) : Except Fault Json :=
  match run start found with
  | .error fault => .error fault
  | .ok ⟨[], .after value⟩ => .ok value
  | .ok _ => .error .endOfText

def ofTokensWithin (limit : Nat) (found : List Token) : Except Fault Json :=
  if Token.nestsWithin limit 0 found then ofTokens found else .error .nestedTooDeep

def read (limit : Nat) (text : String) : Except Fault Json :=
  match tokens text.toList with
  | .error fault => .error fault
  | .ok found => ofTokensWithin limit found

end FilterPlan.Json
