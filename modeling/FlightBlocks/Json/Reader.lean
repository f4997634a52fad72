import FlightBlocks.Json.Token
/-!
Tokens gathered into a value. The values and members read so far of every open array and object
wait on a stack, so the depth of nesting has no limit.
-/

namespace FlightBlocks.Json

/-- An open array or object: what it holds so far, in reverse, and the key whose value is read. -/
inductive Frame where
  | items (before : List Json)
  | member (before : List (List JsonMark × Json)) (key : List JsonMark)

inductive Reading where
  | value (opened : List Frame)
  | firstItem (opened : List Frame)
  | firstKey (opened : List Frame)
  | key (opened : List Frame) (before : List (List JsonMark × Json))
  | colon (opened : List Frame) (before : List (List JsonMark × Json)) (key : List JsonMark)
  | done (opened : List Frame) (v : Json)

def begin (opened : List Frame) : JsonToken → Option Reading
  | .null => some (.done opened .null)
  | .bool b => some (.done opened (.bool b))
  | .number n => some (.done opened (.number n))
  | .text t => some (.done opened (.text t))
  | .beginArray => some (.firstItem opened)
  | .beginObject => some (.firstKey opened)
  | _ => none

def step : Reading → JsonToken → Option Reading
  | .value opened, t => begin opened t
  | .firstItem opened, .endArray => some (.done opened (.array []))
  | .firstItem opened, t => begin (.items [] :: opened) t
  | .firstKey opened, .endObject => some (.done opened (.object []))
  | .firstKey opened, .text key => some (.colon opened [] key)
  | .key opened before, .text key => some (.colon opened before key)
  | .colon opened before key, .colon => some (.value (.member before key :: opened))
  | .done (.items before :: opened) v, .comma => some (.value (.items (v :: before) :: opened))
  | .done (.items before :: opened) v, .endArray =>
    some (.done opened (.array (v :: before).reverse))
  | .done (.member before key :: opened) v, .comma => some (.key opened ((key, v) :: before))
  | .done (.member before key :: opened) v, .endObject =>
    some (.done opened (.object ((key, v) :: before).reverse))
  | _, _ => none

def finished : Reading → Option Json
  | .done [] v => some v
  | _ => none

def ofTokens? (tokens : List JsonToken) : Option Json :=
  (tokens.foldlM step (.value [])).bind finished

def parse? (s : String) : Option Json := (JsonToken.ofString? s).bind ofTokens?

end FlightBlocks.Json
