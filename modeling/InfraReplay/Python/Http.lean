import InfraReplay.Python.Text
import InfraReplay.Python.Value

/-!
# What the HTTP and JSON libraries hand to the code

Messages as Starlette and httpx present them, and the decoders both sides of a capture call
(`Codec`). Header names are in lower case, as both libraries deliver them. A header that occurs
twice is read differently: Starlette's `get` takes the first value, `dict()` over its items the
last, and httpx joins the values with a comma.

What the code relies on is stated where it is used: `Codec.Lawful` for the decoders, and
`Codec.RoundTrips` for the encoder.
-/

namespace Python

/-- A body. -/
abbrev Bytes := List UInt8

/-- The bytes of an ASCII string. -/
def ascii (s : String) : Bytes := s.toList.map fun c => UInt8.ofNat c.toNat

/-- The string of ASCII bytes. -/
def ofAscii (b : Bytes) : String := String.ofList (b.map fun c => Char.ofNat c.toNat)

/-- Encoders and decoders. -/
structure Codec where
  /-- `json.loads(body)`; `none` is a `ValueError`. -/
  loads : Bytes → Option Json
  /-- The body httpx sends for `json=value`; `none` when it raises. -/
  dumps : Json → Option Bytes
  /-- `body.decode("utf-8", errors="replace")`. -/
  utf8 : Bytes → String
  /-- `response.text`, which decodes by the charset of the content type. -/
  text : String → Bytes → String

/-- An empty body is no JSON document, and its text is empty. -/
structure Codec.Lawful (codec : Codec) : Prop where
  loads_nil : codec.loads [] = none
  text_nil : ∀ contentType, codec.text contentType [] = ""

/-- The document `{"ok":true}`. -/
def okDocument : Json := ⟨.dict [("ok", .bool true)], rfl⟩

/-- The encoding of `okDocument`. -/
def okBytes : Bytes := ascii "\x7b\"ok\":true\x7d"

/-- The encoding of the empty object. -/
def emptyBytes : Bytes := ascii "\x7b\x7d"

/-- A codec that does on `okBytes`, on `emptyBytes` and on ASCII text what the real one does. -/
def sampleCodec : Codec where
  loads b :=
    if b = okBytes then some okDocument
    else if b = emptyBytes then some ⟨.dict [], Value.wf_dict_nil⟩
    else none
  dumps v :=
    match v.val with
    | .dict [("ok", .bool true)] => some okBytes
    | .dict [] => some emptyBytes
    | _ => none
  utf8 := ofAscii
  text _ := ofAscii

theorem sampleCodec_lawful : sampleCodec.Lawful where
  loads_nil := rfl
  text_nil _ := rfl

/-- The header items of a message, in order. -/
abbrev Headers := List (String × String)

namespace Headers

/-- `headers.get(name)` of Starlette: the first value. -/
def first (headers : Headers) (name : String) : Option String := headers.lookup name

/-- `dict(headers)` of httpx: one entry for each name, repeated values joined by commas. -/
def joined (headers : Headers) : Dict String String :=
  (Dict.collect Prod.fst headers).map fun p => (p.1, ", ".intercalate (p.2.map Prod.snd))

theorem nodup_keys_joined (headers : Headers) : (Dict.keys headers.joined).Nodup := by
  rw [joined, Dict.collect_eq, Dict.keys, List.map_map, List.map_map]
  simpa [Function.comp_def] using List.nodup_firstSeen (headers.map Prod.fst)

/-- All values of a name, in order. -/
def values (headers : Headers) (name : String) : List String :=
  (headers.filter fun p => p.1 = name).map Prod.snd

/-- The one entry for a name joins its values. -/
theorem get?_joined (headers : Headers) (name : String) :
    headers.joined.get? name =
      if headers.values name = [] then none
      else some (", ".intercalate (headers.values name)) := by
  rw [joined, Dict.get?_map fun (_ : String) (items : Headers) =>
    ", ".intercalate (items.map Prod.snd), Dict.collect_eq, Dict.get?_map_self]
  have hmem : name ∈ (headers.map Prod.fst).firstSeen ↔ headers.values name ≠ [] := by
    rw [List.mem_firstSeen, values, Ne, List.map_eq_nil_iff, List.filter_eq_nil_iff]
    simp
  by_cases h : headers.values name = []
  · rw [if_pos h, if_neg (mt hmem.mp (not_not.mpr h))]
    rfl
  · rw [if_neg h, if_pos (hmem.mpr h)]
    rfl

end Headers

/-- A response as httpx reads it; `content` is the body after content decoding. -/
structure Response where
  status : ℤ
  headers : Headers
  content : Bytes

/-- `response.headers.get("content-type", "")`. -/
def Response.contentType (r : Response) : String :=
  (r.headers.joined.get? "content-type").getD ""

end Python
