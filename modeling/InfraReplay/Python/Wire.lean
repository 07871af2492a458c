import InfraReplay.Python.Http
import InfraReplay.Python.Url

/-!
# Messages as they travel

A request line holds the path in ASCII, with the bytes of other characters percent-encoded, and a
header value is a sequence of bytes. What the code gets to see is text.

* `unquote` and `urlPath` are the path of `request.url`: the server undoes the percent-encoding,
  and Starlette puts the path into a URL and takes it out again.
* `dropDots` and `quote` are what httpx makes of the path of a URL. A path of safe characters
  without dot segments stays as it is (`quote_eq_self`, `dropDots_eq_self`).
* `headerText` is the text httpx makes of a header value. It reads all headers of a message in one
  encoding, ASCII or else UTF-8 or else Latin-1.
* `toLatin1` is how Starlette encodes a header value; `none` is a `UnicodeEncodeError`.

A value comes through `headerText` and `toLatin1` as it was exactly when it is ASCII or some header
of the message is not UTF-8 (`toLatin1_headerText_iff`).
-/

namespace Python

/-! ### Paths -/

/-- The value of a hexadecimal digit. -/
def hexValue (c : Char) : Option ℕ :=
  if '0' ≤ c ∧ c ≤ '9' then some (c.toNat - '0'.toNat)
  else if 'A' ≤ c ∧ c ≤ 'F' then some (c.toNat - 'A'.toNat + 10)
  else if 'a' ≤ c ∧ c ≤ 'f' then some (c.toNat - 'a'.toNat + 10)
  else none

/-- `unquote_to_bytes(s)` of ASCII text. -/
def unquoteToBytes : List Char → Bytes
  | [] => []
  | '%' :: high :: low :: rest =>
    match hexValue high, hexValue low with
    | some h, some l => UInt8.ofNat (16 * h + l) :: unquoteToBytes rest
    -- a percent sign without two digits stays
    | _, _ => 0x25 :: unquoteToBytes (high :: low :: rest)
  | c :: rest => UInt8.ofNat c.toNat :: unquoteToBytes rest

/-- `unquote(s)` of ASCII text. -/
def unquote (codec : Codec) (s : String) : String :=
  if '%' ∈ s.toList then codec.utf8 (unquoteToBytes s.toList) else s

/-- A character that `urlsplit` removes wherever it stands. -/
def isUrlBreak (c : Char) : Bool := c = '\t' || c = '\r' || c = '\n'

/-- The path in what follows the `://` of a URL. -/
def pathPart (cs : List Char) : List Char :=
  (cs.dropWhile fun c => !isUrlDelimiter c).takeWhile fun c => c ≠ '?' && c ≠ '#'

/-- `request.url.path` for a `Host` header and a decoded path. -/
def urlPath (host path : String) : String :=
  String.ofList (pathPart ((host.toList ++ path.toList).filter fun c => !isUrlBreak c))

/-- One more segment of a path. -/
def pushSegment (output : List (List Char)) (segment : List Char) : List (List Char) :=
  if segment = ['.'] then output
  else if segment = ['.', '.'] then
    -- nothing stands above the root
    if output = [[]] then output else output.dropLast
  else output ++ [segment]

/-- A path without its dot segments. -/
def dropDots (path : List Char) : List Char :=
  ['/'].intercalate ((path.splitOn '/').foldl pushSegment [])

/-- A byte, percent-encoded: the digits are in upper case. -/
def percent (u : UInt8) : List Char :=
  ['%', (hexDigit (u.toNat / 16)).toUpper, (hexDigit (u.toNat % 16)).toUpper]

/-- A character that is not safe is percent-encoded, in UTF-8. -/
def quoteChar (isSafe : Char → Bool) (c : Char) : List Char :=
  if isSafe c then [c] else (String.utf8EncodeChar c).flatMap percent

/-- A text with the characters percent-encoded that are not safe. -/
def quote (isSafe : Char → Bool) : List Char → List Char
  | [] => []
  | '%' :: high :: low :: rest =>
    -- an escape that is there stays
    if (hexValue high).isSome && (hexValue low).isSome then
      '%' :: high :: low :: quote isSafe rest
    else quoteChar isSafe '%' ++ quote isSafe (high :: low :: rest)
  | c :: rest => quoteChar isSafe c ++ quote isSafe rest

/-- A path without escapes is what it is. -/
theorem unquote_of_not_mem {codec : Codec} {s : String} (h : '%' ∉ s.toList) :
    unquote codec s = s := if_neg h

/-- The path that was put behind an authority. -/
theorem pathPart_append {host path : List Char} (hhost : ∀ c ∈ host, isUrlDelimiter c = false)
    (hroot : path.head? = some '/') (hpath : ∀ c ∈ path, c ≠ '?' ∧ c ≠ '#') :
    pathPart (host ++ path) = path := by
  -- the authority ends where the path begins
  have hdrop : ((host ++ path).dropWhile fun c => !isUrlDelimiter c) = path := by
    rw [List.dropWhile_append_of_pos fun c hc => by simp [hhost c hc]]
    obtain ⟨rest, hrest⟩ := List.head?_eq_some_iff.mp hroot
    rw [hrest]
    rfl
  rw [pathPart, hdrop]
  exact List.takeWhile_eq_self_iff.mpr fun c hc => by simp [hpath c hc]

/-- A path that a URL can hold comes out of it again. -/
theorem urlPath_eq {host path : String}
    (hhost : ∀ c ∈ host.toList, isUrlBreak c = false ∧ isUrlDelimiter c = false)
    (hroot : path.toList.head? = some '/')
    (hpath : ∀ c ∈ path.toList, isUrlBreak c = false ∧ c ≠ '?' ∧ c ≠ '#') :
    urlPath host path = path := by
  have hfilter : ((host.toList ++ path.toList).filter fun c => !isUrlBreak c) =
      host.toList ++ path.toList := by
    refine List.filter_eq_self.mpr fun c hc => ?_
    rcases List.mem_append.mp hc with hc | hc
    · simp [(hhost c hc).1]
    · simp [(hpath c hc).1]
  rw [urlPath, hfilter, pathPart_append (fun c hc => (hhost c hc).2) hroot fun c hc =>
    (hpath c hc).2, String.ofList_toList]

/-- A path without dot segments keeps its segments. -/
theorem dropDots_eq_self {path : List Char}
    (h : ∀ segment ∈ path.splitOn '/', segment ≠ ['.'] ∧ segment ≠ ['.', '.']) :
    dropDots path = path := by
  have hpush : ∀ segments output : List (List Char),
      (∀ segment ∈ segments, segment ≠ ['.'] ∧ segment ≠ ['.', '.']) →
        segments.foldl pushSegment output = output ++ segments := by
    intro segments
    induction segments with
    | nil => simp
    | cons segment segments ih =>
      intro output hsegments
      obtain ⟨hdot, hdots⟩ := hsegments segment List.mem_cons_self
      rw [List.foldl_cons, ih _ fun s hs => hsegments s (List.mem_cons_of_mem _ hs), pushSegment,
        if_neg hdot, if_neg hdots, List.append_assoc, List.singleton_append]
  rw [dropDots, hpush _ _ h, List.nil_append, List.intercalate_splitOn]

/-- Safe characters stay as they are. -/
theorem quote_eq_self {isSafe : Char → Bool} {cs : List Char}
    (h : ∀ c ∈ cs, isSafe c = true ∧ c ≠ '%') : quote isSafe cs = cs := by
  induction cs with
  | nil => rfl
  | cons c cs ih =>
    obtain ⟨hsafe, hne⟩ := h c List.mem_cons_self
    rw [quote, quoteChar, if_pos hsafe, ih fun d hd => h d (List.mem_cons_of_mem _ hd),
      List.singleton_append]
    intro high low rest hescape
    exact absurd hescape hne

/-! ### Header values -/

/-- `s.isascii()`. -/
def isAscii (s : String) : Bool := s.toList.all fun c => c.toNat < 128

/-- `b.isascii()`. -/
def isAsciiBytes (b : Bytes) : Bool := b.all fun u => u < 128

/-- `b.decode("iso-8859-1")`. -/
def latin1 (b : Bytes) : String := String.ofList (b.map fun u => Char.ofNat u.toNat)

/-- `s.encode("latin-1")`. -/
def toLatin1 (s : String) : Option Bytes :=
  if s.toList.all fun c => c.toNat < 256 then some (s.toList.map fun c => UInt8.ofNat c.toNat)
  else none

/-- `b.decode("utf-8")`. -/
def utf8? (b : Bytes) : Option String := String.fromUTF8? b.toByteArray

/-- The text of a header value among all the values of a message, as httpx reads it. -/
def headerText (values : List Bytes) (b : Bytes) : String :=
  if values.all isAsciiBytes then latin1 b
  else if values.all fun b => (utf8? b).isSome then (utf8? b).getD ""
  else latin1 b

variable {b : Bytes} {s : String} {values : List Bytes}

theorem toNat_ofNat_of_lt {n : ℕ} (h : n < 256) : (Char.ofNat n).toNat = n := by
  rw [Char.ofNat, dif_pos (.inl (by omega))]
  rfl

theorem toNat_latin1 (u : UInt8) : (Char.ofNat u.toNat).toNat = u.toNat :=
  toNat_ofNat_of_lt u.toNat_lt

/-- Latin-1 has a character for each byte. -/
@[simp]
theorem toLatin1_latin1 (b : Bytes) : toLatin1 (latin1 b) = some b := by
  have hall : ((latin1 b).toList.all fun c => c.toNat < 256) = true := by
    rw [latin1, String.toList_ofList, List.all_map, List.all_eq_true]
    intro u _
    simpa [toNat_latin1] using u.toNat_lt
  rw [toLatin1, if_pos hall, latin1, String.toList_ofList, List.map_map]
  refine congrArg some ((List.map_congr_left fun u _ => ?_).trans (List.map_id b))
  simp [toNat_latin1]

theorem isSome_toLatin1 (s : String) :
    (toLatin1 s).isSome = true ↔ ∀ c ∈ s.toList, c.toNat < 256 := by
  unfold toLatin1
  split_ifs with hall
  · exact iff_of_true rfl (by simpa using hall)
  · exact iff_of_false (by simp) (by simpa using hall)

theorem isSome_toLatin1_append (s t : String) :
    (toLatin1 (s ++ t)).isSome = true ↔
      (toLatin1 s).isSome = true ∧ (toLatin1 t).isSome = true := by
  simp only [isSome_toLatin1, String.toList_append, List.forall_mem_append]

/-- Valid UTF-8 is the encoding of its text. -/
theorem toByteArray_of_utf8? (h : utf8? b = some s) : s.toByteArray = b.toByteArray := by
  rw [utf8?, String.fromUTF8?] at h
  split_ifs at h
  rw [← Option.some.inj h]
  rfl

/-- The encoding, character by character. -/
theorem flatMap_of_utf8? (h : utf8? b = some s) : s.toList.flatMap String.utf8EncodeChar = b := by
  have hbytes := toByteArray_of_utf8? h
  rw [← String.utf8Encode_toList, List.utf8Encode] at hbytes
  have := congrArg ByteArray.data hbytes
  simpa using congrArg Array.toList this

/-- An ASCII character is encoded as one byte. -/
theorem utf8EncodeChar_of_lt {c : Char} (h : c.toNat < 128) :
    String.utf8EncodeChar c = [UInt8.ofNat c.toNat] := by
  have hsize : c.utf8Size = 1 := Char.utf8Size_eq_one_iff.mpr (by
    rw [UInt32.le_iff_toNat_le]
    exact Nat.le_of_lt_succ h)
  rw [String.utf8EncodeChar_eq_singleton hsize]
  rfl

/-- No character is encoded as less than a byte. -/
theorem length_le_flatMap (l : List Char) :
    l.length ≤ (l.flatMap String.utf8EncodeChar).length := by
  induction l with
  | nil => exact Nat.le_refl 0
  | cons c l ih =>
    have := c.utf8Size_pos
    simp only [List.flatMap_cons, List.length_append, List.length_cons,
      String.length_utf8EncodeChar]
    omega

/-- A text that UTF-8 encodes in as many bytes as it has characters is ASCII. -/
theorem lt_of_length_flatMap {l : List Char}
    (h : (l.flatMap String.utf8EncodeChar).length = l.length) : ∀ c ∈ l, c.toNat < 128 := by
  induction l with
  | nil => exact fun _ hc => nomatch hc
  | cons c l ih =>
    have hpos := c.utf8Size_pos
    have hrest := length_le_flatMap l
    simp only [List.flatMap_cons, List.length_append, List.length_cons,
      String.length_utf8EncodeChar] at h
    have hsize := Char.utf8Size_eq_one_iff.mp (show c.utf8Size = 1 by omega)
    rw [UInt32.le_iff_toNat_le] at hsize
    exact List.forall_mem_cons.mpr ⟨Nat.lt_succ_of_le hsize, ih (by omega)⟩

/-- The UTF-8 encoding of a text is its Latin-1 encoding exactly when it is ASCII. -/
theorem toLatin1_of_utf8? (h : utf8? b = some s) : toLatin1 s = some b ↔ isAsciiBytes b = true := by
  have hflat := flatMap_of_utf8? h
  constructor
  · intro hlatin
    rw [toLatin1] at hlatin
    split_ifs at hlatin
    have hmap := Option.some.inj hlatin
    -- one byte for each character
    have hlength : (s.toList.flatMap String.utf8EncodeChar).length = s.toList.length := by
      rw [hflat, ← hmap, List.length_map]
    have hlt := lt_of_length_flatMap hlength
    rw [← hmap, isAsciiBytes, List.all_map, List.all_eq_true]
    intro c hc
    have := hlt c hc
    simp [UInt8.lt_iff_toNat_lt, Nat.mod_eq_of_lt (show c.toNat < 256 by omega), this]
  · intro hascii
    have htext : latin1 b = s := by
      refine String.toByteArray_inj.mp ?_
      rw [toByteArray_of_utf8? h, latin1, String.toByteArray_ofList, List.utf8Encode]
      congr 1
      rw [isAsciiBytes, List.all_eq_true] at hascii
      clear hflat h
      induction b with
      | nil => rfl
      | cons u b ih =>
        have hu : u.toNat < 128 := by simpa [UInt8.lt_iff_toNat_lt] using hascii u (by simp)
        rw [List.map_cons, List.flatMap_cons,
          utf8EncodeChar_of_lt (by rw [toNat_latin1]; exact hu),
          ih fun v hv => hascii v (List.mem_cons_of_mem _ hv), toNat_latin1]
        simp
    rw [← htext, toLatin1_latin1]

/-- A header value comes back as it was exactly when it is ASCII or the headers are not UTF-8. -/
theorem toLatin1_headerText_iff (hb : b ∈ values) :
    toLatin1 (headerText values b) = some b ↔
      isAsciiBytes b = true ∨ ∃ b' ∈ values, utf8? b' = none := by
  unfold headerText
  by_cases hascii : values.all isAsciiBytes = true
  · rw [if_pos hascii, toLatin1_latin1]
    exact iff_of_true rfl (.inl (List.all_eq_true.mp hascii b hb))
  rw [if_neg hascii]
  by_cases hutf8 : values.all (fun b => (utf8? b).isSome) = true
  · have hall := List.all_eq_true.mp hutf8
    -- read as UTF-8 the text gives its bytes back only where it is ASCII
    obtain ⟨s, hs⟩ := Option.isSome_iff_exists.mp (hall b hb)
    rw [if_pos hutf8, hs, Option.getD_some, toLatin1_of_utf8? hs]
    refine ⟨.inl, fun h => h.resolve_right ?_⟩
    rintro ⟨b', hb', hnone⟩
    simpa [hnone] using hall b' hb'
  · -- one value that is not UTF-8 has all of them read as Latin-1
    rw [if_neg hutf8, toLatin1_latin1]
    refine iff_of_true rfl (.inr ?_)
    simpa using hutf8

end Python
