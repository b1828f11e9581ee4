import Libjingle.Lib.Output
import Libjingle.Base.Numerals
import Libjingle.Base.Pathname

/-!
# Coding of strings (`base/stringencode.{h,cc}`)

Each function returns the position in the buffer, which it returns in the source, with the stores into the
buffer. The source is the list of its bytes; only `strtoul` reads on behind it. The bodies of the loops
return `none` where they break.
-/

namespace Libjingle.StringEncode

open Lib Http

/-- `strchr`, which finds the terminator, too. -/
def strchr (s : List Uint8) (ch : Uint8) : Bool := ch == 0 || s.contains ch

def hexEncode (val : Uint8) : Uint8 :=
  if val < 16 then (text "0123456789abcdef").getD val.toNat 0 else 0x21

def coding (body : List Uint8 → Output Uint8 → Option (List Uint8 × Output Uint8)) (buflen : ℕ)
    (source : List Uint8) : Output Uint8 :=
  if buflen ≤ 0 then {}
  else (codeLoop (fun bufpos => bufpos + 1 < buflen) body source.length source {}).terminate 0

/-! ## Escape characters -/

def escapeBody (illegal : List Uint8) (escape : Uint8) (buflen : ℕ) :
    List Uint8 → Output Uint8 → Option (List Uint8 × Output Uint8)
  | [], _ => none
  | ch :: src, o =>
    if ch == escape || strchr illegal ch then
      if o.pos + 2 ≥ buflen then none else some (src, (o.put escape).put ch)
    else some (src, o.put ch)

/-- `escape`: the escape character before itself and the illegal ones. -/
def escape (buflen : ℕ) (source illegal : List Uint8) (escape : Uint8) : Output Uint8 :=
  coding (escapeBody illegal escape buflen) buflen source

def unescapeBody (escape : Uint8) : List Uint8 → Output Uint8 → Option (List Uint8 × Output Uint8)
  | [], _ => none
  | [ch], o => some ([], o.put ch)
  | ch :: ch' :: src, o => if ch = escape then some (src, o.put ch') else some (ch' :: src, o.put ch)

/-- `unescape`. -/
def unescape (buflen : ℕ) (source : List Uint8) (escape : Uint8) : Output Uint8 :=
  coding (unescapeBody escape) buflen source

/-! ## Hexadecimal digits -/

def encodeBody (illegal : List Uint8) (escape : Uint8) (buflen : ℕ) :
    List Uint8 → Output Uint8 → Option (List Uint8 × Output Uint8)
  | [], _ => none
  | ch :: src, o =>
    if ch != escape && !strchr illegal ch then some (src, o.put ch)
    else if o.pos + 3 ≥ buflen then none
    else some (src, o.puts [escape, hexEncode (ch >>> 4 &&& 0xF), hexEncode (ch &&& 0xF)])

/-- `encode`: the escape character and two digits for itself and the illegal ones. -/
def encode (buflen : ℕ) (source illegal : List Uint8) (escape : Uint8) : Output Uint8 :=
  coding (encodeBody illegal escape buflen) buflen source

def hexPair (a b : Uint8) : Option Uint8 := do
  let h1 ← hexDecode a
  let h2 ← hexDecode b
  some (h1 <<< 4 ||| h2)

def decodeBody (escape : Uint8) : List Uint8 → Output Uint8 → Option (List Uint8 × Output Uint8)
  | [], _ => none
  | ch :: a :: b :: src, o =>
    if ch = escape then
      match hexPair a b with
      | some value => some (src, o.put value)
      | none => some (a :: b :: src, o.put ch)
    else some (a :: b :: src, o.put ch)
  | ch :: src, o => some (src, o.put ch)

/-- `decode`. -/
def decode (buflen : ℕ) (source : List Uint8) (escape : Uint8) : Output Uint8 :=
  coding (decodeBody escape) buflen source

/-! ## URLs -/

abbrev URL_UNSAFE : ℕ := 0x1
abbrev XML_UNSAFE : ℕ := 0x2
abbrev HTML_UNSAFE : ℕ := 0x2

/-- `ASCII_CLASS`. -/
def asciiClass : List ℕ :=
  [1,1,1,1,1,1,1,1,1,1,1,1,1,1,1,1,1,1,1,1,1,1,1,1,1,1,1,1,1,1,1,1,
   1,0,3,1,1,1,3,2,0,0,0,1,1,0,0,1,0,0,0,0,0,0,0,0,0,0,1,1,3,1,3,1,
   1,0,0,0,0,0,0,0,0,0,0,0,0,0,0,0,0,0,0,0,0,0,0,0,0,0,0,1,1,1,1,0,
   1,0,0,0,0,0,0,0,0,0,0,0,0,0,0,0,0,0,0,0,0,0,0,0,0,0,0,1,1,1,0,1]

/-- `(ch < 128) && (ASCII_CLASS[ch] & unsafe)`. -/
def isUnsafe (unsafety : ℕ) (ch : Uint8) : Bool :=
  ch < 128 && asciiClass.getD ch.toNat 0 &&& unsafety != 0

def urlEncodeBody (buflen : ℕ) : List Uint8 → Output Uint8 → Option (List Uint8 × Output Uint8)
  | [], _ => none
  | ch :: src, o =>
    if isUnsafe URL_UNSAFE ch then
      if o.pos + 3 ≥ buflen then none
      else some (src, o.puts [0x25, hexEncode (ch >>> 4 &&& 0xF), hexEncode (ch &&& 0xF)])
    else some (src, o.put ch)

/-- `url_encode`; without a buffer the length that is always enough. -/
def urlEncode (buffer : Bool) (buflen : ℕ) (source : List Uint8) : Output Uint8 :=
  if !buffer then ⟨source.length * 3 + 1, []⟩ else coding (urlEncodeBody buflen) buflen source

def urlDecodeBody : List Uint8 → Output Uint8 → Option (List Uint8 × Output Uint8)
  | [], _ => none
  | ch :: a :: b :: src, o =>
    if ch = 0x2B then some (a :: b :: src, o.put 0x20)
    else if ch = 0x25 then
      match hexPair a b with
      | some value => some (src, o.put value)
      | none => some (a :: b :: src, o.put ch)
    else some (a :: b :: src, o.put ch)
  | ch :: src, o => some (src, o.put (if ch = 0x2B then 0x20 else ch))

/-- `url_decode`; without a buffer the length that is always enough. -/
def urlDecode (buffer : Bool) (buflen : ℕ) (source : List Uint8) : Output Uint8 :=
  if !buffer then ⟨source.length + 1, []⟩ else coding urlDecodeBody buflen source

/-! ## UTF-8 -/

def isTrailer (b : Uint8) : Bool := b &&& 0xC0 == 0x80

/-- `utf8_decode`: the length and the value, if valid. -/
def utf8Decode (s : List Uint8) : Option (ℕ × ℕ) :=
  let b (i : ℕ) : Uint8 := s.getD i 0
  if b 0 &&& 0x80 = 0x00 then some (1, (b 0).toNat)
  else if s.length < 2 || !isTrailer (b 1) then none
  else
    let value16 := (b 1 &&& 0x3F).toNat
    if b 0 &&& 0xE0 = 0xC0 then some (2, (b 0 &&& 0x1F).toNat <<< 6 ||| value16)
    else if s.length < 3 || !isTrailer (b 2) then none
    else
      let value16 := value16 <<< 6 ||| (b 2 &&& 0x3F).toNat
      if b 0 &&& 0xF0 = 0xE0 then some (3, (b 0 &&& 0x0F).toNat <<< 12 ||| value16)
      else if s.length < 4 || !isTrailer (b 3) then none
      else
        let value16 := value16 <<< 6 ||| (b 3 &&& 0x3F).toNat
        if b 0 &&& 0xF8 = 0xF0 then some (4, (b 0 &&& 0x07).toNat <<< 18 ||| value16) else none

def utf8Byte (bits : Uint8) (value : ℕ) : Uint8 := bits ||| BitVec.ofNat 8 value

def utf8Encode (buflen value : ℕ) : List Uint8 :=
  if value ≤ 0x7F ∧ buflen ≥ 1 then [BitVec.ofNat 8 value]
  else if value ≤ 0x7FF ∧ buflen ≥ 2 then
    [utf8Byte 0xC0 (value >>> 6), utf8Byte 0x80 (value &&& 0x3F)]
  else if value ≤ 0xFFFF ∧ buflen ≥ 3 then
    [utf8Byte 0xE0 (value >>> 12), utf8Byte 0x80 ((value >>> 6) &&& 0x3F), utf8Byte 0x80 (value &&& 0x3F)]
  else if value ≤ 0x1FFFFF ∧ buflen ≥ 4 then
    [utf8Byte 0xF0 (value >>> 18), utf8Byte 0x80 ((value >>> 12) &&& 0x3F),
      utf8Byte 0x80 ((value >>> 6) &&& 0x3F), utf8Byte 0x80 (value &&& 0x3F)]
  else []

/-! ## Markup -/

def sprintfn (buflen val : ℕ) : List Uint8 :=
  (text "&#" ++ formatNumber 10 1 val ++ text ";").take (buflen - 1)

def htmlEscape (ch : Uint8) : List Uint8 :=
  if ch = 0x3C then text "&lt;"
  else if ch = 0x3E then text "&gt;"
  else if ch = 0x27 then text "&#39;"
  else if ch = 0x22 then text "&quot;"
  else if ch = 0x26 then text "&amp;"
  else []

def htmlEncodeBody (buflen : ℕ) : List Uint8 → Output Uint8 → Option (List Uint8 × Output Uint8)
  | [], _ => none
  | ch :: src, o =>
    if ch < 128 then
      if isUnsafe HTML_UNSAFE ch then
        let escseq := htmlEscape ch
        if o.pos + escseq.length ≥ buflen then none else some (src, o.puts escseq)
      else some (src, o.put ch)
    else
      -- a byte that starts no valid sequence stands for itself
      let decoded := (utf8Decode (ch :: src)).getD (1, ch.toNat)
      let escseq := sprintfn 11 decoded.2
      if o.pos + escseq.length ≥ buflen then none
      else some ((ch :: src).drop decoded.1, o.puts escseq)

/-- `html_encode`. -/
def htmlEncode (buflen : ℕ) (source : List Uint8) : Output Uint8 :=
  coding (htmlEncodeBody buflen) buflen source

def xmlEscape (ch : Uint8) : List Uint8 :=
  if ch = 0x3C then text "&lt;"
  else if ch = 0x3E then text "&gt;"
  else if ch = 0x27 then text "&apos;"
  else if ch = 0x22 then text "&quot;"
  else if ch = 0x26 then text "&amp;"
  else []

def xmlEncodeBody (buflen : ℕ) : List Uint8 → Output Uint8 → Option (List Uint8 × Output Uint8)
  | [], _ => none
  | ch :: src, o =>
    if isUnsafe XML_UNSAFE ch then
      let escseq := xmlEscape ch
      if o.pos + escseq.length ≥ buflen then none else some (src, o.puts escseq)
    else some (src, o.put ch)

/-- `xml_encode`. -/
def xmlEncode (buflen : ℕ) (source : List Uint8) : Output Uint8 :=
  coding (xmlEncodeBody buflen) buflen source

/-- `strtoul`: the value, and the text from `ptr` on. -/
def strtoul (hex : Bool) (s : List Uint8) : ℕ × List Uint8 :=
  if hex then strtoul16 s else (scanNumber 10 s).getD (0, s)

def xmlDecodeBody (beyond : List Uint8) (buflen : ℕ) :
    List Uint8 → Output Uint8 → Option (List Uint8 × Output Uint8)
  | [], _ => none
  | ch :: src, o =>
    if ch ≠ 0x26 then some (src, o.put ch)
    else if text "lt;" <+: src then some (src.drop 3, o.put 0x3C)
    else if text "gt;" <+: src then some (src.drop 3, o.put 0x3E)
    else if text "apos;" <+: src then some (src.drop 5, o.put 0x27)
    else if text "quot;" <+: src then some (src.drop 5, o.put 0x22)
    else if text "amp;" <+: src then some (src.drop 4, o.put 0x26)
    else if src.head? = some 0x23 then
      let hex := src.tail.head? = some 0x78
      let digits := if hex then src.drop 2 else src.drop 1
      -- `ptr` may go past the end of the source
      let r := strtoul hex (digits ++ beyond)
      if r.2.length > beyond.length ∧ r.2.head? = some 0x3B then
        let bytes := utf8Encode (buflen - o.pos) r.1
        if bytes = [] then none
        else some (r.2.tail.take (r.2.length - 1 - beyond.length), o.puts bytes)
      else none
    else none

/-- `xml_decode`. -/
def xmlDecode (buflen : ℕ) (source beyond : List Uint8) : Output Uint8 :=
  coding (xmlDecodeBody beyond buflen) buflen source

/-- `html_decode`, the same as `xml_decode`. -/
def htmlDecode (buflen : ℕ) (source beyond : List Uint8) : Output Uint8 := xmlDecode buflen source beyond

end Libjingle.StringEncode
