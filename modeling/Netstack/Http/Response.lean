/-
# Responses

`http_parse_response` and `http_response_is_chunked` of `src/http.c`, with the functions that
they call.

The response is the array `data`, in which a zero has to stand somewhere, as the functions of
`string.h` look for one.  Pointers into it are offsets.
-/

import Netstack.Library.CString
import Netstack.Http.ChunkedCoding

namespace Netstack

/-! ### The parser -/

/-- `http_response_t`, with an offset or `NULL` for `body`. -/
structure HttpResponse where
  statusCode : ℤ
  statusText : List UInt8
  headerLen : ℕ
  body : Option ℕ
  bodyLen : ℕ
deriving DecidableEq, Repr

/-- `memset(response, 0, sizeof(*response))` -/
def HttpResponse.zeroed : HttpResponse := ⟨0, List.replicate 64 0, 0, none, 0⟩

/-- `"HTTP/"` -/
def httpVersionStart : List UInt8 := [72, 84, 84, 80, 47]

/-- `http_parse_response` where it copies the text behind the status code. -/
def httpCopyStatusText (data statusText : List UInt8) (endptr lineEnd : ℕ) :
    Checked (List UInt8) :=
  if endptr < lineEnd then do
    let c ← readAt data endptr
    if c = 32 then
      let text := endptr + 1
      let textLen :=
        if lineEnd - text ≥ statusText.length then statusText.length - 1 else lineEnd - text
      let bytes ← readRange data text textLen
      let statusText ← writeRange statusText 0 bytes
      writeAt statusText textLen 0
    else return statusText
  else return statusText

/-- `http_parse_response` from the search for the end of the headers on. -/
def httpFindBody (data : List UInt8) (dataLen : ℕ) (response : HttpResponse) :
    Checked (ℤ × HttpResponse) := do
  match ← strstr data 0 (crLf ++ crLf) with
  | none => return (-3, response)
  | some headerEnd =>
    let headerLen := sizeAdd headerEnd 4
    if headerLen > dataLen then return (-3, { response with headerLen })
    else return (0, { response with
      headerLen, body := some headerLen, bodyLen := sizeSub dataLen headerLen })

/-- `http_parse_response`: its result, and what it leaves in `response`. -/
def httpParseResponse (data : List UInt8) (dataLen : ℕ) (response : HttpResponse) :
    Checked (ℤ × HttpResponse) :=
  if dataLen = 0 then return (-1, response)
  else do
    match ← strstr data 0 crLf with
    | none => return (-2, .zeroed)
    | some lineEnd =>
      if lineEnd < 12 then return (-2, .zeroed)
      else
        let isHttp ← strncmpEq data 0 httpVersionStart
        if !isHttp then return (-2, .zeroed)
        else
          match ← strchr data 0 32 with
          | none => return (-2, .zeroed)
          | some space =>
            if space ≥ lineEnd then return (-2, .zeroed)
            else
              let (status, endptr) ← strtol data (space + 1)
              if endptr = space + 1 ∨ status < 100 ∨ status > 999 then return (-2, .zeroed)
              else
                let statusText ←
                  httpCopyStatusText data HttpResponse.zeroed.statusText endptr lineEnd
                httpFindBody data dataLen
                  { HttpResponse.zeroed with statusCode := status, statusText }

/-! ### Transfer-Encoding -/

/-- `ascii_equal_nocase` -/
def asciiEqualNocase (a b : UInt8) : Bool := tolower a = tolower b

/-- The loops that compare the characters from `data + i` on with a name. -/
def matchesNocase (data : List UInt8) (i : ℕ) : List UInt8 → Checked Bool
  | [] => return true
  | c :: name => do
    let a ← readAt data i
    if asciiEqualNocase a c then matchesNocase data (i + 1) name else return false

/-- `header_name_matches` -/
def headerNameMatches (data : List UInt8) (line lineLen : ℕ) (name : List UInt8) :
    Checked Bool :=
  if lineLen < name.length + 1 then return false
  else do
    let same ← matchesNocase data line name
    if !same then return false
    else
      let c ← readAt data (line + name.length)
      return c = 58

/-- `"chunked"` -/
def chunkedName : List UInt8 := [99, 104, 117, 110, 107, 101, 100]

/-- The loop of `value_contains_chunked`. -/
def valueContainsChunkedLoop (data : List UInt8) (value valueLen : ℕ) : ℕ → ℕ → Checked Bool
  | 0, _ => .error .diverge
  | fuel + 1, i =>
    if i + chunkedName.length ≤ valueLen then do
      let same ← matchesNocase data (value + i) chunkedName
      if same then return true else valueContainsChunkedLoop data value valueLen fuel (i + 1)
    else return false

/-- `value_contains_chunked` -/
def valueContainsChunked (data : List UInt8) (value valueLen : ℕ) : Checked Bool :=
  if valueLen < chunkedName.length then return false
  else valueContainsChunkedLoop data value valueLen (valueLen + 1) 0

/-- `"Transfer-Encoding"` -/
def transferEncodingName : List UInt8 :=
  [84, 114, 97, 110, 115, 102, 101, 114, 45, 69, 110, 99, 111, 100, 105, 110, 103]

/-- The loop of `http_response_is_chunked`. -/
def httpScanHeaders (data : List UInt8) (headerLen : ℕ) : ℕ → ℕ → Checked ℤ
  | 0, _ => .error .diverge
  | fuel + 1, cursor =>
    if cursor < headerLen then do
      match ← strstr data cursor crLf with
      | none => return 0
      | some lineEnd =>
        if lineEnd > headerLen then return 0
        else if lineEnd - cursor = 0 then return 0
        else
          let found ← headerNameMatches data cursor (lineEnd - cursor) transferEncodingName
          if found then
            match ← memchr data cursor 58 (lineEnd - cursor) with
            | none => return 0
            | some colon =>
              let chunked ← valueContainsChunked data (colon + 1) (lineEnd - (colon + 1))
              return if chunked then 1 else 0
          else httpScanHeaders data headerLen fuel (lineEnd + 2)
    else return 0

/-- `http_response_is_chunked` -/
def httpResponseIsChunked (data : List UInt8) (headerLen : ℕ) : Checked ℤ :=
  if headerLen = 0 then return -1
  else do
    match ← strstr data 0 crLf with
    | none => return 0
    | some firstLineEnd =>
      if firstLineEnd ≥ headerLen then return 0
      else httpScanHeaders data headerLen (data.length + 1) (firstLineEnd + 2)

end Netstack
