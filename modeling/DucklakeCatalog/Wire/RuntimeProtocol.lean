import DucklakeCatalog.ByteCodec.Numerals
import DucklakeCatalog.Inline.Payload
import DucklakeCatalog.Wire.Rows

/-! The frames of the runtime protocol: a text header, a blank line, and the bytes of a payload. Text is held
as its UTF-8 bytes. -/
namespace DucklakeCatalog.Wire

open ByteCodec

def runtimeProtocolVersion : Nat := 2
def maxRuntimeRequestBytes : Nat := 6 * 1024 * 1024
def maxRuntimeResponseBytes : Nat := 2 * 1024 * 1024
def maxRuntimePagePayloadBytes : Nat := 512 * 1024
def maxRuntimePayloadBytes : Nat := maxRuntimeRequestBytes - 16 * 1024
def maxRuntimeOperationBytes : Nat := 64
def maxRuntimeRequestIdBytes : Nat := 64
def magic : Bytes := utf8 "aux-ducklake-runtime"
def u16Max : Nat := 2 ^ 16 - 1
def equalsSign : UInt8 := 61
def slash : UInt8 := 47

inductive RuntimeCatalogBackend where
  | foundationDb
  deriving DecidableEq

def RuntimeCatalogBackend.asStr : RuntimeCatalogBackend → String
  | .foundationDb => "foundationdb"

def RuntimeCatalogBackend.parse (value : Bytes) : CatalogResult RuntimeCatalogBackend :=
  match textOf value with
  | "foundationdb" => .ok .foundationDb
  | "fdb" => .ok .foundationDb
  | value => .error (.decode s!"unsupported runtime backend {value}")

/-- The catalog order a transaction captured; only versionstamped orders are built. -/
structure SnapshotFence where
  order : CatalogOrderId
  versionstamped : order.kind = .fdbVersionstamp
  deriving DecidableEq

def SnapshotFence.display (fence : SnapshotFence) : Bytes := hexText fence.order.bytes.toList

def SnapshotFence.tryFrom (value : Bytes) : CatalogResult SnapshotFence :=
  if value.length ≠ 32 ∨ ¬ IsHex value then
    .error (.decode "snapshot fence must be a 16-byte hexadecimal catalog order")
  else
    .ok ⟨⟨.fdbVersionstamp, ⟨(beBytes 16 (hexNumber value)).toArray, by simp⟩⟩, rfl⟩

/-! ## Checks shared by the frames -/

def validateFrameSize (actual limit : Nat) (label : String) : CatalogResult Unit :=
  if actual ≤ limit then .ok ()
  else .error (.invalidMutation s!"{label} is {actual} bytes, over {limit} byte limit")

def isAsciiLowercase (byte : UInt8) : Bool := 97 ≤ byte.toNat && byte.toNat ≤ 122

def isAsciiAlphanumeric (byte : UInt8) : Bool :=
  isAsciiLowercase byte || (65 ≤ byte.toNat && byte.toNat ≤ 90) || (48 ≤ byte.toNat && byte.toNat ≤ 57)

/-- Letters, digits, and the bytes of `_`, `-`, `.` and `:`. -/
def isTokenByte (byte : UInt8) : Bool :=
  isAsciiAlphanumeric byte || byte == 95 || byte == 45 || byte == 46 || byte == 58

def validateHeaderKey (key : Bytes) : CatalogResult Unit :=
  if key = [] ∨ ¬ key.all (fun byte => isAsciiLowercase byte || byte == 95) then
    .error (.decode s!"invalid runtime header key {textOf key}")
  else .ok ()

def validateToken (value : Bytes) (limit : Nat) (label : String) : CatalogResult Unit :=
  if value = [] ∨ limit < value.length then .error (.invalidMutation s!"{label} length must be 1..={limit} bytes")
  else if value.all isTokenByte then .ok ()
  else .error (.invalidMutation s!"{label} contains unsupported characters")

def validateHexToken (value : Bytes) (label : String) : CatalogResult Unit :=
  if value.length ≠ 64 ∨ ¬ IsHex value then
    .error (.decode s!"{label} must be a 64-character hexadecimal digest")
  else .ok ()

/-! ## Reading a header -/

/-- Where the first pair of newlines starts. -/
def separatorPosition : Bytes → Option Nat
  | first :: second :: rest =>
    if first = newline ∧ second = newline then some 0 else (separatorPosition (second :: rest)).map (· + 1)
  | _ => none

/-- The position that the standard library adds to the error of text that is not UTF-8 is left out. -/
def splitFrame (bytes : Bytes) : CatalogResult (Bytes × Bytes) :=
  match separatorPosition bytes with
  | none => .error (.decode "runtime frame missing header separator")
  | some separator =>
    if isUtf8 (bytes.take separator) then .ok (bytes.take separator, bytes.drop (separator + 2))
    else .error (.decode "runtime header is not utf-8")

/-- A number of the header, with the text of the reader's complaint. -/
def parseHeaderNumber (limit : Nat) (value : Bytes) (field : String) : CatalogResult Nat :=
  match parseUnsigned limit value with
  | .ok number => .ok number
  | .error failure => .error (.decode s!"invalid runtime {field}: {failure.text}")

def parseUsize (value : Bytes) (field : String) : CatalogResult UInt64 :=
  (parseHeaderNumber u64Max value field).map UInt64.ofNat

def parseHeaderU64 (value : Bytes) (field : String) : CatalogResult UInt64 :=
  (parseHeaderNumber u64Max value field).map UInt64.ofNat

def stripPrefix (expected text : Bytes) : Option Bytes :=
  if text.take expected.length = expected then some (text.drop expected.length) else none

def parseMagic (line : Bytes) : CatalogResult Nat :=
  match (stripPrefix magic line).bind (stripPrefix [slash]) with
  | none => .error (.decode "runtime frame has invalid magic")
  | some version => parseHeaderNumber u16Max version "version"

def splitOnce (separator : UInt8) (line : Bytes) : Option (Bytes × Bytes) :=
  match line.dropWhile (· ≠ separator) with
  | [] => none
  | _ :: value => some (line.takeWhile (· ≠ separator), value)

def parseHeaderLine (line : Bytes) : CatalogResult (Bytes × Bytes) :=
  match splitOnce equalsSign line with
  | none => .error (.decode s!"runtime header line missing '=': {textOf line}")
  | some (key, value) => do
    validateHeaderKey key
    return (key, value)

def requireVersion (version : Option Nat) : CatalogResult Unit :=
  match version with
  | some version =>
    if version = runtimeProtocolVersion then .ok ()
    else .error (.decode s!"unsupported runtime protocol version {version}")
  | none => .error (.decode "runtime frame missing version")

def requirePayloadLen (expected : Option UInt64) (actual : Nat) : CatalogResult Unit :=
  match expected with
  | some expected =>
    if expected.toNat = actual then .ok ()
    else .error (.decode s!"runtime payload length mismatch: header={expected} actual={actual}")
  | none => .error (.decode "runtime frame missing payload_len")

def requiredHeader {α : Type} (value : Option α) (key : String) : CatalogResult α :=
  value.elim (.error (.decode s!"runtime frame missing {key}")) .ok

/-! ## Writing a frame -/

def magicLine : Bytes := magic ++ [slash] ++ decimalBytes runtimeProtocolVersion

def headerLine (key : String) (value : Bytes) : Bytes := utf8 key ++ [equalsSign] ++ value

/-- Every header line ends with a newline, and one more newline separates the payload. -/
def frame (lines : List Bytes) (payload : Bytes) : Bytes :=
  lines.flatMap (· ++ [newline]) ++ newline :: payload

/-! ## Requests -/

structure RuntimeRequest where
  requestId : Bytes
  backend : RuntimeCatalogBackend
  catalogId : UInt64
  operation : Bytes
  payload : Bytes
  readContextId : Option UInt64
  snapshotFence : Option SnapshotFence
  pageOffset : UInt64
  pageEtag : Option Bytes
  deriving DecidableEq

namespace RuntimeRequest

def validate (request : RuntimeRequest) : CatalogResult Unit := do
  validateToken request.requestId maxRuntimeRequestIdBytes "runtime request_id"
  validateToken request.operation maxRuntimeOperationBytes "runtime operation"
  validateFrameSize request.payload.length maxRuntimePayloadBytes "runtime request payload"
  match request.pageEtag with
  | none =>
    if request.pageOffset = 0 then .ok ()
    else .error (.decode "runtime page continuation requires a positive offset and page_etag")
  | some etag =>
    if 0 < request.pageOffset then validateHexToken etag "runtime page_etag"
    else .error (.decode "runtime page continuation requires a positive offset and page_etag")

def pageLines (request : RuntimeRequest) : List Bytes :=
  match request.pageEtag with
  | some etag =>
    [headerLine "page_offset" (decimalBytes request.pageOffset.toNat), headerLine "page_etag" etag]
  | none => []

def headerLines (request : RuntimeRequest) : List Bytes :=
  [magicLine, headerLine "request_id" request.requestId, headerLine "backend" (utf8 request.backend.asStr),
    headerLine "catalog_id" (decimalBytes request.catalogId.toNat), headerLine "operation" request.operation,
    headerLine "payload_len" (decimalBytes request.payload.length)] ++ request.pageLines ++
    (request.readContextId.map fun contextId => headerLine "read_context_id" (decimalBytes contextId.toNat)).toList ++
    (request.snapshotFence.map fun fence => headerLine "snapshot_fence" fence.display).toList

def encode (request : RuntimeRequest) : CatalogResult Bytes := do
  request.validate
  let out := frame request.headerLines request.payload
  validateFrameSize out.length maxRuntimeRequestBytes "runtime request"
  return out

end RuntimeRequest

structure RequestHeaders where
  requestId : Option Bytes := none
  backend : Option RuntimeCatalogBackend := none
  catalogId : Option UInt64 := none
  operation : Option Bytes := none
  payloadLen : Option UInt64 := none
  pageOffset : Option UInt64 := none
  pageEtag : Option Bytes := none
  readContextId : Option UInt64 := none
  snapshotFence : Option SnapshotFence := none

namespace RequestHeaders

def applyContinuation (headers : RequestHeaders) (key value : Bytes) : CatalogResult RequestHeaders :=
  match textOf key with
  | "page_offset" => do return { headers with pageOffset := some (← parseUsize value "page_offset") }
  | "page_etag" => .ok { headers with pageEtag := some value }
  | "read_context_id" => do return { headers with readContextId := some (← parseHeaderU64 value "read_context_id") }
  | "snapshot_fence" => do
    let fence ← SnapshotFence.tryFrom value
    if headers.snapshotFence.isSome then .error (.decode "duplicate snapshot fence")
    else return { headers with snapshotFence := some fence }
  | key => .error (.decode s!"unknown runtime request header {key}")

def apply (headers : RequestHeaders) (key value : Bytes) : CatalogResult RequestHeaders :=
  match textOf key with
  | "request_id" => .ok { headers with requestId := some value }
  | "backend" => do return { headers with backend := some (← RuntimeCatalogBackend.parse value) }
  | "catalog_id" => do return { headers with catalogId := some (← parseHeaderU64 value "catalog_id") }
  | "operation" => .ok { headers with operation := some value }
  | "payload_len" => do return { headers with payloadLen := some (← parseUsize value "payload_len") }
  | _ => headers.applyContinuation key value

def applyLine (headers : RequestHeaders) (line : Bytes) : CatalogResult RequestHeaders := do
  let (key, value) ← parseHeaderLine line
  headers.apply key value

def parse (header : Bytes) : CatalogResult RequestHeaders :=
  match payloadLines header with
  | [] => .error (.decode "runtime frame missing version")
  | first :: lines => do
    let version ← parseMagic first
    let headers ← lines.foldlM applyLine {}
    requireVersion (some version)
    return headers

end RequestHeaders

/-- The decoded request is checked without its page first, then with it. -/
def RuntimeRequest.decode (bytes : Bytes) : CatalogResult RuntimeRequest := do
  validateFrameSize bytes.length maxRuntimeRequestBytes "runtime request"
  let (header, payload) ← splitFrame bytes
  let headers ← RequestHeaders.parse header
  requirePayloadLen headers.payloadLen payload.length
  let requestId ← requiredHeader headers.requestId "request_id"
  let backend ← requiredHeader headers.backend "backend"
  let operation ← requiredHeader headers.operation "operation"
  let request : RuntimeRequest :=
    { requestId, backend, catalogId := headers.catalogId.getD 1, operation, payload,
      readContextId := headers.readContextId, snapshotFence := headers.snapshotFence, pageOffset := 0,
      pageEtag := none }
  request.validate
  match headers.pageOffset, headers.pageEtag with
  | none, none => return request
  | some pageOffset, some etag =>
    let paged := { request with pageOffset, pageEtag := some etag }
    paged.validate
    return paged
  | _, _ => .error (.decode "runtime page continuation requires page_offset and page_etag")

/-! ## Responses -/

inductive RuntimeResponseStatus where
  | ok
  | error
  deriving DecidableEq

def RuntimeResponseStatus.asStr : RuntimeResponseStatus → String
  | .ok => "ok"
  | .error => "error"

def RuntimeResponseStatus.parse (value : Bytes) : CatalogResult RuntimeResponseStatus :=
  match textOf value with
  | "ok" => .ok .ok
  | "error" => .ok .error
  | value => .error (.decode s!"unsupported runtime response status {value}")

structure RuntimeResponse where
  requestId : Bytes
  status : RuntimeResponseStatus
  payload : Bytes
  nextPageOffset : Option UInt64
  pageEtag : Option Bytes
  deriving DecidableEq

namespace RuntimeResponse

def validate (response : RuntimeResponse) : CatalogResult Unit := do
  validateToken response.requestId maxRuntimeRequestIdBytes "runtime request_id"
  validateFrameSize response.payload.length maxRuntimeResponseBytes "runtime response payload"
  match response.nextPageOffset, response.pageEtag with
  | none, none => .ok ()
  | some offset, some etag =>
    if 0 < offset then validateHexToken etag "runtime page_etag"
    else .error (.decode "runtime paged response requires next_page_offset and page_etag")
  | _, _ => .error (.decode "runtime paged response requires next_page_offset and page_etag")

/-- `RuntimeResponse::ok`, the answer with its whole payload. -/
def okay (requestId payload : Bytes) : CatalogResult RuntimeResponse := do
  let response : RuntimeResponse :=
    { requestId, status := .ok, payload, nextPageOffset := none, pageEtag := none }
  response.validate
  return response

def pageLines (response : RuntimeResponse) : List Bytes :=
  match response.nextPageOffset, response.pageEtag with
  | some offset, some etag =>
    [headerLine "next_page_offset" (decimalBytes offset.toNat), headerLine "page_etag" etag]
  | _, _ => []

def headerLines (response : RuntimeResponse) : List Bytes :=
  [magicLine, headerLine "request_id" response.requestId, headerLine "status" (utf8 response.status.asStr),
    headerLine "payload_len" (decimalBytes response.payload.length)] ++ response.pageLines

def encode (response : RuntimeResponse) : CatalogResult Bytes := do
  response.validate
  let out := frame response.headerLines response.payload
  validateFrameSize out.length maxRuntimeResponseBytes "runtime response"
  return out

end RuntimeResponse

structure ResponseHeaders where
  requestId : Option Bytes := none
  status : Option RuntimeResponseStatus := none
  payloadLen : Option UInt64 := none
  nextPageOffset : Option UInt64 := none
  pageEtag : Option Bytes := none

namespace ResponseHeaders

def apply (headers : ResponseHeaders) (key value : Bytes) : CatalogResult ResponseHeaders :=
  match textOf key with
  | "request_id" => .ok { headers with requestId := some value }
  | "status" => do return { headers with status := some (← RuntimeResponseStatus.parse value) }
  | "payload_len" => do return { headers with payloadLen := some (← parseUsize value "payload_len") }
  | "next_page_offset" => do return { headers with nextPageOffset := some (← parseUsize value "next_page_offset") }
  | "page_etag" => .ok { headers with pageEtag := some value }
  | key => .error (.decode s!"unknown runtime response header {key}")

def applyLine (headers : ResponseHeaders) (line : Bytes) : CatalogResult ResponseHeaders := do
  let (key, value) ← parseHeaderLine line
  headers.apply key value

def parse (header : Bytes) : CatalogResult ResponseHeaders :=
  match payloadLines header with
  | [] => .error (.decode "runtime frame missing version")
  | first :: lines => do
    let version ← parseMagic first
    let headers ← lines.foldlM applyLine {}
    requireVersion (some version)
    return headers

end ResponseHeaders

def RuntimeResponse.decode (bytes : Bytes) : CatalogResult RuntimeResponse := do
  validateFrameSize bytes.length maxRuntimeResponseBytes "runtime response"
  let (header, payload) ← splitFrame bytes
  let headers ← ResponseHeaders.parse header
  requirePayloadLen headers.payloadLen payload.length
  let requestId ← requiredHeader headers.requestId "request_id"
  let status ← requiredHeader headers.status "status"
  let response : RuntimeResponse :=
    { requestId, status, payload, nextPageOffset := headers.nextPageOffset, pageEtag := headers.pageEtag }
  response.validate
  return response

/-! ## Pages of a response -/

/-- A vector of bytes, whose length is a `usize`. -/
@[ext]
structure ByteVec where
  bytes : Bytes
  fits : bytes.length ≤ u64Max

section Pages

variable (sha256 : Bytes → Vector UInt8 32)

def runtimePayloadEtag (payload : Bytes) : Bytes := hexText (sha256 payload).toList

/-- The whole payload when it fits one page, or the page at the requested offset with the way to the next one. -/
def pagedRuntimeResponse (requestId : Bytes) (payload : ByteVec) (pageOffset : UInt64) (requestedEtag : Option Bytes) :
    CatalogResult RuntimeResponse :=
  let length := payload.bytes.length
  if pageOffset = 0 ∧ length ≤ maxRuntimePagePayloadBytes ∧ requestedEtag = none then
    RuntimeResponse.okay requestId payload.bytes
  else
    let pageEtag := runtimePayloadEtag sha256 payload.bytes
    if requestedEtag.any (· ≠ pageEtag) then
      .error (.invalidMutation "conflict: runtime response changed during pagination")
    else if length < pageOffset.toNat then
      .error (.decode s!"runtime page offset {pageOffset} exceeds payload length {length}")
    else
      let pageEnd := min (pageOffset.toNat + maxRuntimePagePayloadBytes) length
      let page := (payload.bytes.drop pageOffset.toNat).take (pageEnd - pageOffset.toNat)
      if pageEnd < length then do
        let response ← RuntimeResponse.okay requestId page
        let continued := { response with nextPageOffset := some (UInt64.ofNat pageEnd), pageEtag := some pageEtag }
        continued.validate
        return continued
      else RuntimeResponse.okay requestId page

end Pages

end DucklakeCatalog.Wire
