import DucklakeCatalog.Wire.RuntimeFrames

/-! Requests and responses come back from their frames unchanged. -/
namespace DucklakeCatalog.Wire

open ByteCodec KeyedStore

/-! ## The checks of the sender -/

theorem validateFrameSize_ok {actual limit : Nat} {label : String} :
    validateFrameSize actual limit label = .ok () ↔ actual ≤ limit := by
  by_cases fits : actual ≤ limit <;> simp [validateFrameSize, fits]

variable {limit length : Nat} {label : String} {byte : UInt8} {bytes : Bytes}

theorem validateToken_ok {value : Bytes} :
    validateToken value limit label = .ok () ↔ value ≠ [] ∧ value.length ≤ limit ∧ value.all isTokenByte = true := by
  simp only [validateToken]
  split_ifs with misfit plain
  · refine iff_of_false (by simp) ?_
    intro accepted
    rcases misfit with empty | long
    · exact accepted.1 empty
    · exact absurd accepted.2.1 (Nat.not_le_of_lt long)
  · obtain ⟨nonempty, fits⟩ := not_or.mp misfit
    exact iff_of_true rfl ⟨nonempty, Nat.le_of_not_lt fits, plain⟩
  · exact iff_of_false (by simp) fun accepted => plain accepted.2.2

theorem validateHexToken_ok {value : Bytes} :
    validateHexToken value label = .ok () ↔ value.length = 64 ∧ IsHex value := by
  by_cases sized : value.length = 64 <;> by_cases hex : IsHex value <;> simp [validateHexToken, sized, hex]

theorem validateHeaderKey_ok {key : Bytes} : validateHeaderKey key = .ok () ↔
    key ≠ [] ∧ key.all (fun byte => isAsciiLowercase byte || byte == 95) = true := by
  simp only [validateHeaderKey]
  split_ifs with invalid
  · refine iff_of_false (by simp) ?_
    intro valid
    rcases invalid with empty | outside
    · exact valid.1 empty
    · exact outside valid.2
  · exact iff_of_true rfl ⟨fun empty => invalid (Or.inl empty), not_not.mp fun outside => invalid (Or.inr outside)⟩

theorem isTokenByte_graphic (token : isTokenByte byte = true) : 32 < byte.toNat ∧ byte.toNat < 127 := by
  simp only [isTokenByte, isAsciiAlphanumeric, isAsciiLowercase, Bool.or_eq_true, Bool.and_eq_true, decide_eq_true_eq,
    beq_iff_eq] at token
  rcases token with ((((((letter | capital) | digit) | same) | same) | same) | same)
  · omega
  · omega
  · omega
  all_goals
    rw [same]
    decide

theorem validateToken_graphic {value : Bytes}
    (accepted : validateToken value limit label = .ok ()) : Graphic value := fun byte member =>
  isTokenByte_graphic (List.all_eq_true.mp (validateToken_ok.mp accepted).2.2 byte member)

theorem isHeaderKeyByte_bounds (valid : (isAsciiLowercase byte || byte == 95) = true) :
    95 ≤ byte.toNat ∧ byte.toNat ≤ 122 := by
  simp only [isAsciiLowercase, Bool.or_eq_true, Bool.and_eq_true, decide_eq_true_eq, beq_iff_eq] at valid
  rcases valid with letter | same
  · omega
  · rw [same]
    decide

/-! ## One line -/

theorem equalsSign_graphic : Graphic [equalsSign] := by
  intro byte member
  rw [List.mem_singleton.mp member]
  decide

section Line

variable {key : String} (validKey : validateHeaderKey (utf8 key) = .ok ()) (value : Bytes)
include validKey

theorem headerLine_plain (graphic : Graphic value) : IsHeaderLine (headerLine key value) := by
  refine ⟨by simp [headerLine], (Graphic.append ?_ equalsSign_graphic).append graphic⟩
  intro byte member
  have bounds := isHeaderKeyByte_bounds (List.all_eq_true.mp (validateHeaderKey_ok.mp validKey).2 byte member)
  omega

theorem parseHeaderLine_headerLine : parseHeaderLine (headerLine key value) = .ok (utf8 key, value) := by
  have apart : ∀ byte ∈ utf8 key, decide (byte ≠ equalsSign) = true := by
    intro byte member
    have bounds := isHeaderKeyByte_bounds (List.all_eq_true.mp (validateHeaderKey_ok.mp validKey).2 byte member)
    apply decide_eq_true
    intro same
    rw [same] at bounds
    exact absurd bounds.1 (by decide)
  have halves : splitOnce equalsSign (headerLine key value) = some (utf8 key, value) := by
    rw [splitOnce, headerLine, List.append_assoc, List.dropWhile_append_of_pos apart, List.takeWhile_append_of_pos apart]
    simp
  simp only [parseHeaderLine, halves, validKey]
  rfl

end Line

/-- The names a header line may carry. -/
theorem validHeaderKeys : ∀ key ∈ ["request_id", "backend", "catalog_id", "operation", "payload_len", "page_offset",
    "page_etag", "read_context_id", "snapshot_fence", "status", "next_page_offset"],
    validateHeaderKey (utf8 key) = .ok () := by decide

theorem magicLine_plain : IsHeaderLine magicLine := ⟨by decide, by decide⟩

theorem parseMagic_magicLine : parseMagic magicLine = .ok runtimeProtocolVersion := by decide

theorem parseHeaderNumber_decimalBytes {value : Nat} (fits : value ≤ u64Max) (field : String) :
    (parseHeaderNumber u64Max (decimalBytes value) field).map UInt64.ofNat = .ok (UInt64.ofNat value) := by
  rw [parseHeaderNumber, parseUnsigned_decimalBytes fits]
  rfl

theorem parseHeaderNumber_uint64 (value : UInt64) (field : String) :
    (parseHeaderNumber u64Max (decimalBytes value.toNat) field).map UInt64.ofNat = .ok value := by
  have bound := value.toNat_lt
  rw [parseHeaderNumber_decimalBytes (by simp only [u64Max]; omega), UInt64.ofNat_toNat]

theorem SnapshotFence.tryFrom_display (fence : SnapshotFence) : SnapshotFence.tryFrom fence.display = .ok fence := by
  obtain ⟨⟨kind, bytes⟩, versionstamped⟩ := fence
  simp only at versionstamped
  subst versionstamped
  have sized : (hexText bytes.toList).length = 32 := by simp [hexText_length]
  have hex := hexText_isHex bytes.toList
  have back := beBytes_hexNumber_hexText bytes.toList
  rw [Vector.length_toList] at back
  simp only [tryFrom, display, sized, hex, ne_eq, not_true, or_self, if_false, back]
  congr

theorem SnapshotFence.display_graphic (fence : SnapshotFence) : Graphic fence.display :=
  (hexText_isHex _).graphic

theorem RuntimeCatalogBackend.parse_asStr (backend : RuntimeCatalogBackend) :
    RuntimeCatalogBackend.parse (utf8 backend.asStr) = .ok backend := by
  cases backend
  simp [RuntimeCatalogBackend.parse, asStr, textOf_utf8]

theorem RuntimeResponseStatus.parse_asStr (status : RuntimeResponseStatus) :
    RuntimeResponseStatus.parse (utf8 status.asStr) = .ok status := by
  cases status <;> simp [RuntimeResponseStatus.parse, asStr, textOf_utf8]

/-! ## Requests -/

namespace RuntimeRequest

variable {request : RuntimeRequest}

/-- The page of a request: none, or a positive offset with a digest. -/
def PageFits (request : RuntimeRequest) : Prop :=
  (request.pageEtag = none ∧ request.pageOffset = 0) ∨
    ∃ etag, request.pageEtag = some etag ∧ 0 < request.pageOffset ∧ etag.length = 64 ∧ IsHex etag

theorem validate_ok : request.validate = .ok () ↔
    validateToken request.requestId maxRuntimeRequestIdBytes "runtime request_id" = .ok () ∧
      validateToken request.operation maxRuntimeOperationBytes "runtime operation" = .ok () ∧
      request.payload.length ≤ maxRuntimePayloadBytes ∧ request.PageFits := by
  simp only [validate, bind_eq_ok, Unique.exists_iff, PUnit.default_eq_unit, validateFrameSize_ok, PageFits]
  refine and_congr_right fun _ => and_congr_right fun _ => and_congr_right fun _ => ?_
  cases request.pageEtag with
  | none => by_cases first : request.pageOffset = 0 <;> simp [first]
  | some etag => by_cases later : 0 < request.pageOffset <;> simp [later, validateHexToken_ok]

theorem headerLines_plain (valid : request.validate = .ok ()) : ∀ line ∈ request.headerLines, IsHeaderLine line := by
  obtain ⟨requestId, operation, _, page⟩ := validate_ok.mp valid
  have plain (key : String) (known : key ∈ ["request_id", "backend", "catalog_id", "operation", "payload_len",
      "page_offset", "page_etag", "read_context_id", "snapshot_fence", "status", "next_page_offset"])
      (value : Bytes) (graphic : Graphic value) : IsHeaderLine (headerLine key value) :=
    headerLine_plain (validHeaderKeys key known) value graphic
  have backend : Graphic (utf8 request.backend.asStr) := by
    cases request.backend
    decide
  intro line member
  simp only [headerLines, List.mem_append, List.mem_cons, List.not_mem_nil, or_false, Option.mem_toList,
    Option.map_eq_some_iff] at member
  rcases member with ((fixed | paged) | ⟨contextId, _, same⟩) | ⟨fence, _, same⟩
  · rcases fixed with same | same | same | same | same | same
    · exact same ▸ magicLine_plain
    · exact same ▸ plain _ (by simp) _ (validateToken_graphic requestId)
    · exact same ▸ plain _ (by simp) _ backend
    · exact same ▸ plain _ (by simp) _ (decimalBytes_graphic _)
    · exact same ▸ plain _ (by simp) _ (validateToken_graphic operation)
    · exact same ▸ plain _ (by simp) _ (decimalBytes_graphic _)
  · rcases page with ⟨unpaged, _⟩ | ⟨etag, present, _, _, hex⟩
    · simp [pageLines, unpaged] at paged
    · simp only [pageLines, present, List.mem_pair] at paged
      rcases paged with same | same
      · exact same ▸ plain _ (by simp) _ (decimalBytes_graphic _)
      · exact same ▸ plain _ (by simp) _ hex.graphic
  · exact same ▸ plain _ (by simp) _ (decimalBytes_graphic _)
  · exact same ▸ plain _ (by simp) _ fence.display_graphic

/-- The headers that the lines of a request spell. -/
def headers (request : RuntimeRequest) : RequestHeaders where
  requestId := some request.requestId
  backend := some request.backend
  catalogId := some request.catalogId
  operation := some request.operation
  payloadLen := some (UInt64.ofNat request.payload.length)
  pageOffset := request.pageEtag.map fun _ => request.pageOffset
  pageEtag := request.pageEtag
  readContextId := request.readContextId
  snapshotFence := request.snapshotFence

end RuntimeRequest

namespace RequestHeaders

variable (headers : RequestHeaders)

theorem applyLine_headerLine {key : String} (valid : validateHeaderKey (utf8 key) = .ok ()) (value : Bytes) :
    headers.applyLine (headerLine key value) = headers.apply (utf8 key) value := by
  rw [applyLine, parseHeaderLine_headerLine valid]
  rfl

theorem applyLine_requestId (value : Bytes) :
    headers.applyLine (headerLine "request_id" value) = .ok { headers with requestId := some value } := by
  rw [applyLine_headerLine _ (validHeaderKeys _ (by simp))]
  simp [apply, textOf_utf8]

theorem applyLine_backend (backend : RuntimeCatalogBackend) :
    headers.applyLine (headerLine "backend" (utf8 backend.asStr)) = .ok { headers with backend := some backend } := by
  rw [applyLine_headerLine _ (validHeaderKeys _ (by simp))]
  simp only [apply, textOf_utf8, RuntimeCatalogBackend.parse_asStr]
  rfl

theorem applyLine_catalogId (catalogId : UInt64) :
    headers.applyLine (headerLine "catalog_id" (decimalBytes catalogId.toNat)) =
      .ok { headers with catalogId := some catalogId } := by
  rw [applyLine_headerLine _ (validHeaderKeys _ (by simp))]
  simp only [apply, textOf_utf8, parseHeaderU64, parseHeaderNumber_uint64]
  rfl

theorem applyLine_operation (value : Bytes) :
    headers.applyLine (headerLine "operation" value) = .ok { headers with operation := some value } := by
  rw [applyLine_headerLine _ (validHeaderKeys _ (by simp))]
  simp [apply, textOf_utf8]

theorem applyLine_payloadLen (fits : length ≤ u64Max) :
    headers.applyLine (headerLine "payload_len" (decimalBytes length)) =
      .ok { headers with payloadLen := some (UInt64.ofNat length) } := by
  rw [applyLine_headerLine _ (validHeaderKeys _ (by simp))]
  simp only [apply, textOf_utf8, parseUsize, parseHeaderNumber_decimalBytes fits]
  rfl

theorem applyLine_pageOffset (offset : UInt64) :
    headers.applyLine (headerLine "page_offset" (decimalBytes offset.toNat)) =
      .ok { headers with pageOffset := some offset } := by
  rw [applyLine_headerLine _ (validHeaderKeys _ (by simp))]
  simp only [apply, applyContinuation, textOf_utf8, parseUsize, parseHeaderNumber_uint64]
  rfl

theorem applyLine_pageEtag (value : Bytes) :
    headers.applyLine (headerLine "page_etag" value) = .ok { headers with pageEtag := some value } := by
  rw [applyLine_headerLine _ (validHeaderKeys _ (by simp))]
  simp [apply, applyContinuation, textOf_utf8]

theorem applyLine_readContextId (contextId : UInt64) :
    headers.applyLine (headerLine "read_context_id" (decimalBytes contextId.toNat)) =
      .ok { headers with readContextId := some contextId } := by
  rw [applyLine_headerLine _ (validHeaderKeys _ (by simp))]
  simp only [apply, applyContinuation, textOf_utf8, parseHeaderU64, parseHeaderNumber_uint64]
  rfl

theorem applyLine_snapshotFence (unset : headers.snapshotFence = none) (fence : SnapshotFence) :
    headers.applyLine (headerLine "snapshot_fence" fence.display) =
      .ok { headers with snapshotFence := some fence } := by
  rw [applyLine_headerLine _ (validHeaderKeys _ (by simp))]
  simp only [apply, applyContinuation, textOf_utf8, SnapshotFence.tryFrom_display, unset]
  rfl

theorem parse_request {request : RuntimeRequest} (valid : request.validate = .ok ()) :
    parse (headerText request.headerLines) = .ok request.headers := by
  obtain ⟨_, _, sized, _⟩ := RuntimeRequest.validate_ok.mp valid
  have fits : request.payload.length ≤ u64Max := sized.trans (by decide)
  have lines := payloadLines_headerText (request.headerLines_plain valid)
  rw [parse, lines]
  simp only [RuntimeRequest.headerLines, List.cons_append, List.nil_append, parseMagic_magicLine, List.foldlM_cons,
    applyLine_requestId, applyLine_backend, applyLine_catalogId, applyLine_operation, applyLine_payloadLen _ fits]
  obtain ⟨requestId, backend, catalogId, operation, payload, contextId, fence, offset, etag⟩ := request
  cases etag <;> cases contextId <;> cases fence <;>
    simp [RuntimeRequest.pageLines, RuntimeRequest.headers, applyLine_pageOffset, applyLine_pageEtag,
      applyLine_readContextId, applyLine_snapshotFence, bind, Except.bind, pure, Except.pure, requireVersion]

end RequestHeaders

/-- A reader takes back exactly the request that its sender wrote. -/
theorem RuntimeRequest.decode_encode {request : RuntimeRequest} (written : request.encode = .ok bytes) :
    decode bytes = .ok request := by
  simp only [encode, bind_eq_ok, Unique.exists_iff, PUnit.default_eq_unit, validateFrameSize_ok] at written
  obtain ⟨valid, sized, same⟩ := written
  cases same
  obtain ⟨requestId, operation, payload, page⟩ := validate_ok.mp valid
  have length : (UInt64.ofNat request.payload.length).toNat = request.payload.length :=
    UInt64.toNat_ofNat_of_lt' (payload.trans_lt (by decide))
  have first := (@validateFrameSize_ok _ _ "runtime request").mpr sized
  have split := splitFrame_frame (by simp [headerLines]) (request.headerLines_plain valid) request.payload
  have unpaged : ({ request with pageOffset := 0, pageEtag := none } : RuntimeRequest).validate = .ok () :=
    validate_ok.mpr ⟨requestId, operation, payload, Or.inl ⟨rfl, rfl⟩⟩
  have counted : requirePayloadLen request.headers.payloadLen request.payload.length = .ok () := by
    simp only [requirePayloadLen, headers, length, if_true]
  simp only [decode, bind_eq_ok]
  refine ⟨(), first, _, split, request.headers, RequestHeaders.parse_request valid, (), counted, request.requestId, rfl,
    request.backend, rfl, request.operation, rfl, (), unpaged, ?_⟩
  rcases page with ⟨noEtag, start⟩ | ⟨etag, present, _, _⟩
  · simp only [headers, noEtag, Option.map_none, Option.getD_some]
    rw [← noEtag, ← start]
    rfl
  · have whole : { request with pageEtag := some etag } = request := by rw [← present]
    simp only [headers, present, Option.map_some, Option.getD_some, whole, bind_eq_ok]
    exact ⟨(), valid, rfl⟩

/-! ## Responses -/

namespace RuntimeResponse

variable {response : RuntimeResponse}

/-- A response is whole, or names a later page with a digest. -/
def PageFits (response : RuntimeResponse) : Prop :=
  (response.nextPageOffset = none ∧ response.pageEtag = none) ∨
    ∃ offset etag, response.nextPageOffset = some offset ∧ response.pageEtag = some etag ∧ 0 < offset ∧
      etag.length = 64 ∧ IsHex etag

theorem validate_ok : response.validate = .ok () ↔
    validateToken response.requestId maxRuntimeRequestIdBytes "runtime request_id" = .ok () ∧
      response.payload.length ≤ maxRuntimeResponseBytes ∧ response.PageFits := by
  simp only [validate, bind_eq_ok, Unique.exists_iff, PUnit.default_eq_unit, validateFrameSize_ok, PageFits]
  refine and_congr_right fun _ => and_congr_right fun _ => ?_
  cases response.nextPageOffset with
  | none => cases response.pageEtag <;> simp
  | some offset =>
    cases response.pageEtag with
    | none => simp
    | some etag => by_cases later : 0 < offset <;> simp [later, validateHexToken_ok]

theorem headerLines_plain (valid : response.validate = .ok ()) : ∀ line ∈ response.headerLines, IsHeaderLine line := by
  obtain ⟨requestId, _, page⟩ := validate_ok.mp valid
  have status : Graphic (utf8 response.status.asStr) := by
    cases response.status <;> decide
  intro line member
  simp only [headerLines, List.mem_append, List.mem_cons, List.not_mem_nil, or_false] at member
  rcases member with fixed | paged
  · rcases fixed with same | same | same | same
    · exact same ▸ magicLine_plain
    · exact same ▸ headerLine_plain (validHeaderKeys _ (by simp)) _ (validateToken_graphic requestId)
    · exact same ▸ headerLine_plain (validHeaderKeys _ (by simp)) _ status
    · exact same ▸ headerLine_plain (validHeaderKeys _ (by simp)) _ (decimalBytes_graphic _)
  · rcases page with ⟨last, _⟩ | ⟨offset, etag, next, present, _, _, hex⟩
    · simp [pageLines, last] at paged
    · simp only [pageLines, next, present, List.mem_pair] at paged
      rcases paged with same | same
      · exact same ▸ headerLine_plain (validHeaderKeys _ (by simp)) _ (decimalBytes_graphic _)
      · exact same ▸ headerLine_plain (validHeaderKeys _ (by simp)) _ hex.graphic

/-- The headers that the lines of a response spell. -/
def headers (response : RuntimeResponse) : ResponseHeaders where
  requestId := some response.requestId
  status := some response.status
  payloadLen := some (UInt64.ofNat response.payload.length)
  nextPageOffset := response.nextPageOffset
  pageEtag := response.pageEtag

end RuntimeResponse

namespace ResponseHeaders

variable (headers : ResponseHeaders)

theorem applyLine_headerLine {key : String} (valid : validateHeaderKey (utf8 key) = .ok ()) (value : Bytes) :
    headers.applyLine (headerLine key value) = headers.apply (utf8 key) value := by
  rw [applyLine, parseHeaderLine_headerLine valid]
  rfl

theorem applyLine_requestId (value : Bytes) :
    headers.applyLine (headerLine "request_id" value) = .ok { headers with requestId := some value } := by
  rw [applyLine_headerLine _ (validHeaderKeys _ (by simp))]
  simp [apply, textOf_utf8]

theorem applyLine_status (status : RuntimeResponseStatus) :
    headers.applyLine (headerLine "status" (utf8 status.asStr)) = .ok { headers with status := some status } := by
  rw [applyLine_headerLine _ (validHeaderKeys _ (by simp))]
  simp only [apply, textOf_utf8, RuntimeResponseStatus.parse_asStr]
  rfl

theorem applyLine_payloadLen (fits : length ≤ u64Max) :
    headers.applyLine (headerLine "payload_len" (decimalBytes length)) =
      .ok { headers with payloadLen := some (UInt64.ofNat length) } := by
  rw [applyLine_headerLine _ (validHeaderKeys _ (by simp))]
  simp only [apply, textOf_utf8, parseUsize, parseHeaderNumber_decimalBytes fits]
  rfl

theorem applyLine_nextPageOffset (offset : UInt64) :
    headers.applyLine (headerLine "next_page_offset" (decimalBytes offset.toNat)) =
      .ok { headers with nextPageOffset := some offset } := by
  rw [applyLine_headerLine _ (validHeaderKeys _ (by simp))]
  simp only [apply, textOf_utf8, parseUsize, parseHeaderNumber_uint64]
  rfl

theorem applyLine_pageEtag (value : Bytes) :
    headers.applyLine (headerLine "page_etag" value) = .ok { headers with pageEtag := some value } := by
  rw [applyLine_headerLine _ (validHeaderKeys _ (by simp))]
  simp [apply, textOf_utf8]

theorem parse_response {response : RuntimeResponse} (valid : response.validate = .ok ()) :
    parse (headerText response.headerLines) = .ok response.headers := by
  obtain ⟨_, sized, page⟩ := RuntimeResponse.validate_ok.mp valid
  have fits : response.payload.length ≤ u64Max := sized.trans (by decide)
  have lines := payloadLines_headerText (response.headerLines_plain valid)
  rw [parse, lines]
  simp only [RuntimeResponse.headerLines, List.cons_append, List.nil_append, parseMagic_magicLine, List.foldlM_cons,
    applyLine_requestId, applyLine_status, applyLine_payloadLen _ fits]
  obtain ⟨requestId, status, payload, offset, etag⟩ := response
  rcases page with ⟨last, none⟩ | ⟨_, _, next, present, _⟩
  · simp only at last none
    subst last none
    simp [RuntimeResponse.pageLines, RuntimeResponse.headers, bind, Except.bind, pure, Except.pure, requireVersion]
  · simp only at next present
    subst next present
    simp [RuntimeResponse.pageLines, RuntimeResponse.headers, applyLine_nextPageOffset, applyLine_pageEtag, bind,
      Except.bind, pure, Except.pure, requireVersion]

end ResponseHeaders

/-- A reader takes back exactly the response that its sender wrote. -/
theorem RuntimeResponse.decode_encode {response : RuntimeResponse}
    (written : response.encode = .ok bytes) : decode bytes = .ok response := by
  simp only [encode, bind_eq_ok, Unique.exists_iff, PUnit.default_eq_unit, validateFrameSize_ok] at written
  obtain ⟨valid, sized, same⟩ := written
  cases same
  have length : (UInt64.ofNat response.payload.length).toNat = response.payload.length :=
    UInt64.toNat_ofNat_of_lt' ((validate_ok.mp valid).2.1.trans_lt (by decide))
  have first := (@validateFrameSize_ok _ _ "runtime response").mpr sized
  have split := splitFrame_frame (by simp [headerLines]) (response.headerLines_plain valid) response.payload
  have counted : requirePayloadLen response.headers.payloadLen response.payload.length = .ok () := by
    simp only [requirePayloadLen, headers, length, if_true]
  simp only [decode, bind_eq_ok]
  exact ⟨(), first, _, split, response.headers, ResponseHeaders.parse_response valid, (), counted, response.requestId, rfl,
    response.status, rfl, (), valid, rfl⟩

end DucklakeCatalog.Wire
