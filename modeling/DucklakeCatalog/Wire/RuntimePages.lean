import DucklakeCatalog.Wire.RuntimeMessages

/-! A client that follows the pages of a response gets one whole payload or an error. -/
namespace DucklakeCatalog.Wire

open ByteCodec KeyedStore

/-! ## Pages fit their frames -/

theorem decimalBytes_length_le {value digits : Nat} (positive : 0 < digits) (small : value < 10 ^ digits) :
    (decimalBytes value).length ≤ digits := by
  rw [decimalBytes, List.length_map]
  exact (Nat.length_toDigits_le_iff (by decide) positive).mpr small

theorem decimalBytes_length_uint64 (value : UInt64) : (decimalBytes value.toNat).length ≤ 20 :=
  decimalBytes_length_le (by decide) (value.toNat_lt.trans (by decide))

namespace RuntimeResponse

variable {response : RuntimeResponse}

/-- A response whose payload is one page long at most can be sent. -/
theorem encode_of_page (valid : response.validate = .ok ())
    (page : response.payload.length ≤ maxRuntimePagePayloadBytes) :
    response.encode = .ok (frame response.headerLines response.payload) := by
  obtain ⟨requestId, _, paging⟩ := validate_ok.mp valid
  have token : response.requestId.length ≤ 64 := (validateToken_ok.mp requestId).2.1
  have status : (utf8 response.status.asStr).length ≤ 5 := by
    cases response.status <;> decide
  have counted : (decimalBytes response.payload.length).length ≤ 20 :=
    decimalBytes_length_le (by decide) (page.trans_lt (by decide))
  have pages : (response.pageLines.flatMap (· ++ [newline])).length ≤ 120 := by
    rcases paging with ⟨last, _⟩ | ⟨offset, etag, next, present, _, sized, _⟩
    · simp [pageLines, last]
    · have digits := decimalBytes_length_uint64 offset
      simp only [pageLines, next, present, List.flatMap_cons, List.flatMap_nil, List.length_append, headerLine,
        List.length_cons, List.length_nil, sized, (by decide : (utf8 "next_page_offset").length = 16),
        (by decide : (utf8 "page_etag").length = 9)]
      omega
  have sized : (frame response.headerLines response.payload).length ≤ maxRuntimeResponseBytes := by
    simp only [frame, headerLines, List.flatMap_append, List.flatMap_cons, List.flatMap_nil, List.length_append,
      headerLine, List.length_cons, List.length_nil, (by decide : magicLine.length = 22),
      (by decide : (utf8 "request_id").length = 10), (by decide : (utf8 "status").length = 6),
      (by decide : (utf8 "payload_len").length = 11), maxRuntimeResponseBytes,
      maxRuntimePagePayloadBytes] at page pages ⊢
    omega
  simp only [encode, valid, validateFrameSize_ok.mpr sized]
  rfl

/-- What the receiver reads is what the sender wrote. -/
theorem decode_of_page (valid : response.validate = .ok ())
    (page : response.payload.length ≤ maxRuntimePagePayloadBytes) : (response.encode >>= decode) = .ok response := by
  have written := encode_of_page valid page
  rw [written]
  exact decode_encode written

end RuntimeResponse

section Pages

variable (sha256 : Bytes → Vector UInt8 32)

/-- One exchange: the page is framed, sent and read back. -/
def fetchPage (requestId : Bytes) (payload : ByteVec) (pageOffset : UInt64) (requestedEtag : Option Bytes) :
    CatalogResult RuntimeResponse := do
  let response ← pagedRuntimeResponse sha256 requestId payload pageOffset requestedEtag
  response.encode >>= RuntimeResponse.decode

/-- The client asks for page after page; request number `index` meets `payloads index`. -/
def collectPages (requestId : Bytes) (payloads : Nat → ByteVec) :
    Nat → Nat → Bytes → UInt64 → Option Bytes → Option (CatalogResult Bytes)
  | 0, _, _, _, _ => none
  | fuel + 1, index, collected, pageOffset, etag =>
    match fetchPage sha256 requestId (payloads index) pageOffset etag with
    | .error failure => some (.error failure)
    | .ok response =>
      let collected := collected ++ response.payload
      match response.nextPageOffset, response.pageEtag with
      | some next, some etag => collectPages requestId payloads fuel (index + 1) collected next (some etag)
      | _, _ => some (.ok collected)

section Steps

variable {sha256} {requestId : Bytes} {payloads : Nat → ByteVec} {index : Nat} {collected : Bytes} {pageOffset : UInt64}
  {etag : Option Bytes} {response : RuntimeResponse} (fuel : Nat)

theorem collectPages_refused {failure : CatalogError}
    (refused : fetchPage sha256 requestId (payloads index) pageOffset etag = .error failure) :
    collectPages sha256 requestId payloads (fuel + 1) index collected pageOffset etag = some (.error failure) := by
  rw [collectPages, refused]

theorem collectPages_continues {next : UInt64} {nextEtag : Bytes}
    (fetched : fetchPage sha256 requestId (payloads index) pageOffset etag = .ok response)
    (offset : response.nextPageOffset = some next) (continued : response.pageEtag = some nextEtag) :
    collectPages sha256 requestId payloads (fuel + 1) index collected pageOffset etag =
      collectPages sha256 requestId payloads fuel (index + 1) (collected ++ response.payload) next (some nextEtag) := by
  rw [collectPages, fetched]
  simp only [offset, continued]

theorem collectPages_ends (fetched : fetchPage sha256 requestId (payloads index) pageOffset etag = .ok response)
    (last : response.nextPageOffset = none) :
    collectPages sha256 requestId payloads (fuel + 1) index collected pageOffset etag =
      some (.ok (collected ++ response.payload)) := by
  rw [collectPages, fetched]
  simp only [last]

end Steps

/-- Pages of a payload; an empty payload still takes one. -/
def pageCount (length : Nat) : Nat := max 1 ((length + (maxRuntimePagePayloadBytes - 1)) / maxRuntimePagePayloadBytes)

def changedDuringPagination : CatalogError :=
  .invalidMutation "conflict: runtime response changed during pagination"

theorem lt_pageCount {index length : Nat} :
    index + 1 < pageCount length ↔ (index + 1) * maxRuntimePagePayloadBytes < length := by
  simp only [pageCount, maxRuntimePagePayloadBytes]
  omega

theorem start_le_of_lt_pageCount {index length : Nat} (within : index < pageCount length) :
    index * maxRuntimePagePayloadBytes ≤ length := by
  cases index with
  | zero => simp
  | succ index => exact (lt_pageCount.mp within).le

/-- The page at an offset, with the way to the next one if the payload goes on. -/
def pageAt (requestId : Bytes) (payload : ByteVec) (start : Nat) : RuntimeResponse :=
  let next := start + maxRuntimePagePayloadBytes
  { requestId
    status := .ok
    payload := (payload.bytes.drop start).take maxRuntimePagePayloadBytes
    nextPageOffset := if next < payload.bytes.length then some (UInt64.ofNat next) else none
    pageEtag := if next < payload.bytes.length then some (runtimePayloadEtag sha256 payload.bytes) else none }

theorem pageAt_payload (requestId : Bytes) (payload : ByteVec) (start : Nat) :
    (pageAt sha256 requestId payload start).payload = (payload.bytes.drop start).take maxRuntimePagePayloadBytes := rfl

theorem pageAt_continues {requestId : Bytes} {payload : ByteVec} {start : Nat}
    (more : start + maxRuntimePagePayloadBytes < payload.bytes.length) :
    (pageAt sha256 requestId payload start).nextPageOffset = some (UInt64.ofNat (start + maxRuntimePagePayloadBytes)) ∧
      (pageAt sha256 requestId payload start).pageEtag = some (runtimePayloadEtag sha256 payload.bytes) :=
  ⟨if_pos more, if_pos more⟩

theorem pageAt_ends {requestId : Bytes} {payload : ByteVec} {start : Nat}
    (last : ¬ start + maxRuntimePagePayloadBytes < payload.bytes.length) :
    (pageAt sha256 requestId payload start).nextPageOffset = none ∧
      (pageAt sha256 requestId payload start).pageEtag = none :=
  ⟨if_neg last, if_neg last⟩

theorem pageAt_length_le (requestId : Bytes) (payload : ByteVec) (start : Nat) :
    (pageAt sha256 requestId payload start).payload.length ≤ maxRuntimePagePayloadBytes := by
  simp only [pageAt, List.length_take]
  omega

theorem ofNat_toNat_of_le {value : Nat} (fits : value ≤ u64Max) : (UInt64.ofNat value).toNat = value :=
  UInt64.toNat_ofNat_of_lt' (fits.trans_lt (by decide))

section Exchange

variable {requestId : Bytes} (validId : validateToken requestId maxRuntimeRequestIdBytes "runtime request_id" = .ok ())
  (payload : ByteVec)
include validId

theorem okay_eq {bytes : Bytes} (page : bytes.length ≤ maxRuntimePagePayloadBytes) :
    RuntimeResponse.okay requestId bytes =
      .ok { requestId, status := .ok, payload := bytes, nextPageOffset := none, pageEtag := none } := by
  have valid : (RuntimeResponse.mk requestId .ok bytes none none).validate = .ok () :=
    RuntimeResponse.validate_ok.mpr ⟨validId, page.trans (by decide), Or.inl ⟨rfl, rfl⟩⟩
  simp only [RuntimeResponse.okay, valid]
  rfl

theorem pageAt_valid (start : Nat) : (pageAt sha256 requestId payload start).validate = .ok () := by
  have bound := pageAt_length_le sha256 requestId payload start
  have fits := payload.fits
  refine RuntimeResponse.validate_ok.mpr ⟨validId, bound.trans (by decide), ?_⟩
  by_cases more : start + maxRuntimePagePayloadBytes < payload.bytes.length
  · refine Or.inr ⟨_, _, if_pos more, if_pos more, ?_, ?_, hexText_isHex _⟩
    · rw [UInt64.lt_iff_toNat_lt, ofNat_toNat_of_le (by omega)]
      exact Nat.lt_of_lt_of_le (by decide : 0 < maxRuntimePagePayloadBytes) (Nat.le_add_left _ _)
    · rw [runtimePayloadEtag, hexText_length, Vector.length_toList]
  · exact Or.inl ⟨if_neg more, if_neg more⟩

theorem pagedRuntimeResponse_same {start : Nat} (inside : start ≤ payload.bytes.length) {etag : Option Bytes}
    (same : ∀ requested ∈ etag, requested = runtimePayloadEtag sha256 payload.bytes) :
    pagedRuntimeResponse sha256 requestId payload (UInt64.ofNat start) etag =
      .ok (pageAt sha256 requestId payload start) := by
  have fits := payload.fits
  have offset : (UInt64.ofNat start).toNat = start := ofNat_toNat_of_le (inside.trans fits)
  simp only [pagedRuntimeResponse, offset]
  split_ifs with whole changed outside more
  · -- a payload of one page, asked for from its start
    have first : start = 0 := by rw [← offset, whole.1]; rfl
    have last : ¬ 0 + maxRuntimePagePayloadBytes < payload.bytes.length := by omega
    rw [okay_eq validId whole.2.1]
    simp only [pageAt, first, last, if_false, List.drop_zero, List.take_of_length_le whole.2.1]
  · cases etag with
    | none => simp at changed
    | some requested => simp [same requested rfl] at changed
  · omega
  · -- another page follows
    have next : min (start + maxRuntimePagePayloadBytes) payload.bytes.length = start + maxRuntimePagePayloadBytes := by
      omega
    have going : start + maxRuntimePagePayloadBytes < payload.bytes.length := by omega
    have valid := pageAt_valid sha256 validId payload start
    rw [next, Nat.add_sub_cancel_left, okay_eq validId (by simp)]
    simp only [pageAt, going, if_true] at valid ⊢
    simp only [bind_eq_ok]
    exact ⟨_, rfl, (), valid, rfl⟩
  · -- the last page
    have last : ¬ start + maxRuntimePagePayloadBytes < payload.bytes.length := by omega
    have rest : (payload.bytes.drop start).length ≤ maxRuntimePagePayloadBytes := by
      rw [List.length_drop]
      omega
    have page : min (start + maxRuntimePagePayloadBytes) payload.bytes.length - start = (payload.bytes.drop start).length := by
      rw [List.length_drop]
      omega
    rw [page, List.take_length, okay_eq validId rest]
    simp only [pageAt, last, if_false, List.take_of_length_le rest]

/-- An unchanged payload answers with the page asked for. -/
theorem fetchPage_same {start : Nat} (inside : start ≤ payload.bytes.length) {etag : Option Bytes}
    (same : ∀ requested ∈ etag, requested = runtimePayloadEtag sha256 payload.bytes) :
    fetchPage sha256 requestId payload (UInt64.ofNat start) etag = .ok (pageAt sha256 requestId payload start) := by
  rw [fetchPage, pagedRuntimeResponse_same sha256 validId payload inside same]
  exact RuntimeResponse.decode_of_page (pageAt_valid sha256 validId payload start)
    (pageAt_length_le sha256 requestId payload start)

end Exchange

/-- A payload with another digest refuses to continue. -/
theorem fetchPage_changed {requestId : Bytes} {payload : ByteVec} {pageOffset : UInt64} {etag : Bytes}
    (different : etag ≠ runtimePayloadEtag sha256 payload.bytes) :
    fetchPage sha256 requestId payload pageOffset (some etag) = .error changedDuringPagination := by
  simp only [fetchPage, pagedRuntimeResponse, reduceCtorEq, and_false, if_false, Option.any_some, different, ne_eq,
    not_false_eq_true, decide_true, if_true]
  rfl

theorem runtimePayloadEtag_inj {left right : Bytes}
    (same : runtimePayloadEtag sha256 left = runtimePayloadEtag sha256 right) : sha256 left = sha256 right := by
  have leftBack := beBytes_hexNumber_hexText (sha256 left).toList
  have rightBack := beBytes_hexNumber_hexText (sha256 right).toList
  rw [Vector.length_toList] at leftBack rightBack
  rw [runtimePayloadEtag, runtimePayloadEtag] at same
  rw [same, rightBack] at leftBack
  exact (Vector.toList_inj.mp leftBack).symm

section Collection

variable {sha256} {requestId : Bytes} {payloads : Nat → ByteVec}
  (validId : validateToken requestId maxRuntimeRequestIdBytes "runtime request_id" = .ok ())
  (collisionFree : ∀ index, sha256 (payloads index).bytes = sha256 (payloads 0).bytes →
    (payloads index).bytes = (payloads 0).bytes)
include validId collisionFree

omit collisionFree in
/-- A page of an unchanged payload extends what the client has by one page. -/
theorem collectPages_same {fuel index : Nat} (same : payloads index = payloads 0)
    (within : index < pageCount (payloads 0).bytes.length) :
    collectPages sha256 requestId payloads (fuel + 1) index
        ((payloads 0).bytes.take (index * maxRuntimePagePayloadBytes))
        (UInt64.ofNat (index * maxRuntimePagePayloadBytes))
        (if index = 0 then none else some (runtimePayloadEtag sha256 (payloads 0).bytes)) =
      if index * maxRuntimePagePayloadBytes + maxRuntimePagePayloadBytes < (payloads 0).bytes.length then
        collectPages sha256 requestId payloads fuel (index + 1)
          ((payloads 0).bytes.take ((index + 1) * maxRuntimePagePayloadBytes))
          (UInt64.ofNat (index * maxRuntimePagePayloadBytes + maxRuntimePagePayloadBytes))
          (some (runtimePayloadEtag sha256 (payloads 0).bytes))
      else some (.ok ((payloads 0).bytes.take ((index + 1) * maxRuntimePagePayloadBytes))) := by
  have requested : ∀ etag ∈ (if index = 0 then none else some (runtimePayloadEtag sha256 (payloads 0).bytes)),
      etag = runtimePayloadEtag sha256 (payloads 0).bytes := by
    intro etag member
    split at member
    · cases member
    · exact (Option.mem_some.mp member).symm
  have fetched : fetchPage sha256 requestId (payloads index) (UInt64.ofNat (index * maxRuntimePagePayloadBytes))
        (if index = 0 then none else some (runtimePayloadEtag sha256 (payloads 0).bytes)) =
      .ok (pageAt sha256 requestId (payloads 0) (index * maxRuntimePagePayloadBytes)) := by
    rw [same]
    exact fetchPage_same sha256 validId (payloads 0) (start_le_of_lt_pageCount within) requested
  have extended : (payloads 0).bytes.take (index * maxRuntimePagePayloadBytes) ++
        ((payloads 0).bytes.drop (index * maxRuntimePagePayloadBytes)).take maxRuntimePagePayloadBytes =
      (payloads 0).bytes.take ((index + 1) * maxRuntimePagePayloadBytes) := by
    rw [Nat.add_one_mul, List.take_add]
  by_cases more : index * maxRuntimePagePayloadBytes + maxRuntimePagePayloadBytes < (payloads 0).bytes.length
  · obtain ⟨next, continued⟩ := @pageAt_continues sha256 requestId _ _ more
    rw [if_pos more, collectPages_continues fuel fetched next continued, pageAt_payload, extended]
  · obtain ⟨last, _⟩ := @pageAt_ends sha256 requestId _ _ more
    rw [if_neg more, collectPages_ends fuel fetched last, pageAt_payload, extended]

omit validId in
/-- A changed payload ends the collection with an error. -/
theorem collectPages_changed {fuel index : Nat} (changed : payloads index ≠ payloads 0)
    (within : index < pageCount (payloads 0).bytes.length) :
    collectPages sha256 requestId payloads (fuel + 1) index
        ((payloads 0).bytes.take (index * maxRuntimePagePayloadBytes))
        (UInt64.ofNat (index * maxRuntimePagePayloadBytes))
        (if index = 0 then none else some (runtimePayloadEtag sha256 (payloads 0).bytes)) =
      some (if ∀ later, index ≤ later → later < pageCount (payloads 0).bytes.length →
          (payloads later).bytes = (payloads 0).bytes
        then .ok (payloads 0).bytes else .error changedDuringPagination) := by
  have later : index ≠ 0 := by
    rintro rfl
    exact changed rfl
  have otherBytes : (payloads index).bytes ≠ (payloads 0).bytes := fun same => changed (ByteVec.ext same)
  have otherEtag : runtimePayloadEtag sha256 (payloads 0).bytes ≠ runtimePayloadEtag sha256 (payloads index).bytes :=
    fun same => otherBytes (collisionFree index (runtimePayloadEtag_inj sha256 same).symm)
  have refused : ¬ ∀ later, index ≤ later → later < pageCount (payloads 0).bytes.length →
      (payloads later).bytes = (payloads 0).bytes := fun unchanged => otherBytes (unchanged index le_rfl within)
  rw [if_neg later, if_neg refused]
  exact collectPages_refused fuel (fetchPage_changed sha256 otherEtag)

/-- From any page on, the client ends with the first payload, or with the refusal of the first request that meets
another one. -/
theorem collectPages_from (remaining : Nat) : ∀ fuel index, remaining + 1 ≤ fuel →
    index + remaining + 1 = pageCount (payloads 0).bytes.length →
    collectPages sha256 requestId payloads fuel index
        ((payloads 0).bytes.take (index * maxRuntimePagePayloadBytes))
        (UInt64.ofNat (index * maxRuntimePagePayloadBytes))
        (if index = 0 then none else some (runtimePayloadEtag sha256 (payloads 0).bytes)) =
      some (if ∀ later, index ≤ later → later < pageCount (payloads 0).bytes.length →
          (payloads later).bytes = (payloads 0).bytes
        then .ok (payloads 0).bytes else .error changedDuringPagination) := by
  induction remaining with
  | zero =>
    intro fuel index enough counted
    obtain ⟨fuel, rfl⟩ : ∃ less, fuel = less + 1 := ⟨fuel - 1, by omega⟩
    by_cases same : payloads index = payloads 0
    · rw [collectPages_same validId same (by omega)]
      have last : ¬ index * maxRuntimePagePayloadBytes + maxRuntimePagePayloadBytes < (payloads 0).bytes.length := by
        rw [← Nat.add_one_mul]
        exact fun more => absurd (lt_pageCount.mpr more) (by omega)
      have unchanged : ∀ later, index ≤ later → later < pageCount (payloads 0).bytes.length →
          (payloads later).bytes = (payloads 0).bytes := by
        intro later after before
        obtain rfl : later = index := by omega
        rw [same]
      rw [if_neg last, if_pos unchanged, List.take_of_length_le]
      rw [Nat.add_one_mul]
      omega
    · exact collectPages_changed collisionFree same (by omega)
  | succ remaining ih =>
    intro fuel index enough counted
    obtain ⟨fuel, rfl⟩ : ∃ less, fuel = less + 1 := ⟨fuel - 1, by omega⟩
    by_cases same : payloads index = payloads 0
    · rw [collectPages_same validId same (by omega)]
      have more : index * maxRuntimePagePayloadBytes + maxRuntimePagePayloadBytes < (payloads 0).bytes.length := by
        rw [← Nat.add_one_mul]
        exact lt_pageCount.mp (by omega)
      have further := ih fuel (index + 1) (by omega) (by omega)
      rw [if_neg (Nat.succ_ne_zero index)] at further
      rw [if_pos more, ← Nat.add_one_mul, further]
      have sameCondition : (∀ later, index + 1 ≤ later → later < pageCount (payloads 0).bytes.length →
            (payloads later).bytes = (payloads 0).bytes) ↔
          ∀ later, index ≤ later → later < pageCount (payloads 0).bytes.length →
            (payloads later).bytes = (payloads 0).bytes := by
        constructor
        · intro unchanged later after before
          rcases Nat.eq_or_lt_of_le after with rfl | beyond
          · rw [same]
          · exact unchanged later beyond before
        · exact fun unchanged later after => unchanged later (by omega)
      simp only [sameCondition]
    · exact collectPages_changed collisionFree same (by omega)

end Collection

/-- Frames come back as the message they were written from, and the pages of a payload as the payload: a client that
meets another payload at a continuation ends with an error. -/
theorem runtimeProtocol_delivers :
    (∀ (request : RuntimeRequest) (bytes : Bytes), request.encode = .ok bytes →
        RuntimeRequest.decode bytes = .ok request) ∧
      (∀ (response : RuntimeResponse) (bytes : Bytes), response.encode = .ok bytes →
        RuntimeResponse.decode bytes = .ok response) ∧
      ∀ (requestId : Bytes) (payloads : Nat → ByteVec),
        validateToken requestId maxRuntimeRequestIdBytes "runtime request_id" = .ok () →
        (∀ index, sha256 (payloads index).bytes = sha256 (payloads 0).bytes →
          (payloads index).bytes = (payloads 0).bytes) →
        ∀ fuel, pageCount (payloads 0).bytes.length ≤ fuel →
          collectPages sha256 requestId payloads fuel 0 [] 0 none =
            some (if ∀ index, index < pageCount (payloads 0).bytes.length →
                (payloads index).bytes = (payloads 0).bytes
              then .ok (payloads 0).bytes else .error changedDuringPagination) := by
  refine ⟨fun _ _ => RuntimeRequest.decode_encode, fun _ _ => RuntimeResponse.decode_encode, ?_⟩
  intro requestId payloads validId collisionFree fuel enough
  have positive : 0 < pageCount (payloads 0).bytes.length := Nat.lt_of_lt_of_le Nat.one_pos (Nat.le_max_left _ _)
  have whole := collectPages_from validId collisionFree (pageCount (payloads 0).bytes.length - 1) fuel 0 (by omega)
    (by omega)
  simpa using whole

/-- The digest of the payload of the example, which fills one page and one byte more. -/
def zeroPageDigest : Vector UInt8 32 :=
  #v[237, 166, 233, 251, 126, 139, 237, 24, 74, 16, 222, 9, 104, 53, 86, 249,
    252, 23, 32, 255, 193, 175, 95, 167, 63, 72, 145, 199, 222, 199, 11, 202]

def zeroPage : ByteVec where
  bytes := List.replicate (maxRuntimePagePayloadBytes + 1) 0
  fits := by
    rw [List.length_replicate]
    decide

/-- A continuation whose payload looks like a header of its own. -/
def headerLikeRequest : RuntimeRequest where
  requestId := utf8 "req-page"
  backend := .foundationDb
  catalogId := 1
  operation := utf8 "ducklake_snapshots"
  payload := utf8 "payload_len=0\n\nrequest_id=other"
  readContextId := some 7
  snapshotFence := some ⟨⟨.fdbVersionstamp, Vector.replicate 16 171⟩, rfl⟩
  pageOffset := 524288
  pageEtag := some (hexText zeroPageDigest.toList)

def headerLikeResponse : RuntimeResponse where
  requestId := utf8 "req-page"
  status := .error
  payload := utf8 "\n\nstatus=ok"
  nextPageOffset := none
  pageEtag := none

/-- A request, a response and a payload of two pages, each taken back as it was sent. -/
theorem runtimeProtocol_delivers_samples :
    RuntimeRequest.decode (frame headerLikeRequest.headerLines headerLikeRequest.payload) = .ok headerLikeRequest ∧
      RuntimeResponse.decode (frame headerLikeResponse.headerLines headerLikeResponse.payload) =
        .ok headerLikeResponse ∧
      collectPages (fun _ => zeroPageDigest) (utf8 "req-page") (fun _ => zeroPage) 2 0 [] 0 none =
        some (.ok zeroPage.bytes) := by
  obtain ⟨requests, responses, pages⟩ := runtimeProtocol_delivers fun _ => zeroPageDigest
  refine ⟨requests headerLikeRequest _ (by decide +kernel), responses headerLikeResponse _ (by decide +kernel), ?_⟩
  have collected := pages (utf8 "req-page") (fun _ => zeroPage) (by decide +kernel) (fun _ _ => rfl) 2
    (by rw [zeroPage, List.length_replicate]; decide)
  rwa [if_pos fun _ _ => rfl] at collected

end Pages

end DucklakeCatalog.Wire
