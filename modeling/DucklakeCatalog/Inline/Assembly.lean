import DucklakeCatalog.Inline.Payload
import DucklakeCatalog.KeyedStore.Fallible
import DucklakeCatalog.KeyedStore.OrderedSet

namespace DucklakeCatalog

open KeyedStore

/-! ## Line lengths, byte by byte -/

def countByte (lineBytes : Nat) (byte : UInt8) : CatalogResult Nat :=
  if byte = newline then do
    validateRowBytes (lineBytes + 1)
    return 0
  else .ok (lineBytes + 1)

variable {fragment payload : List UInt8} {payloadLen count : Nat} {tableId : TableId} {schemaId : SchemaId}
  {beginOrder : CatalogOrderId} {rows : List InlineTableChunkRow}

theorem splitInclusive_ne_nil {bytes : List UInt8} (member : fragment ∈ splitInclusive bytes) :
    fragment ≠ [] := by
  induction bytes with
  | nil => simp [splitInclusive] at member
  | cons byte rest ih =>
    unfold splitInclusive at member
    split at member
    · rcases List.mem_cons.mp member with rfl | later
      · simp
      · exact ih later
    · cases fragments : splitInclusive rest with
      | nil =>
        rw [fragments] at member
        simp_all
      | cons first others =>
        rw [fragments] at member ih
        rcases List.mem_cons.mp member with rfl | later
        · simp
        · exact ih (List.mem_cons_of_mem _ later)

/-- A byte in front of a fragment only lengthens its line. -/
theorem countLineBytes_cons (byte : UInt8) (lineBytes : Nat) (nonempty : fragment ≠ []) :
    countLineBytes lineBytes (byte :: fragment) = countLineBytes (lineBytes + 1) fragment := by
  have last : (byte :: fragment).getLast? = fragment.getLast? := by
    cases fragment with
    | nil => exact absurd rfl nonempty
    | cons first others => simp
  unfold countLineBytes
  rw [last, List.length_cons]
  have length : lineBytes + (fragment.length + 1) = lineBytes + 1 + fragment.length := by omega
  rw [length]

theorem foldlM_countLineBytes (bytes : List UInt8) (lineBytes : Nat) :
    (splitInclusive bytes).foldlM countLineBytes lineBytes = bytes.foldlM countByte lineBytes := by
  induction bytes generalizing lineBytes with
  | nil => rfl
  | cons byte rest ih =>
    unfold splitInclusive
    rw [List.foldlM_cons]
    by_cases finished : byte = newline
    · have step : countLineBytes lineBytes [byte] = countByte lineBytes byte := by
        simp [countLineBytes, countByte, finished]
      rw [if_pos finished, List.foldlM_cons, step]
      exact congrArg _ (funext ih)
    · have step : countByte lineBytes byte = .ok (lineBytes + 1) := by simp [countByte, finished]
      rw [if_neg finished, step]
      cases fragments : splitInclusive rest with
      | nil =>
        have none := ih (lineBytes + 1)
        rw [fragments] at none
        simp only [List.foldlM_cons, List.foldlM_nil, countLineBytes, List.getLast?_singleton, Option.some.injEq,
          finished, if_false]
        exact none
      | cons first others =>
        have nonempty : first ≠ [] := splitInclusive_ne_nil (fragments ▸ List.mem_cons_self)
        have some := ih (lineBytes + 1)
        rw [fragments, List.foldlM_cons] at some
        rw [List.foldlM_cons, countLineBytes_cons byte lineBytes nonempty]
        exact some

/-- What may still be open after counting: nothing, or a line that fits with its newline. -/
def OpenLineFits (lineBytes : Nat) : Prop :=
  lineBytes = 0 ∨ lineBytes + 1 ≤ inlinePayloadLimitBytes

theorem validateRowBytes_ok {bytes : Nat} (fits : bytes ≤ inlinePayloadLimitBytes) : validateRowBytes bytes = .ok () := by
  unfold validateRowBytes
  rw [if_neg (not_lt.mpr fits)]

/-- Counting accepts a payload whose lines fit; the first line may have begun `lineBytes` bytes earlier. -/
theorem foldlM_countByte_ok (bytes : List UInt8) (lineBytes : Nat)
    (first : ∀ line ∈ (bytes.splitOn newline).head?, OpenLineFits (lineBytes + line.length))
    (later : ∀ line ∈ (bytes.splitOn newline).tail, OpenLineFits line.length) :
    ∃ final, bytes.foldlM countByte lineBytes = .ok final ∧ OpenLineFits final := by
  induction bytes generalizing lineBytes with
  | nil => exact ⟨lineBytes, rfl, by simpa using first⟩
  | cons byte rest ih =>
    rw [List.splitOn_cons_eq_if_modifyHead] at first later
    rw [List.foldlM_cons]
    cases lines : rest.splitOn newline with
    | nil => exact absurd lines (List.splitOn_ne_nil _ _)
    | cons head tail =>
      rw [lines] at first later ih
      by_cases finished : byte = newline
      · rw [if_pos (by simpa using finished)] at first later
        have fits : lineBytes + 1 ≤ inlinePayloadLimitBytes := by
          rcases first [] rfl with zero | fits
          · simp only [List.length_nil, Nat.add_zero] at zero
            rw [zero]
            decide
          · exact fits
        have step : countByte lineBytes byte = .ok 0 := by
          unfold countByte
          rw [if_pos finished, validateRowBytes_ok fits]
          rfl
        obtain ⟨final, counted, openFits⟩ := ih 0 (by simpa using later head (by simp))
          (fun line member => later line (by simp_all))
        exact ⟨final, by rw [step]; exact counted, openFits⟩
      · rw [if_neg (by simpa using finished)] at first later
        have step : countByte lineBytes byte = .ok (lineBytes + 1) := by
          unfold countByte
          rw [if_neg finished]
        have longer : OpenLineFits (lineBytes + 1 + head.length) := by
          have fits := first (byte :: head) (by simp)
          rwa [List.length_cons, ← Nat.add_assoc, Nat.add_right_comm] at fits
        obtain ⟨final, counted, openFits⟩ := ih (lineBytes + 1) (by simpa using longer)
          (fun line member => later line (by simpa using member))
        exact ⟨final, by rw [step]; exact counted, openFits⟩

theorem validateInlineTableRowsFitFdb_lines (fits : validateInlineTableRowsFitFdb payload = .ok ()) :
    ∀ line ∈ payload.splitOn newline, OpenLineFits line.length := by
  unfold validateInlineTableRowsFitFdb at fits
  generalize payload.splitOn newline = lines at fits
  induction lines with
  | nil => simp
  | cons line rest ih =>
    rw [List.forM, bind_eq_ok] at fits
    obtain ⟨_, accepted, fits⟩ := fits
    intro other member
    rcases List.mem_cons.mp member with rfl | later
    · by_cases empty : other = []
      · exact Or.inl (by simp [empty])
      · rw [if_neg empty] at accepted
        split at accepted
        · simp at accepted
        · rename_i short
          exact Or.inr (not_lt.mp short)
    · exact ih fits other later

/-! ## Chunks -/

theorem flatMap_chunkPayload (payload : List UInt8) (count : Nat) :
    (List.range count).flatMap (chunkPayload payload) = payload.take (count * inlineChunkBytes) := by
  induction count with
  | zero => simp
  | succ count ih =>
    rw [List.range_succ, List.flatMap_append, ih, Nat.succ_mul, List.take_add]
    simp [chunkPayload]

theorem chunkCount_ok (counted : chunkCount payloadLen = .ok count) :
    0 < count ∧ payloadLen ≤ count * inlineChunkBytes := by
  have width : inlineChunkBytes = 16384 := rfl
  unfold chunkCount at counted
  extract_lets needed at counted
  split at counted
  · simp only [Except.ok.injEq] at counted
    rw [← counted]
    simp only [needed, width]
    split
    · omega
    · omega
  · simp at counted

theorem chunkCount_le (counted : chunkCount payloadLen = .ok count) : count ≤ u32Max := by
  unfold chunkCount at counted
  extract_lets needed at counted
  split at counted
  · rename_i few
    simp only [Except.ok.injEq] at counted
    exact counted ▸ few
  · simp at counted

theorem inlineTableChunks_ok (chunked : inlineTableChunks tableId schemaId beginOrder payload = .ok rows) :
    ∃ count, 0 < count ∧ payload.length ≤ count * inlineChunkBytes ∧
      rows = (List.range count).map fun chunkIndex =>
        { tableId, schemaId, validity := ⟨beginOrder, none⟩, chunkIndex, chunkCount := count,
          payload := chunkPayload payload chunkIndex } := by
  unfold inlineTableChunks at chunked
  rw [bind_eq_ok] at chunked
  obtain ⟨count, counted, chunked⟩ := chunked
  simp only [pure_eq_ok] at chunked
  obtain ⟨positive, covered⟩ := chunkCount_ok counted
  exact ⟨count, positive, covered, chunked.symm⟩

theorem validatePayloadChunks_ok {first : InlineTableChunkRow} {rest : List InlineTableChunkRow}
    (complete : (first :: rest).length = first.chunkCount)
    (numbered : ∀ entry ∈ (first :: rest).zipIdx, entry.1.chunkCount = first.chunkCount ∧ entry.1.chunkIndex = entry.2)
    (fits : validateInlineTableRowsFitFdb ((first :: rest).flatMap InlineTableChunkRow.payload) = .ok ()) :
    validatePayloadChunks (first :: rest) = .ok () := by
  -- With the chunk numbers in order the fold only counts bytes, first chunk to last.
  have counts (rows : List (InlineTableChunkRow × Nat)) (lineBytes : Nat)
      (inOrder : ∀ entry ∈ rows, entry.1.chunkCount = first.chunkCount ∧ entry.1.chunkIndex = entry.2) :
      rows.foldlM
        (fun lineBytes entry =>
          if entry.1.chunkCount ≠ first.chunkCount ∨ entry.1.chunkIndex ≠ entry.2 then
            .error (.decode "inline payload chunks are not contiguous")
          else (splitInclusive entry.1.payload).foldlM countLineBytes lineBytes) lineBytes =
        (rows.flatMap fun entry => entry.1.payload).foldlM countByte lineBytes := by
    induction rows generalizing lineBytes with
    | nil => rfl
    | cons entry others ih =>
      obtain ⟨sameCount, sameIndex⟩ := inOrder entry List.mem_cons_self
      rw [List.foldlM_cons, List.flatMap_cons, List.foldlM_append]
      simp only [sameCount, sameIndex, ne_eq, not_true_eq_false, or_self, if_false]
      rw [foldlM_countLineBytes]
      exact congrArg _ (funext fun next => ih next fun other member => inOrder other (List.mem_cons_of_mem _ member))
  have whole : ((first :: rest).zipIdx.flatMap fun entry => entry.1.payload) =
      (first :: rest).flatMap InlineTableChunkRow.payload := by
    rw [← List.flatMap_map Prod.fst InlineTableChunkRow.payload, List.zipIdx_map_fst]
  have lines := validateInlineTableRowsFitFdb_lines fits
  obtain ⟨final, counted, openFits⟩ := foldlM_countByte_ok ((first :: rest).flatMap InlineTableChunkRow.payload) 0
    (by simpa using fun line member => lines line (List.mem_of_mem_head? member))
    (fun line member => lines line (List.mem_of_mem_tail member))
  unfold validatePayloadChunks validateContiguousChunks
  dsimp only
  rw [if_pos complete, counts _ 0 numbered, whole, counted]
  rcases openFits with zero | fits
  · simp [zero, bind, Except.bind]
  · simp [bind, Except.bind, validateRowBytes_ok fits]

/-- A registered payload is read back from its chunks byte for byte. -/
theorem assembleInlinePayload_chunks (fits : validateInlineTableRowsFitFdb payload = .ok ())
    (chunked : inlineTableChunks tableId schemaId beginOrder payload = .ok rows) :
    assembleInlinePayload rows = .ok payload := by
  obtain ⟨count, positive, covered, chunks⟩ := inlineTableChunks_ok chunked
  have whole : rows.flatMap InlineTableChunkRow.payload = payload := by
    rw [chunks, List.flatMap_map, flatMap_chunkPayload, List.take_of_length_le covered]
  have sorted : rows.insertionSort (fun left right => left.chunkIndex ≤ right.chunkIndex) = rows := by
    apply List.Pairwise.insertionSort_eq
    rw [chunks, List.pairwise_map]
    exact List.pairwise_lt_range.imp fun below => below.le
  have valid : validatePayloadChunks rows = .ok () := by
    cases listed : rows with
    | nil => simp [chunks, positive.ne'] at listed
    | cons first rest =>
      have length : rows.length = count := by simp [chunks]
      have numbered : ∀ entry ∈ rows.zipIdx, entry.1.chunkCount = count ∧ entry.1.chunkIndex = entry.2 := by
        intro entry member
        obtain ⟨index, below, same⟩ := List.getElem_of_mem member
        rw [← same]
        simp [chunks]
      have firstCount : first.chunkCount = count := by
        have member : (first, 0) ∈ rows.zipIdx := by simp [listed]
        exact (numbered _ member).1
      rw [listed] at length numbered whole
      exact validatePayloadChunks_ok (length.trans firstCount.symm) (by rwa [firstCount]) (by rwa [whole])
  unfold assembleInlinePayload
  dsimp only
  rw [sorted, valid]
  simp [bind, Except.bind, pure, Except.pure, whole]

/-- The chunk numbers decide the order, so the rows may arrive in any. -/
theorem assembleInlinePayload_perm {arrived : List InlineTableChunkRow} (permuted : arrived.Perm rows)
    (numbered : (rows.map InlineTableChunkRow.chunkIndex).Nodup) :
    assembleInlinePayload arrived = assembleInlinePayload rows := by
  have same := insertionSort_key_perm permuted numbered
  unfold assembleInlinePayload
  rw [same]

end DucklakeCatalog
