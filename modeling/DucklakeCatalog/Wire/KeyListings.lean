import DucklakeCatalog.Wire.KeySpace

/-! A listing finds the keys that its prefix was made for, and no other key of the catalog. -/
namespace DucklakeCatalog.Wire

open ByteCodec KeyedStore

/-! ## Keys begin with the prefixes of their listings -/

theorem LogicalKey.listings_canonical (key : LogicalKey) : key.canonical.listings = key.listings := by
  cases key <;> rfl

theorem LogicalKey.inFamily_within (key : LogicalKey) :
    ∀ listing ∈ key.within, listing.inFamily = some key.family := by
  have every : key.within.all fun listing => listing.inFamily = some key.family := by cases key <;> rfl
  intro listing member
  exact of_decide_eq_true (List.all_eq_true.mp every listing member)

theorem LogicalKey.body_within (key : LogicalKey) : ∀ listing ∈ key.within, listing.body <+: key.body := by
  cases key <;>
  simp only [within, List.forall_mem_cons, List.not_mem_nil, false_implies, implies_true, and_true] <;>
  simp only [body, ListingPrefix.body, List.prefix_append_right_inj, List.prefix_append, and_self]

theorem LogicalKey.prefix_of_listing (catalog : UInt64) {key : LogicalKey} {listing : ListingPrefix}
    (member : listing ∈ key.listings) : listing.bytes catalog <+: key.bytes catalog := by
  rw [key.bytes_eq]
  rw [listings, List.mem_cons, List.mem_cons] at member
  rcases member with rfl | rfl | inside
  · rw [familyPrefix, List.append_assoc]
    exact List.prefix_append ..
  · exact List.prefix_append ..
  · rw [listing.bytes_eq catalog (key.inFamily_within listing inside), List.prefix_append_right_inj]
    exact key.body_within listing inside

/-! ## Only those -/

/-- A listing by a partition value asks for no longer value than a key holds. -/
def ListingPrefix.Fits : ListingPrefix → Prop
  | .partitionValueLookup _ _ partitionValue => ShortString partitionValue
  | _ => True

theorem yields_thenName {Holds : LogicalKey → Prop} {next : String → CatalogResult LogicalKey}
    (later : ∀ name key, next name = .ok key → Holds key) : Yields Holds (thenName next) := by
  intro bytes key read
  obtain ⟨name, -, read⟩ := bind_eq_ok.mp read
  exact later name key read

theorem yields_parseEnded (tableId : UInt64) (endOrder : CatalogOrderId) :
    Yields (fun key => key.family = .endOrder) (parseEnded tableId endOrder) := by
  have bare : Yields (fun key : LogicalKey => key.family = .endOrder)
      (thenId fun dataFileId => thenEnd (.dataFileEnd tableId endOrder dataFileId)) :=
    .andThen fun _ => .finish rfl
  have tagged : Yields (fun key : LogicalKey => key.family = .endOrder) (choose unknownKey
      [([asciiByte 'x'], thenSep <| thenId fun deleteFileId => thenEnd (.deleteFileEnd tableId endOrder deleteFileId)),
      ([asciiByte 'i'], thenSep <| thenId fun schemaId => thenSep <| thenOrder fun beginOrder =>
        thenEnd (.inlineTableEnd tableId endOrder schemaId beginOrder))]) :=
    .here (.expect (.andThen fun _ => .finish rfl))
      (.here (.expect (.andThen fun _ => .expect (.andThen fun _ => .finish rfl))) .nowhere)
  intro object key read
  rw [parseEnded] at read
  split at read
  · exact bare object key read
  · exact tagged object key read

theorem parseBody_family (family : KeyFamily) : Yields (fun key => key.family = family) (parseBody family) := by
  cases family
  case endOrder =>
    exact .andThen fun tableId => .expect (.andThen fun endOrder => .expect (yields_parseEnded tableId endOrder))
  case conflictFence =>
    intro scope key read
    cases read
    rfl
  case object =>
    have named : ∀ schemaId : UInt64, Yields (fun key : LogicalKey => key.family = .object)
        (thenSep <| thenName fun name => .ok (.currentTableName schemaId name)) := by
      refine fun schemaId => .expect (yields_thenName fun name key read => ?_)
      cases read
      rfl
    refine .here ?_ (.here ?_ (.here ?_ (.here ?_ (.here ?_ (.here (.andThen named) (.here ?_ .nowhere))))))
    all_goals
      repeat' first
        | exact Yields.finish rfl
        | refine Yields.expect ?_
        | refine Yields.andThen fun _ => ?_
  all_goals
    rw [parseBody]
    repeat' first
      | exact Yields.refused
      | exact Yields.finish rfl
      | exact Yields.nowhere
      | refine Yields.here ?_ ?_
      | refine Yields.expect ?_
      | refine Yields.andThen fun _ => ?_

theorem ListingPrefix.yields {listing : ListingPrefix} (fits : listing.Fits) {family : KeyFamily}
    (inside : listing.inFamily = some family) :
    Yields (fun key => listing ∈ key.listings) fun rest => parseBody family (listing.body ++ rest) := by
  intro rest key read
  cases listing
  case catalog => cases inside
  case family keyFamily =>
    have named : keyFamily = family := Option.some.inj inside
    subst named
    have same := parseBody_family keyFamily rest key read
    simp [LogicalKey.listings, same]
  case partitionValueLookup tableId partitionKeyIndex partitionValue =>
    have short : ShortString partitionValue := fits
    cases inside
    simp only [body, parseBody, List.append_assoc, thenId_append, thenIndex_append, thenValue_append _ _ short,
      thenSep_append] at read
    refine (?_ : Yields (fun key => _ ∈ key.listings) _) rest key read
    exact .andThen fun _ => .finish (by simp [LogicalKey.listings, LogicalKey.within])
  all_goals
    cases inside
    simp (disch := decide) only [body, parseBody, parseObject, parseVersion, List.append_assoc, choose_here,
      choose_elsewhere, thenId_append, thenRowChange_append, thenSep_append] at read
    refine (?_ : Yields (fun key => _ ∈ key.listings) _) rest key read
    repeat' first
      | exact Yields.finish (by simp [LogicalKey.listings, LogicalKey.within])
      | refine Yields.expect ?_
      | refine Yields.andThen fun _ => ?_

end DucklakeCatalog.Wire
