import DucklakeCatalog.Attempt.SchemasAndViews

/-! What the preparation of view changes has established once it accepts. -/
namespace DucklakeCatalog.Fdb

open KeyedStore

/-- A view of the list under its id and in its schema; its name and comment may differ. -/
def ListsView (views : List ViewRow) (view : ViewRow) : Prop :=
  ∃ listed ∈ views, listed.viewId = view.viewId ∧ listed.schemaId = view.schemaId

theorem updateFirst_listsView {wanted : ViewRow → Bool} (update : ViewRow → ViewRow)
    (places : ∀ view, (update view).viewId = view.viewId ∧ (update view).schemaId = view.schemaId) {views : List ViewRow}
    {view : ViewRow} (member : view ∈ updateFirst wanted update views) : ListsView views view := by
  induction views with
  | nil => exact absurd member List.not_mem_nil
  | cons first rest ih =>
    unfold updateFirst at member
    split at member
    · rcases List.mem_cons.mp member with rfl | later
      · exact ⟨first, List.mem_cons_self, (places first).1.symm, (places first).2.symm⟩
      · exact ⟨view, List.mem_cons_of_mem _ later, rfl, rfl⟩
    · rcases List.mem_cons.mp member with rfl | later
      · exact ⟨view, List.mem_cons_self, rfl, rfl⟩
      · obtain ⟨listed, inRest, same⟩ := ih later
        exact ⟨listed, List.mem_cons_of_mem _ inRest, same⟩

theorem ListsView.trans {views later : List ViewRow} {view : ViewRow} (lists : ListsView later view)
    (before : ∀ listed ∈ later, ListsView views listed) : ListsView views view := by
  obtain ⟨listed, member, sameId, sameSchema⟩ := lists
  obtain ⟨original, known, originalId, originalSchema⟩ := before listed member
  exact ⟨original, known, originalId.trans sameId, originalSchema.trans sameSchema⟩

theorem renameCreatedViews_listsView (createdViews : List ViewRow) (renames : List ViewRename) :
    ∀ view ∈ (renameCreatedViews createdViews renames).1, ListsView createdViews view := by
  unfold renameCreatedViews
  refine List.foldlRecOn (motive := fun state : List ViewRow × List ViewRename =>
    ∀ view ∈ state.1, ListsView createdViews view) renames _ ?_ ?_
  · exact fun view member => ⟨view, member, rfl, rfl⟩
  · intro state lists rename _
    dsimp only
    split
    · intro view member
      have renamed := updateFirst_listsView (fun view : ViewRow => { view with name := rename.newName })
        (fun _ => ⟨rfl, rfl⟩) member
      exact renamed.trans lists
    · exact lists

theorem commentCreatedViews_listsView (createdViews : List ViewRow) (droppedIds : List ViewId)
    (changes : List ViewCommentChange) :
    ∀ view ∈ (commentCreatedViews createdViews droppedIds changes).1, ListsView createdViews view := by
  unfold commentCreatedViews
  refine List.foldlRecOn (motive := fun state : List ViewRow × List ViewCommentChange =>
    ∀ view ∈ state.1, ListsView createdViews view) changes _ ?_ ?_
  · exact fun view member => ⟨view, member, rfl, rfl⟩
  · intro state lists change _
    dsimp only
    split
    · intro view member
      have commented := updateFirst_listsView (fun view : ViewRow => { view with comment := change.comment })
        (fun _ => ⟨rfl, rfl⟩) member
      exact commented.trans lists
    · split <;> exact lists

theorem findView_ok {currentViews : List ViewRow} {viewId : ViewId} {view : ViewRow}
    (found : findView currentViews viewId = .ok view) : view ∈ currentViews ∧ view.viewId = viewId := by
  unfold findView at found
  cases listed : currentViews.find? fun view => view.viewId = viewId with
  | none =>
    rw [listed] at found
    cases found
  | some known =>
    rw [listed] at found
    obtain rfl := Except.ok.inj found
    exact ⟨List.mem_of_find?_eq_some listed, by simpa using List.find?_some listed⟩

/-! ## Replacements -/

/-- Each replacement is of a current view; a view that goes on keeps its place. -/
structure SoundReplacements (currentViews : List ViewRow) (droppedIds : List ViewId) (replacements : ViewReplacements) :
    Prop where
  current : ∀ {viewId previous next}, replacements.get? viewId = some (previous, next) →
    previous ∈ currentViews ∧ previous.viewId = viewId
  keeps : ∀ {viewId previous next}, replacements.get? viewId = some (previous, some next) →
    viewId ∉ droppedIds ∧ next.viewId = viewId ∧ next.schemaId = previous.schemaId

/-- Every dropped view ends, and nothing goes on in its place. -/
def EndsDropped (droppedIds : List ViewId) (replacements : ViewReplacements) : Prop :=
  ∀ viewId ∈ droppedIds, ∃ previous, replacements.get? viewId = some (previous, none)

theorem EndsDropped.insert {droppedIds : List ViewId} {replacements : ViewReplacements}
    (ends : EndsDropped droppedIds replacements) {viewId : ViewId} (stays : viewId ∉ droppedIds)
    (entry : ViewRow × Option ViewRow) : EndsDropped droppedIds (replacements.insert viewId entry) := by
  intro dropped isDropped
  have different : dropped ≠ viewId := fun same => stays (same ▸ isDropped)
  rw [OrderedMap.get?_insert_ne _ _ different]
  exact ends dropped isDropped

theorem dropCurrentView_ends {currentViews createdViews : List ViewRow} {replacements next : ViewReplacements}
    {viewId : ViewId} (known : viewId ∈ createdViews.map ViewRow.viewId → viewId ∈ currentViews.map ViewRow.viewId)
    (drops : dropCurrentView currentViews createdViews replacements viewId = .ok next) :
    ∃ previous, next = replacements.insert viewId (previous, none) := by
  unfold dropCurrentView at drops
  split at drops
  · rename_i both
    exact absurd (known both.1) both.2
  · simp only [bind_eq_ok, pure_eq_ok] at drops
    obtain ⟨previous, _, rfl⟩ := drops
    exact ⟨previous, rfl⟩

/-- The drops of an attempt end every view they name. -/
theorem foldlM_dropCurrentView_ends {currentViews createdViews : List ViewRow} {droppedIds : List ViewId}
    {replacements next : ViewReplacements}
    (known : ∀ viewId ∈ droppedIds, viewId ∈ createdViews.map ViewRow.viewId → viewId ∈ currentViews.map ViewRow.viewId)
    (drops : droppedIds.foldlM (dropCurrentView currentViews createdViews) replacements = .ok next) :
    EndsDropped droppedIds next := by
  induction droppedIds generalizing replacements with
  | nil => exact fun viewId isDropped => absurd isDropped List.not_mem_nil
  | cons viewId rest ih =>
    rw [List.foldlM_cons, bind_eq_ok] at drops
    obtain ⟨middle, first, others⟩ := drops
    obtain ⟨previous, rfl⟩ := dropCurrentView_ends (known viewId List.mem_cons_self) first
    have knownRest := fun other listed => known other (List.mem_cons_of_mem _ listed)
    intro dropped isDropped
    rcases List.mem_cons.mp isDropped with rfl | later
    · -- A later drop of the same view would end it again.
      refine foldlM_invariant (fun state : ViewReplacements => ∃ previous, state.get? dropped = some (previous, none))
        others ⟨previous, OrderedMap.get?_insert_self _ _ _⟩ ?_
      rintro state other after listed ⟨ended, found⟩ step
      obtain ⟨again, rfl⟩ := dropCurrentView_ends (knownRest other listed) step
      rw [OrderedMap.get?_insert]
      split
      · exact ⟨again, rfl⟩
      · exact ⟨ended, found⟩
    · exact ih knownRest others dropped later

namespace SoundReplacements

variable {currentViews createdViews : List ViewRow} {droppedIds : List ViewId} {replacements next : ViewReplacements}
  {viewId : ViewId}

theorem insert (sound : SoundReplacements currentViews droppedIds replacements) {previous : ViewRow}
    {successor : Option ViewRow} (current : previous ∈ currentViews ∧ previous.viewId = viewId)
    (keeps : ∀ view, successor = some view →
      viewId ∉ droppedIds ∧ view.viewId = viewId ∧ view.schemaId = previous.schemaId) :
    SoundReplacements currentViews droppedIds (replacements.insert viewId (previous, successor)) where
  current := by
    intro other replaced after found
    rw [OrderedMap.get?_insert] at found
    split at found
    · rename_i same
      cases found
      exact same ▸ current
    · exact sound.current found
  keeps := by
    intro other replaced after found
    rw [OrderedMap.get?_insert] at found
    split at found
    · rename_i same
      obtain ⟨rfl, isAfter⟩ := Prod.mk.inj (Option.some.inj found)
      exact same ▸ keeps after isAfter
    · exact sound.keeps found

theorem drop (sound : SoundReplacements currentViews droppedIds replacements)
    (drops : dropCurrentView currentViews createdViews replacements viewId = .ok next) :
    SoundReplacements currentViews droppedIds next := by
  unfold dropCurrentView at drops
  split at drops
  · exact Except.ok.inj drops ▸ sound
  · simp only [bind_eq_ok, pure_eq_ok] at drops
    obtain ⟨previous, found, rfl⟩ := drops
    exact sound.insert (findView_ok found) (by simp)

theorem rename {state after : List ViewRow × ViewReplacements} {rename : ViewRename}
    (sound : SoundReplacements currentViews droppedIds state.2) (ends : EndsDropped droppedIds state.2)
    (renames : renameCurrentView currentViews createdViews droppedIds state rename = .ok after) :
    SoundReplacements currentViews droppedIds after.2 ∧ EndsDropped droppedIds after.2 := by
  unfold renameCurrentView at renames
  simp only [bind_eq_ok] at renames
  obtain ⟨previous, found, renames⟩ := renames
  have known := findView_ok found
  split at renames
  · cases renames
  · rename_i stays
    simp only [bind_eq_ok, pure_eq_ok] at renames
    obtain ⟨_, _, rfl⟩ := renames
    refine ⟨sound.insert ⟨known.1, rfl⟩ ?_, ends.insert stays _⟩
    intro view isNext
    obtain rfl := Option.some.inj isNext
    exact ⟨stays, rfl, rfl⟩

theorem comment {change : ViewCommentChange} (sound : SoundReplacements currentViews droppedIds replacements)
    (ends : EndsDropped droppedIds replacements)
    (comments : commentCurrentView currentViews replacements change = .ok next) :
    SoundReplacements currentViews droppedIds next ∧ EndsDropped droppedIds next := by
  unfold commentCurrentView at comments
  simp only [bind_eq_ok] at comments
  obtain ⟨previous, found, comments⟩ := comments
  have known := findView_ok found
  cases replaced : replacements.get? change.viewId with
  | none =>
    rw [replaced] at comments
    simp only [Option.getD_none, pure_eq_ok] at comments
    subst comments
    have stays : change.viewId ∉ droppedIds := by
      intro isDropped
      obtain ⟨ended, isEnded⟩ := ends change.viewId isDropped
      rw [replaced] at isEnded
      cases isEnded
    refine ⟨sound.insert known ?_, ends.insert stays _⟩
    intro view isNext
    obtain rfl := Option.some.inj isNext
    exact ⟨stays, known.2, rfl⟩
  | some entry =>
    obtain ⟨ended, successor⟩ := entry
    cases successor with
    | none =>
      rw [replaced] at comments
      cases comments
    | some successor =>
      rw [replaced] at comments
      simp only [Option.getD_some, pure_eq_ok] at comments
      subst comments
      obtain ⟨stays, sameId, sameSchema⟩ := sound.keeps replaced
      refine ⟨sound.insert (sound.current replaced) ?_, ends.insert stays _⟩
      intro view isNext
      obtain rfl := Option.some.inj isNext
      exact ⟨stays, sameId, sameSchema⟩

end SoundReplacements

/-! ## Prepared changes -/

/-- Everything later proofs use of accepted view changes. -/
structure PreparedViews (currentViews createdViews : List ViewRow) (droppedIds : List ViewId)
    (prepared : PreparedViewChanges) : Prop where
  sound : SoundReplacements currentViews droppedIds prepared.replacements
  ends : EndsDropped droppedIds prepared.replacements
  created : ∀ view ∈ prepared.createdViews, ListsView createdViews view ∧
    (view.viewId ∈ droppedIds ↔ view.viewId ∈ currentViews.map ViewRow.viewId)

theorem rejectCreatedViewConflicts_fresh {currentViews createdViews : List ViewRow} {currentTables : List TableRow}
    {droppedIds : List ViewId}
    (accepted : rejectCreatedViewConflicts currentViews currentTables createdViews droppedIds = .ok ()) {view : ViewRow}
    (member : view ∈ createdViews) (known : view.viewId ∈ currentViews.map ViewRow.viewId) :
    view.viewId ∈ droppedIds := by
  have checked := forM_eq_ok_iff.mp accepted view member
  obtain ⟨existing, listed, same⟩ := List.mem_map.mp known
  by_contra stays
  have taken : (currentViews.any fun existing => existing.viewId = view.viewId ∧ existing.viewId ∉ droppedIds) = true := by
    rw [List.any_eq_true]
    exact ⟨existing, listed, by simpa [same] using stays⟩
  rw [if_pos taken] at checked
  cases checked

theorem prepareViewChanges_prepared {createdViews currentViews : List ViewRow} {renames : List ViewRename}
    {droppedIds : List ViewId} {commentChanges : List ViewCommentChange} {currentTables : List TableRow}
    {prepared : PreparedViewChanges}
    (prepares : prepareViewChanges createdViews renames droppedIds commentChanges currentViews currentTables =
      .ok prepared) : PreparedViews currentViews createdViews droppedIds prepared := by
  unfold prepareViewChanges at prepares
  simp only [bind_eq_ok, pure_eq_ok] at prepares
  obtain ⟨_, _, _, _, _, _, _, _, _, conflicts, dropped, drops, ⟨renamedViews, renamed⟩, renamesCurrent, replacements,
    comments, rfl⟩ := prepares
  have fresh := fun view member => @rejectCreatedViewConflicts_fresh currentViews _ currentTables droppedIds conflicts view member
  have ends : EndsDropped droppedIds dropped := by
    refine foldlM_dropCurrentView_ends ?_ drops
    intro viewId isDropped listed
    obtain ⟨view, member, same⟩ := List.mem_map.mp listed
    have remains := (List.mem_filter.mp member).2
    simp only [decide_eq_true_eq] at remains
    exact same ▸ remains.resolve_left (not_not.mpr (same ▸ isDropped))
  have sound : SoundReplacements currentViews droppedIds dropped := by
    refine foldlM_invariant (SoundReplacements currentViews droppedIds) drops ?_ ?_
    · exact ⟨by simp, by simp⟩
    · intro state viewId next _ before step
      exact before.drop step
  have afterRenames : SoundReplacements currentViews droppedIds renamed ∧ EndsDropped droppedIds renamed := by
    refine foldlM_invariant (fun state : List ViewRow × ViewReplacements =>
      SoundReplacements currentViews droppedIds state.2 ∧ EndsDropped droppedIds state.2) renamesCurrent ⟨sound, ends⟩ ?_
    intro state rename next _ before step
    exact before.1.rename before.2 step
  have afterComments : SoundReplacements currentViews droppedIds replacements ∧ EndsDropped droppedIds replacements := by
    refine foldlM_invariant (fun state : ViewReplacements =>
      SoundReplacements currentViews droppedIds state ∧ EndsDropped droppedIds state) comments afterRenames ?_
    intro state change next _ before step
    exact before.1.comment before.2 step
  refine ⟨afterComments.1, afterComments.2, ?_⟩
  intro view member
  obtain ⟨inside, remains⟩ := List.mem_filter.mp member
  simp only [decide_eq_true_eq] at remains
  have commented := commentCreatedViews_listsView _ droppedIds commentChanges view inside
  refine ⟨commented.trans (renameCreatedViews_listsView createdViews renames), ?_, fresh view member⟩
  intro isDropped
  exact remains.resolve_left (not_not.mpr isDropped)

end DucklakeCatalog.Fdb
