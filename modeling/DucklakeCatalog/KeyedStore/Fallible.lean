import Mathlib.Data.List.Forall2

namespace KeyedStore

variable {ε σ α β K : Type}

theorem ok_bind (value : α) (next : α → Except ε β) : (Except.ok value >>= next) = next value := rfl

theorem pure_eq_ok {value result : α} : (pure value : Except ε α) = .ok result ↔ value = result := by
  simp [pure, Except.pure]

theorem bind_eq_ok {first : Except ε α} {next : α → Except ε β} {result : β} :
    (first >>= next) = .ok result ↔ ∃ value, first = .ok value ∧ next value = .ok result := by
  cases first with
  | error failure
  | ok value => simp [bind, Except.bind]

theorem map_eq_ok {first : Except ε α} {next : α → β} {result : β} :
    (next <$> first) = .ok result ↔ ∃ value, first = .ok value ∧ next value = result := by
  cases first with
  | error failure
  | ok value => simp [Functor.map, Except.map]

/-- A result that is there is the one taken out of it. -/
theorem eq_ok_getD {outcome : Except ε α} (default : α) (accepted : outcome.toOption.isSome) :
    outcome = .ok (outcome.toOption.getD default) := by
  cases outcome with
  | error failure => cases accepted
  | ok result => rfl

variable {items : List α} {start finish : σ} {step : σ → α → σ} {results : List β}

/-- What one accepted step preserves, an accepted fold preserves. -/
theorem foldlM_invariant {step : σ → α → Except ε σ}
    (Invariant : σ → Prop) (success : items.foldlM step start = .ok finish) (holds : Invariant start)
    (preserved : ∀ state item next, item ∈ items → Invariant state → step state item = .ok next → Invariant next) :
    Invariant finish := by
  induction items generalizing start with
  | nil =>
    have same : start = finish := by simpa [pure, Except.pure] using success
    exact same ▸ holds
  | cons item rest ih =>
    rw [List.foldlM_cons, bind_eq_ok] at success
    obtain ⟨next, taken, success⟩ := success
    refine ih success (preserved start item next List.mem_cons_self holds taken) ?_
    intro state later following member
    exact preserved state later following (List.mem_cons_of_mem _ member)

theorem foldlM_some_invariant {step : σ → α → Option σ} (Invariant : σ → Prop)
    (success : items.foldlM step start = some finish) (holds : Invariant start)
    (preserved : ∀ state item next, item ∈ items → Invariant state → step state item = some next → Invariant next) :
    Invariant finish := by
  induction items generalizing start with
  | nil =>
    have same : start = finish := by simpa using success
    exact same ▸ holds
  | cons item rest ih =>
    rw [List.foldlM_cons, Option.bind_eq_bind, Option.bind_eq_some_iff] at success
    obtain ⟨next, taken, success⟩ := success
    refine ih success (preserved start item next List.mem_cons_self holds taken) ?_
    intro state later following member
    exact preserved state later following (List.mem_cons_of_mem _ member)

/-- What each item establishes and no later step destroys holds of every item at the end. -/
theorem foldlM_establishes {step : σ → α → Except ε σ}
    (Established : σ → α → Prop) (success : items.foldlM step start = .ok finish)
    (establishes : ∀ state item next, step state item = .ok next → Established next item)
    (preserved : ∀ state item next earlier, step state item = .ok next → Established state earlier →
      Established next earlier) : ∀ item ∈ items, Established finish item := by
  induction items generalizing start with
  | nil => exact fun item member => absurd member List.not_mem_nil
  | cons first rest ih =>
    rw [List.foldlM_cons, bind_eq_ok] at success
    obtain ⟨next, taken, success⟩ := success
    intro item member
    rcases List.mem_cons.mp member with rfl | later
    · refine foldlM_invariant (fun state => Established state item) success (establishes start item next taken) ?_
      intro state another following _ holds taken
      exact preserved state another following item taken holds
    · exact ih success item later

/-- Steps that take an item only under a key that is not seen yet take items of different keys. -/
theorem foldlM_nodup {step : σ → α → Except ε σ} (seen : σ → List K) (key : α → K)
    (success : items.foldlM step start = .ok finish)
    (fresh : ∀ state item next, step state item = .ok next → key item ∉ seen state ∧ seen next = key item :: seen state) :
    (items.map key).Nodup ∧ ∀ item ∈ items, key item ∉ seen start := by
  induction items generalizing start with
  | nil => exact ⟨List.nodup_nil, fun item member => absurd member List.not_mem_nil⟩
  | cons item rest ih =>
    rw [List.foldlM_cons, bind_eq_ok] at success
    obtain ⟨middle, taken, others⟩ := success
    obtain ⟨isNew, grows⟩ := fresh start item middle taken
    obtain ⟨distinct, apart⟩ := ih others
    rw [grows] at apart
    constructor
    · rw [List.map_cons, List.nodup_cons]
      refine ⟨?_, distinct⟩
      intro repeated
      obtain ⟨other, member, same⟩ := List.mem_map.mp repeated
      exact apart other member (same ▸ List.mem_cons_self)
    · intro other member
      rcases List.mem_cons.mp member with rfl | later
      · exact isNew
      · exact fun known => apart other later (List.mem_cons_of_mem _ known)

/-- When each step adds to a collection what its item contributes, the fold adds every contribution. -/
theorem foldlM_collects {step : σ → α → Except ε σ} (Holds : σ → β → Prop)
    (Adds : α → β → Prop) (success : items.foldlM step start = .ok finish)
    (collected : ∀ state item next, step state item = .ok next → ∀ element, Holds next element ↔
      Holds state element ∨ Adds item element) (element : β) :
    Holds finish element ↔ Holds start element ∨ ∃ item ∈ items, Adds item element := by
  induction items generalizing start with
  | nil =>
    have same : start = finish := by simpa [pure, Except.pure] using success
    simp [same]
  | cons item rest ih =>
    rw [List.foldlM_cons, bind_eq_ok] at success
    obtain ⟨next, taken, success⟩ := success
    rw [ih success, collected start item next taken]
    simp only [List.mem_cons, exists_eq_or_imp, or_assoc]

theorem foldl_collects (Holds : σ → β → Prop) (Adds : α → β → Prop)
    (collected : ∀ state item element, Holds (step state item) element ↔ Holds state element ∨ Adds item element)
    (items : List α) (start : σ) (element : β) :
    Holds (items.foldl step start) element ↔ Holds start element ∨ ∃ item ∈ items, Adds item element := by
  induction items generalizing start with
  | nil => simp
  | cons item rest ih =>
    rw [List.foldl_cons, ih, collected]
    simp only [List.mem_cons, exists_eq_or_imp, or_assoc]

/-- A reflexive and transitive relation that every step respects relates the ends of a fold. -/
theorem foldl_relates {Related : σ → σ → Prop} (refl : ∀ state, Related state state)
    (trans : ∀ {first second third}, Related first second → Related second third → Related first third)
    (respected : ∀ state item, Related state (step state item)) (items : List α) (start : σ) :
    Related start (items.foldl step start) := by
  induction items generalizing start with
  | nil => exact refl start
  | cons item rest ih => exact trans (respected start item) (ih (step start item))

/-- A view no step changes is the same before and after a fold. -/
theorem foldl_view (view : σ → β) (kept : ∀ state item, view (step state item) = view state)
    (items : List α) (start : σ) : view (items.foldl step start) = view start := by
  induction items generalizing start with
  | nil => rfl
  | cons item rest ih => rw [List.foldl_cons, ih, kept]

/-- Steps that all write one value under their keys write it under every key of the list. -/
theorem foldl_sets [DecidableEq K] (view : σ → K → β) (keysOf : α → List K) (value : β)
    (sets : ∀ state item key, view (step state item) key = if key ∈ keysOf item then value else view state key)
    (items : List α) (state : σ) (key : K) :
    view (items.foldl step state) key = if key ∈ items.flatMap keysOf then value else view state key := by
  induction items generalizing state with
  | nil => simp
  | cons item rest ih =>
    rw [List.foldl_cons, ih, sets, List.flatMap_cons]
    by_cases later : key ∈ rest.flatMap keysOf
    · simp [later]
    · simp [later]

theorem foldlM_sets [DecidableEq K] (view : σ → K → β) (keysOf : α → List K) (value : β) {step : σ → α → Except ε σ}
    (sets : ∀ state item next, step state item = .ok next → ∀ key,
      view next key = if key ∈ keysOf item then value else view state key)
    (success : items.foldlM step start = .ok finish) (key : K) :
    view finish key = if key ∈ items.flatMap keysOf then value else view start key := by
  induction items generalizing start with
  | nil =>
    obtain rfl : start = finish := by simpa [pure, Except.pure] using success
    simp
  | cons item rest ih =>
    rw [List.foldlM_cons, bind_eq_ok] at success
    obtain ⟨next, taken, success⟩ := success
    rw [ih success, sets start item next taken, List.flatMap_cons]
    by_cases later : key ∈ rest.flatMap keysOf
    · simp [later]
    · simp [later]

theorem foldlM_some_sets [DecidableEq K] (view : σ → K → β) (keysOf : α → List K) (value : β)
    {step : σ → α → Option σ} (sets : ∀ state item next, step state item = some next → ∀ key,
      view next key = if key ∈ keysOf item then value else view state key)
    (success : items.foldlM step start = some finish) (key : K) :
    view finish key = if key ∈ items.flatMap keysOf then value else view start key := by
  induction items generalizing start with
  | nil =>
    obtain rfl : start = finish := by simpa using success
    simp
  | cons item rest ih =>
    rw [List.foldlM_cons, Option.bind_eq_bind, Option.bind_eq_some_iff] at success
    obtain ⟨next, taken, success⟩ := success
    rw [ih success, sets start item next taken, List.flatMap_cons]
    by_cases later : key ∈ rest.flatMap keysOf
    · simp [later]
    · simp [later]

theorem foldlM_relates {Related : σ → σ → Prop} {step : σ → α → Except ε σ} (refl : ∀ state, Related state state)
    (trans : ∀ {first second third}, Related first second → Related second third → Related first third)
    (respected : ∀ state item next, step state item = .ok next → Related state next)
    (success : items.foldlM step start = .ok finish) : Related start finish := by
  refine foldlM_invariant (Related start) success (refl start) ?_
  intro state item next _ related taken
  exact trans related (respected state item next taken)

/-- Each item of an accepted fold was accepted from some intermediate state. -/
theorem foldlM_accepts {step : σ → α → Except ε σ}
    (success : items.foldlM step start = .ok finish) (member : item ∈ items) :
    ∃ state next, step state item = .ok next := by
  induction items generalizing start with
  | nil => exact absurd member List.not_mem_nil
  | cons head rest ih =>
    rw [List.foldlM_cons, bind_eq_ok] at success
    obtain ⟨next, taken, success⟩ := success
    rcases List.mem_cons.mp member with rfl | later
    · exact ⟨start, next, taken⟩
    · exact ih success later

/-- A check of every item passes when each of them does. -/
theorem forM_eq_ok_iff {check : α → Except ε Unit} :
    items.forM check = .ok () ↔ ∀ item ∈ items, check item = .ok () := by
  induction items with
  | nil => simp [List.forM, pure, Except.pure]
  | cons item rest ih =>
    rw [List.forM, bind_eq_ok, List.forall_mem_cons, ← ih]
    constructor
    · rintro ⟨_, passes, restPasses⟩
      exact ⟨passes, restPasses⟩
    · rintro ⟨passes, restPasses⟩
      exact ⟨(), passes, restPasses⟩

/-- A rejected list was rejected at one of its items. -/
theorem forM_source {check : α → Except ε Unit} {failure : ε}
    (rejected : items.forM check = .error failure) : ∃ item ∈ items, check item = .error failure := by
  induction items with
  | nil => cases rejected
  | cons item rest ih =>
    rw [List.forM] at rejected
    cases checked : check item with
    | error found =>
      rw [checked] at rejected
      cases rejected
      exact ⟨item, List.mem_cons_self .., checked⟩
    | ok _ =>
      rw [checked] at rejected
      obtain ⟨other, member, found⟩ := ih rejected
      exact ⟨other, List.mem_cons_of_mem _ member, found⟩

theorem mapM_eq_ok_iff {step : α → Except ε β} :
    items.mapM step = .ok results ↔ List.Forall₂ (fun item result => step item = .ok result) items results := by
  induction items generalizing results with
  | nil => simp [pure, Except.pure, List.forall₂_nil_left_iff, eq_comm]
  | cons item rest ih =>
    rw [List.mapM_cons, bind_eq_ok]
    constructor
    · rintro ⟨result, taken, success⟩
      rw [bind_eq_ok] at success
      obtain ⟨tail, rest, same⟩ := success
      obtain rfl : result :: tail = results := by simpa [pure, Except.pure] using same
      exact List.Forall₂.cons taken (ih.mp rest)
    · intro related
      cases related with
      | cons taken tail =>
        refine ⟨_, taken, bind_eq_ok.mpr ⟨_, ih.mpr tail, rfl⟩⟩

/-- Every result of an accepted traversal comes from some item. -/
theorem mapM_source {step : α → Except ε β} (success : items.mapM step = .ok results) (member : result ∈ results) :
    ∃ item ∈ items, step item = .ok result := by
  induction mapM_eq_ok_iff.mp success with
  | nil => exact absurd member List.not_mem_nil
  | @cons item found items results taken tail ih =>
    rcases List.mem_cons.mp member with rfl | later
    · exact ⟨item, List.mem_cons_self, taken⟩
    · obtain ⟨source, listed, same⟩ := ih (mapM_eq_ok_iff.mpr tail) later
      exact ⟨source, List.mem_cons_of_mem _ listed, same⟩

/-- Every item of an accepted traversal has its result. -/
theorem mapM_accepts {step : α → Except ε β} (success : items.mapM step = .ok results) (member : item ∈ items) :
    ∃ result ∈ results, step item = .ok result := by
  induction mapM_eq_ok_iff.mp success with
  | nil => exact absurd member List.not_mem_nil
  | @cons first result items results taken tail ih =>
    rcases List.mem_cons.mp member with rfl | later
    · exact ⟨result, List.mem_cons_self, taken⟩
    · obtain ⟨found, listed, same⟩ := ih (mapM_eq_ok_iff.mpr tail) later
      exact ⟨found, List.mem_cons_of_mem _ listed, same⟩

/-- Results stand to each other as their items do. -/
theorem mapM_pairwise {step : α → Except ε β} {Before : α → α → Prop}
    {After : β → β → Prop} (success : items.mapM step = .ok results) (ordered : items.Pairwise Before)
    (kept : ∀ left ∈ items, ∀ right ∈ items, ∀ first second, step left = .ok first → step right = .ok second →
      Before left right → After first second) : results.Pairwise After := by
  induction items generalizing results with
  | nil =>
    obtain rfl := List.forall₂_nil_left_iff.mp (mapM_eq_ok_iff.mp success)
    exact List.Pairwise.nil
  | cons item rest ih =>
    obtain ⟨first, found, taken, tail, rfl⟩ := List.forall₂_cons_left_iff.mp (mapM_eq_ok_iff.mp success)
    obtain ⟨ahead, orderedRest⟩ := List.pairwise_cons.mp ordered
    refine List.pairwise_cons.mpr ⟨?_, ih (mapM_eq_ok_iff.mpr tail) orderedRest ?_⟩
    · intro later member
      obtain ⟨source, listed, same⟩ := mapM_source (mapM_eq_ok_iff.mpr tail) member
      exact kept item List.mem_cons_self source (List.mem_cons_of_mem _ listed) first later taken same
        (ahead source listed)
    · exact fun left member right listed => kept left (List.mem_cons_of_mem _ member) right (List.mem_cons_of_mem _ listed)

/-- A traversal that accepts every item is accepted. -/
theorem mapM_total {step : α → Except ε β}
    (accepts : ∀ item ∈ items, ∃ result, step item = .ok result) : ∃ results, items.mapM step = .ok results := by
  induction items with
  | nil => exact ⟨[], rfl⟩
  | cons item rest ih =>
    obtain ⟨result, taken⟩ := accepts item List.mem_cons_self
    obtain ⟨results, tail⟩ := ih fun later member => accepts later (List.mem_cons_of_mem _ member)
    exact ⟨result :: results, mapM_eq_ok_iff.mpr (List.Forall₂.cons taken (mapM_eq_ok_iff.mp tail))⟩

end KeyedStore
