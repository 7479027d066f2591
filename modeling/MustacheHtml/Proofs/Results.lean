import Mathlib.Data.List.Forall2

namespace MustacheHtml

variable {ε α β : Type}

theorem bind_eq_ok_iff {first : Except ε α} {next : α → Except ε β} {result : β} :
    first >>= next = .ok result ↔ ∃ value, first = .ok value ∧ next value = .ok result := by
  cases first with
  | error error =>
      constructor
      · intro hbind
        cases hbind
      · rintro ⟨value, hvalue, -⟩
        cases hvalue
  | ok value =>
      constructor
      · intro hbind
        exact ⟨value, rfl, hbind⟩
      · rintro ⟨_, hvalue, hnext⟩
        cases hvalue
        exact hnext

theorem bind_eq_error_iff {first : Except ε α} {next : α → Except ε β} {error : ε} :
    first >>= next = .error error ↔
      first = .error error ∨ ∃ value, first = .ok value ∧ next value = .error error := by
  cases first with
  | error held =>
      constructor
      · intro hbind
        cases hbind
        exact .inl rfl
      · rintro (hfirst | ⟨value, hvalue, -⟩)
        · cases hfirst
          rfl
        · cases hvalue
  | ok value =>
      constructor
      · intro hbind
        exact .inr ⟨value, rfl, hbind⟩
      · rintro (hfirst | ⟨_, hvalue, hnext⟩)
        · cases hfirst
        · cases hvalue
          exact hnext

theorem mapError_eq_ok_iff {ε₁ ε₂ : Type} {locate : ε₁ → ε₂} {found : Except ε₁ α} {result : α} :
    found.mapError locate = .ok result ↔ found = .ok result := by
  cases found with
  | error error =>
      constructor
      · intro hfound
        cases hfound
      · intro hfound
        cases hfound
  | ok value =>
      constructor
      · intro hfound
        cases hfound
        rfl
      · intro hfound
        cases hfound
        rfl

theorem mapError_eq_error_iff {ε₁ ε₂ : Type} {locate : ε₁ → ε₂} {found : Except ε₁ α}
    {error : ε₂} :
    found.mapError locate = .error error ↔ ∃ held, found = .error held ∧ locate held = error := by
  cases found with
  | error held =>
      constructor
      · intro hfound
        cases hfound
        exact ⟨held, rfl, rfl⟩
      · rintro ⟨_, hheld, rfl⟩
        cases hheld
        rfl
  | ok value =>
      constructor
      · intro hfound
        cases hfound
      · rintro ⟨_, hheld, -⟩
        cases hheld

theorem mapM_cons_eq_ok_iff {read : α → Except ε β} {first : α} {rest : List α}
    {results : List β} :
    (first :: rest).mapM read = .ok results ↔
      ∃ value others, read first = .ok value ∧ rest.mapM read = .ok others ∧
        results = value :: others := by
  rw [List.mapM_cons]
  simp only [bind_eq_ok_iff, pure, Except.pure, Except.ok.injEq]
  constructor
  · rintro ⟨value, hvalue, others, hothers, rfl⟩
    exact ⟨value, others, hvalue, hothers, rfl⟩
  · rintro ⟨value, others, hvalue, hothers, rfl⟩
    exact ⟨value, hvalue, others, hothers, rfl⟩

theorem mapM_eq_ok_iff_forall₂ {read : α → Except ε β} {items : List α} {results : List β} :
    items.mapM read = .ok results ↔
      List.Forall₂ (fun item result => read item = .ok result) items results := by
  induction items generalizing results with
  | nil =>
      rw [List.mapM_nil, List.forall₂_nil_left_iff]
      exact ⟨fun hnil => (Except.ok.inj hnil).symm, fun hnil => hnil ▸ rfl⟩
  | cons first rest ih =>
      rw [mapM_cons_eq_ok_iff, List.forall₂_cons_left_iff]
      constructor
      · rintro ⟨result, others, hfirst, hrest, rfl⟩
        exact ⟨result, others, hfirst, ih.mp hrest, rfl⟩
      · rintro ⟨result, others, hfirst, hrest, rfl⟩
        exact ⟨result, others, hfirst, ih.mpr hrest, rfl⟩

theorem mapM_ok_iff_forall {read : α → Except ε β} {items : List α} :
    (∃ results, items.mapM read = .ok results) ↔
      ∀ item ∈ items, ∃ value, read item = .ok value := by
  induction items with
  | nil => exact ⟨fun _ item hitem => absurd hitem List.not_mem_nil, fun _ => ⟨[], rfl⟩⟩
  | cons first rest ih =>
      simp only [mapM_cons_eq_ok_iff]
      constructor
      · rintro ⟨_, value, others, hvalue, hothers, rfl⟩ item hitem
        rcases List.mem_cons.mp hitem with rfl | hrest
        · exact ⟨value, hvalue⟩
        · exact ih.mp ⟨others, hothers⟩ item hrest
      · intro hall
        obtain ⟨value, hvalue⟩ := hall first List.mem_cons_self
        obtain ⟨others, hothers⟩ :=
          ih.mpr fun item hitem => hall item (List.mem_cons_of_mem _ hitem)
        exact ⟨value :: others, value, others, hvalue, hothers, rfl⟩

theorem exists_of_forall₂ {related : α → β → Prop} {items : List α} {results : List β}
    (hall : List.Forall₂ related items results) :
    ∀ result ∈ results, ∃ item ∈ items, related item result := by
  induction hall with
  | nil => exact List.forall_mem_nil _
  | @cons first value rest others hfirst _ ih =>
      refine List.forall_mem_cons.mpr ⟨⟨first, List.mem_cons_self, hfirst⟩, ?_⟩
      intro result hresult
      obtain ⟨item, hitem, hfound⟩ := ih result hresult
      exact ⟨item, List.mem_cons_of_mem first hitem, hfound⟩

theorem exists_split_of_mapM_error {read : α → Except ε β} {items : List α} {error : ε}
    (hread : items.mapM read = .error error) : ∃ earlier item later,
      items = earlier ++ item :: later ∧ (∀ other ∈ earlier, ∃ value, read other = .ok value) ∧
        read item = .error error := by
  induction items with
  | nil => cases hread
  | cons first rest ih =>
      rw [List.mapM_cons] at hread
      rcases bind_eq_error_iff.mp hread with hfirst | ⟨value, hvalue, hothers⟩
      · exact ⟨[], first, rest, rfl, List.forall_mem_nil _, hfirst⟩
      · rcases bind_eq_error_iff.mp hothers with hrest | ⟨others, -, hdone⟩
        · obtain ⟨earlier, item, later, rfl, hearlier, herror⟩ := ih hrest
          exact ⟨first :: earlier, item, later, rfl,
            List.forall_mem_cons.mpr ⟨⟨value, hvalue⟩, hearlier⟩, herror⟩
        · cases hdone

theorem exists_of_mapM_error {read : α → Except ε β} {items : List α} {error : ε}
    (hread : items.mapM read = .error error) : ∃ item ∈ items, read item = .error error := by
  obtain ⟨earlier, item, later, rfl, -, herror⟩ := exists_split_of_mapM_error hread
  exact ⟨item, List.mem_append_right earlier List.mem_cons_self, herror⟩

end MustacheHtml
