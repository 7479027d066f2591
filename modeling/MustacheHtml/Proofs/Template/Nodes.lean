import MustacheHtml.Template.Node

namespace MustacheHtml.Template

/-- Induction over nodes side by side, with the children of the first one as a case of their own.
-/
@[elab_as_elim]
theorem Node.forest_induction {motive : List Node → Prop} (nil : motive [])
    (text : ∀ content rest, motive rest → motive (.text content :: rest))
    (mustache : ∀ mustache rest, motive rest → motive (.mustache mustache :: rest))
    (element : ∀ tag attributes children rest, motive children → motive rest →
      motive (.element tag attributes children :: rest)) :
    ∀ nodes, motive nodes
  | [] => nil
  | .text content :: rest =>
      text content rest (forest_induction nil text mustache element rest)
  | .mustache held :: rest =>
      mustache held rest (forest_induction nil text mustache element rest)
  | .element tag attributes children :: rest =>
      element tag attributes children rest (forest_induction nil text mustache element children)
        (forest_induction nil text mustache element rest)

namespace Attribute

theorem staticValue?_eq_some_iff {attr : Attribute} {value : String} :
    attr.staticValue? = some value ↔
      ∃ literals, attr.value = literals.map Part.text ∧ value = String.join literals := by
  have hmapM : ∀ (parts : List Part) (literals : List String),
      parts.mapM Part.text? = some literals ↔ parts = literals.map Part.text := by
    intro parts
    induction parts with
    | nil =>
        intro literals
        cases literals <;> simp
    | cons part rest ih =>
        intro literals
        rw [List.mapM_cons]
        cases part with
        | text literal =>
            simp only [Part.text?, Option.bind_eq_bind, Option.bind_some, Option.bind_eq_some_iff,
              Option.pure_def, Option.some.injEq, ih]
            constructor
            · rintro ⟨others, rfl, rfl⟩
              rfl
            · intro hparts
              cases literals with
              | nil => simp at hparts
              | cons first others =>
                  simp only [List.map_cons, List.cons.injEq, Part.text.injEq] at hparts
                  exact ⟨others, hparts.2, by rw [hparts.1]⟩
        | mustache mustache => cases literals <;> simp [Part.text?]
  simp only [staticValue?, Option.map_eq_some_iff, hmapM]
  constructor
  · rintro ⟨literals, hvalue, rfl⟩
    exact ⟨literals, hvalue, rfl⟩
  · rintro ⟨literals, hvalue, rfl⟩
    exact ⟨literals, hvalue, rfl⟩

theorem soleMustache?_eq_some_iff {attr : Attribute} {mustache : Mustache} :
    attr.soleMustache? = some mustache ↔ attr.value = [.mustache mustache] := by
  unfold soleMustache?
  split
  · next found hvalue => simp [hvalue]
  · next hvalue =>
      constructor
      · simp
      · exact fun hsole => absurd hsole (hvalue mustache)

theorem soleMustache?_of_static {attr : Attribute} {value : String}
    (hstatic : attr.staticValue? = some value) : attr.soleMustache? = none := by
  obtain ⟨literals, hvalue, -⟩ := staticValue?_eq_some_iff.mp hstatic
  rw [Option.eq_none_iff_forall_ne_some]
  intro mustache hsole
  rw [soleMustache?_eq_some_iff, hvalue] at hsole
  cases literals with
  | nil => cases hsole
  | cons first rest => cases hsole

end Attribute

end MustacheHtml.Template
