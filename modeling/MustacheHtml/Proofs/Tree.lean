import Mathlib.Data.List.Nodup
import MustacheHtml.Tree

namespace MustacheHtml

namespace Attributes

/-- No name comes twice. -/
def Distinct (attributes : Attributes) : Prop :=
  (attributes.map (·.1)).Nodup

instance (attributes : Attributes) : Decidable attributes.Distinct :=
  inferInstanceAs (Decidable (List.Nodup _))

theorem set_nil (name value : String) : set [] name value = [(name, value)] := rfl

theorem set_cons (held old name value : String) (rest : Attributes) :
    set ((held, old) :: rest) name value =
      if held = name then (name, value) :: rest else (held, old) :: rest.set name value := rfl

theorem mem_names_set {attributes : Attributes} {name value other : String} :
    other ∈ (attributes.set name value).map (·.1) ↔
      other = name ∨ other ∈ attributes.map (·.1) := by
  induction attributes with
  | nil => simp [set_nil]
  | cons first rest ih =>
      obtain ⟨held, old⟩ := first
      by_cases hheld : held = name
      · simp [set_cons, hheld]
      · simp only [set_cons, hheld, if_false, List.map_cons, List.mem_cons, ih]
        constructor
        · rintro (rfl | rfl | hrest)
          · exact .inr (.inl rfl)
          · exact .inl rfl
          · exact .inr (.inr hrest)
        · rintro (rfl | rfl | hrest)
          · exact .inr (.inl rfl)
          · exact .inl rfl
          · exact .inr (.inr hrest)

theorem Distinct.set {attributes : Attributes} (hdistinct : attributes.Distinct)
    (name value : String) : (attributes.set name value).Distinct := by
  induction attributes with
  | nil => simp [set_nil, Distinct]
  | cons first rest ih =>
      obtain ⟨held, old⟩ := first
      obtain ⟨hnotin, hrest⟩ := List.nodup_cons.mp hdistinct
      by_cases hheld : held = name
      · simpa [set_cons, hheld, Distinct] using hdistinct
      · simp only [set_cons, hheld, if_false]
        refine List.nodup_cons.mpr ⟨?_, ih hrest⟩
        rw [mem_names_set]
        rintro (hsame | hmem)
        · exact hheld hsame
        · exact hnotin hmem

theorem set_of_not_mem {attributes : Attributes} {name : String} (value : String)
    (hname : name ∉ attributes.map (·.1)) :
    attributes.set name value = attributes ++ [(name, value)] := by
  induction attributes with
  | nil => rfl
  | cons first rest ih =>
      obtain ⟨held, old⟩ := first
      simp only [List.map_cons, List.mem_cons, not_or] at hname
      simp only [set_cons, Ne.symm hname.1, if_false, ih hname.2, List.cons_append]

theorem set_append_cons {front back : Attributes} {name : String} (held value : String)
    (hname : name ∉ front.map (·.1)) :
    (front ++ (name, held) :: back).set name value = front ++ (name, value) :: back := by
  induction front with
  | nil => simp [set_cons]
  | cons first rest ih =>
      obtain ⟨other, old⟩ := first
      simp only [List.map_cons, List.mem_cons, not_or] at hname
      simp only [List.cons_append, set_cons, Ne.symm hname.1, if_false, ih hname.2]

theorem set_set (attributes : Attributes) (name value replacement : String) :
    (attributes.set name value).set name replacement = attributes.set name replacement := by
  induction attributes with
  | nil => simp [set_nil, set_cons]
  | cons first rest ih =>
      obtain ⟨held, old⟩ := first
      by_cases hheld : held = name <;> simp [set_cons, hheld, ih]

theorem set_set_of_ne (attributes : Attributes) {name other : String} (hne : name ≠ other)
    (value more replacement : String) :
    ((attributes.set name value).set other more).set name replacement =
      (attributes.set name replacement).set other more := by
  induction attributes with
  | nil => simp [set_nil, set_cons, hne]
  | cons first rest ih =>
      obtain ⟨held, old⟩ := first
      by_cases hname : held = name
      · simp [set_cons, hname, hne]
      · by_cases hother : held = other
        · have hapart : other ≠ name := Ne.symm hne
          simp [set_cons, hother, hapart, set_set]
        · simp [set_cons, hname, hother, ih]

/-- Sets attributes one after the other. -/
def setAll (held attributes : Attributes) : Attributes :=
  attributes.foldl (fun held attr => held.set attr.1 attr.2) held

theorem setAll_of_distinct {held attributes : Attributes}
    (hdistinct : (held ++ attributes).Distinct) : held.setAll attributes = held ++ attributes := by
  induction attributes generalizing held with
  | nil => simp [setAll]
  | cons first rest ih =>
      have hsplit : (held ++ [first] ++ rest).Distinct := by simpa using hdistinct
      have hname : first.1 ∉ held.map (·.1) := by
        simp only [Distinct, List.map_append, List.map_cons] at hdistinct
        intro hmem
        exact (List.nodup_append'.mp hdistinct).2.2 hmem List.mem_cons_self
      calc held.setAll (first :: rest)
          = (held.set first.1 first.2).setAll rest := rfl
        _ = (held ++ [first]).setAll rest := by rw [set_of_not_mem _ hname]
        _ = held ++ first :: rest := by rw [ih hsplit, List.append_assoc, List.singleton_append]

end Attributes

namespace Tree

/-- Induction over trees side by side, with the children of the first one as a case of their own.
-/
@[elab_as_elim]
theorem forest_induction {motive : Forest → Prop} (nil : motive [])
    (text : ∀ content rest, motive rest → motive (text content :: rest))
    (element : ∀ tag attributes children rest, motive children → motive rest →
      motive (element tag attributes children :: rest)) :
    ∀ forest, motive forest
  | [] => nil
  | .text content :: rest => text content rest (forest_induction nil text element rest)
  | .element tag attributes children :: rest =>
      element tag attributes children rest (forest_induction nil text element children)
        (forest_induction nil text element rest)

mutual

/-- No element of the tree has two attributes of one name. -/
def Distinct : Tree → Prop
  | text _ => True
  | element _ attributes children => Attributes.Distinct attributes ∧ AllDistinct children

/-- No element of the trees has two attributes of one name. -/
def AllDistinct : List Tree → Prop
  | [] => True
  | tree :: rest => Distinct tree ∧ AllDistinct rest

end

theorem allDistinct_iff {forest : Forest} :
    AllDistinct forest ↔ ∀ tree ∈ forest, tree.Distinct := by
  induction forest with
  | nil => simp [AllDistinct]
  | cons tree rest ih => simp [AllDistinct, ih]

end Tree

end MustacheHtml
