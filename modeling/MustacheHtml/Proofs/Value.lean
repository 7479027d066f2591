import MustacheHtml.Value
import MustacheHtml.Proofs.Dict

namespace MustacheHtml.Value

variable {value : Value} {path other : List String} {segment : String}

theorem getPath?_cons (hlist : ∀ items, value ≠ list items) (segment : String)
    (path : List String) :
    value.getPath? (segment :: path) = (value.entries.get? segment).bind (getPath? · path) := by
  cases value with
  | list items => exact absurd rfl (hlist items)
  | map entries => rfl
  | _ => rfl

theorem getPath?_null (segment : String) (path : List String) :
    null.getPath? (segment :: path) = none := rfl

theorem getPath?_setPath_append (value : Value) (path rest : List String) (replacement : Value) :
    (value.setPath path replacement).getPath? (path ++ rest) = replacement.getPath? rest := by
  induction path generalizing value with
  | nil => rfl
  | cons segment path ih =>
      rw [setPath, List.cons_append, getPath?, Dict.get?_set, if_pos rfl, Option.bind_some, ih]

theorem setPath_setPath (value : Value) (path : List String) (replacement last : Value) :
    (value.setPath path replacement).setPath path last = value.setPath path last := by
  induction path generalizing value with
  | nil => rfl
  | cons segment path ih =>
      simp only [setPath, entries, Dict.get?_set, if_true, Option.getD_some, ih, Dict.set_set]

theorem setPath_comm (hpath : ¬ path <+: other) (hother : ¬ other <+: path) (value : Value)
    (replacement more : Value) :
    (value.setPath path replacement).setPath other more =
      (value.setPath other more).setPath path replacement := by
  induction path generalizing value other with
  | nil => exact absurd (List.nil_prefix) hpath
  | cons segment path ih =>
      cases other with
      | nil => exact absurd (List.nil_prefix) hother
      | cons next other =>
          by_cases hsame : segment = next
          · subst hsame
            rw [List.prefix_cons_inj] at hpath hother
            simp only [setPath, entries, Dict.get?_set, if_true, Option.getD_some, Dict.set_set,
              ih hpath hother]
          · simp only [setPath, entries, Dict.get?_set, if_neg hsame, if_neg (Ne.symm hsame)]
            rw [Dict.set_comm _ hsame]

/-- Where the paths part ways, replacing at one of them keeps what is found at the other, unless a
list has stood at a path that leads to both. -/
theorem getPath?_setPath_of_apart (hpath : ¬ path <+: other) (hother : ¬ other <+: path)
    (value replacement : Value)
    (hlists : ∀ common, common <+: path → common <+: other →
      ∀ items, value.getPath? common ≠ some (list items)) :
    (value.setPath path replacement).getPath? other = value.getPath? other := by
  induction path generalizing value other with
  | nil => exact absurd List.nil_prefix hpath
  | cons segment path ih =>
      cases other with
      | nil => exact absurd List.nil_prefix hother
      | cons next other =>
          have hroot : ∀ items, value ≠ list items := by
            rintro items rfl
            exact hlists [] List.nil_prefix List.nil_prefix items rfl
          rw [setPath, getPath?, getPath?_cons hroot, Dict.get?_set]
          by_cases hsame : segment = next
          · subst hsame
            rw [List.prefix_cons_inj] at hpath hother
            rw [if_pos rfl, Option.bind_some]
            cases hheld : value.entries.get? segment with
            | none =>
                -- Below a new entry there is nothing but what has been put there.
                obtain ⟨first, rest, rfl⟩ : ∃ first rest, other = first :: rest :=
                  List.exists_cons_of_ne_nil fun hnil => hother (hnil ▸ List.nil_prefix)
                rw [Option.getD_none, Option.bind_none, ih hpath hother null, getPath?_null]
                rintro (_ | ⟨segment, common⟩) - - items hfound <;> cases hfound
            | some held =>
                rw [Option.getD_some, Option.bind_some]
                refine ih hpath hother held fun common hfirst hsecond items hfound => ?_
                refine hlists (segment :: common) ?_ ?_ items ?_
                · exact List.prefix_cons_inj segment |>.mpr hfirst
                · exact List.prefix_cons_inj segment |>.mpr hsecond
                · rw [getPath?_cons hroot, hheld, Option.bind_some, hfound]
          · rw [if_neg hsame]

/-- Replacing and looking up obey the laws of a lens, for values and paths of any shape. What has
been put at a path is found there, with all that is below it; the last replacement at a path counts.
Where neither of two paths leads through the other one, replacements at both may be made in either
order, and one of them does not change what is found at the other path, provided that there has been
no list on the way that they share. -/
theorem setPath_lens (value : Value) (path other : List String) (replacement more : Value) :
    ((∀ rest, (value.setPath path replacement).getPath? (path ++ rest) =
        replacement.getPath? rest) ∧
      (value.setPath path replacement).setPath path more = value.setPath path more) ∧
    (¬ path <+: other → ¬ other <+: path →
      (value.setPath path replacement).setPath other more =
          (value.setPath other more).setPath path replacement ∧
        ((∀ common, common <+: path → common <+: other →
            ∀ items, value.getPath? common ≠ some (list items)) →
          (value.setPath path replacement).getPath? other = value.getPath? other)) :=
  ⟨⟨fun rest => getPath?_setPath_append value path rest replacement,
      setPath_setPath value path replacement more⟩,
    fun hpath hother => ⟨setPath_comm hpath hother value replacement more,
      getPath?_setPath_of_apart hpath hother value replacement⟩⟩

theorem setPath_lens_post :
    let value := map [("post", map [("title", string "hello")]), ("tags", list [string "a"])]
    let path := ["post", "url"]
    let other := ["tags", "0"]
    ¬ path <+: other ∧ ¬ other <+: path ∧
      (∀ common, common <+: path → common <+: other →
        ∀ items, value.getPath? common ≠ some (list items)) ∧
      (value.setPath path (string "a.html")).setPath other null =
          (value.setPath other null).setPath path (string "a.html") ∧
        (value.setPath path (string "a.html")).getPath? other = value.getPath? other ∧
          (value.setPath other null).getPath? other = some null := by
  intro value path other
  have hpath : ¬ path <+: other := by decide
  have hother : ¬ other <+: path := by decide
  have hlists : ∀ common, common <+: path → common <+: other →
      ∀ items, value.getPath? common ≠ some (list items) := by
    intro common hfirst hsecond items hfound
    cases common with
    | nil => simp [value, getPath?] at hfound
    | cons segment rest =>
        have hpost := (List.cons_prefix_cons.mp hfirst).1
        have htags := (List.cons_prefix_cons.mp hsecond).1
        exact absurd (hpost.symm.trans htags) (by decide)
  have hlens := setPath_lens value path other (string "a.html") null
  obtain ⟨hcomm, hkept⟩ := hlens.2 hpath hother
  refine ⟨hpath, hother, hlists, hcomm, hkept hlists, ?_⟩
  exact (setPath_lens value other path null null).1.1 []

end MustacheHtml.Value
