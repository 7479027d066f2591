import MustacheHtml.Json.Printing
import MustacheHtml.Proofs.Dict

namespace MustacheHtml

/-- Whether JSON has the number. -/
def Decimal.Binary.isFinite : Binary → Bool
  | finite _ _ _ => true
  | _ => false

namespace Json

mutual

/-- The value that is printed. -/
def printed : Json → Json
  | number value => if (Decimal.Binary.ofFloat value).isFinite then number value else null
  | array items => array (printedItems items)
  | object members => object (printedMembers members)
  | other => other

def printedItems : List Json → List Json
  | [] => []
  | item :: rest => printed item :: printedItems rest

def printedMembers : List (String × Json) → List (String × Json)
  | [] => []
  | (key, item) :: rest => (key, printed item) :: printedMembers rest

end

mutual

theorem printAt_printed (depth : Nat) : ∀ value : Json, value.printed.printAt depth =
    value.printAt depth
  | null => rfl
  | bool _ => rfl
  | number value => by
      rw [printed]
      split
      · rfl
      · next hfinite =>
          rw [printAt, printAt, Decimal.Layout.text]
          cases hvalue : Decimal.Binary.ofFloat value with
          | nan => rfl
          | infinite negative => rfl
          | finite negative significand exponent =>
              rw [hvalue] at hfinite
              exact absurd rfl hfinite
  | string _ => rfl
  | array items => by rw [printed, printAt, printAt, printItems_printed]
  | object members => by rw [printed, printAt, printAt, printMembers_printed]

theorem printItems_printed (depth : Nat) : ∀ items : List Json,
    printItems depth (printedItems items) = printItems depth items
  | [] => rfl
  | item :: rest => by
      rw [printedItems, printItems, printItems, printAt_printed, printItems_printed]

theorem printMembers_printed (depth : Nat) : ∀ members : List (String × Json),
    printMembers depth (printedMembers members) = printMembers depth members
  | [] => rfl
  | (key, item) :: rest => by
      rw [printedMembers, printMembers, printMembers, printAt_printed, printMembers_printed]

end

theorem print_printed (value : Json) : value.printed.print = value.print :=
  printAt_printed 0 value

/-- What the printed text tells. -/
def told (value : Json) : Value :=
  value.printed.toValue

theorem toValues_printedItems (items : List Json) :
    toValues (printedItems items) = items.map told := by
  induction items with
  | nil => rfl
  | cons item rest ih => rw [printedItems, toValues, ih, List.map_cons, told]

theorem toEntries_printedMembers (members : List (String × Json)) :
    toEntries (printedMembers members) = members.map fun entry => (entry.1, entry.2.told) := by
  induction members with
  | nil => rfl
  | cons entry rest ih => rw [printedMembers, toEntries, ih, List.map_cons, told]

@[simp] theorem told_string (value : String) : (string value).told = .string value := rfl

@[simp] theorem told_bool (value : Bool) : (bool value).told = .bool value := rfl

theorem told_array (items : List Json) : (array items).told = .list (items.map told) := by
  rw [told, printed, toValue, toValues_printedItems]

theorem told_object (members : List (String × Json)) :
    (object members).told =
      .map (Dict.ofList (members.map fun entry => (entry.1, entry.2.told))) := by
  rw [told, printed, toValue, toEntries_printedMembers]

theorem told_number {value : Float} (hfinite : (Decimal.Binary.ofFloat value).isFinite) :
    (number value).told = .number value := by
  rw [told, printed, if_pos hfinite, toValue]

/-- The order of members with distinct names tells nothing. -/
theorem told_object_of_perm {members others : List (String × Json)} (hperm : members.Perm others)
    (hkeys : (members.map Prod.fst).Nodup) : (object members).told = (object others).told := by
  rw [told_object, told_object, Dict.ofList_eq_of_perm (hperm.map _)]
  rwa [List.map_map]

end Json

namespace Value

/-- What an object holds under a name. -/
def field? : Value → String → Option Value
  | map entries, name => Dict.get? entries name
  | _, _ => none

def string? : Value → Option String
  | string value => some value
  | _ => none

def number? : Value → Option Float
  | number value => some value
  | _ => none

def bool? : Value → Option Bool
  | bool value => some value
  | _ => none

/-- The items of a list, if all of them are of the kind. -/
def listOf? {α : Type} (item? : Value → Option α) : Value → Option (List α)
  | list items => items.mapM item?
  | _ => none

/-- The entries of a dictionary, if all its values are of the kind. -/
def dictOf? {α : Type} (item? : Value → Option α) : Value → Option (Dict α)
  | map entries => entries.mapM fun entry => (item? entry.2).map (entry.1, ·)
  | _ => none

theorem sizeOf_field? {value held : Value} {name : String}
    (hfield : value.field? name = some held) : sizeOf held < sizeOf value := by
  cases value with
  | map entries =>
      rw [field?] at hfield
      have hmem := Dict.mem_of_get? hfield
      have hentry := List.sizeOf_lt_of_mem hmem
      simp only [Prod.mk.sizeOf_spec, map.sizeOf_spec] at hentry ⊢
      omega
  | _ => cases hfield

end Value

theorem mapM_map_eq_some {α β : Type} {change : α → β} {back? : β → Option α} {items : List α}
    (hitems : ∀ item ∈ items, back? (change item) = some item) :
    (items.map change).mapM back? = some items := by
  induction items with
  | nil => rfl
  | cons item rest ih =>
      obtain ⟨hitem, hrest⟩ := List.forall_mem_cons.mp hitems
      rw [List.map_cons, List.mapM_cons, hitem, ih hrest]
      rfl

namespace Json

@[simp] theorem told_field? (members : List (String × Json)) (name : String) :
    (object members).told.field? name = (members.reverse.lookup name).map told := by
  rw [told_object, Value.field?, Dict.get?_ofList, ← List.map_reverse, Dict.lookup_map]

section Items

variable {α : Type} {item? : Value → Option α} {toJson : α → Json}

theorem listOf?_told {items : List α}
    (hitems : ∀ item ∈ items, item? (toJson item).told = some item) :
    (array (items.map toJson)).told.listOf? item? = some items := by
  rw [told_array, List.map_map, Value.listOf?]
  exact mapM_map_eq_some hitems

theorem dictOf?_told {dict : Dict α} (hsorted : dict.Sorted)
    (hitems : ∀ entry ∈ dict, item? (toJson entry.2).told = some entry.2) :
    (object (dict.map fun entry => (entry.1, toJson entry.2))).told.dictOf? item? = some dict := by
  have htold : Dict.Sorted (dict.map fun entry => (entry.1, (toJson entry.2).told)) := by
    rw [Dict.Sorted, Dict.keys, List.map_map]
    exact hsorted
  rw [told_object, List.map_map, Value.dictOf?]
  refine Eq.trans (congrArg _ htold.ofList_eq) (mapM_map_eq_some fun entry hentry => ?_)
  rw [hitems entry hentry, Option.map_some]

end Items

end Json

end MustacheHtml
