import MustacheHtml.Proofs.Json
import MustacheHtml.Proofs.Template.Nodes
import MustacheHtml.Template.Printing

namespace MustacheHtml

theorem listOf?_path (path : List String) :
    (Json.array (path.map Json.string)).told.listOf? Value.string? = some path :=
  Json.listOf?_told fun _ _ => rfl

namespace Param

/-- The argument that a value is the print of. -/
def ofValue? (value : Value) : Option Param :=
  (value.field? "value").bind fun content =>
    match value.field? "type" with
    | some (.string "string") => content.string?.map string
    | some (.string "number") => content.number?.map number
    | some (.string "boolean") => content.bool?.map boolean
    | some (.string "id") => (content.listOf? Value.string?).map id
    | _ => none

def numbers : Param → List Float
  | number value => [value]
  | _ => []

theorem ofValue?_toJson {param : Param}
    (hfinite : ∀ value ∈ param.numbers, (Decimal.Binary.ofFloat value).isFinite) :
    ofValue? param.toJson.told = some param := by
  have htype : param.toJson.told.field? "type" = some (.string param.typeTag.name) := by
    rw [toJson, Json.told_field?]
    rfl
  have hvalue : param.toJson.told.field? "value" = some param.valueToJson.told := by
    rw [toJson, Json.told_field?]
    rfl
  rw [ofValue?, htype, hvalue]
  cases param with
  | string value => rfl
  | number value =>
      rw [valueToJson, Json.told_number (hfinite value (List.mem_singleton_self value))]
      rfl
  | boolean value => rfl
  | id path =>
      simp only [Option.bind_some, typeTag, TypeTag.name, valueToJson, listOf?_path,
        Option.map_some]

end Param

namespace Expression

/-- The expression that a value is the print of. -/
def ofValue? (value : Value) : Option Expression :=
  match value.field? "kind" with
  | some (.string "path") => do
      let segments ← value.field? "segments"
      (segments.listOf? Value.string?).map path
  | some (.string "string_literal") => do (← value.field? "value").string?.map stringLiteral
  | some (.string "number_literal") => do (← value.field? "value").number?.map numberLiteral
  | some (.string "boolean_literal") => do (← value.field? "value").bool?.map booleanLiteral
  | some (.string "helper_call") => do
      let name ← (← value.field? "name").string?
      let params ← (← value.field? "params").listOf? Param.ofValue?
      let hash ← (← value.field? "hash").dictOf? Param.ofValue?
      return call name params hash
  | _ => none

/-- The number literals and number arguments. -/
def numbers : Expression → List Float
  | numberLiteral value => [value]
  | call _ params hash => params.flatMap Param.numbers ++ hash.flatMap (·.2.numbers)
  | _ => []

def hash? : Expression → Option (Dict Param)
  | call _ _ hash => some hash
  | _ => none

/-- JSON has all numbers of the expression, and the named arguments are a dictionary. -/
structure Readable (expression : Expression) : Prop where
  finite : ∀ value ∈ expression.numbers, (Decimal.Binary.ofFloat value).isFinite
  sorted : ∀ hash ∈ expression.hash?, hash.Sorted

instance (expression : Expression) : Decidable expression.Readable :=
  decidable_of_iff ((∀ value ∈ expression.numbers, (Decimal.Binary.ofFloat value).isFinite) ∧
      ∀ hash ∈ expression.hash?, hash.Sorted)
    ⟨fun hboth => ⟨hboth.1, hboth.2⟩, fun hreadable => ⟨hreadable.finite, hreadable.sorted⟩⟩

theorem ofValue?_toJson {expression : Expression} (hreadable : expression.Readable) :
    ofValue? expression.toJson.told = some expression := by
  cases expression with
  | path segments => simp [ofValue?, toJson, List.lookup_cons, listOf?_path]
  | stringLiteral value => simp [ofValue?, toJson, List.lookup_cons, Value.string?]
  | numberLiteral value =>
      have hfinite := hreadable.finite value (List.mem_singleton_self value)
      simp [ofValue?, toJson, List.lookup_cons, Value.number?, Json.told_number hfinite]
  | booleanLiteral value => simp [ofValue?, toJson, List.lookup_cons, Value.bool?]
  | call name params hash =>
      have hparams : (Json.array (params.map Param.toJson)).told.listOf? Param.ofValue? =
          some params := by
        refine Json.listOf?_told fun param hparam => Param.ofValue?_toJson fun value hvalue => ?_
        refine hreadable.finite value (List.mem_append_left _ ?_)
        exact List.mem_flatMap_of_mem hparam hvalue
      have hhash : (Json.object (hash.map fun entry => (entry.1, entry.2.toJson))).told.dictOf?
          Param.ofValue? = some hash := by
        refine Json.dictOf?_told (hreadable.sorted hash rfl) fun entry hentry =>
          Param.ofValue?_toJson fun value hvalue => ?_
        refine hreadable.finite value (List.mem_append_right _ ?_)
        exact List.mem_flatMap_of_mem hentry hvalue
      simp [ofValue?, toJson, List.lookup_cons, Value.string?, hparams, hhash]

end Expression

namespace Template

/-- The mustache that a value is the print of. -/
def Mustache.ofValue? (value : Value) : Option Mustache := do
  let expression ← Expression.ofValue? (← value.field? "expression")
  let escaped ← (← value.field? "escaped").bool?
  return { expression, escaped }

/-- The part that a value is the print of: it has a text, or a mustache. -/
def Part.ofValue? (value : Value) : Option Part :=
  match value.field? "text" with
  | some content => content.string?.map text
  | none => do (Mustache.ofValue? (← value.field? "mustache")).map mustache

/-- The attribute that a value is the print of. -/
def Attribute.ofValue? (value : Value) : Option Attribute := do
  let name ← (← value.field? "name").string?
  let parts ← (← value.field? "value").listOf? Part.ofValue?
  return { name, value := parts }

mutual

/-- The node that a value is the print of. -/
def Node.ofValue? (value : Value) : Option Node :=
  match value.field? "node" with
  | some (.string "text") => do (← value.field? "text").string?.map text
  | some (.string "mustache") => (Mustache.ofValue? value).map mustache
  | some (.string "element") => do
      let tag ← (← value.field? "tag").string?
      let attributes ← (← value.field? "attributes").listOf? Attribute.ofValue?
      let children ← match _hchildren : value.field? "children" with
        | some (.list items) => Node.ofValues? items
        | _ => none
      return element tag attributes children
  | _ => none
termination_by sizeOf value
decreasing_by
  have hless := Value.sizeOf_field? _hchildren
  simp only [Value.list.sizeOf_spec] at hless
  omega

def Node.ofValues? : List Value → Option (List Node)
  | [] => some []
  | value :: rest => do return (← Node.ofValue? value) :: (← Node.ofValues? rest)
termination_by values => sizeOf values

end

/-- The nodes that a JSON value tells of. -/
def ofValue? : Value → Option (List Node)
  | .list items => Node.ofValues? items
  | _ => none

def Part.expressions : Part → List Expression
  | text _ => []
  | mustache held => [held.expression]

mutual

/-- All expressions in a node. -/
def Node.expressions : Node → List Expression
  | .text _ => []
  | .mustache held => [held.expression]
  | .element _ attributes children =>
      attributes.flatMap (fun attr => attr.value.flatMap Part.expressions) ++ expressions children

/-- All expressions of a template, in attribute values and between the tags. -/
def expressions : List Node → List Expression
  | [] => []
  | node :: rest => node.expressions ++ expressions rest

end

theorem Mustache.ofValue?_of_fields {value : Value} {held : Mustache}
    (hexpression : value.field? "expression" = some held.expression.toJson.told)
    (hescaped : value.field? "escaped" = some (.bool held.escaped))
    (hreadable : held.expression.Readable) : ofValue? value = some held := by
  rw [ofValue?, hexpression, hescaped]
  simp [Expression.ofValue?_toJson hreadable, Value.bool?]

theorem Part.ofValue?_toJson {part : Part}
    (hreadable : ∀ expression ∈ part.expressions, expression.Readable) :
    ofValue? part.toJson.told = some part := by
  cases part with
  | text literal => simp [ofValue?, toJson, Value.string?]
  | mustache held =>
      have hheld : Mustache.ofValue? (Json.object held.members).told = some held := by
        refine Mustache.ofValue?_of_fields ?_ ?_ (hreadable _ (List.mem_singleton_self _))
        · simp [Mustache.members, List.lookup_cons]
        · simp [Mustache.members]
      simp [ofValue?, toJson, List.lookup_cons, hheld]

theorem Attribute.ofValue?_toJson {attr : Attribute}
    (hreadable : ∀ expression ∈ attr.value.flatMap Part.expressions, expression.Readable) :
    ofValue? attr.toJson.told = some attr := by
  have hparts : (Json.array (attr.value.map Part.toJson)).told.listOf? Part.ofValue? =
      some attr.value := by
    refine Json.listOf?_told fun part hpart => Part.ofValue?_toJson fun expression hmem => ?_
    exact hreadable expression (List.mem_flatMap_of_mem hpart hmem)
  simp [ofValue?, toJson, List.lookup_cons, Value.string?, hparts]

theorem Node.ofValues?_cons {value : Value} {values : List Value} {node : Node} {rest : List Node}
    (hnode : ofValue? value = some node) (hrest : ofValues? values = some rest) :
    ofValues? (value :: values) = some (node :: rest) := by
  rw [ofValues?, hnode, hrest]
  rfl

theorem Node.ofValue?_toJson_mustache {held : Mustache}
    (hreadable : held.expression.Readable) :
    ofValue? (toJson (.mustache held)).told = some (.mustache held) := by
  have hmustache : Mustache.ofValue? (toJson (.mustache held)).told = some held := by
    refine Mustache.ofValue?_of_fields ?_ ?_ hreadable
    · simp [toJson, Mustache.members, List.lookup_cons]
    · simp [toJson, Mustache.members]
  have hkind : (toJson (.mustache held)).told.field? "node" = some (.string "mustache") := by
    simp [toJson, Mustache.members, List.lookup_cons]
  rw [ofValue?, hkind]
  simp [hmustache]

theorem Node.ofValue?_toJson_element {tag : String} {attributes : List Attribute}
    {children : List Node}
    (hattributes : ∀ attr ∈ attributes, Attribute.ofValue? attr.toJson.told = some attr)
    (hchildren : ofValues? ((listToJson children).map Json.told) = some children) :
    ofValue? (toJson (.element tag attributes children)).told =
      some (.element tag attributes children) := by
  have hread : (Json.array (attributes.map Attribute.toJson)).told.listOf?
      Attribute.ofValue? = some attributes :=
    Json.listOf?_told hattributes
  generalize htold : (toJson (.element tag attributes children)).told = value
  have hkind : value.field? "node" = some (.string "element") := by
    rw [← htold]
    simp [toJson, List.lookup_cons]
  have htag : value.field? "tag" = some (.string tag) := by
    rw [← htold]
    simp [toJson, List.lookup_cons]
  have hattribute : value.field? "attributes" =
      some (Json.array (attributes.map Attribute.toJson)).told := by
    rw [← htold]
    simp [toJson, List.lookup_cons]
  have hchild : value.field? "children" =
      some (.list ((listToJson children).map Json.told)) := by
    rw [← htold]
    simp [toJson, Json.told_array]
  rw [ofValue?, hkind]
  simp only [htag, hattribute, hread, Value.string?, Option.bind_eq_bind, Option.bind_some]
  split
  · next items hitems =>
      rw [hchild] at hitems
      cases hitems
      rw [hchildren]
      rfl
  · next hnone => exact absurd hchild (hnone _)

theorem ofValues?_listToJson {nodes : List Node}
    (hreadable : ∀ expression ∈ expressions nodes, expression.Readable) :
    Node.ofValues? ((Node.listToJson nodes).map Json.told) = some nodes := by
  induction nodes using Node.forest_induction with
  | nil => simp [Node.listToJson, Node.ofValues?]
  | text content rest ih =>
      rw [expressions, List.forall_mem_append] at hreadable
      rw [Node.listToJson, List.map_cons]
      refine Node.ofValues?_cons ?_ (ih hreadable.2)
      rw [Node.ofValue?]
      simp [Node.toJson, List.lookup_cons, Value.string?]
  | mustache held rest ih =>
      rw [expressions, List.forall_mem_append] at hreadable
      obtain ⟨hheld, hrest⟩ := hreadable
      rw [Node.listToJson, List.map_cons]
      exact Node.ofValues?_cons
        (Node.ofValue?_toJson_mustache (hheld _ (List.mem_singleton_self _))) (ih hrest)
  | element tag attributes children rest ihChildren ih =>
      rw [expressions, List.forall_mem_append, Node.expressions,
        List.forall_mem_append] at hreadable
      obtain ⟨⟨hattributes, hchildren⟩, hrest⟩ := hreadable
      rw [Node.listToJson, List.map_cons]
      refine Node.ofValues?_cons (Node.ofValue?_toJson_element ?_ (ihChildren hchildren)) (ih hrest)
      intro attr hattr
      exact Attribute.ofValue?_toJson fun expression hmem =>
        hattributes expression (List.mem_flatMap_of_mem hattr hmem)

/-- The printed JSON tells all of a template whose numbers JSON has: the template can be read back
from it, whatever the order of the members is, and two templates of which it tells the same are
equal. -/
theorem toJson_read_back {nodes : List Node}
    (hreadable : ∀ expression ∈ expressions nodes, expression.Readable) :
    (toJson nodes).printed.print = (toJson nodes).print ∧
      ofValue? (toJson nodes).told = some nodes ∧
      ∀ others, (∀ expression ∈ expressions others, expression.Readable) →
        (toJson others).told = (toJson nodes).told → others = nodes := by
  have hread : ∀ {nodes : List Node}, (∀ expression ∈ expressions nodes, expression.Readable) →
      ofValue? (toJson nodes).told = some nodes := by
    intro nodes hreadable
    rw [toJson, Json.told_array, ofValue?, ofValues?_listToJson hreadable]
  refine ⟨Json.print_printed _, hread hreadable, fun others hothers hsame => ?_⟩
  have hboth := hread hothers
  rw [hsame, hread hreadable] at hboth
  exact (Option.some.inj hboth).symm

theorem toJson_read_back_ones :
    let ones := [.string "1", .number 1, .boolean true, .id ["1"]]
    let call : Expression := .call "list" ones [("more", .id []), ("one", .number 1)]
    let nodes : List Node := [.text "1", .mustache ⟨.numberLiteral 1, false⟩,
      .element "p" [⟨"a", [.text "1", .mustache ⟨.path ["1"], true⟩]⟩] [.mustache ⟨call, true⟩]]
    let others : List Node := [.text "1", .mustache ⟨.stringLiteral "1", false⟩]
    (∀ expression ∈ expressions nodes, expression.Readable) ∧
      (∀ expression ∈ expressions others, expression.Readable) ∧
      ofValue? (toJson nodes).told = some nodes ∧
      (toJson others).told ≠ (toJson nodes).told := by
  intro ones call nodes others
  have hnodes : ∀ expression ∈ expressions nodes, expression.Readable := by decide +kernel
  have hothers : ∀ expression ∈ expressions others, expression.Readable := by decide +kernel
  obtain ⟨-, hread, hinjective⟩ := toJson_read_back hnodes
  refine ⟨hnodes, hothers, hread, fun hsame => ?_⟩
  have hlength := congrArg List.length (hinjective others hothers hsame)
  exact absurd hlength (by decide)

/-- What JSON has no number for is lost. -/
example : (Expression.numberLiteral (1 / 0)).toJson.told =
    (Expression.numberLiteral (-1 / 0)).toJson.told := by
  rfl

end Template

end MustacheHtml
