import FrozenGlobals.Document.Part
import FrozenGlobals.Document.Pointer

/-!
# Interface descriptions

Where the schemas of an OpenAPI description stand. Each kind of object has rules that name the parts
leading on to schemas (`Shape.rules`), and `schemas` follows them in order. References are not
followed.
-/

namespace FrozenGlobals.OpenApi

open Document (Pointer Step)

/-- The kinds of objects that lead to schemas. -/
inductive Shape where
  | description | paths | pathItem | operation | parameter | requestBody | responses | response
  | header | mediaType | encoding | callback | components | schema
deriving DecidableEq, Repr, Inhabited

/-- Which parts of an object a rule is about. -/
inductive Selector where
  /-- The value of a key. -/
  | field (key : String)
  /-- The items of the sequence at a key. -/
  | items (key : String)
  /-- The values of the mapping at a key. -/
  | entries (key : String)
  /-- The values of the object's own keys that pass a test. -/
  | members (passes : String → Bool)

/-- Keys that are no extensions. -/
def isRegular (key : String) : Bool := !key.startsWith "x-"

/-- Keys of operations. -/
def isMethod (key : String) : Bool :=
  ["get", "put", "post", "delete", "options", "head", "patch", "trace"].contains key

/-- The parts of a schema that are schemas. -/
def schemaRules : List Selector :=
  [.items "allOf", .items "oneOf", .items "anyOf", .items "prefixItems", .field "contains",
   .field "if", .field "then", .field "else", .entries "dependentSchemas",
   .entries "patternProperties", .field "propertyNames", .field "unevaluatedItems",
   .field "unevaluatedProperties", .field "items", .field "not", .entries "properties",
   .entries "$defs", .field "additionalProperties"]

/-- The parts of an object that lead to schemas, in the order in which they are visited. -/
def Shape.rules : Shape → List (Selector × Shape)
  | .description =>
      [(.field "paths", .paths), (.entries "webhooks", .pathItem),
       (.field "components", .components)]
  | .paths => [(.members isRegular, .pathItem)]
  | .pathItem => [(.items "parameters", .parameter), (.members isMethod, .operation)]
  | .operation =>
      [(.items "parameters", .parameter), (.field "requestBody", .requestBody),
       (.field "responses", .responses), (.entries "callbacks", .callback)]
  | .parameter => [(.field "schema", .schema), (.entries "content", .mediaType)]
  | .requestBody => [(.entries "content", .mediaType)]
  | .responses =>
      [(.members (· == "default"), .response),
       (.members fun key => isRegular key && key != "default", .response)]
  | .response => [(.entries "headers", .header), (.entries "content", .mediaType)]
  | .header => [(.field "schema", .schema), (.entries "content", .mediaType)]
  | .mediaType => [(.field "schema", .schema), (.entries "encoding", .encoding)]
  | .encoding => [(.entries "headers", .header)]
  | .callback => [(.members isRegular, .pathItem)]
  | .components =>
      [(.entries "schemas", .schema), (.entries "responses", .response),
       (.entries "parameters", .parameter), (.entries "requestBodies", .requestBody),
       (.entries "headers", .header), (.entries "callbacks", .callback),
       (.entries "pathItems", .pathItem)]
  | .schema => schemaRules.map (·, .schema)

/-- The parts of an object that a rule is about, and the steps to them. -/
def Selector.parts (d : Document) : Selector → List (Pointer × d.Part)
  | .field key => (d.part? key).toList.map ([.key key], ·)
  | .items key =>
      let items := (d.partItems? key).getD []
      ((List.range items.length).zip items).map fun (i, c) => ([.key key, .index i], c)
  | .entries key => (d.partEntries key).map fun (name, c) => ([.key key, .key name], c)
  | .members passes =>
      (d.entryParts.filter fun (name, _) => passes name).map fun (name, c) => ([.key name], c)

/-- An object stands for another one. Schemas do not: what they say beside a reference counts. -/
def isReference (shape : Shape) (d : Document) : Bool :=
  shape != .schema && (d.field? "$ref").isSome

/-- The schemas in an object, each before those inside it. -/
def schemas (shape : Shape) (d : Document) : List (Pointer × Document) :=
  if !d.isMapping || isReference shape d then []
  else
    (if shape == .schema then [([], d)] else [])
      ++ (shape.rules.map fun (selector, inner) =>
        ((selector.parts d).map fun (pointer, ⟨c, _⟩) =>
          (schemas inner c).map fun (rest, s) => (pointer ++ rest, s)).flatten).flatten
termination_by sizeOf d

/-! ## Defects -/

/-- Why a document is no description. -/
inductive Defect where
  | notAnObject
  | version
  | info
  /-- A schema with keywords of the wrong form. -/
  | schema (pointer : Pointer)
deriving DecidableEq, Repr, Inhabited

def Defect.message : Defect → String
  | .notAnObject => "the root must be an object"
  | .version => "openapi must be a supported version"
  | .info => "info must have a title and a version"
  | .schema pointer => pointer.render ++ " is not a valid schema"

/-- The version of the notation is one that can be read. -/
def isVersion (text : String) : Bool :=
  match text.splitOn "." with
  | [major, minor, patch] =>
      major == "3" && (minor == "0" || minor == "1") && !patch.isEmpty
        && patch.toList.all Char.isDigit
  | _ => false

/-- A text that is not empty stands at a key. -/
def hasText (d : Document) (key : String) : Bool :=
  match (d.field? key).bind (·.string?) with
  | some text => !text.isEmpty
  | none => false

/-- The types of data. -/
def typeNames : List String :=
  ["null", "boolean", "object", "array", "number", "string", "integer"]

/-- A node names a type. -/
def isType (d : Document) : Bool :=
  match d.string? with
  | some text => typeNames.contains text
  | none => false

/-- A node can stand where a schema is expected. -/
def isSchema (d : Document) : Bool := d.isMapping || d.bool?.isSome

/-- The parts of a schema that a rule is about have the right form. -/
def Selector.fits (d : Document) : Selector → Bool
  | .field key => (d.field? key).all isSchema
  | .items key => (d.field? key).all fun l => !l.items.isEmpty && l.items.all isSchema
  | .entries key => (d.field? key).all fun m =>
      m.isMapping && m.entries.all fun (_, s) => isSchema s
  | .members _ => true

/-- The keywords of a schema have the right form. -/
def isWellFormed (d : Document) : Bool :=
  (schemaRules.all fun rule => rule.fits d)
    && (d.field? "type").all fun t =>
      isType t || (!t.items.isEmpty && t.items.all isType)

/-- The first defect of a document. -/
def defect? (d : Document) : Option Defect :=
  if !d.isMapping then some .notAnObject
  else if !((d.field? "openapi").bind (·.string?)).any isVersion then some .version
  else if !(d.field? "info").any fun i => hasText i "title" && hasText i "version" then some .info
  else
    ((schemas .description d).find? fun (_, s) => !isWellFormed s).map fun (pointer, _) =>
      .schema pointer

end FrozenGlobals.OpenApi
