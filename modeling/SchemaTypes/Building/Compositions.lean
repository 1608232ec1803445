import SchemaTypes.Building.Values
/-!
# Compositions and conditionals

Every branch is a property of its own that one check refers to.  A branch takes over the type
of its node if it declares none, and the node's requiredness; its type checks stay strict, since
an optional property settles null before its compositions run.

On an object the checks belong to the type.  What the branches of `allOf`, `anyOf` and `oneOf`
declare is lifted into the type as optional properties without validators, and each branch
records the names it populates.
-/
namespace SchemaTypes.Building

def noteIfEmpty (combinator : Combinator) (name : String) (branches : List Json) : Build Unit :=
  if branches.isEmpty then Build.notify (.emptyComposition combinator.keyword name) else pure ()

/-! ## On a property -/

/-- A branch of a property: built as required, and relaxed if the property is optional. -/
def branch (build : Builder) (site : Site) (node : Json) : Build PropertyId := do
  let id ← build { scope := site.scope, name := site.name, required := true } node
  if !site.required then Build.modifyProperty id Property.relax
  return id

/-- Take over the label that all branches share. -/
def inferLabel (property : Property) (labels : List (Option TypeLabel)) : Property :=
  match labels with
  | some first :: others =>
    if others.all (· = some first) then
      { property.addDecorator (.typeHint first.names) with label := some first }
    else property
  | _ => property

def addComposition (build : Builder) (site : Site) (node : Json) (property : Property)
    (combinator : Combinator) : Build Property := do
  match ← Keyword.branches? site.name node combinator with
  | none => return property
  | some nodes =>
    noteIfEmpty combinator site.name nodes
    let ids ← nodes.mapM fun inner => branch build site (Keyword.inheritType node inner)
    let graph ← Build.graph
    let property :=
      if property.label.isNone && combinator != .not then
        inferLabel property (ids.map fun id => (graph.property id).label)
      else property
    return property.addCheck (.composition combinator (ids.map fun id => ⟨id, []⟩) false)

/-- The check of `if`, given how a branch is built.  Without `then` and `else` there is none. -/
def conditional? (buildBranch : Json → Build PropertyId) (name : String) (node : Json)
    (onObject : Bool) : Build (Option Check) := do
  match node.get? "if" with
  | none => return none
  | some condition =>
    if node.has "then" || node.has "else" then
      let condition ← buildBranch condition
      let consequent ← (node.get? "then").mapM buildBranch
      let alternative ← (node.get? "else").mapM buildBranch
      return some (.conditional condition consequent alternative onObject)
    else
      Build.notify (.ineffectiveConditional name)
      return none

/-- Whether a check decides what null means for the property. -/
def decidesNull : Check → Bool
  | .type .. | .enumeration .. | .constant _ => true
  | _ => false

def isComposed : Check → Bool
  | .composition .. | .conditional .. => true
  | _ => false

/-- Compositions and the conditional of a property.  One that gets any and has no check that
decides about null gets the check that does. -/
def applyCompositions (build : Builder) (site : Site) (node : Json) (property : Property) :
    Build Property := do
  let property ← Combinator.all.foldlM (addComposition build site node) property
  let conditional ← conditional?
    (fun inner => branch build site (Keyword.inheritType node inner)) site.name node false
  let property := (conditional.map property.addCheck).getD property
  if (property.validators.find? isComposed).isSome && (property.validators.find? decidesNull).isNone then
    let allowed ← Build.allowsNull site.required
    return property.addCheck (.implicitNull (allowed && !property.strict))
  else return property

/-! ## On an object -/

/-- A property lifted from a branch: optional, and nothing is checked about it here. -/
def lifted (property : Property) (combinator : Combinator) : Property :=
  { property with required := false, strict := false, validators := {} }.addDecorator
    (.transferred combinator.keyword)

/-- Lift one property into a type.  Answers its name if the branch populates it: always, unless
the type declares a property of that name itself. -/
def lift (id : TypeId) (combinator : Combinator) (source : PropertyId) : Build (Option String) := do
  let graph ← Build.graph
  let property := graph.property source
  match ((graph.entry id).properties.map graph.property).find? (·.name = property.name) with
  | some existing =>
    return if existing.decorators.any Decorator.isTransferred then some property.name else none
  | none =>
    Build.addTypeProperty id (← Build.addProperty (lifted property combinator))
    return some property.name

/-- Lift the properties of a branch's type, and answer the names the branch populates. -/
def liftBranch (type : TypeId) (branch : PropertyId) (combinator : Combinator) :
    Build (List String) := do
  let graph ← Build.graph
  match (graph.property branch).nested with
  | none => return []
  | some nested =>
    let names ← (graph.type nested).properties.mapM (lift type combinator)
    return names.filterMap id

def objectBranch (build : Builder) (scope : Scope) (id : TypeId) (combinator : Combinator) (node : Json) :
    Build Branch := do
  let property ← build { scope, name := scope.className, required := true, merged := true }
    (Keyword.withObjectType node)
  let affected ← if combinator = .not then pure [] else liftBranch id property combinator
  return ⟨property, affected⟩

def addObjectComposition (build : Builder) (scope : Scope) (id : TypeId) (node : Json)
    (combinator : Combinator) : Build Unit := do
  match ← Keyword.branches? scope.className node combinator with
  | none => return ()
  | some nodes =>
    noteIfEmpty combinator scope.className nodes
    let branches ← nodes.mapM (objectBranch build scope id combinator)
    Build.addTypeCheck id (.composition combinator branches true)

def applyObjectCompositions (build : Builder) (scope : Scope) (id : TypeId) (node : Json) :
    Build Unit := do
  Combinator.all.forM (addObjectComposition build scope id node)
  let conditional ← conditional?
    (fun inner => build { scope, name := scope.className, required := true } (Keyword.withObjectType inner))
    scope.className node true
  match conditional with
  | some check => Build.addTypeCheck id check
  | none => return ()

end SchemaTypes.Building
