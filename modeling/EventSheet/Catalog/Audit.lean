import EventSheet.Catalog
import EventSheet.Catalog.Loading

/-!
Checking a catalog when it is loaded.

A catalog without a platform is refused, and so is one that lists a copy without both its names.
What only weakens the checking of expressions is warned about: an expression without a return type,
and a parameter that users write but that has a tag of no category.
-/

set_option autoImplicit false

namespace EventSheet

namespace DeclaredGroup

/-- Whether the group lists a copy that lacks a name. -/
def hasIncompleteDuplicate (g : DeclaredGroup) : Bool :=
  g.functions.duplicates.any fun d => d.name = "" || d.source = ""

/-- Warnings about expressions without a return type. -/
def returnWarnings (g : DeclaredGroup) : List LoadWarning :=
  (g.functions.tables.expressions.entries.filter fun e => e.2.returnTag = "").map fun e =>
    .noReturnType g.label e.1

/-- The parameters of a function that users write and no category knows. -/
def unrecognizedParameters (g : DeclaredGroup) (f : FunctionDeclaration) : List Parameter :=
  (f.parameters.drop g.owner.sort.receiverSlots).filter fun p =>
    !p.isCodeOnly && p.category = .unrecognized

/-- Warnings about parameters that no category knows. -/
def tagWarnings (g : DeclaredGroup) : List LoadWarning :=
  g.functions.tables.entries.flatMap fun e =>
    (g.unrecognizedParameters e.2.2).map fun p => .unrecognizedTag e.1 g.label e.2.1 p.tag

/-- Checks a group. -/
def audit (g : DeclaredGroup) : Loading Unit :=
  if g.hasIncompleteDuplicate then .fail (.incompleteDuplicate g.label)
  else .warn (g.returnWarnings ++ g.tagWarnings)

end DeclaredGroup

namespace Catalog

/-- Checks groups in order, up to the first that is refused. -/
def auditGroups : List DeclaredGroup → Loading Unit
  | [] => .succeed ()
  | g :: gs => g.audit.andThen fun _ => auditGroups gs

/-- Checks a catalog. -/
def audit (c : Catalog) : Loading Unit :=
  if c.platform = "" then .fail .noPlatform else auditGroups c.groups

end Catalog

end EventSheet
