import CountedObjects.Descriptor

/-! The table of descriptors, one for each type, built on the first request. -/
namespace CountedObjects

/-- How a descriptor is built. Building may request descriptors of other types, as the base or
for any other purpose; the last one requested as base is the base. -/
inductive Recipe
  | finish (draft : Draft)
  | derive (id : TypeId) (base : Recipe) (rest : Recipe)
  | also (id : TypeId) (other : Recipe) (rest : Recipe)

/-- Descriptors by type, in the order in which they were built. -/
structure Registry where
  next : Nat
  bound : List (TypeId × Descriptor)

namespace Registry

def empty : Registry := ⟨0, []⟩

def lookup (r : Registry) (i : TypeId) : TypeHandle := r.bound.lookup i

/-- A new descriptor that the table does not list. -/
def mint (r : Registry) (i : TypeId) (draft : Draft) (base : Option TypeHandle) :
    Descriptor × Registry :=
  (.make r.next i draft base, { r with next := r.next + 1 })

def bind (r : Registry) (i : TypeId) (draft : Draft) (base : TypeHandle) : Descriptor × Registry :=
  match r.lookup i with
  | some d => (d, r)
  | none =>
    let (d, r) := r.mint i draft (base.map some)
    (d, { r with bound := r.bound ++ [(i, d)] })

/-- The listed descriptor, or the one that `build` describes. -/
def settle (r : Registry) (i : TypeId) (build : Registry → (Draft × TypeHandle) × Registry) :
    Descriptor × Registry :=
  match r.lookup i with
  | some d => (d, r)
  | none =>
    let ((draft, base), r) := build r
    r.bind i draft base

end Registry

def Recipe.run : Recipe → TypeHandle → Registry → (Draft × TypeHandle) × Registry
  | finish draft, base, r => ((draft, base), r)
  | derive i b rest, _, r =>
    let (d, r) := r.settle i (b.run none)
    rest.run (some d) r
  | also i o rest, base, r => rest.run base (r.settle i (o.run none)).2

def Registry.request (r : Registry) (i : TypeId) (recipe : Recipe) : Descriptor × Registry :=
  r.settle i (recipe.run none)

/-! The types of this object model. -/

def collectionSpace : String := "System.Collections.Generic"

def objectRecipe : Recipe := .finish ⟨"System", "Object", true, none⟩

def enumRootRecipe : Recipe :=
  .derive .object objectRecipe (.finish ⟨"System", "Enum", true, none⟩)

namespace Kind

def draft : Kind → Draft
  | scalar k => .plain "System" k.name
  | string => .plain "System" "String"
  | plain => .plain "System" "PlainObject"
  | type => .plain "System" "Type"
  | enumValue => .plain "dotrs_core.enums" "EnumValue"
  | pair => .plain collectionSpace "KeyValuePair`2"
  | list _ => .plain collectionSpace "List`1"
  | queue _ => .plain collectionSpace "Queue`1"
  | hashSet _ => .plain collectionSpace "HashSet`1"
  | dictionary .. => .plain collectionSpace "Dictionary`2"
  | tracked => .plain "Oracle" "Tracked"
  | dyn => .plain "Oracle" "Dyn"
  | animal => .plain "Dot.Test" "Animal"
  | dog => .plain "Dot.Test" "Dog"

def fullName (k : Kind) : String := k.draft.fullName

/-- Every kind derives from the root object; a dog is an animal. -/
def recipe (k : Kind) : Recipe :=
  .derive .object objectRecipe <|
    match k with
    | dog => .derive (.kind animal) (.derive .object objectRecipe (.finish animal.draft))
        (.finish dog.draft)
    | k => .finish k.draft

end Kind

/-- A type with a fixed list of named ordinals. -/
structure Enumeration where
  id : TypeId
  space : String
  name : String
  members : List (String × Int32)

namespace Enumeration

def draft (e : Enumeration) : Draft := ⟨e.space, e.name, false, some e.members⟩

def recipe (e : Enumeration) : Recipe := .derive .enumRoot enumRootRecipe (.finish e.draft)

/-- The first member with that ordinal. -/
def ofOrdinal? (e : Enumeration) (n : Int32) : Option (String × Int32) :=
  e.members.find? (·.2 == n)

def member? (e : Enumeration) (name : String) : Option (String × Int32) :=
  e.members.find? (·.1 == name)

end Enumeration

namespace Registry

def objectType (r : Registry) : Descriptor × Registry := r.request .object objectRecipe
def enumRootType (r : Registry) : Descriptor × Registry := r.request .enumRoot enumRootRecipe
def typeOf (r : Registry) (k : Kind) : Descriptor × Registry := r.request (.kind k) k.recipe
def enumType (r : Registry) (e : Enumeration) : Descriptor × Registry := r.request e.id e.recipe

end Registry

end CountedObjects
