import CountedObjects.Session.State

/-! The types that a session knows by name when it starts. -/
namespace CountedObjects

namespace Enumeration

def colors : Enumeration :=
  ⟨.enumeration 0, "Dot.Sample", "Colors", [("Empty", 0), ("Blue", 1), ("Red", 2), ("Custom", 10)]⟩

def apples : Enumeration := ⟨.enumeration 1, "Dot.Test", "Apples", [("Empty", 0), ("Red", 1)]⟩

def signed : Enumeration :=
  ⟨.enumeration 2, "", "Signed",
    [("Min", Int32.minValue), ("Neg", -5), ("Zero", 0), ("Max", Int32.maxValue)]⟩

def dup : Enumeration :=
  ⟨.enumeration 3, "Dot.Test", "Dup", [("First", 1), ("Second", 1), ("First", 2), ("", 3)]⟩

def void : Enumeration := ⟨.enumeration 4, "Dot.Test", "Void", []⟩

end Enumeration

def startKinds : List (String × Kind) :=
  [("Bool", .scalar .bool), ("Char", .scalar .char), ("Int32", .scalar .int),
    ("Int64", .scalar .long), ("Double", .scalar .double), ("String", .string),
    ("PlainObject", .plain), ("Type", .type), ("EnumValue", .enumValue), ("KeyValuePair", .pair),
    ("List<i32>", .list (.scalar .int)), ("List<i64>", .list (.scalar .long)),
    ("HashSet<i32>", .hashSet (.scalar .int)), ("Queue<i32>", .queue (.scalar .int)),
    ("Dictionary<string,i32>", .dictionary .string (.scalar .int)),
    ("Tracked", .tracked), ("Dyn", .dyn), ("Animal", .animal), ("Dog", .dog)]

def startEnumerations : List (String × Enumeration) :=
  [("Colors", .colors), ("Apples", .apples), ("Signed", .signed), ("Dup", .dup), ("Void", .void)]

namespace Session

private def describeKinds (r : Registry) : List (String × Kind) →
    List (String × TypeHandle) × Registry
  | [] => ([], r)
  | (n, k) :: ks =>
    let (d, r) := r.typeOf k
    let (ds, r) := describeKinds r ks
    ((n, some d) :: ds, r)

private def describeEnums (r : Registry) : List (String × Enumeration) →
    List (String × TypeHandle) × Registry
  | [] => ([], r)
  | (n, e) :: es =>
    let (d, r) := r.enumType e
    let (ds, r) := describeEnums r es
    ((n, some d) :: ds, r)

/-- No objects yet; the types that have names are described. -/
def start : Session :=
  let (object, r) := Registry.empty.objectType
  let (enumRoot, r) := r.enumRootType
  let (metatype, r) := r.typeOf .type
  let (kinds, r) := describeKinds r startKinds
  let (enums, r) := describeEnums r startEnumerations
  let roots : List (String × TypeHandle) := [("Object", some object), ("Enum", some enumRoot)]
  { realm := ⟨r, .empty metatype⟩
    types := roots ++ kinds ++ enums ++ [("null", none)]
    handles := []
    enumerators := []
    activators := []
    held := [] }

end Session

end CountedObjects
